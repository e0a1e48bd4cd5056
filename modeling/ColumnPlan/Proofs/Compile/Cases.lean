import ColumnPlan.Proofs.Compile.Composite
import ColumnPlan.Proofs.Compile.Label
import ColumnPlan.Proofs.Logical.Leaves

/-!
# Case expressions

The branches of a case expression become one list of arguments: conditions and results in turn, and
perhaps a last result.  Its evaluation takes the list apart in pairs again, so a condition is never
taken for a result, however many branches there are and with a last result or without.

* `CaseBranch`, `caseCall`      the branches, and the call whose arguments they become;
* `CompiledCase`                branches and a last result that the parts of an expression become;
* `outcome_caseWhen_eq_ok_iff`  a case expression is compiled to the call of its compiled branches;
* `Decides`                     the branch at which the evaluation on a row stops;
* `eval_caseCall_of_decides`    what it yields there;
* `eval_caseCall_of_passed`     and what it yields if it stops nowhere;
* `eval_caseWhen`               both for what a case expression is compiled to.
-/

namespace ColumnPlan

open Compile

/-- A condition with the result behind it. -/
structure CaseBranch where
  condition : PredicateExpr
  result : ScalarExpr

def CaseBranch.args (b : CaseBranch) : List ScalarExpr := [.predicate b.condition, b.result]

/-- The call of a case expression. -/
def caseCall (branches : List CaseBranch) (last : Option ScalarExpr) (label : Option String) :
    ScalarExpr :=
  .call .caseWhen (branches.flatMap CaseBranch.args ++ last.toList) label

/-! ### compilation -/

section
variable (c : Setting) (s : Schema)

def compileBranch (f : Filter) (e : Expr) : Except Error CaseBranch := do
  let condition ← (compileFilter c s f).outcome
  let result ← (compileExpr c s e false).outcome
  pure ⟨condition, result⟩

/-- The branches are compiled one after the other, each condition before its result. -/
theorem outcome_compileBranches (conditions : List Filter) (results : List Expr) :
    (compileBranches c s conditions results).outcome =
      ((conditions.zip results).mapM fun (f, e) => compileBranch c s f e) >>= fun branches =>
        .ok (branches.flatMap CaseBranch.args) := by
  induction conditions generalizing results with
  | nil =>
    rw [compileBranches.eq_def]
    rfl
  | cons f fs ih =>
    cases results with
    | nil =>
      rw [compileBranches.eq_def]
      rfl
    | cons e es =>
      rw [outcome_branches, ih, List.zip_cons_cons, List.mapM_cons]
      simp only [compileBranch, bind_assoc, pure_bind]
      rfl

theorem outcome_compileOtherwise (otherwise : Option Expr) :
    (compileOtherwise c s otherwise).outcome =
      (otherwise.mapM fun e => (compileExpr c s e false).outcome) >>= fun last =>
        .ok last.toList := by
  cases otherwise with
  | none =>
    rw [compileOtherwise]
    rfl
  | some e =>
    rw [outcome_otherwise, Option.mapM_some, map_eq_pure_bind, bind_assoc]
    rfl

/-- Each branch is what its condition and its result are compiled to, and so is the last result. -/
structure CompiledCase (conditions : List Filter) (results : List Expr) (otherwise : Option Expr)
    (branches : List CaseBranch) (last : Option ScalarExpr) : Prop where
  branches : List.Forall₂ (fun part (b : CaseBranch) =>
    (compileFilter c s part.1).outcome = .ok b.condition ∧
      (compileExpr c s part.2 false).outcome = .ok b.result) (conditions.zip results) branches
  last : Option.Rel (fun e x => (compileExpr c s e false).outcome = .ok x) otherwise last

variable {c s}

theorem compileBranch_eq_ok_iff {f : Filter} {e : Expr} {b : CaseBranch} :
    compileBranch c s f e = .ok b ↔ (compileFilter c s f).outcome = .ok b.condition ∧
      (compileExpr c s e false).outcome = .ok b.result := by
  unfold compileBranch
  rw [bind_eq_ok_iff]
  constructor
  · rintro ⟨condition, hc, h⟩
    obtain ⟨result, hr, h⟩ := bind_eq_ok_iff.mp h
    cases h
    exact ⟨hc, hr⟩
  · rintro ⟨hc, hr⟩
    exact ⟨b.condition, hc, bind_eq_ok_iff.mpr ⟨b.result, hr, rfl⟩⟩

/-- A case expression of as many conditions as results is compiled to the call of its branches. -/
theorem outcome_caseWhen_eq_ok_iff {conditions : List Filter} {results : List Expr}
    {otherwise : Option Expr} (arity : conditions.length = results.length) {x : ScalarExpr} :
    (compileExpr c s (.caseWhen conditions results otherwise) false).outcome = .ok x ↔
      ∃ branches last, CompiledCase c s conditions results otherwise branches last ∧
        caseCall branches last none = x := by
  rw [outcome_caseWhen, if_neg (not_not.mpr arity), outcome_compileBranches,
    outcome_compileOtherwise, bind_assoc]
  simp only [ok_bind, bind_assoc]
  constructor
  · intro h
    obtain ⟨branches, hb, h⟩ := bind_eq_ok_iff.mp h
    obtain ⟨last, hl, h⟩ := bind_eq_ok_iff.mp h
    have compiled := (mapM_eq_ok_iff.mp hb).imp fun _ _ => compileBranch_eq_ok_iff.mp
    exact ⟨branches, last, ⟨compiled, optionMapM_eq_ok_iff.mp hl⟩, Except.ok.inj h⟩
  · rintro ⟨branches, last, compiled, rfl⟩
    have hb := mapM_eq_ok_iff.mpr (compiled.branches.imp fun _ _ => compileBranch_eq_ok_iff.mpr)
    have hl := optionMapM_eq_ok_iff.mpr compiled.last
    exact bind_eq_ok_iff.mpr ⟨branches, hb, bind_eq_ok_iff.mpr ⟨last, hl, rfl⟩⟩

end

/-! ### evaluation -/

section
variable {row : Row} {before after others rest : List CaseBranch} {b : CaseBranch}
  {last last' : Option ScalarExpr} {label label' : Option String}

/-- The branch at which the evaluation on a row stops: the conditions before it are false, its own
is not. -/
structure Decides (row : Row) (before : List CaseBranch) (b : CaseBranch) : Prop where
  passed : ∀ d ∈ before, d.condition.eval row = .ok false
  stops : b.condition.eval row ≠ .ok false

theorem eval_predicate {p : PredicateExpr} {x : Except Error Bool} (h : p.eval row = x) :
    (ScalarExpr.predicate p).eval row = x >>= fun holds => .ok (some (.boolean holds)) := by
  rw [ScalarExpr.eval, h]
  rfl

/-- A branch whose condition is false is passed over. -/
theorem eval_caseCall_cons_of_false (h : b.condition.eval row = .ok false) :
    (caseCall (b :: rest) last label).eval row = (caseCall rest last label).eval row := by
  unfold caseCall
  rw [ScalarExpr.eval, ScalarExpr.eval, List.flatMap_cons]
  show ScalarExpr.evalCases row (.predicate b.condition :: b.result :: _) = _
  rw [ScalarExpr.evalCases, eval_predicate h]
  rfl

/-- Another one decides. -/
theorem eval_caseCall_cons_of_ne (h : b.condition.eval row ≠ .ok false) :
    (caseCall (b :: rest) last label).eval row =
      b.condition.eval row >>= fun _ => b.result.eval row := by
  unfold caseCall
  rw [ScalarExpr.eval, List.flatMap_cons]
  show ScalarExpr.evalCases row (.predicate b.condition :: b.result :: _) = _
  rw [ScalarExpr.evalCases, eval_predicate rfl]
  cases hb : b.condition.eval row with
  | error e => rfl
  | ok holds =>
    cases holds with
    | true => rfl
    | false => exact absurd hb h

theorem eval_caseCall_append (h : ∀ d ∈ before, d.condition.eval row = .ok false) :
    (caseCall (before ++ rest) last label).eval row = (caseCall rest last label).eval row := by
  induction before with
  | nil => rfl
  | cons d before ih =>
    obtain ⟨first, others⟩ := List.forall_mem_cons.mp h
    rw [List.cons_append, eval_caseCall_cons_of_false first, ih others]

/-- The deciding branch yields the error of its condition, or else its result.  Neither the results
before it nor anything behind it has a part in this. -/
theorem eval_caseCall_of_decides (h : Decides row before b) :
    (caseCall (before ++ b :: after) last label).eval row =
      b.condition.eval row >>= fun _ => b.result.eval row := by
  rw [eval_caseCall_append h.passed, eval_caseCall_cons_of_ne h.stops]

/-- Without a deciding branch the last result is the value, or NULL. -/
theorem eval_caseCall_of_passed (h : ∀ b ∈ before, b.condition.eval row = .ok false) :
    (caseCall before last label).eval row = last.elim (.ok none) (·.eval row) := by
  have none_left : (caseCall (before ++ []) last label).eval row =
      (caseCall [] last label).eval row := eval_caseCall_append h
  rw [List.append_nil] at none_left
  rw [none_left, caseCall, ScalarExpr.eval]
  cases last with
  | none => rfl
  | some x =>
    show ScalarExpr.evalCases row [x] = _
    rw [ScalarExpr.evalCases]
    rfl

/-- Only the conditions of the branches before it matter. -/
theorem Decides.congr (h : Decides row before b)
    (same : others.map (·.condition) = before.map (·.condition)) : Decides row others b := by
  refine ⟨fun d hd => ?_, h.stops⟩
  have member : d.condition ∈ before.map (·.condition) := same ▸ List.mem_map_of_mem hd
  obtain ⟨d', hd', condition⟩ := List.mem_map.mp member
  rw [← condition]
  exact h.passed d' hd'

end

/-- **A case expression is its first branch whose condition is not false.**  Conditions and results
have to be as many; then it is compiled if all its parts are.  On a row the first condition that is
not false decides: an error of it is the error of the whole, and if it is true, the whole is its
result, be that a value or an error.  What stands behind this branch has no part in it, and the
other results have none.  If all conditions are false, the whole is the last result, or NULL without
one. -/
theorem eval_caseWhen (c : Setting) (s : Schema) (conditions : List Filter) (results : List Expr)
    (otherwise : Option Expr) (named : Bool) (pool : LiteralPool) :
    (conditions.length ≠ results.length →
      (compileExpr c s (.caseWhen conditions results otherwise) named).result pool =
        .error (.malformed (.caseArity conditions.length results.length))) ∧
    (conditions.length = results.length →
      ((∃ x, (compileExpr c s (.caseWhen conditions results otherwise) named).result pool = .ok x) ↔
        ∃ branches last, CompiledCase c s conditions results otherwise branches last)) ∧
    ∀ x, (compileExpr c s (.caseWhen conditions results otherwise) named).result pool = .ok x →
      ∀ branches last, CompiledCase c s conditions results otherwise branches last → ∀ row,
        (∀ before b after, branches = before ++ b :: after → Decides row before b →
          (∀ e, b.condition.eval row = .error e → x.eval row = .error e) ∧
          (b.condition.eval row = .ok true → x.eval row = b.result.eval row) ∧
          ∀ before' after' last' label, before'.map (·.condition) = before.map (·.condition) →
            (caseCall (before' ++ b :: after') last' label).eval row = x.eval row) ∧
        ((∀ b ∈ branches, b.condition.eval row = .ok false) →
          x.eval row = last.elim (.ok none) (·.eval row)) := by
  refine ⟨fun arity => ?_, fun arity => ?_, fun x hx branches last compiled row => ?_⟩
  · rw [result_eq_error_iff, outcome_caseWhen, if_pos arity]
  · rw [compiles_named_iff]
    simp only [outcome_caseWhen_eq_ok_iff arity]
    constructor
    · rintro ⟨-, branches, last, compiled, -⟩
      exact ⟨branches, last, compiled⟩
    · rintro ⟨branches, last, compiled⟩
      exact ⟨_, branches, last, compiled, rfl⟩
  · obtain ⟨y, hy, value⟩ := exists_unnamed hx
    have arity : conditions.length = results.length := by
      by_contra arity
      rw [outcome_caseWhen, if_pos arity] at hy
      cases hy
    have call := (outcome_caseWhen_eq_ok_iff arity).mpr ⟨branches, last, compiled, rfl⟩
    cases hy.symm.trans call
    refine ⟨?_, fun passed => ?_⟩
    · rintro before b after rfl decides
      have decided : x.eval row = b.condition.eval row >>= fun _ => b.result.eval row :=
        (value row).trans (eval_caseCall_of_decides decides)
      refine ⟨fun e failed => ?_, fun holds => ?_, ?_⟩
      · rw [decided, failed]
        rfl
      · rw [decided, holds]
        rfl
      · intro before' after' last' label same
        rw [decided, eval_caseCall_of_decides (decides.congr same)]
    · rw [value, eval_caseCall_of_passed passed]

/-- The value 2 stops at the second condition, the least number at the third one, which overflows
there, and 0 at none. -/
theorem eval_caseWhen_stops :
    let c : Setting := ⟨.builtins, .default⟩
    let s : Schema := ⟨[⟨"a", .int64, true, none⟩]⟩
    let conditions : List Filter := [.value "a" ⟨.eq, .any⟩ (.long 1),
      .value "a" ⟨.gt, .any⟩ (.long 1), .expr (.unary .minus (.path "a")) ⟨.gt, .any⟩ (.path "a")]
    let results : List Expr := [.path "a", .const (.boolean true), .const (.long 3)]
    ∃ x, (compileExpr c s (.caseWhen conditions results none) true).result .empty = .ok x ∧
      x.eval [some (.long 2)] = .ok (some (.boolean true)) ∧
      x.eval [some (.long Int64.minValue)] = .error (.evaluation (.overflow "negate")) ∧
      x.eval [some (.long 0)] = .ok none := by
  intro c s conditions results
  have a : (compileExpr c s (.path "a") false).outcome = .ok (.field 0 none) := outcome_path c s rfl
  let first : CaseBranch := ⟨.compare (.equalConst (.long 1)) [.field 0 none], .field 0 none⟩
  let second : CaseBranch := ⟨.compare (.compare .gt) [.field 0 none, .literal (.long 1) none],
    .literal (.boolean true) none⟩
  let third : CaseBranch :=
    ⟨.compare (.compare .gt) [.call .negate [.field 0 none] none, .field 0 none],
      .literal (.long 3) none⟩
  have compiled : CompiledCase c s conditions results none [first, second, third] none := by
    refine ⟨.cons ⟨?_, a⟩ (.cons ⟨?_, outcome_const c s _⟩ (.cons ⟨?_, outcome_const c s _⟩ .nil)),
      .none⟩
    · rw [outcome_compileFilter, Filter.normalize_of_isLeaf rfl, compileNormal]
      rfl
    · rw [outcome_compileFilter, Filter.normalize_of_isLeaf rfl, compileNormal]
      rfl
    · rw [outcome_compileFilter, Filter.normalize_of_isLeaf rfl, outcome_compileNormal_expr,
        outcome_unary, outcome_negated, a]
      rfl
  obtain ⟨-, compiles, evaluates⟩ := eval_caseWhen c s conditions results none true .empty
  obtain ⟨x, hx⟩ := (compiles rfl).mpr ⟨_, _, compiled⟩
  have value := evaluates x hx _ _ compiled
  refine ⟨x, hx, ?_, ?_, ?_⟩
  · have decides : Decides [some (.long 2)] [first] second :=
      ⟨List.forall_mem_singleton.mpr rfl, by rintro ⟨⟩⟩
    exact ((value _).1 [first] second [third] rfl decides).2.1 rfl
  · have decides : Decides [some (.long Int64.minValue)] [first, second] third :=
      ⟨List.forall_mem_cons.mpr ⟨rfl, List.forall_mem_singleton.mpr rfl⟩, by rintro ⟨⟩⟩
    exact ((value _).1 [first, second] third [] rfl decides).1 _ rfl
  · refine (value _).2 ?_
    exact List.forall_mem_cons.mpr ⟨rfl, List.forall_mem_cons.mpr
      ⟨rfl, List.forall_mem_singleton.mpr rfl⟩⟩

end ColumnPlan
