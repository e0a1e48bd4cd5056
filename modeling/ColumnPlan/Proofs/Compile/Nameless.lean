import ColumnPlan.Proofs.Compile.Built
import ColumnPlan.Proofs.Compile.Label
import ColumnPlan.Proofs.Physical.Connective

/-!
# Names stand at the root only

A compiler compiles all operands without a name, so nothing below the root of an expression has
one, and nothing in a predicate.  If the expression itself is to be named, its root has the name of
the logical expression, and without that name it is what is compiled otherwise.

* `ScalarExpr.Nameless`, `PredicateExpr.Nameless`   no labels and no renaming nodes;
* `closed_nameless`             the steps of a compiler set no name;
* `IsLabel.unnamed`             a name at the root can be taken off again;
* `compileExpr_unnamed`         compilation with a name and without one.
-/

namespace ColumnPlan

open Compile

mutual

/-- No node of the expression has a label, and none is there for the sake of a name. -/
inductive ScalarExpr.Nameless : ScalarExpr → Prop
  | field (index : Nat) : ScalarExpr.Nameless (.field index none)
  | literal (value : Value) : ScalarExpr.Nameless (.literal value none)
  | call (function : ScalarFunction) {args : List ScalarExpr} :
    (∀ e ∈ args, ScalarExpr.Nameless e) → ScalarExpr.Nameless (.call function args none)
  | predicate {p : PredicateExpr} : PredicateExpr.Nameless p → ScalarExpr.Nameless (.predicate p)

/-- No operand in the predicate has a name. -/
inductive PredicateExpr.Nameless : PredicateExpr → Prop
  | always : PredicateExpr.Nameless .always
  | never : PredicateExpr.Nameless .never
  | compare (function : PredicateFunction) {operands : List ScalarExpr} :
    (∀ e ∈ operands, ScalarExpr.Nameless e) → PredicateExpr.Nameless (.compare function operands)
  | and {children : List PredicateExpr} :
    (∀ p ∈ children, PredicateExpr.Nameless p) → PredicateExpr.Nameless (.and children)
  | or {children : List PredicateExpr} :
    (∀ p ∈ children, PredicateExpr.Nameless p) → PredicateExpr.Nameless (.or children)

end

namespace Connective
variable {k : Connective} {ps : List PredicateExpr}

theorem nameless_join (h : ∀ p ∈ ps, p.Nameless) : (k.join ps).Nameless := by
  cases k with
  | conjunction => exact .and h
  | disjunction => exact .or h

theorem nameless_of_join (h : (k.join ps).Nameless) : ∀ p ∈ ps, p.Nameless := by
  cases k with
  | conjunction =>
    cases h with
    | and h => exact h
  | disjunction =>
    cases h with
    | or h => exact h

theorem nameless_neutral (k : Connective) : k.neutral.Nameless := by
  cases k with
  | conjunction => exact .always
  | disjunction => exact .never

theorem nameless_absorbing (k : Connective) : k.absorbing.Nameless := by
  cases k with
  | conjunction => exact .never
  | disjunction => exact .always

theorem nameless_simplify (k : Connective) (h : ∀ p ∈ ps, p.Nameless) :
    (k.simplify ps).Nameless :=
  simplify_induction (fun _ => nameless_of_join) (nameless_neutral k) (nameless_absorbing k)
    (fun _ _ _ => nameless_join) h

end Connective

theorem closed_nameless (width : Nat) :
    Closed width (fun _ e => e.Nameless) fun _ p => p.Nameless where
  field := fun {_ i} _ => .field i
  literal := fun {_ v} _ => .literal v
  call := fun {_ f _} _ h => .call f h
  predicate := .predicate
  compare := fun {_ f _} _ _ h => .compare f h
  simplify := fun k _ h => k.nameless_simplify h

/-- A name at the root can be taken off again. -/
theorem IsLabel.unnamed {name : String} {label : ScalarExpr → ScalarExpr} (h : IsLabel name label)
    {e : ScalarExpr} (he : e.Nameless) : (label e).unnamed = e := by
  cases h with
  | own =>
    cases he with
    | field index => rfl
    | literal value => rfl
    | call function _ => rfl
    | predicate _ => rfl
  | above => rfl

/-- **A name is given to the root and to nothing else.**  With the functions that are always there,
an expression can be compiled with a name iff it can be without one, and fails with the same error
otherwise.  What is compiled without a name has no name anywhere.  What is compiled with one has at
its root the name of the expression, behind the signs that leave it as it is, and without that name
it is the former.  A compiled filter has no name anywhere. -/
theorem compileExpr_unnamed (options : CompileOptions) (s : Schema) (pool : LiteralPool) :
    let c : Setting := ⟨.builtins, options⟩
    (∀ e error, (compileExpr c s e true).result pool = .error error ↔
      (compileExpr c s e false).result pool = .error error) ∧
    (∀ e plain, (compileExpr c s e false).result pool = .ok plain →
      plain.Nameless ∧ ∃ named, (compileExpr c s e true).result pool = .ok named ∧
        named.alias? = some e.withoutPlus.columnName ∧ named.unnamed = plain) ∧
    ∀ f p, (compileFilter c s f).result pool = .ok p → p.Nameless := by
  intro c
  have hands : c.functions.Hands fun _ e => e.Nameless := (closed_nameless 0).hands_builtins
  refine ⟨?_, ?_, ?_⟩
  · intro e error
    obtain ⟨label, -, h⟩ := exists_label c s e
    rw [h, result_map]
    cases (compileExpr c s e false).result pool with
    | error other => exact Iff.rfl
    | ok plain => exact ⟨nofun, nofun⟩
  · intro e plain compiled
    have nameless : plain.Nameless :=
      ((closed_nameless s.size).ensures_expr hands e).yields compiled
    obtain ⟨label, hl, h⟩ := exists_label c s e
    refine ⟨nameless, label plain, ?_, hl.alias? plain, hl.unnamed nameless⟩
    rw [h, result_map, compiled]
    rfl
  · intro f p compiled
    exact ((closed_nameless s.size).ensures_filter hands f).yields compiled

/-- A product behind two signs that leave it as it is, and the same product in a filter. -/
theorem compileExpr_unnamed_signs :
    let c : Setting := ⟨.builtins, .default⟩
    let s : Schema := ⟨[⟨"a.x", .int32, true, none⟩, ⟨"a.y", .int64, true, none⟩]⟩
    let product := Expr.binary .star (.path "a.x") (.path "a.y")
    let plain := ScalarExpr.call .multiply [.field 0 none, .field 1 none] none
    (compileExpr c s (.unary .plus (.chain [product] [.plus])) false).result .empty = .ok plain ∧
      (∃ named, (compileExpr c s (.unary .plus (.chain [product] [.plus])) true).result .empty =
        .ok named ∧ named.alias? = some "a.x * a.y" ∧ named.unnamed = plain) ∧
      ∃ p, (compileFilter c s (.expr product ⟨.gt, .any⟩ product)).result .empty = .ok p ∧
        p.Nameless := by
  intro c s product plain
  have compiled : (compileExpr c s product false).result .empty = .ok plain := by
    rw [compileExpr, compileExpr, compileExpr]
    rfl
  have signed : (compileExpr c s (.unary .plus (.chain [product] [.plus])) false).result .empty =
      .ok plain := by
    rw [compileExpr, compileUnary]
    show (compileExpr c s (.chain [product] [.plus]) false).result .empty = _
    rw [compileExpr]
    show (compileUnary c s .plus product none).result .empty = _
    rw [compileUnary]
    exact compiled
  have filtered : (compileFilter c s (.expr product ⟨.gt, .any⟩ product)).result .empty =
      .ok (.compare (.compare .gt) [plain, plain]) := by
    rw [(blind_compileFilter c s _).result_eq, outcome_compileFilter]
    show (compileNormal c s (.expr product ⟨.gt, .any⟩ product)).outcome = _
    rw [outcome_compileNormal_expr, outcome, compiled]
    rfl
  obtain ⟨-, exprs, filters⟩ := compileExpr_unnamed .default s .empty
  exact ⟨signed, (exprs _ _ signed).2, _, filtered, filters _ _ filtered⟩

end ColumnPlan
