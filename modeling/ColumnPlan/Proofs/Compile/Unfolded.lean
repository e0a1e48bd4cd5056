import ColumnPlan.Proofs.Compile.Parallel
import ColumnPlan.Proofs.Physical.Unfolded

/-!
# Compilation with and without constants in predicates

What a compilation yields that makes constants part of predicates, another one yields that leaves
them operands, but for the places of the constants.  So the first one changes no value and no
error of any tree.

* `Compile.Follows g m n`       whatever the first computation yields, the second one yields in
                                another form;
* `Setting.plain`               a setting that leaves constants operands;
* `Registry.Unfolds`            calls are carried out alike in both forms;
* `follows_compileExpr`, `follows_compileFilter`   trees are compiled alike;
* `eval_plain`                  and they evaluate alike.
-/

namespace ColumnPlan

namespace Compile
variable {α β γ δ : Type}

/-- Whatever the first computation yields, the second one yields in the form that is given, each
from a pool of its own. -/
def Follows (g : α → β) (m : Compile α) (n : Compile β) : Prop :=
  ∀ pool other a, m.result pool = .ok a → n.result other = .ok (g a)

theorem follows_iff_leads {g : α → β} {m : Compile α} {n : Compile β} :
    Follows g m n ↔ Leads (fun a b => g a = b) m n := by
  constructor
  · intro h pool other a ha
    exact ⟨g a, h pool other a ha, rfl⟩
  · intro h pool other a ha
    obtain ⟨_, hb, rfl⟩ := h pool other a ha
    exact hb

theorem follows_pure {g : α → β} {a : α} {b : β} (h : g a = b) :
    Follows g (pure a) (pure b) := by
  rintro pool other a' ha
  cases ha
  exact congrArg Except.ok h.symm

theorem follows_throw (g : α → β) (e : Error) (n : Compile β) : Follows g (throw e) n := nofun

theorem follows_lift {g : α → β} {x : Except Error α} {y : Except Error β}
    (h : ∀ a, x = .ok a → y = .ok (g a)) : Follows g (liftM x) (liftM y) :=
  fun _ _ a ha => h a ha

/-- The same computation of something that has one form only. -/
theorem follows_lift_id (x : Except Error α) : Follows id (liftM x) (liftM x) :=
  follows_lift fun _ h => h

theorem follows_literal (v : Value) : Follows id (literal v) (literal v) := by
  intro pool other w hw
  rw [result_literal] at hw ⊢
  exact hw

theorem follows_bind {g : α → β} {m : Compile α} {n : Compile β} {g' : γ → δ}
    {f : α → Compile γ} {f' : β → Compile δ} (hm : Follows g m n)
    (hf : ∀ a, Follows g' (f a) (f' (g a))) : Follows g' (m >>= f) (n >>= f') := by
  intro pool other c hc
  rw [result_bind] at hc ⊢
  obtain ⟨a, ha, hc⟩ := bind_eq_ok_iff.mp hc
  rw [hm pool other a ha, ok_bind]
  exact hf a _ _ c hc

theorem follows_mapM {g : β → γ} {f : α → Compile β} {f' : α → Compile γ} {as : List α}
    (h : ∀ a ∈ as, Follows g (f a) (f' a)) :
    Follows (List.map g) (as.mapM f) (as.mapM f') := by
  induction as with
  | nil => exact follows_pure rfl
  | cons a as ih =>
    obtain ⟨ha, has⟩ := List.forall_mem_cons.mp h
    rw [List.mapM_cons, List.mapM_cons]
    exact follows_bind ha fun b => follows_bind (ih has) fun bs => follows_pure rfl

end Compile

open Compile

/-! ### leaves -/

theorem unfold_combine (q : Quantifier) (ps : List PredicateExpr) :
    (q.combine ps).unfold = q.combine (ps.map PredicateExpr.unfold) := by
  cases q with
  | any => exact Connective.disjunction.unfold_simplify ps
  | all => exact Connective.conjunction.unfold_simplify ps

/-- The same choices but for constants, which stay operands. -/
def CompileOptions.plain (o : CompileOptions) : CompileOptions := ⟨o.reorder, false⟩

theorem LikePattern.bytes_of_ofBytes? {bytes : List UInt8} {p : LikePattern}
    (h : ofBytes? bytes = some p) : p.bytes = bytes := by
  unfold ofBytes? at h
  split at h
  · cases h
    rfl
  · cases h

theorem eq_binary_of_likeOperand {op : CompareOp} {v : Value} {p : LikePattern}
    (h : likeOperand op v = .ok p) : v = .binary p.bytes := by
  unfold likeOperand at h
  cases v with
  | binary bytes =>
    simp only [Value.bytes?] at h
    split at h
    · next found =>
      cases h
      rw [LikePattern.bytes_of_ofBytes? found]
    · cases h
  | boolean | integer | long | float | double => cases h

/-- A comparison whose constant stays an operand is the same either way. -/
theorem follows_compileOperand (op : CompareOp) (v : Value) (i : Nat) :
    Follows PredicateExpr.unfold (compileOperand op v i) (compileOperand op v i) := by
  unfold compileOperand
  split
  · exact follows_throw _ _ _
  · exact follows_bind (follows_literal v) fun w => follows_pure rfl

section
variable {op : CompareOp} {v : Value} {i : Nat}

/-- A constant of a comparison that is made part of it. -/
theorem follows_constant {f : Value → PredicateFunction}
    (hf : (f v).embedded? = some (op.base, v)) (text : op.isLike → v.isBinary) :
    Follows PredicateExpr.unfold
      (do pure (.compare (f (← literal v)) [.field i none])) (compileOperand op v i) := by
  intro pool other p h
  rw [result_bind, result_literal] at h
  cases h
  rw [result_compileOperand text, PredicateExpr.unfold]
  exact congrArg Except.ok (PredicateFunction.unfolded_of_embedded hf _).symm

/-- A pattern that is made part of a comparison. -/
theorem follows_pattern {f : LikePattern → PredicateFunction}
    (hf : ∀ p, (f p).embedded? = some (op.base, .binary p.bytes)) :
    Follows PredicateExpr.unfold
      (do pure (.compare (f (← likeOperand op v)) [.field i none])) (compileOperand op v i) := by
  intro pool other p h
  rw [result_bind] at h
  obtain ⟨regex, known, h⟩ := bind_eq_ok_iff.mp h
  cases h
  have text := eq_binary_of_likeOperand known
  subst text
  rw [result_compileOperand fun _ => rfl, PredicateExpr.unfold]
  exact congrArg Except.ok (PredicateFunction.unfolded_of_embedded (hf regex) _).symm

end

theorem follows_compileComparison (o : CompileOptions) (op : CompareOp) (v : Value) (i : Nat) :
    Follows PredicateExpr.unfold (compileComparison o op v i)
      (compileComparison o.plain op v i) := by
  have plain : compileComparison o.plain op v i = compileOperand op v i := rfl
  rw [plain]
  unfold compileComparison
  split
  · split
    · next eq =>
      refine follows_constant (f := .equalConst) (by rw [eq]; rfl) fun like => ?_
      rw [CompareOp.isLike, eq] at like
      cases like
    · next notEq =>
      refine follows_constant (f := .notEqualConst) (by rw [notEq]; rfl) fun like => ?_
      rw [CompareOp.isLike, notEq] at like
      cases like
    · next like => exact follows_pattern (f := .likeConst) fun p => by rw [like]; rfl
    · next notLike => exact follows_pattern (f := .notLikeConst) fun p => by rw [notLike]; rfl
    · exact follows_compileOperand op v i
  · exact follows_compileOperand op v i

theorem follows_compileValue (o : CompileOptions) (s : Schema) (pattern : String) (op : CompareOp)
    (v : Value) : Follows PredicateExpr.unfold (compileValue o s pattern op v)
      (compileValue o.plain s pattern op v) :=
  follows_bind (follows_lift_id _) fun _ =>
    follows_bind (follows_mapM fun i _ => follows_compileComparison o op v i) fun ps =>
      follows_pure (unfold_combine op.quantifier ps)

theorem follows_compileKey (o : CompileOptions) (s : Schema) (op : CompareOp) (n : Int64) :
    Follows PredicateExpr.unfold (compileKey o s op n) (compileKey o.plain s op n) :=
  follows_bind (follows_lift_id _) fun i =>
    follows_bind (follows_compileComparison o op (.long n) i) fun p =>
      follows_pure (unfold_combine op.quantifier [p])

theorem unfold_compileMember {s : Schema} {pattern : String} {op : MemberOp} {values : List Value}
    {p : PredicateExpr} (h : compileMember s pattern op values = .ok p) : p.unfold = p := by
  obtain ⟨columns, -, h⟩ := bind_eq_ok_iff.mp h
  obtain ⟨ps, hps, h⟩ := bind_eq_ok_iff.mp h
  cases h
  have same : ∀ p ∈ ps, p.unfold = p := by
    intro p member
    obtain ⟨i, -, h⟩ := exists_of_mem_mapM hps member
    obtain ⟨type, -, h⟩ := bind_eq_ok_iff.mp h
    cases h
    refine PredicateFunction.unfolded_of_none ?_ _
    split <;> rfl
  rw [unfold_combine, List.map_congr_left same, List.map_id']

theorem unfold_compilePaths {s : Schema} {left : String} {op : CompareOp} {right : String}
    {p : PredicateExpr} (h : compilePaths s left op right = .ok p) : p.unfold = p := by
  obtain ⟨i, -, h⟩ := bind_eq_ok_iff.mp h
  obtain ⟨j, -, h⟩ := bind_eq_ok_iff.mp h
  cases h
  rfl

/-! ### functions -/

/-- A call is carried out alike whether its arguments have constants in them or not. -/
def Function.Unfolds (f : Function) : Prop :=
  ∀ args params e, f.transform args params = .ok e →
    f.transform (ScalarExpr.unfoldAll args) params = .ok e.unfold

def Registry.Unfolds (r : Registry) : Prop := ∀ name, ∀ f ∈ r.lookup? name, f.Unfolds

theorem Function.unfolds_extract : Function.extract.Unfolds := by
  intro args params e h
  obtain ⟨unit, timestamp, rfl, known, rfl⟩ := exists_of_extract h
  exact bind_eq_ok_iff.mpr ⟨unit, known, rfl⟩

theorem Registry.unfolds_builtins : Registry.builtins.Unfolds := by
  intro name f h
  rw [Registry.eq_extract_of_builtins h]
  exact Function.unfolds_extract

/-! ### trees -/

/-- The same setting but for constants, which stay operands. -/
def Setting.plain (c : Setting) : Setting := ⟨c.functions, c.options.plain⟩

/-- Unfolded one by one is unfolded. -/
theorem unfoldAll_of_forall₂ {es es' : List ScalarExpr}
    (h : List.Forall₂ (fun e e' => ScalarExpr.unfold e = e') es es') :
    ScalarExpr.unfoldAll es = es' := by
  rw [ScalarExpr.unfoldAll_eq_map, ← List.forall₂_eq_eq_eq]
  exact List.forall₂_map_left_iff.mpr h

theorem Registry.Unfolds.respects {r : Registry} (hr : r.Unfolds) :
    r.Respects fun e e' => e.unfold = e' := by
  intro name f hf args args' params e h he
  have same := hr name f hf args params e he
  rw [unfoldAll_of_forall₂ h] at same
  exact ⟨e.unfold, same, rfl⟩

section
variable (c : Setting) (s : Schema)

/-- Leaves without expressions below them. -/
theorem follows_simple {f : Filter} (h : f.isLeaf = true) (hf : ∀ l op r, f ≠ .expr l op r) :
    Follows PredicateExpr.unfold (compileNormal c s f) (compileNormal c.plain s f) := by
  cases f with
  | and | or | not => cases h
  | expr left op right => exact absurd rfl (hf left op right)
  | bool b =>
    rw [compileNormal, compileNormal]
    exact follows_pure (by cases b <;> rfl)
  | value pattern op v =>
    rw [compileNormal, compileNormal]
    exact follows_compileValue c.options s pattern op v
  | key op n =>
    rw [compileNormal, compileNormal]
    exact follows_compileKey c.options s op n
  | path left op right =>
    rw [compileNormal, compileNormal]
    exact follows_lift fun p h => h.trans (congrArg Except.ok (unfold_compilePaths h).symm)
  | member pattern op values =>
    rw [compileNormal, compileNormal]
    exact follows_lift fun p h => h.trans (congrArg Except.ok (unfold_compileMember h).symm)

theorem follows_compileNormals {fs : List Filter}
    (h : ∀ f ∈ fs, Follows PredicateExpr.unfold (compileNormal c s f) (compileNormal c.plain s f)) :
    Follows (List.map PredicateExpr.unfold) (compileNormals c s fs)
      (compileNormals c.plain s fs) := by
  induction fs with
  | nil =>
    rw [compileNormals, compileNormals]
    exact follows_pure rfl
  | cons f fs ih =>
    obtain ⟨hf, hfs⟩ := List.forall_mem_cons.mp h
    rw [compileNormals, compileNormals]
    exact follows_bind hf fun _ => follows_bind (ih hfs) fun _ => follows_pure rfl

/-- A normal form is compiled alike if its leaves are. -/
theorem follows_compileNormal {f : Filter}
    (h : ∀ leaf ∈ f.leaves,
      Follows PredicateExpr.unfold (compileNormal c s leaf) (compileNormal c.plain s leaf)) :
    Follows PredicateExpr.unfold (compileNormal c s f) (compileNormal c.plain s f) := by
  induction f using Filter.induction with
  | leaf f hf =>
    rw [Filter.leaves_of_isLeaf hf] at h
    exact h f (List.mem_singleton_self f)
  | and fs ih =>
    rw [Filter.leaves_and, List.forall_mem_flatMap] at h
    rw [compileNormal, compileNormal]
    exact follows_bind (follows_compileNormals c s fun f hf => ih f hf (h f hf)) fun ps =>
      follows_pure (Connective.conjunction.unfold_simplify ps)
  | or fs ih =>
    rw [Filter.leaves_or, List.forall_mem_flatMap] at h
    rw [compileNormal, compileNormal]
    exact follows_bind (follows_compileNormals c s fun f hf => ih f hf (h f hf)) fun ps =>
      follows_pure (Connective.disjunction.unfold_simplify ps)
  | not f =>
    rw [compileNormal, compileNormal]
    exact follows_throw _ _ _

end

/-- Settings that differ in what becomes of constants yield trees that differ in their places. -/
theorem parallel_plain {c : Setting} (hc : c.functions.Unfolds) (s : Schema) :
    Parallel c c.plain s (fun e e' => e.unfold = e') (fun p p' => p.unfold = p') where
  functions := rfl
  respects := hc.respects
  field _ _ := rfl
  literal _ _ := rfl
  call f _ _ label h := congrArg (ScalarExpr.call f · label) (unfoldAll_of_forall₂ h)
  rename label _ _ h := congrArg (ScalarExpr.rename label) h
  withAlias label e _ h := (e.unfold_withAlias label).trans (congrArg _ h)
  predicate h := congrArg ScalarExpr.predicate h
  compare op _ _ _ _ hl hr := by
    subst hl hr
    rfl
  simple f h hf := follows_iff_leads.mp (follows_simple c s h hf)
  filter f h := by
    rw [compileFilter, compileFilter, ← follows_iff_leads]
    refine follows_compileNormal c s fun leaf hl => ?_
    exact follows_iff_leads.mpr (h leaf ((Filter.perm_leaves_normalize _ f).mem_iff.mp hl))

theorem follows_compileExpr {c : Setting} (hc : c.functions.Unfolds) (s : Schema) (e : Expr)
    (named : Bool) :
    Follows ScalarExpr.unfold (compileExpr c s e named) (compileExpr c.plain s e named) :=
  follows_iff_leads.mpr ((parallel_plain hc s).leads_expr e named)

theorem follows_compileFilter {c : Setting} (hc : c.functions.Unfolds) (s : Schema) (f : Filter) :
    Follows PredicateExpr.unfold (compileFilter c s f) (compileFilter c.plain s f) :=
  follows_iff_leads.mpr ((parallel_plain hc s).leads_filter f)

/-- **Constants inside predicates are for speed alone.**  What is compiled to trees that have them
is compiled without them as well, and both trees give the same cell, the same truth or the same
error on every row. -/
theorem eval_plain (reorder : Bool) (s : Schema) (pool other : LiteralPool) :
    (∀ f p, (compileFilter ⟨.builtins, ⟨reorder, true⟩⟩ s f).result pool = .ok p →
      ∃ q, (compileFilter ⟨.builtins, ⟨reorder, false⟩⟩ s f).result other = .ok q ∧
        ∀ row, q.eval row = p.eval row) ∧
    (∀ e named x, (compileExpr ⟨.builtins, ⟨reorder, true⟩⟩ s e named).result pool = .ok x →
      ∃ y, (compileExpr ⟨.builtins, ⟨reorder, false⟩⟩ s e named).result other = .ok y ∧
        ∀ row, y.eval row = x.eval row) := by
  constructor
  · intro f p compiled
    have follows := follows_compileFilter (c := ⟨.builtins, ⟨reorder, true⟩⟩)
      Registry.unfolds_builtins s f pool other p compiled
    exact ⟨p.unfold, follows, fun row => evalPredicate_unfold row p⟩
  · intro e named x compiled
    have follows := follows_compileExpr (c := ⟨.builtins, ⟨reorder, true⟩⟩)
      Registry.unfolds_builtins s e named pool other x compiled
    exact ⟨x.unfold, follows, fun row => eval_unfold row x⟩

/-- A pattern and a constant, in a filter and in the condition of a case expression. -/
theorem eval_plain_like :
    let c : Setting := ⟨.builtins, ⟨false, true⟩⟩
    let s : Schema := ⟨[⟨"a.x", .utf8, true, none⟩, ⟨"a.y", .int32, true, none⟩]⟩
    let f := Filter.and [.value "a.x" ⟨.like, .any⟩ (.binary [0x61, 0x2E]),
      .value "a.y" ⟨.notEq, .any⟩ (.integer 3)]
    let e := Expr.caseWhen [f] [.path "a.y"] none
    ∃ p q x y, (compileFilter c s f).outcome = .ok p ∧
      (compileFilter ⟨.builtins, ⟨false, false⟩⟩ s f).outcome = .ok q ∧
      (∀ row, q.eval row = p.eval row) ∧
      (compileExpr c s e false).outcome = .ok x ∧
      (compileExpr ⟨.builtins, ⟨false, false⟩⟩ s e false).outcome = .ok y ∧
      ∀ row, y.eval row = x.eval row := by
  intro c s f e
  obtain ⟨pattern, found⟩ : ∃ pattern, LikePattern.ofBytes? [0x61, 0x2E] = some pattern :=
    Option.isSome_iff_exists.mp (by decide +kernel)
  have known : likeOperand ⟨.like, .any⟩ (.binary [0x61, 0x2E]) = .ok pattern := by
    unfold likeOperand
    simp only [Value.bytes?, found]
  have leaves : List.Forall₂ (fun f p => (compileNormal c s f).outcome = .ok p)
      [.value "a.x" ⟨.like, .any⟩ (.binary [0x61, 0x2E]), .value "a.y" ⟨.notEq, .any⟩ (.integer 3)]
      [.compare (.likeConst pattern) [.field 0 none],
        .compare (.notEqualConst (.integer 3)) [.field 1 none]] := by
    refine .cons ?_ (.cons ?_ .nil)
    · rw [compileNormal]
      show (likeOperand ⟨.like, .any⟩ (.binary [0x61, 0x2E]) >>= fun p =>
        .ok (PredicateExpr.compare (.likeConst p) [.field 0 none])) = _
      rw [known]
      rfl
    · rw [compileNormal]
      rfl
  obtain ⟨p, filter⟩ : ∃ p, (compileFilter c s f).outcome = .ok p := by
    rw [outcome_compileFilter]
    show ∃ p, (compileNormal c s f).outcome = .ok p
    rw [outcome_compileNormal_and, mapM_eq_ok_iff.mpr leaves]
    exact ⟨_, rfl⟩
  have branches : (compileBranches c s [f] [.path "a.y"]).outcome =
      .ok [.predicate p, .field 1 none] := by
    rw [compileBranches, outcome_bind _ fun _ => blind_bind (blind_compileExpr c s _ false) fun _ =>
      blind_bind (blind_compileBranches c s [] []) fun _ => blind_pure _, filter, compileExpr,
      compileBranches]
    · rfl
    · nofun
  have expr : (compileExpr c s e false).outcome =
      .ok (.call .caseWhen [.predicate p, .field 1 none] none) := by
    rw [compileExpr, compileOtherwise]
    show (compileBranches c s [f] [.path "a.y"] >>= fun branches =>
      (pure (.call .caseWhen (branches ++ []) none) : Compile ScalarExpr)).outcome = _
    rw [outcome_bind _ fun _ => blind_pure _, branches]
    rfl
  obtain ⟨onFilters, onExprs⟩ := eval_plain false s .empty .empty
  obtain ⟨q, plainFilter, sameTruth⟩ := onFilters f p filter
  obtain ⟨y, plainExpr, sameCell⟩ := onExprs e false _ expr
  exact ⟨p, q, _, y, filter, plainFilter, sameTruth, expr, plainExpr, sameCell⟩

end ColumnPlan
