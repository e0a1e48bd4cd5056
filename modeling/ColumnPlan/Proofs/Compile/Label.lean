import ColumnPlan.Proofs.Compile.Outcome
import ColumnPlan.Proofs.Fallible
import ColumnPlan.Proofs.Physical.Safe

/-!
# The name of a compiled expression

An expression that names its column is compiled like one that does not, and then the root of the
result gets the name: in its own label, or by a node above it.  Signs that leave an expression as it
is have no part in the name.

* `Expr.withoutPlus`        the expression behind the signs that leave it as it is;
* `ScalarExpr.unnamed`      the expression without the name at its root;
* `exists_label`            compilation with a name is compilation without one, then the name;
* `exists_relabel`          a name changes neither the value nor the failure.
-/

namespace ColumnPlan

/-- The expression behind all plus signs in front of it; a chain of one term is a sign before the
term. -/
def Expr.withoutPlus : Expr → Expr
  | .unary .plus operand => operand.withoutPlus
  | .chain [term] [.plus] => term.withoutPlus
  | e => e

/-- The expression without the name at its root: the label is taken off, or the node above. -/
def ScalarExpr.unnamed : ScalarExpr → ScalarExpr
  | .field index _ => .field index none
  | .literal value _ => .literal value none
  | .call function args _ => .call function args none
  | .rename _ child => child
  | .predicate p => .predicate p

/-- The two ways to name an expression: in its own label, or by a node above it. -/
inductive IsLabel (name : String) : (ScalarExpr → ScalarExpr) → Prop
  | own : IsLabel name (.withAlias name)
  | above : IsLabel name (.rename name)

theorem IsLabel.alias? {name : String} {label : ScalarExpr → ScalarExpr} (h : IsLabel name label)
    (e : ScalarExpr) : (label e).alias? = some name := by
  cases h with
  | own =>
    cases e with
    | field index old => rfl
    | literal value old => rfl
    | call function args old => rfl
    | rename old child => rfl
    | predicate p => rfl
  | above => rfl

theorem IsLabel.eval {name : String} {label : ScalarExpr → ScalarExpr} (h : IsLabel name label)
    (row : Row) (e : ScalarExpr) : (label e).eval row = e.eval row := by
  cases h with
  | own => exact e.eval_withAlias row name
  | above => rw [ScalarExpr.eval]

open Compile

theorem Compile.result_map {α β : Type} (g : α → β) (m : Compile α) (pool : LiteralPool) :
    (g <$> m).result pool = g <$> m.result pool := by
  rw [map_eq_pure_bind, map_eq_pure_bind, result_bind]
  rfl

section
variable (c : Setting) (s : Schema)

/-- A call has the label of its own if its value is in a column, and else a node above it. -/
theorem exists_label_call (name : String) (args : List Expr) (params : Params) (distinct : Bool) :
    ∃ label, IsLabel (Expr.call name args params distinct).columnName label ∧
      compileExpr c s (.call name args params distinct) true =
        label <$> compileExpr c s (.call name args params distinct) false := by
  rw [compileExpr, compileExpr]
  cases computedColumn? s (Expr.call name args params distinct).columnName with
  | error e => exact ⟨_, .own, rfl⟩
  | ok column =>
    cases column with
    | some i => exact ⟨_, .own, rfl⟩
    | none =>
      refine ⟨_, .above, ?_⟩
      have known (f : Option Nat → Compile ScalarExpr) :
          (liftM (Except.ok none : Except Error (Option Nat)) >>= f) = f none := rfl
      rw [known, known]
      simp only [map_bind]
      rfl

/-- A sign other than a plus takes a label of its own. -/
theorem compileUnary_named {op : ArithmeticOp} (h : op ≠ .plus) (operand : Expr) (name : String) :
    compileUnary c s op operand (some name) =
      .withAlias name <$> compileUnary c s op operand none := by
  rw [compileUnary.eq_def, compileUnary.eq_def]
  cases op with
  | plus => exact absurd rfl h
  | minus =>
    dsimp only
    rw [map_bind]
    rfl
  | star | div | mod => rfl

/-- So does a chain that is not a plus before a single term. -/
theorem compileExpr_chain_named {terms : List Expr} {ops : List ArithmeticOp}
    (h : ∀ term, terms = [term] → ops ≠ [.plus]) :
    compileExpr c s (.chain terms ops) true =
      .withAlias (Expr.chain terms ops).columnName <$>
        compileExpr c s (.chain terms ops) false := by
  rw [compileExpr.eq_def, compileExpr.eq_def]
  dsimp only
  rw [map_bind]
  congr 1
  funext _
  have tree : ∀ name : String, (compileExprs c s terms >>= fun compiled =>
        liftM (chainTree ops compiled) >>= fun tree =>
          pure ((some name).elim tree tree.withAlias) : Compile ScalarExpr) =
      .withAlias name <$> (compileExprs c s terms >>= fun compiled =>
        liftM (chainTree ops compiled) >>= fun tree => pure tree) := by
    intro name
    simp only [map_bind]
    rfl
  split
  · next term op =>
    exact compileUnary_named c s (fun plus => h term rfl (by rw [plus])) term _
  · exact tree _

/-- **A name is put on what is compiled without one.** -/
theorem exists_label (e : Expr) : ∃ label, IsLabel e.withoutPlus.columnName label ∧
    compileExpr c s e true = label <$> compileExpr c s e false := by
  fun_induction Expr.withoutPlus e with
  | case1 operand ih =>
    rw [compileExpr, compileExpr, compileUnary, compileUnary]
    exact ih
  | case2 term ih =>
    obtain ⟨label, hl, h⟩ := ih
    refine ⟨label, hl, ?_⟩
    rw [compileExpr, compileExpr, map_bind, compileUnary, compileUnary]
    exact congrArg _ (funext fun _ => h)
  | case3 e not_unary not_chain =>
    cases e with
    | path pattern =>
      refine ⟨_, .own, ?_⟩
      rw [compileExpr, compileExpr, map_bind]
      rfl
    | key =>
      refine ⟨_, .own, ?_⟩
      rw [compileExpr, compileExpr, map_bind]
      rfl
    | const v =>
      refine ⟨_, .own, ?_⟩
      rw [compileExpr, compileExpr, map_bind]
      rfl
    | binary op left right =>
      refine ⟨_, .own, ?_⟩
      rw [compileExpr, compileExpr]
      simp only [map_bind]
      rfl
    | unary op operand =>
      refine ⟨_, .own, ?_⟩
      rw [compileExpr, compileExpr]
      exact compileUnary_named c s (fun plus => not_unary operand (by rw [plus])) operand _
    | bracket inner text =>
      refine ⟨_, .above, ?_⟩
      rw [compileExpr, compileExpr, map_bind]
      rfl
    | caseWhen conditions results otherwise =>
      refine ⟨_, .own, ?_⟩
      rw [compileExpr, compileExpr]
      split
      · rfl
      · simp only [map_bind]
        rfl
    | call name args params distinct => exact exists_label_call c s name args params distinct
    | chain terms ops =>
      refine ⟨_, .own, compileExpr_chain_named c s ?_⟩
      rintro term rfl rfl
      exact not_chain term rfl

/-- Whether a name is asked for or not, what is compiled without one is all that is compiled. -/
theorem exists_relabel (e : Expr) (named : Bool) : ∃ relabel : ScalarExpr → ScalarExpr,
    (∀ row x, (relabel x).eval row = x.eval row) ∧ ∀ pool,
      (compileExpr c s e named).result pool = relabel <$> (compileExpr c s e false).outcome := by
  cases named with
  | false =>
    refine ⟨id, fun _ _ => rfl, fun pool => ?_⟩
    rw [(blind_compileExpr c s e false).result_eq, id_map]
  | true =>
    obtain ⟨label, isLabel, same⟩ := exists_label c s e
    refine ⟨label, isLabel.eval, fun pool => ?_⟩
    rw [same, result_map, (blind_compileExpr c s e false).result_eq]

end

section
variable {c : Setting} {s : Schema} {e : Expr} {named : Bool} {pool : LiteralPool}

/-- A name does not change the value. -/
theorem exists_unnamed {p : ScalarExpr} (h : (compileExpr c s e named).result pool = .ok p) :
    ∃ q, (compileExpr c s e false).outcome = .ok q ∧ ∀ row, p.eval row = q.eval row := by
  obtain ⟨relabel, value, same⟩ := exists_relabel c s e named
  rw [same] at h
  cases hq : (compileExpr c s e false).outcome with
  | error error =>
    rw [hq] at h
    cases h
  | ok q =>
    rw [hq] at h
    cases h
    exact ⟨q, rfl, fun row => value row q⟩

/-- With a name an expression is compiled if it is compiled without one. -/
theorem compiles_named_iff : (∃ p, (compileExpr c s e named).result pool = .ok p) ↔
    ∃ q, (compileExpr c s e false).outcome = .ok q := by
  obtain ⟨relabel, -, same⟩ := exists_relabel c s e named
  rw [same]
  cases (compileExpr c s e false).outcome with
  | error error => exact iff_of_false nofun nofun
  | ok q => exact iff_of_true ⟨relabel q, rfl⟩ ⟨q, rfl⟩

/-- A name does not change the failure. -/
theorem result_eq_error_iff {error : Error} :
    (compileExpr c s e named).result pool = .error error ↔
      (compileExpr c s e false).outcome = .error error := by
  obtain ⟨relabel, -, same⟩ := exists_relabel c s e named
  rw [same]
  cases (compileExpr c s e false).outcome with
  | error error => exact Iff.rfl
  | ok q => exact iff_of_false nofun nofun

end

end ColumnPlan
