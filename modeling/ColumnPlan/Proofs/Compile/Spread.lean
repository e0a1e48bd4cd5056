import ColumnPlan.Proofs.Compile.Composite
import ColumnPlan.Proofs.Logical.Legible

/-!
# Compiled sums and products

A sum of up to three terms is compiled to the same tree, whether its terms are nested additions or
a chain; a sign in front of a chain is one in front of its first term.  So what a sum is compiled
to depends on its terms and the operators between them only, and so it is with products.

* `compileOperands`      operands behind their operators;
* `outcome_factors`      a product is compiled factor by factor;
* `summed`               a balanced tree of terms;
* `call_summed`          one more term on the right of up to two;
* `outcome_spread`       a legible sum is compiled term by term.
-/

namespace ColumnPlan

open Compile

section
variable (c : Setting) (s : Schema)

/-! ### operands behind their operators -/

/-- The operands, each behind its operator. -/
def compileOperands (rest : List (ArithmeticOp × Expr)) :
    Except Error (List (ArithmeticOp × ScalarExpr)) :=
  rest.mapM fun t => (compileExpr c s t.2 false).outcome >>= fun x => .ok (t.1, x)

theorem compileOperands_concat (rest : List (ArithmeticOp × Expr)) (op : ArithmeticOp) (e : Expr) :
    compileOperands c s (rest ++ [(op, e)]) =
      compileOperands c s rest >>= fun xs =>
        (compileExpr c s e false).outcome >>= fun x => .ok (xs ++ [(op, x)]) := by
  unfold compileOperands
  rw [List.mapM_append]
  congr 1
  funext xs
  rw [List.mapM_cons, List.mapM_nil]
  cases (compileExpr c s e false).outcome with
  | error e => rfl
  | ok x => rfl

/-- What is compiled to itself when nothing follows. -/
theorem outcome_alone (e : Expr) {build : ScalarExpr → List (ArithmeticOp × ScalarExpr) → ScalarExpr}
    (alone : ∀ x, build x [] = x) :
    (compileExpr c s e false).outcome = (compileExpr c s e false).outcome >>= fun first =>
      compileOperands c s [] >>= fun rest => .ok (build first rest) := by
  cases (compileExpr c s e false).outcome with
  | error e => rfl
  | ok x => exact congrArg Except.ok (alone x).symm

/-! ### products -/

/-- Operators one after the other. -/
def applied (first : ScalarExpr) (rest : List (ArithmeticOp × ScalarExpr)) : ScalarExpr :=
  rest.foldl (fun e t => .call t.1.function [e, t.2] none) first

theorem outcome_factors : (e : Expr) → (compileExpr c s e false).outcome =
    (compileExpr c s e.factors.1 false).outcome >>= fun first =>
      compileOperands c s e.factors.2 >>= fun rest => .ok (applied first rest)
  | .binary op left right => by
    have inLeft := outcome_factors left
    unfold Expr.factors
    split
    · exact outcome_alone c s _ fun _ => rfl
    · rw [outcome_binary, inLeft, compileOperands_concat]
      simp only [bind_assoc, ok_bind]
      congr 1
      funext first
      congr 1
      funext rest
      congr 1
      funext x
      rw [applied, applied, List.foldl_append]
      rfl
  | .path _ | .key | .const _ | .unary _ _ | .bracket _ _ | .caseWhen _ _ _ | .call _ _ _ _
  | .chain _ _ => outcome_alone c s _ fun _ => rfl

/-! ### sums -/

/-- The tree of a sum. -/
def summed (first : ScalarExpr) (rest : List (ArithmeticOp × ScalarExpr)) : ScalarExpr :=
  balanced false ⟨false, first⟩ (rest.map fun t => ⟨t.1 = .minus, t.2⟩)

theorem summed_nil (first : ScalarExpr) : summed first [] = first := balanced_nil false ⟨false, first⟩

theorem leaf_negative (t : SignedTerm) : t.leaf t.negative = t.expr := by
  unfold SignedTerm.leaf
  rw [bne_self_eq_false]
  rfl

/-- One more term on the right of up to two of them. -/
theorem call_summed (first : ScalarExpr) {rest : List (ArithmeticOp × ScalarExpr)}
    (short : rest.length ≤ 1) {op : ArithmeticOp} (sum : op.isSum = true) (x : ScalarExpr) :
    .call op.function [summed first rest, x] none = summed first (rest ++ [(op, x)]) := by
  have kind : op.function = if decide (op = .minus) != false then .minus else .add := by
    cases op with
    | plus | minus => rfl
    | star | div | mod => cases sum
  let last : SignedTerm := ⟨op = .minus, x⟩
  have alone : balanced last.negative last [] = x := (balanced_nil _ last).trans (leaf_negative last)
  have halves (rest : List SignedTerm) (half : (rest ++ [last]).length / 2 = rest.length) :
      balanced false ⟨false, first⟩ (rest ++ [last]) =
        .call op.function [balanced false ⟨false, first⟩ rest, x] none := by
    rw [balanced_of_drop false ⟨false, first⟩ (by rw [half, List.drop_left]), half, List.take_left,
      alone, kind]
  unfold summed
  rw [List.map_append, List.map_singleton, halves]
  rw [List.length_append, List.length_map, List.length_singleton]
  omega

/-- Of its first term a chain shows the sign and the term only. -/
theorem balanced_first {flipped : Bool} {first first' : SignedTerm}
    (h : first.leaf flipped = first'.leaf flipped) (rest : List SignedTerm) :
    balanced flipped first rest = balanced flipped first' rest := by
  induction flipped, first, rest using balanced_induction with
  | single flipped first => rw [balanced_nil, balanced_nil, h]
  | halves flipped first rest middle last split left right =>
    rw [balanced_of_drop flipped first split, balanced_of_drop flipped first' split, left h]

theorem compileOperands_zip {ops : List ArithmeticOp} {terms : List Expr}
    (length : ops.length = terms.length) :
    compileOperands c s (ops.zip terms) =
      (terms.mapM fun e => (compileExpr c s e false).outcome) >>= fun xs => .ok (ops.zip xs) := by
  induction terms generalizing ops with
  | nil =>
    rw [List.zip_nil_right, List.eq_nil_of_length_eq_zero length]
    rfl
  | cons term terms ih =>
    obtain ⟨op, ops, rfl⟩ := List.exists_cons_of_length_eq_add_one length
    have rest := ih (Nat.succ.inj length)
    unfold compileOperands at rest ⊢
    rw [List.zip_cons_cons, List.mapM_cons, List.mapM_cons, rest]
    simp only [bind_assoc, ok_bind]
    rfl

/-- The tree of a chain is that of the terms behind its first one. -/
theorem chainTree_eq {op : ArithmeticOp} (sign : op = .plus ∨ op = .minus) (ops : List ArithmeticOp)
    (first : ScalarExpr) (rest : List ScalarExpr) :
    chainTree (op :: ops) (first :: rest) =
      .ok (summed (if op = .minus then .call .negate [first] none else first) (ops.zip rest)) := by
  rw [chainTree_cons rfl, summed, ← List.map_uncurry_zip_eq_zipWith]
  refine congrArg Except.ok (balanced_first ?_ _)
  rcases sign with rfl | rfl
  · rfl
  · rfl

theorem outcome_chain_single {op : ArithmeticOp} (sign : op = .plus ∨ op = .minus) (term : Expr) :
    (compileExpr c s (.chain [term] [op]) false).outcome =
      (compileUnary c s op term none).outcome := by
  have checked : checkChain [term].length [op] = .ok () := by rcases sign with rfl | rfl <;> rfl
  rw [compileExpr]
  show outcome (liftM (checkChain [term].length [op]) >>= fun _ => compileUnary c s op term none) = _
  rw [outcome_bind _ fun _ => blind_compileUnary c s op term none, outcome_lift, checked]
  rfl

/-- **A sum is compiled term by term.** -/
theorem outcome_spread {V : String → Option Expr} : (e : Expr) → e.Legible V →
    (compileExpr c s e false).outcome =
      (compileExpr c s e.spread.1 false).outcome >>= fun first =>
        compileOperands c s e.spread.2 >>= fun rest => .ok (summed first rest)
  | .binary op left right, h => by
    obtain ⟨hl, -, nests⟩ := h
    have inLeft := outcome_spread left hl
    unfold Expr.Nests at nests
    unfold Expr.spread
    split
    · next sum =>
      rw [if_pos sum] at nests
      have short : ∀ xs, compileOperands c s left.spread.2 = .ok xs → xs.length ≤ 1 := fun xs hx =>
        (length_of_mapM hx).trans_le nests.1
      rw [outcome_binary, inLeft, compileOperands_concat]
      simp only [bind_assoc, ok_bind]
      congr 1
      funext first
      cases hx : compileOperands c s left.spread.2 with
      | error e => rfl
      | ok xs =>
        simp only [ok_bind, call_summed first (short xs hx) sum]
    · exact outcome_alone c s _ summed_nil
  | .chain terms ops, h => by
    obtain ⟨-, checked, -⟩ := h
    obtain ⟨term, rest, op, more, rfl, rfl, length, sign, -⟩ := exists_of_checkChain checked
    rcases rest with _ | ⟨next, rest⟩
    · cases List.eq_nil_of_length_eq_zero length
      have single := outcome_chain_single c s sign term
      rcases sign with rfl | rfl
      · exact (single.trans (by rw [compileUnary]; rfl)).trans (outcome_alone c s term summed_nil)
      · exact (single.trans (outcome_unary c s .minus term).symm).trans
          (outcome_alone c s (.unary .minus term) summed_nil)
    · have several : 2 ≤ (term :: next :: rest).length := Nat.le_add_left 2 rest.length
      rw [outcome_chain several, checked, List.mapM_cons, Expr.spread, compileOperands_zip c s length]
      rcases sign with rfl | rfl
      · simp only [bind_assoc, ok_bind, pure_bind, chainTree_eq (.inl rfl)]
        rfl
      · rw [if_pos rfl, outcome_unary, outcome_negated]
        simp only [bind_assoc, ok_bind, pure_bind, chainTree_eq (.inr rfl)]
        rfl
  | .path _, _ | .key, _ | .const _, _ | .unary _ _, _ | .bracket _ _, _ | .caseWhen _ _ _, _
  | .call _ _ _ _, _ => outcome_alone c s _ summed_nil

end

end ColumnPlan
