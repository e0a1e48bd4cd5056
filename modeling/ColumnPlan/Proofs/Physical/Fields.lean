import ColumnPlan.Physical.Eval
import ColumnPlan.Physical.Fields
import Mathlib.Data.List.Count

/-!
# What an expression depends on

The visit of an expression meets every index as often as it occurs, wherever predicates are set
aside on the way.  The cells at these indices, and the number of cells, decide what the expression
evaluates to on a row, or how it fails.

* `count_visitFields`        the visit loses no index and makes up none;
* `Row.Alike row other count`   rows of one length that agree wherever the count is positive;
* `eval_congr`, `evalPredicate_congr`   the evaluation on such rows;
* `eval_referencedFields`    an expression depends on the fields that it refers to.
-/

namespace ColumnPlan

/-! ### the visit -/

theorem ScalarExpr.fieldCounts_append (i : Nat) (es fs : List ScalarExpr) :
    fieldCounts i (es ++ fs) = fieldCounts i es + fieldCounts i fs := by
  induction es with
  | nil => rw [List.nil_append, fieldCounts, Nat.zero_add]
  | cons e es ih => rw [List.cons_append, fieldCounts, fieldCounts, ih, Nat.add_assoc]

theorem PredicateExpr.fieldCounts_append (i : Nat) (ps qs : List PredicateExpr) :
    fieldCounts i (ps ++ qs) = fieldCounts i ps + fieldCounts i qs := by
  induction ps with
  | nil => rw [List.nil_append, fieldCounts, Nat.zero_add]
  | cons p ps ih => rw [List.cons_append, fieldCounts, fieldCounts, ih, Nat.add_assoc]

/-- No index at hand or set aside is lost, and none is visited twice. -/
theorem count_visitFields (i : Nat) (es : List ScalarExpr) (ps : List PredicateExpr) :
    (visitFields es ps).count i =
      ScalarExpr.fieldCounts i es + PredicateExpr.fieldCounts i ps := by
  -- one case for each kind of node that the visit can meet first
  induction es, ps using visitFields.induct with
  | case1 ps index label es ih =>
    rw [visitFields, List.count_cons, ih, ScalarExpr.fieldCounts, ScalarExpr.fieldCount]
    simp only [beq_iff_eq]
    omega
  | case2 ps value label es ih =>
    rw [visitFields, ih, ScalarExpr.fieldCounts, ScalarExpr.fieldCount, Nat.zero_add]
  | case3 ps function args label es ih =>
    rw [visitFields, ih, ScalarExpr.fieldCounts_append, ScalarExpr.fieldCounts,
      ScalarExpr.fieldCount]
  | case4 ps label child es ih =>
    rw [visitFields, ih, ScalarExpr.fieldCounts, ScalarExpr.fieldCounts, ScalarExpr.fieldCount]
  | case5 ps p es ih =>
    rw [visitFields, ih, ScalarExpr.fieldCounts, ScalarExpr.fieldCount, PredicateExpr.fieldCounts]
    omega
  | case6 function operands ps ih =>
    rw [visitFields, ih, PredicateExpr.fieldCounts, PredicateExpr.fieldCount,
      ScalarExpr.fieldCounts]
    omega
  | case7 children ps ih | case8 children ps ih =>
    rw [visitFields, ih, PredicateExpr.fieldCounts_append, PredicateExpr.fieldCounts,
      PredicateExpr.fieldCount]
  | case9 ps ih | case10 ps ih =>
    rw [visitFields, ih, PredicateExpr.fieldCounts, PredicateExpr.fieldCount, Nat.zero_add]
  | case11 => rw [visitFields, ScalarExpr.fieldCounts, PredicateExpr.fieldCounts, List.count_nil]

/-- Every index is referred to as often as it occurs. -/
theorem count_referencedFields (i : Nat) (e : ScalarExpr) :
    e.referencedFields.count i = e.fieldCount i := by
  unfold ScalarExpr.referencedFields
  rw [count_visitFields, ScalarExpr.fieldCounts, ScalarExpr.fieldCounts,
    PredicateExpr.fieldCounts, Nat.add_zero]

/-! ### rows -/

/-- Rows of one length that agree on every index with a positive count. -/
structure Row.Alike (row other : Row) (count : Nat → Nat) : Prop where
  length : row.length = other.length
  cell : ∀ i, count i ≠ 0 → row[i]? = other[i]?

namespace Row.Alike
variable {row other : Row} {count more : Nat → Nat}

theorem left (h : Alike row other fun i => count i + more i) : Alike row other count where
  length := h.length
  cell i hi := h.cell i (by omega)

theorem right (h : Alike row other fun i => count i + more i) : Alike row other more where
  length := h.length
  cell i hi := h.cell i (by omega)

end Row.Alike

/-! ### evaluation -/

section
variable {row other : Row}

mutual

/-- **An expression evaluates alike on rows that agree on its fields**, or fails alike. -/
theorem eval_congr : (e : ScalarExpr) → row.Alike other (fun i => e.fieldCount i) →
    e.eval row = e.eval other
  | .field index label, h => by
    have cell := h.cell index (by rw [ScalarExpr.fieldCount, if_pos rfl]; exact Nat.one_ne_zero)
    rw [ScalarExpr.eval, ScalarExpr.eval, cell, h.length]
  | .literal value label, h => rfl
  | .call function args label, h => by
    by_cases lazy : function = .caseWhen
    · subst lazy
      rw [ScalarExpr.eval, ScalarExpr.eval, evalCases_congr args h]
    · rw [ScalarExpr.eval.eq_4 row function args label lazy,
        ScalarExpr.eval.eq_4 other function args label lazy, evalAll_congr args h]
  | .rename label child, h => by
    rw [ScalarExpr.eval, ScalarExpr.eval, eval_congr child h]
  | .predicate p, h => by
    rw [ScalarExpr.eval, ScalarExpr.eval, evalPredicate_congr p h]

theorem evalAll_congr : (es : List ScalarExpr) →
    row.Alike other (fun i => ScalarExpr.fieldCounts i es) →
    ScalarExpr.evalAll row es = ScalarExpr.evalAll other es
  | [], h => rfl
  | e :: es, h => by
    rw [ScalarExpr.evalAll, ScalarExpr.evalAll, eval_congr e h.left, evalAll_congr es h.right]

theorem evalCases_congr : (es : List ScalarExpr) →
    row.Alike other (fun i => ScalarExpr.fieldCounts i es) →
    ScalarExpr.evalCases row es = ScalarExpr.evalCases other es
  | [], h => rfl
  | [last], h => by
    rw [ScalarExpr.evalCases, ScalarExpr.evalCases, eval_congr last h.left]
  | condition :: result :: rest, h => by
    rw [ScalarExpr.evalCases, ScalarExpr.evalCases, eval_congr condition h.left,
      eval_congr result h.right.left, evalCases_congr rest h.right.right]

theorem evalOperands_congr : (es : List ScalarExpr) →
    row.Alike other (fun i => ScalarExpr.fieldCounts i es) →
    ScalarExpr.evalOperands row es = ScalarExpr.evalOperands other es
  | [], h => rfl
  | e :: es, h => by
    rw [ScalarExpr.evalOperands, ScalarExpr.evalOperands, eval_congr e h.left,
      evalOperands_congr es h.right]

/-- **So does a predicate.** -/
theorem evalPredicate_congr : (p : PredicateExpr) → row.Alike other (fun i => p.fieldCount i) →
    p.eval row = p.eval other
  | .compare function operands, h => by
    rw [PredicateExpr.eval, PredicateExpr.eval, evalOperands_congr operands h]
  | .and children, h => by
    rw [PredicateExpr.eval, PredicateExpr.eval, evalAnd_congr children h]
  | .or children, h => by
    rw [PredicateExpr.eval, PredicateExpr.eval, evalOr_congr children h]
  | .always, h | .never, h => rfl

theorem evalAnd_congr : (ps : List PredicateExpr) →
    row.Alike other (fun i => PredicateExpr.fieldCounts i ps) →
    PredicateExpr.evalAnd row ps = PredicateExpr.evalAnd other ps
  | [], h => rfl
  | p :: ps, h => by
    rw [PredicateExpr.evalAnd, PredicateExpr.evalAnd, evalPredicate_congr p h.left,
      evalAnd_congr ps h.right]

theorem evalOr_congr : (ps : List PredicateExpr) →
    row.Alike other (fun i => PredicateExpr.fieldCounts i ps) →
    PredicateExpr.evalOr row ps = PredicateExpr.evalOr other ps
  | [], h => rfl
  | p :: ps, h => by
    rw [PredicateExpr.evalOr, PredicateExpr.evalOr, evalPredicate_congr p h.left,
      evalOr_congr ps h.right]

end

end

/-- **An expression depends only on the fields that it refers to.**  They are listed as often as
they occur, and nothing else is; and rows of one length that agree on them give the same cell, or
the same error. -/
theorem eval_referencedFields (e : ScalarExpr) :
    (∀ i, e.referencedFields.count i = e.fieldCount i) ∧
    ∀ row other : Row, row.length = other.length →
      (∀ i ∈ e.referencedFields, row[i]? = other[i]?) → e.eval row = e.eval other := by
  refine ⟨fun i => count_referencedFields i e, fun row other length agree => ?_⟩
  refine eval_congr e ⟨length, fun i occurs => agree i ?_⟩
  rw [← List.count_pos_iff, count_referencedFields]
  exact Nat.pos_of_ne_zero occurs

namespace Sample

/-- A field and, where another field is 1, the same field again. -/
def guardedSum : ScalarExpr :=
  .call .add [.field 0 none, .call .caseWhen [.predicate (.and [.compare (.compare .eq)
    [.field 2 none, .literal (.long 1) none]]), .field 0 none] none] none

end Sample

/-- The field 1 does not occur, so any two cells will do for it. -/
theorem eval_referencedFields_guarded :
    Sample.guardedSum.referencedFields = [0, 0, 2] ∧
      Sample.guardedSum.eval [some (.long 3), none, some (.long 1)] =
        Sample.guardedSum.eval [some (.long 3), some (.boolean true), some (.long 1)] := by
  have fields : Sample.guardedSum.referencedFields = [0, 0, 2] := by
    simp [ScalarExpr.referencedFields, Sample.guardedSum, visitFields]
  refine ⟨fields, (eval_referencedFields Sample.guardedSum).2 _ _ rfl ?_⟩
  rw [fields]
  decide

end ColumnPlan
