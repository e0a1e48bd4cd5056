import ColumnPlan.Proofs.Logical.Meaning
import ColumnPlan.Proofs.Physical.Holds

/-!
# When a comparison holds

The evaluation of a comparison gives up at a NULL and fails with its operands; the truth value of
a comparison is unknown in both cases.  They agree on when a comparison is true.

* `ScalarExpr.value? row e`    the value of an expression, if it has one;
* `holds_comparison`           a predicate between two operands holds iff the comparison of
                               their values is true;
* `holds_test`                 a predicate on one operand holds iff it has a value that passes.
-/

namespace ColumnPlan

/-- the value of an expression; none for NULL and where the evaluation fails -/
def ScalarExpr.value? (row : Row) (e : ScalarExpr) : Option Value :=
  match e.eval row with
  | .ok cell => cell
  | .error _ => none

theorem ScalarExpr.value?_field (row : Row) (i : Nat) (label : Option String) :
    (ScalarExpr.field i label).value? row = row.value? i := by
  unfold ScalarExpr.value? Row.value?
  rw [ScalarExpr.eval]
  cases row[i]? with
  | none => rfl
  | some cell => rfl

theorem ScalarExpr.value?_literal (row : Row) (v : Value) (label : Option String) :
    (ScalarExpr.literal v label).value? row = some v := by
  unfold ScalarExpr.value?
  rw [ScalarExpr.eval]

/-! ### values -/

theorem Comparison.holdsFor_eq_true_iff {c : Comparison} (h : c.isLike = false)
    (o : Option Ordering) :
    c.holdsFor o = true ↔ o.elim .unknown (fun o => Truth.ofBool (c.accepts o)) = .true := by
  cases o with
  | none =>
    have hf : c.holdsFor none = false := by cases c <;> rfl
    rw [hf]
    exact iff_of_false Bool.false_ne_true fun unknown => by cases unknown
  | some o =>
    show _ ↔ Truth.ofBool (c.accepts o) = .true
    rw [Truth.ofBool_eq_true_iff]
    have ha : c.holdsFor (some o) = c.accepts o := by
      cases c <;> cases o <;> trivial
    rw [ha]

theorem likeHolds_eq_true_iff (wanted : Bool) (x y : Value) :
    likeHolds wanted x y = .ok true ↔ Comparison.likeTruth wanted x y = .true := by
  unfold likeHolds Comparison.likeTruth
  cases x.bytes? with
  | none => exact iff_of_false nofun nofun
  | some bytes =>
    cases y.bytes? with
    | none => exact iff_of_false nofun nofun
    | some p =>
      dsimp only
      cases LikePattern.ofBytes? p with
      | none => exact iff_of_false nofun nofun
      | some regex => rw [Except.ok.injEq, Truth.ofBool_eq_true_iff]

theorem Comparison.holds_eq_true_iff (c : Comparison) (x y : Value) :
    c.holds x y = .ok true ↔ c.truth x y = .true := by
  by_cases h : c.isLike = true
  · cases c with
    | like => exact likeHolds_eq_true_iff true x y
    | notLike => exact likeHolds_eq_true_iff false x y
    | _ => cases h
  · have hc : c.isLike = false := Bool.eq_false_iff.mpr h
    have hh : c.holds x y = .ok (c.holdsFor (x.compare? y)) := by
      cases c <;> first | rfl | cases hc
    rw [hh, truth_eq_of_not_isLike hc, ← holdsFor_eq_true_iff hc, Except.ok.injEq]

/-! ### operands -/

namespace PredicateExpr
variable (row : Row)

/-- operands in the right number are all there is to a comparison -/
theorem eval_compare {f : PredicateFunction} {operands : List ScalarExpr}
    (h : operands.length = f.arity) :
    (PredicateExpr.compare f operands).eval row =
      ScalarExpr.evalOperands row operands >>= fun found =>
        found.elim (.ok false) f.holds := by
  rw [PredicateExpr.eval, if_pos h]
  congr 1
  funext found
  cases found with
  | none => rfl
  | some values => rfl

theorem holds_comparison (c : Comparison) (a b : ScalarExpr) :
    (PredicateExpr.compare (.compare c) [a, b]).Holds row ↔
      c.between (a.value? row) (b.value? row) = .true := by
  rw [holds_compare, eval_compare row (f := .compare c) rfl]
  unfold ScalarExpr.value?
  simp only [ScalarExpr.evalOperands]
  cases a.eval row with
  | error e => constructor <;> rintro ⟨⟩
  | ok x =>
    cases x with
    | none => constructor <;> rintro ⟨⟩
    | some x =>
      cases b.eval row with
      | error e => constructor <;> rintro ⟨⟩
      | ok y =>
        cases y with
        | none => constructor <;> rintro ⟨⟩
        | some y => exact c.holds_eq_true_iff x y

theorem holds_test {f : PredicateFunction} (hf : f.arity = 1) (a : ScalarExpr) :
    (PredicateExpr.compare f [a]).Holds row ↔
      ∃ v, a.value? row = some v ∧ f.holds [v] = .ok true := by
  rw [holds_compare, eval_compare row (show [a].length = f.arity from hf.symm)]
  unfold ScalarExpr.value?
  simp only [ScalarExpr.evalOperands]
  cases a.eval row with
  | error e =>
    constructor
    · rintro ⟨⟩
    · rintro ⟨_, ⟨⟩, _⟩
  | ok x =>
    cases x with
    | none =>
      constructor
      · rintro ⟨⟩
      · rintro ⟨_, ⟨⟩, _⟩
    | some x =>
      constructor
      · intro h; exact ⟨x, rfl, h⟩
      · rintro ⟨v, hv, h⟩
        cases hv
        exact h

end PredicateExpr

end ColumnPlan
