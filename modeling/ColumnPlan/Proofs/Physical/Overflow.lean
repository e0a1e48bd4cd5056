import ColumnPlan.Proofs.Physical.Arithmetic

/-!
# Exact results and overflows

An operation on two integers yields its exact result as long as this fits the wider of their types,
and an overflow otherwise.  Division by zero alone yields NULL.  There is one exception: the
remainder of the least number of a type and -1 is zero, but counts as an overflow.

* `DividesTo a b q m`               division toward zero;
* `ArithmeticFunction.Exact f a b z`   the number is the exact result of an operation;
* `integerResult?_eq_some_iff`      the result that is computed is the exact one;
* `ValueType.Fits`                  the number fits the type;
* `onInts_of_fits`, `onInts_of_overflow`   an operation whose exact result is known;
* `eval_exact`                      what a call of an operation yields.
-/

namespace ColumnPlan

/-! ### exact results -/

/-- Division toward zero: the remainder is smaller than the divisor and has the sign of the
dividend, if any. -/
structure DividesTo (a b quotient remainder : Int) : Prop where
  sum : remainder + b * quotient = a
  small : remainder.natAbs < b.natAbs
  nonneg : 0 ≤ a → 0 ≤ remainder
  nonpos : a ≤ 0 → remainder ≤ 0

theorem dividesTo_iff {a b q m : Int} :
    DividesTo a b q m ↔ b ≠ 0 ∧ a.tdiv b = q ∧ a.tmod b = m := by
  constructor
  · intro h
    have divisor : b ≠ 0 := by
      intro zero
      have := h.small
      omega
    refine ⟨divisor, ?_⟩
    rcases Int.le_total 0 a with ha | ha
    · exact (Int.tdiv_tmod_unique ha divisor).mpr ⟨h.sum, h.nonneg ha, by have := h.small; omega⟩
    · exact (Int.tdiv_tmod_unique' ha divisor).mpr ⟨h.sum, by have := h.small; omega, h.nonpos ha⟩
  · rintro ⟨divisor, rfl, rfl⟩
    have small : (a.tmod b).natAbs < b.natAbs := by
      rw [Int.natAbs_tmod]
      exact Nat.mod_lt _ (Int.natAbs_pos.mpr divisor)
    have opposite : (-a).tmod b = -a.tmod b := Int.neg_tmod a b
    refine ⟨Int.tmod_add_mul_tdiv a b, small, fun ha => Int.tmod_nonneg b ha, fun ha => ?_⟩
    have := Int.tmod_nonneg b (Int.neg_nonneg_of_nonpos ha)
    omega

namespace ArithmeticFunction

/-- The operation divides its first operand by its second one. -/
def IsDivision (f : ArithmeticFunction) : Prop := f = .ratio ∨ f = .mod

/-- The number is the exact result of the operation. -/
def Exact (f : ArithmeticFunction) (a b z : Int) : Prop :=
  match f with
  | .add => z = a + b
  | .minus => z = a - b
  | .multiply => z = a * b
  | .ratio => ∃ remainder, DividesTo a b z remainder
  | .mod => ∃ quotient, DividesTo a b quotient z

variable {f : ArithmeticFunction} {a b z : Int}

theorem integerResult?_eq_some_iff : f.integerResult? a b = some z ↔ f.Exact a b z := by
  cases f with
  | add | minus | multiply =>
    unfold integerResult? Exact
    rw [Option.some.injEq, eq_comm]
  | ratio =>
    unfold integerResult? Exact
    simp only [dividesTo_iff, exists_and_left, exists_eq', and_true]
    by_cases hb : b = 0
    · simp [hb]
    · simp [hb]
  | mod =>
    unfold integerResult? Exact
    simp only [dividesTo_iff, exists_and_left, exists_eq_left']
    by_cases hb : b = 0
    · simp [hb]
    · simp [hb]

theorem integerResult?_eq_none_iff : f.integerResult? a b = none ↔ f.IsDivision ∧ b = 0 := by
  unfold IsDivision
  cases f with
  | add | minus | multiply => simp [integerResult?]
  | ratio | mod => simp [integerResult?]

/-- Where nothing is divided by zero there is one exact result. -/
theorem exists_unique_exact (h : ¬ (f.IsDivision ∧ b = 0)) : ∃! z, f.Exact a b z := by
  obtain ⟨z, hz⟩ := Option.ne_none_iff_exists'.mp (mt integerResult?_eq_none_iff.mp h)
  refine ⟨z, integerResult?_eq_some_iff.mp hz, fun y hy => ?_⟩
  have := hz.symm.trans (integerResult?_eq_some_iff.mpr hy)
  exact (Option.some.inj this).symm

end ArithmeticFunction

/-! ### widths -/

/-- The number fits an integral type, which has 32 or 64 bits. -/
def ValueType.Fits (t : ValueType) (z : Int) : Prop :=
  if t = .integer then -2 ^ 31 ≤ z ∧ z < 2 ^ 31 else -2 ^ 63 ≤ z ∧ z < 2 ^ 63

instance (t : ValueType) (z : Int) : Decidable (t.Fits z) :=
  inferInstanceAs (Decidable (ite _ _ _))

theorem Value.ofInt?_of_fits {t : ValueType} {z : Int} (h : t.Fits z) :
    ∃ v, ofInt? t z = some v := by
  have narrow : Int32.minValue.toInt = -2 ^ 31 ∧ Int32.maxValue.toInt = 2 ^ 31 - 1 := ⟨rfl, rfl⟩
  have wide : Int64.minValue.toInt = -2 ^ 63 ∧ Int64.maxValue.toInt = 2 ^ 63 - 1 := ⟨rfl, rfl⟩
  unfold ValueType.Fits at h
  unfold ofInt?
  split
  · next integer =>
    rw [if_pos integer] at h
    exact ⟨_, if_pos (by omega)⟩
  · next long =>
    rw [if_neg long] at h
    exact ⟨_, if_pos (by omega)⟩

theorem Value.ofInt?_of_not_fits {t : ValueType} {z : Int} (h : ¬ t.Fits z) :
    ofInt? t z = none := by
  have narrow : Int32.minValue.toInt = -2 ^ 31 ∧ Int32.maxValue.toInt = 2 ^ 31 - 1 := ⟨rfl, rfl⟩
  have wide : Int64.minValue.toInt = -2 ^ 63 ∧ Int64.maxValue.toInt = 2 ^ 63 - 1 := ⟨rfl, rfl⟩
  unfold ValueType.Fits at h
  unfold ofInt?
  split
  · next integer =>
    rw [if_pos integer] at h
    exact if_neg (by omega)
  · next long =>
    rw [if_neg long] at h
    exact if_neg (by omega)

/-! ### operations -/

namespace ArithmeticFunction

/-- The remainder of the least number of the type and -1. -/
def IsLeastRemainder (f : ArithmeticFunction) (t : ValueType) (a b : Int) : Prop :=
  f = .mod ∧ a = t.least ∧ b = -1

theorem quotientOverflows_eq_true_iff {f : ArithmeticFunction} {t : ValueType} {a b : Int} :
    f.quotientOverflows t.least a b = true ↔ f.IsLeastRemainder t a b := by
  unfold quotientOverflows IsLeastRemainder
  rw [Bool.and_eq_true, Bool.and_eq_true, decide_eq_true_iff, decide_eq_true_iff,
    decide_eq_true_iff, and_assoc]

variable {f : ArithmeticFunction} {t : ValueType} {a b z : Int}

theorem onInts_of_division (h : f.IsDivision ∧ b = 0) :
    f.onInts (Value.ofInt? t) t.least a b = .ok none := by
  unfold onInts
  rw [integerResult?_eq_none_iff.mpr h]

/-- An exact result that fits is a value of the type. -/
theorem onInts_of_fits (ht : t = .integer ∨ t = .long) (hz : f.Exact a b z) (fits : t.Fits z)
    (h : ¬ f.IsLeastRemainder t a b) :
    ∃ x, f.onInts (Value.ofInt? t) t.least a b = .ok (some x) ∧ x.toInt? = some z ∧
      x.type = t := by
  obtain ⟨x, hx⟩ := Value.ofInt?_of_fits fits
  have kept : f.quotientOverflows t.least a b = false :=
    Bool.eq_false_iff.mpr (mt quotientOverflows_eq_true_iff.mp h)
  refine ⟨x, ?_, Value.toInt?_of_ofInt? ht hx⟩
  unfold onInts
  rw [integerResult?_eq_some_iff.mpr hz]
  simp only [hx, kept, Bool.false_eq_true, if_false]

theorem onInts_of_overflow (hz : f.Exact a b z) (h : ¬ t.Fits z ∨ f.IsLeastRemainder t a b) :
    f.onInts (Value.ofInt? t) t.least a b = .error (.evaluation (.overflow f.name)) := by
  unfold onInts
  rw [integerResult?_eq_some_iff.mpr hz]
  dsimp only
  cases hx : Value.ofInt? t z with
  | none => rfl
  | some x =>
    have least : f.IsLeastRemainder t a b := by
      refine h.resolve_left fun misfit => ?_
      rw [Value.ofInt?_of_not_fits misfit] at hx
      cases hx
    exact if_pos (quotientOverflows_eq_true_iff.mpr least)

end ArithmeticFunction

/-- **Integer arithmetic is exact or an overflow**, in the wider type of the two operands.  It yields
NULL for a division by zero and for nothing else.  Otherwise there is one exact result, and the call
yields it if it fits, but for the remainder of the least number and -1, and an overflow if not. -/
theorem eval_exact (f : ArithmeticFunction) {row : Row} {l r : ScalarExpr} (label : Option String)
    {v w : Value} {a b : Int} (hl : l.eval row = .ok (some v)) (hr : r.eval row = .ok (some w))
    (hv : v.toInt? = some a) (hw : w.toInt? = some b) :
    let result := (ScalarExpr.call f.function [l, r] label).eval row
    let type := v.type.wider w.type
    (result = .ok none ↔ f.IsDivision ∧ b = 0) ∧
    (¬ (f.IsDivision ∧ b = 0) → ∃! z, f.Exact a b z) ∧
    ∀ z, f.Exact a b z →
      ((∃ x, result = .ok (some x) ∧ x.toInt? = some z ∧ x.type = type) ↔
        type.Fits z ∧ ¬ f.IsLeastRemainder type a b) ∧
      (result = .error (.evaluation (.overflow f.name)) ↔
        ¬ type.Fits z ∨ f.IsLeastRemainder type a b) := by
  intro result type
  have integral : type = .integer ∨ type = .long := v.type.wider_isIntegral w.type
  have computed : result = f.onInts (Value.ofInt? type) type.least a b := by
    show (ScalarExpr.call f.function [l, r] label).eval row = _
    rw [eval_arithmetic, hl, hr]
    exact arithmetic_of_toInt? f hv hw
  rw [computed]
  refine ⟨⟨fun null => ?_, f.onInts_of_division⟩, f.exists_unique_exact, fun z hz => ?_⟩
  · by_contra h
    obtain ⟨z, hz, -⟩ := f.exists_unique_exact (a := a) h
    by_cases fits : type.Fits z ∧ ¬ f.IsLeastRemainder type a b
    · obtain ⟨x, hx, -⟩ := f.onInts_of_fits integral hz fits.1 fits.2
      cases null.symm.trans hx
    · have overflow := f.onInts_of_overflow hz ((not_and_or.mp fits).imp_right not_not.mp)
      cases null.symm.trans overflow
  · by_cases fits : type.Fits z ∧ ¬ f.IsLeastRemainder type a b
    · obtain ⟨x, hx, shown⟩ := f.onInts_of_fits integral hz fits.1 fits.2
      refine ⟨iff_of_true ⟨x, hx, shown⟩ fits, ?_⟩
      rw [hx]
      exact iff_of_false nofun (not_or.mpr ⟨not_not.mpr fits.1, fits.2⟩)
    · have misfit := (not_and_or.mp fits).imp_right not_not.mp
      have overflow := f.onInts_of_overflow hz misfit
      refine ⟨iff_of_false ?_ fits, iff_of_true overflow misfit⟩
      rintro ⟨x, hx, -⟩
      cases overflow.symm.trans hx

/-- The remainder of the least `INTEGER` and the `BIGINT` -1 is a `BIGINT` zero. -/
theorem eval_exact_mixed :
    ∃ x, (ScalarExpr.call .mod [.field 0 none, .field 1 none] none).eval
        [some (.integer Int32.minValue), some (.long (-1))] = .ok (some x) ∧
      x.toInt? = some 0 ∧ x.type = .long := by
  have exact : ArithmeticFunction.mod.Exact Int32.minValue.toInt (-1) 0 :=
    ⟨2147483648, by decide, by decide, fun _ => by decide, fun _ => by decide⟩
  have least : (ScalarExpr.field 0 none).eval [some (.integer Int32.minValue), some (.long (-1))] =
      .ok (some (.integer Int32.minValue)) := rfl
  have divisor : (ScalarExpr.field 1 none).eval
      [some (.integer Int32.minValue), some (.long (-1))] = .ok (some (.long (-1))) := rfl
  obtain ⟨-, -, h⟩ := eval_exact .mod none least divisor rfl rfl
  refine (h 0 exact).1.mpr ⟨by decide, ?_⟩
  rintro ⟨-, least, -⟩
  exact absurd least (by decide)

/-- Within one type the same remainder is zero as well, and zero fits, but it counts as an
overflow. -/
theorem eval_least_remainder :
    ArithmeticFunction.mod.Exact Int32.minValue.toInt (-1) 0 ∧ ValueType.integer.Fits 0 ∧
      (ScalarExpr.call .mod [.field 0 none, .field 1 none] none).eval
        [some (.integer Int32.minValue), some (.integer (-1))] =
          .error (.evaluation (.overflow "mod")) := by
  refine ⟨⟨2147483648, by decide, by decide, fun _ => by decide, fun _ => by decide⟩, ?_, rfl⟩
  decide

end ColumnPlan
