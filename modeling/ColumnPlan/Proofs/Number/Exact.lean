import ColumnPlan.Proofs.Number.Parts

/-!
# Integers that a float can hold

An integer becomes a float by moving it up until its leading bit is that of a mantissa.  With at
most 53 bits nothing is lost on the way.

* `round_integer`        the parts of an integer of at most 53 bits;
* `integer?_ofInt`       the float made of such an integer is that integer.
-/

namespace ColumnPlan

open Float.Model UnpackedFloat

/-! ### rounding -/

/-- Nothing is shifted out of a mantissa that has its exponent already. -/
theorem shiftToTargetExponent_of_target {m : Nat} {e : Int}
    (h : Format.binary64.targetExponent (totalExponent m e) = e) :
    shiftToTargetExponent .binary64 m e .exact = (⟨m, false, false⟩, e) := by
  unfold shiftToTargetExponent shiftToExponent
  dsimp only
  rw [h, Int.sub_self]
  show (_, e + ((0 : Nat) : Int)) = _
  rw [Int.natCast_zero, Int.add_zero]
  rfl

theorem roundWithAccuracy_of_target (s : Sign) {m : Nat} {e : Int} (hm : 0 < m)
    (h : Format.binary64.targetExponent (totalExponent m e) = e) :
    roundWithAccuracy .binary64 s m e .exact = .finite s m e hm := by
  have kept : (ExtendedMantissa.mk m false false).roundedMantissa = m := rfl
  unfold roundWithAccuracy
  rw [shiftToTargetExponent_of_target h]
  dsimp only
  rw [kept, shiftToTargetExponent_of_target h, dif_neg (Nat.pos_iff_ne_zero.mp hm)]

/-- An integer of at most 53 bits is moved up until its leading bit is that of a mantissa. -/
theorem round_integer (s : Sign) {m : Nat} (hm : 0 < m) (high : m < 2 ^ 53) :
    ∃ k : Nat, k ≤ 52 ∧ 2 ^ 52 ≤ m * 2 ^ k ∧ m * 2 ^ k < 2 ^ 53 ∧ ∃ h,
      UnpackedFloat.round .binary64 s m 0 = .finite s (m * 2 ^ k) (-(k : Int)) h := by
  have digits : m.log2 < 53 := (Nat.log2_lt (by omega)).mpr high
  obtain ⟨k, hk⟩ : ∃ k, m.log2 + k = 52 := ⟨52 - m.log2, by omega⟩
  have low : 2 ^ 52 ≤ m * 2 ^ k := by
    rw [← hk, Nat.pow_add]
    exact Nat.mul_le_mul_right _ (Nat.log2_self_le (by omega))
  have top : m * 2 ^ k < 2 ^ 53 := by
    rw [show 53 = (m.log2 + 1) + k by omega, Nat.pow_add]
    exact Nat.mul_lt_mul_of_pos_right Nat.lt_log2_self (Nat.two_pow_pos k)
  have pos : 0 < m * 2 ^ k := Nat.mul_pos hm (Nat.two_pow_pos k)
  have target : Format.binary64.targetExponent (totalExponent m 0) = -(k : Int) := by
    unfold Format.targetExponent totalExponent
    rw [mantissaBits_binary64, minExponent_binary64]
    omega
  have settled : Format.binary64.targetExponent (totalExponent (m * 2 ^ k) (-(k : Int))) =
      -(k : Int) := by
    unfold Format.targetExponent totalExponent
    rw [mantissaBits_binary64, minExponent_binary64,
      (Nat.log2_eq_iff (by omega)).mpr ⟨low, top⟩]
    omega
  refine ⟨k, by omega, low, top, pos, ?_⟩
  unfold UnpackedFloat.round decreaseExponent
  dsimp only
  rw [target, show (0 - -(k : Int)).toNat = k by omega, Nat.shiftLeft_eq, Int.zero_sub]
  exact roundWithAccuracy_of_target s pos settled

/-! ### the way back -/

/-- Below the point of a mantissa that was moved up there is nothing. -/
theorem toInt?_scaled (negative : Bool) (m k : Nat) :
    Dyadic.toInt? ⟨negative, m * 2 ^ k, -(k : Int)⟩ =
      some (if negative then -(m : Int) else m) := by
  unfold Dyadic.toInt? Dyadic.mantissaAt Dyadic.withSign
  dsimp only
  split
  · next h =>
    have whole : k = 0 := by omega
    subst whole
    rw [Nat.pow_zero, Nat.mul_one]
    rfl
  · rw [Int.neg_neg, Int.toNat_natCast, Nat.shiftLeft_eq, Nat.one_mul, Nat.mul_mod_left,
      if_pos rfl, Nat.mul_div_cancel _ (Nat.two_pow_pos k)]

theorem integer?_round (s : Sign) {m : Nat} (hm : 0 < m) (high : m < 2 ^ 53) :
    Double.integer? (.ofModel (.pack (UnpackedFloat.round .binary64 s m 0))) =
      some (if Dyadic.isNegative s then -(m : Int) else m) := by
  obtain ⟨k, hk, low, top, pos, rounded⟩ := round_integer s hm high
  have parts := unpack_pack_normal s pos low top (e := -(k : Int)) (by omega) (by omega)
  have value : Dyadic.ofDouble? (.ofModel (.pack (UnpackedFloat.round .binary64 s m 0))) =
      some ⟨Dyadic.isNegative s, m * 2 ^ k, -(k : Int)⟩ := by
    rw [rounded]
    exact congrArg Dyadic.ofUnpacked? parts
  unfold Double.integer?
  rw [value]
  exact toInt?_scaled _ m k

theorem integer?_ofInt {n : Int} (h : n.natAbs < 2 ^ 53) :
    Double.integer? (Double.ofInt n) = some n := by
  unfold Double.ofInt Float.Model.ofInt UnpackedFloat.ofInt UnpackedFloat.normalize
  rcases Int.lt_trichotomy n 0 with hn | rfl | hn
  · rw [Int.compare_eq_lt.mpr hn]
    dsimp only
    rw [integer?_round .negative (by omega) (by omega)]
    show some (-((-n).toNat : Int)) = some n
    rw [Int.toNat_of_nonneg (by omega), Int.neg_neg]
  · rfl
  · rw [Int.compare_eq_gt.mpr hn]
    dsimp only
    rw [integer?_round .positive (by omega) (by omega)]
    show some (n.toNat : Int) = some n
    rw [Int.toNat_of_nonneg (by omega)]

end ColumnPlan
