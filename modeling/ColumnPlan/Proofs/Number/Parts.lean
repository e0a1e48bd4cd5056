import ColumnPlan.Number.Dyadic
import Mathlib

/-!
# Floats and their parts

A 64-bit float is a sign, an exponent of 11 bits and a mantissa of 52 bits, to which a leading bit
belongs that is not stored.  Floats that compare as equal are the same float, but for the two
zeros.

* `unpack_pack_normal`          parts with a leading bit are the parts of a float;
* `Double.integer?`             the integer that a float is, if it is one;
* `eq_or_integer?_of_compare`   floats that compare as equal.
-/

namespace ColumnPlan

open Float.Model UnpackedFloat

/-! ### the format -/

theorem exponentBias_binary64 : Format.binary64.exponentBias = 1023 := rfl

theorem mantissaBits_binary64 : Format.binary64.mantissaBits = 53 := rfl

theorem minExponent_binary64 : Format.binary64.minExponent = -1074 := rfl

/-! ### floats with a leading bit -/

/-- the mantissa with its leading bit -/
theorem toNat_one_append (v : BitVec 52) : (1#1 ++ v).toNat = 2 ^ 52 + v.toNat := by
  rw [BitVec.toNat_append, ← Nat.shiftLeft_add_eq_or_of_lt v.isLt, Nat.shiftLeft_eq]
  rfl

theorem pack_normal (s : Sign) {m : Nat} {e : Int} (h : 0 < m) (low : 2 ^ 52 ≤ m)
    (high : m < 2 ^ 53) (he : e ≤ 971) :
    UnpackedFloat.pack .binary64 (.finite s m e h) =
      packComponents .binary64 s (.ofNat _ (e + 1075).toNat) (.ofNat _ m) := by
  have digits : m.log2 = 52 := (Nat.log2_eq_iff (by omega)).mpr ⟨low, high⟩
  have biased : e + (1023 : Nat) + (52 : Nat) = e + 1075 := by omega
  unfold UnpackedFloat.pack
  dsimp only
  rw [exponentBias_binary64, mantissaBits_binary64, biased, digits, if_neg (by omega),
    if_pos rfl]

theorem unpack_pack_normal (s : Sign) {m : Nat} {e : Int} (h : 0 < m) (low : 2 ^ 52 ≤ m)
    (high : m < 2 ^ 53) (he : -1074 ≤ e) (he' : e ≤ 971) :
    UnpackedFloat.unpack .binary64 (UnpackedFloat.pack .binary64 (.finite s m e h)) =
      .finite s m e h := by
  have exponent : (BitVec.ofNat 11 (e + 1075).toNat).toNat = (e + 1075).toNat := by
    rw [BitVec.toNat_ofNat, Nat.mod_eq_of_lt (by omega)]
  -- the stored exponent is none of the two that have a meaning of their own
  have top : BitVec.ofNat 11 (e + 1075).toNat ≠ -1#11 := fun h => by
    have : (e + 1075).toNat = 2047 := exponent.symm.trans (congrArg BitVec.toNat h)
    omega
  have bottom : BitVec.ofNat 11 (e + 1075).toNat ≠ 0#11 := fun h => by
    have : (e + 1075).toNat = 0 := exponent.symm.trans (congrArg BitVec.toNat h)
    omega
  have mantissa : (1#1 ++ BitVec.ofNat 52 m).toNat = m := by
    rw [toNat_one_append, BitVec.toNat_ofNat]
    omega
  have back : ((BitVec.ofNat 11 (e + 1075).toNat).toNat : Int) - ((1023 : Nat) + (52 : Nat)) =
      e := by
    rw [exponent]
    omega
  rw [pack_normal s h low high he']
  unfold UnpackedFloat.unpack
  simp only [unpackExponent_packComponents, unpackMantissa_packComponents,
    unpackSign_packComponents, Sign.ofBitVec_toBitVec]
  rw [if_neg top, if_neg bottom]
  simp only [exponentBias_binary64, back, mantissa]

/-! ### comparison -/

theorem beq_iff_compare (x y : Float) :
    (x == y) = true ↔ x.toModel.compare y.toModel = some .eq := by
  show (x.toModel.compare y.toModel == some .eq) = true ↔ _
  exact beq_iff_eq

theorem compare_symm {x y : Float} (h : x.toModel.compare y.toModel = some .eq) :
    y.toModel.compare x.toModel = some .eq := by
  rw [← beq_iff_compare] at h ⊢
  exact BEq.symm h

/-- the integer that a float is, if it is one -/
def Double.integer? (x : Float) : Option Int := (Dyadic.ofDouble? x).bind Dyadic.toInt?

/-- Floats that compare as equal are the same, or both are zeros. -/
theorem eq_or_integer?_of_compare {x y : Float}
    (h : x.toModel.compare y.toModel = some .eq) :
    x = y ∨ (Double.integer? x = some 0 ∧ Double.integer? y = some 0) := by
  rw [← beq_iff_compare, Float.beq_iff_ne_nan_and_eq] at h
  obtain ⟨-, -, same | ⟨rfl, rfl⟩ | ⟨rfl, rfl⟩⟩ := h
  · exact .inl same
  · exact .inr ⟨rfl, rfl⟩
  · exact .inr ⟨rfl, rfl⟩

end ColumnPlan
