import ColumnPlan.Proofs.Physical.Safe
import Mathlib.Algebra.Order.Ring.Int

/-!
# Integers of two widths

An integer is an `INTEGER` or a `LONG`, and an operation on two of them is carried out in the wider
of their types.  It yields the exact result, or an overflow if the result does not fit that type.

* `ValueType.wider`           the type in which two integers meet;
* `Value.ofInt? type z`       a number as a value of an integral type, if it fits;
* `exists_ofInt?`             a number of no more than 31 bits fits any;
* `arithmetic_of_toInt?`      an operation on two integers;
* `negateValue_of_toInt?`     the opposite of an integer;
* `eval_arithmetic`, `eval_negate`   calls with operands.
-/

namespace ColumnPlan

/-- The type in which two integers meet. -/
def ValueType.wider (t u : ValueType) : ValueType :=
  if t = .integer ∧ u = .integer then .integer else .long

/-- The least number of an integral type. -/
def ValueType.least (t : ValueType) : Int :=
  if t = .integer then Int32.minValue.toInt else Int64.minValue.toInt

namespace Value

/-- A number as a value of an integral type, if it fits. -/
def ofInt? (type : ValueType) (z : Int) : Option Value :=
  if type = .integer then integer? z else long? z

theorem isIntegral_iff {v : Value} :
    v.type = .integer ∨ v.type = .long ↔ ∃ n, v.toInt? = some n := by
  cases v with
  | integer n | long n => simp [type, toInt?]
  | boolean b | float x | double x | binary bytes => simp [type, toInt?]

theorem toInt?_of_integer? {z : Int} {v : Value} (h : integer? z = some v) :
    v.toInt? = some z ∧ v.type = .integer := by
  unfold integer? at h
  split at h
  · next fits =>
    cases h
    have high : z < 2 ^ 31 := Int.lt_of_le_of_lt fits.2 (by decide)
    exact ⟨congrArg some (Int32.toInt_ofInt_of_le fits.1 high), rfl⟩
  · cases h

theorem toInt?_of_long? {z : Int} {v : Value} (h : long? z = some v) :
    v.toInt? = some z ∧ v.type = .long := by
  unfold long? at h
  split at h
  · next fits =>
    cases h
    have high : z < 2 ^ 63 := Int.lt_of_le_of_lt fits.2 (by decide)
    exact ⟨congrArg some (Int64.toInt_ofInt_of_le fits.1 high), rfl⟩
  · cases h

theorem toInt?_of_ofInt? {type : ValueType} (ht : type = .integer ∨ type = .long) {z : Int}
    {v : Value} (h : ofInt? type z = some v) : v.toInt? = some z ∧ v.type = type := by
  unfold ofInt? at h
  rcases ht with rfl | rfl
  · exact toInt?_of_integer? h
  · exact toInt?_of_long? h

/-- A number of no more than 31 bits fits both widths. -/
theorem exists_ofInt? (type : ValueType) {z : Int} (h : z.natAbs ≤ 2 ^ 31 - 1) :
    ∃ v, ofInt? type z = some v := by
  have narrow : Int32.minValue.toInt = -2 ^ 31 ∧ Int32.maxValue.toInt = 2 ^ 31 - 1 := ⟨rfl, rfl⟩
  have wide : Int64.minValue.toInt = -2 ^ 63 ∧ Int64.maxValue.toInt = 2 ^ 63 - 1 := ⟨rfl, rfl⟩
  unfold ofInt?
  split
  · exact ⟨_, if_pos (by omega)⟩
  · exact ⟨_, if_pos (by omega)⟩

end Value

theorem ValueType.wider_isIntegral (t u : ValueType) :
    t.wider u = .integer ∨ t.wider u = .long := by
  unfold wider
  split
  · exact .inl rfl
  · exact .inr rfl

/-! ### operations on values -/

/-- The outcome of an operation whose result is known, if it fits. -/
def fitted (name : String) (found : Option Value) : Except Error Value :=
  found.elim (.error (.evaluation (.overflow name))) .ok

/-- An operation that divides by nothing has one result. -/
theorem ArithmeticFunction.onInts_of_integerResult? {f : ArithmeticFunction} (hf : f ≠ .mod)
    {a b z : Int} (hz : f.integerResult? a b = some z) (fit? : Int → Option Value) (least : Int) :
    f.onInts fit? least a b = some <$> fitted f.name (fit? z) := by
  have kept : f.quotientOverflows least a b = false := by
    unfold quotientOverflows
    rw [decide_eq_false hf]
    rfl
  unfold onInts
  rw [hz, kept]
  dsimp only
  cases fit? z with
  | none => rfl
  | some v => rfl

section
variable {v w : Value} {a b : Int}

theorem arithmetic_of_toInt? (f : ArithmeticFunction) (hv : v.toInt? = some a)
    (hw : w.toInt? = some b) :
    arithmetic f v w =
      f.onInts (Value.ofInt? (v.type.wider w.type)) (v.type.wider w.type).least a b := by
  cases v with
  | integer m =>
    cases hv
    cases w with
    | integer n | long n =>
      cases hw
      rfl
    | boolean b | float x | double x | binary bytes => cases hw
  | long m =>
    cases hv
    cases w with
    | integer n | long n =>
      cases hw
      rfl
    | boolean b | float x | double x | binary bytes => cases hw
  | boolean b | float x | double x | binary bytes => cases hv

theorem negateValue_of_toInt? (hv : v.toInt? = some a) :
    negateValue v = fitted "negate" (Value.ofInt? v.type (-a)) := by
  cases v with
  | integer m =>
    cases hv
    simp only [negateValue, Value.type, Value.ofInt?, if_true]
    cases Value.integer? (-m.toInt) with
    | none => rfl
    | some v => rfl
  | long m =>
    cases hv
    simp only [negateValue, Value.type, Value.ofInt?, reduceCtorEq, if_false]
    cases Value.long? (-m.toInt) with
    | none => rfl
    | some v => rfl
  | boolean b | float x | double x | binary bytes => cases hv

end

/-! ### calls -/

theorem eval_arithmetic (row : Row) (f : ArithmeticFunction) (l r : ScalarExpr)
    (label : Option String) :
    (ScalarExpr.call f.function [l, r] label).eval row =
      l.eval row >>= fun x => r.eval row >>= fun y => onValues (arithmetic f) x y := by
  have accepts : f.function.Accepts [l, r].length := by
    intro m hm
    cases f <;> cases hm <;> rfl
  have eager : f.function ≠ .caseWhen := by cases f <;> decide
  rw [eval_call row eager accepts]
  simp only [ScalarExpr.evalAll]
  cases l.eval row with
  | error e => rfl
  | ok x =>
    cases r.eval row with
    | error e => rfl
    | ok y => cases f <;> rfl

theorem eval_negate (row : Row) (e : ScalarExpr) (label : Option String) :
    (ScalarExpr.call .negate [e] label).eval row = e.eval row >>= onValue negateValue := by
  have accepts : ScalarFunction.negate.Accepts [e].length := by
    intro m hm
    cases hm
    rfl
  have eager : ScalarFunction.negate ≠ .caseWhen := by decide
  rw [eval_call row eager accepts]
  simp only [ScalarExpr.evalAll]
  cases e.eval row with
  | error e => rfl
  | ok x => rfl

end ColumnPlan
