import ColumnPlan.Physical.Eval
import ColumnPlan.Proofs.Fallible
import ColumnPlan.Proofs.Number.Exact
import ColumnPlan.Proofs.Value.Equal

/-!
# Equal values hash alike

The words of a number say its size, so numbers that compare as equal have the same words whatever
their types.  There is one exception.  A comparison of a `LONG` with a float rounds the `LONG`
beyond 53 bits, and so finds it equal to a float of another size.

* `Datum.isFloating`            the cell holds a float;
* `Value.IsExact`               an integer that a float can hold;
* `words_eq_iff`                when values that compare as equal have the same words;
* `words_eq_of_same`            cells with the same content have, if nothing was rounded;
* `hashRow_congr`               cells with the same words hash alike;
* `eval_hash_of_same`           so do the arguments of a call.
-/

namespace ColumnPlan

/-! ### the words of numbers -/

/-- The cell holds a float of either width. -/
def Datum.isFloating : Datum → Bool
  | some (.float _) | some (.double _) => true
  | _ => false

theorem isFloating_of_toInt? {v : Value} {n : Int} (h : v.toInt? = some n) :
    Datum.isFloating (some v) = false := by
  cases v with
  | integer m | long m => rfl
  | boolean b | float x | double x | binary bytes => cases h

theorem isFloating_of_toDouble? {v : Value} {x : Float} (h : v.toInt? = none)
    (hx : v.toDouble? = some x) : Datum.isFloating (some v) = true := by
  cases v with
  | float a | double a => rfl
  | integer m | long m => cases h
  | boolean b | binary bytes => cases hx

theorem toDouble?_of_toInt? {v : Value} {n : Int} (h : v.toInt? = some n) :
    v.toDouble? = some (Double.ofInt n) := by
  cases v with
  | integer m | long m =>
    cases h
    rfl
  | boolean b | float x | double x | binary bytes => cases h

/-- An integral type has no more than 64 bits. -/
theorem bounds_of_toInt? {v : Value} {n : Int} (h : v.toInt? = some n) :
    Int64.minValue.toInt ≤ n ∧ n ≤ Int64.maxValue.toInt := by
  have least : Int64.minValue.toInt = -2 ^ 63 := rfl
  have greatest : Int64.maxValue.toInt = 2 ^ 63 - 1 := rfl
  rw [least, greatest]
  cases v with
  | integer m =>
    cases h
    have := m.le_toInt
    have := m.toInt_lt
    omega
  | long m =>
    cases h
    have := m.le_toInt
    have := m.toInt_lt
    omega
  | boolean b | float x | double x | binary bytes => cases h

/-- A number of an integral type has the words of its integer. -/
theorem Datum.words_of_toInt? {v : Value} {n : Int} (h : v.toInt? = some n) :
    Datum.words (some v) = [3, (Int64.ofInt n).toUInt64] := by
  cases v with
  | integer m | long m =>
    cases h
    rfl
  | boolean b | float x | double x | binary bytes => cases h

/-- the 64-bit integer that a float is, if it is one -/
def Double.long? (x : Float) : Option Int :=
  (Double.integer? x).filter fun n => Int64.minValue.toInt ≤ n ∧ n ≤ Int64.maxValue.toInt

/-- the words of a float -/
def Double.words (x : Float) : List UInt64 :=
  match Double.long? x with
  | some n => [3, (Int64.ofInt n).toUInt64]
  | none => [4, 1, x.toBits]

theorem integral?_of_toDouble? {v : Value} {x : Float} (h : v.toInt? = none)
    (hx : v.toDouble? = some x) : v.integral? = Double.long? x := by
  unfold Value.integral? Double.long? Double.integer?
  rw [h, hx]
  show ((Dyadic.ofDouble? x).bind fun d => d.toInt?.bind fun n => _) = _
  cases Dyadic.ofDouble? x with
  | none => rfl
  | some d =>
    show d.toInt?.bind _ = d.toInt?.filter _
    cases d.toInt? with
    | none => rfl
    | some n =>
      show (if _ then some n else none) = (some n).filter _
      rw [Option.filter_some]
      simp only [decide_eq_true_eq]

theorem Datum.words_of_toDouble? {v : Value} {x : Float} (h : v.toInt? = none)
    (hx : v.toDouble? = some x) : Datum.words (some v) = Double.words x := by
  unfold Double.words
  rw [← integral?_of_toDouble? h hx]
  cases v with
  | float a | double a =>
    cases hx
    rfl
  | integer m | long m => cases h
  | boolean b | binary bytes => cases hx

/-- A float has the words of a 64-bit integer iff it is that integer. -/
theorem Double.words_eq_iff (x : Float) {n : Int} (low : Int64.minValue.toInt ≤ n)
    (high : n ≤ Int64.maxValue.toInt) :
    Double.words x = [3, (Int64.ofInt n).toUInt64] ↔ Double.integer? x = some n := by
  unfold Double.words
  constructor
  · intro h
    cases hl : Double.long? x with
    | none =>
      rw [hl] at h
      cases h
    | some m =>
      rw [hl] at h
      obtain ⟨hm, range⟩ := Option.filter_eq_some_iff.mp hl
      obtain ⟨low', high'⟩ := of_decide_eq_true range
      have same : Int64.ofInt m = Int64.ofInt n :=
        congrArg UInt64.toInt64 (List.cons.inj (List.cons.inj h).2).1
      have size := congrArg Int64.toInt same
      rw [Int64.toInt_ofInt_of_le low' (Int.lt_of_le_of_lt high' (by decide)),
        Int64.toInt_ofInt_of_le low (Int.lt_of_le_of_lt high (by decide))] at size
      rw [hm, size]
  · intro h
    have hl : Double.long? x = some n :=
      Option.filter_eq_some_iff.mpr ⟨h, decide_eq_true ⟨low, high⟩⟩
    rw [hl]

/-! ### equal numbers -/

/-- A float can hold the value, if it is an integer. -/
def Value.IsExact (v : Value) : Prop :=
  ∀ n, v.toInt? = some n → Double.integer? (Double.ofInt n) = some n

theorem isExact_of_natAbs_lt {v : Value} (h : ∀ n, v.toInt? = some n → n.natAbs < 2 ^ 53) :
    v.IsExact := fun n hn => integer?_ofInt (h n hn)

theorem isExact_of_toInt?_eq_none {v : Value} (h : v.toInt? = none) : v.IsExact := by
  intro n hn
  rw [h] at hn
  cases hn

/-- Floats that compare as equal have the same words. -/
theorem Double.words_eq_of_compare {x y : Float} (h : x.toModel.compare y.toModel = some .eq) :
    Double.words x = Double.words y := by
  rcases eq_or_integer?_of_compare h with rfl | ⟨hx, hy⟩
  · rfl
  · unfold Double.words Double.long?
    rw [hx, hy]
    rfl

/-- An integer and a float that compare as equal have the same words iff the integer was not
rounded for it. -/
theorem words_eq_iff_isExact {x y : Value} {n : Int} {b : Float} (hx : x.toInt? = some n)
    (hy : y.toInt? = none) (hb : y.toDouble? = some b)
    (h : (Double.ofInt n).toModel.compare b.toModel = some .eq) :
    Datum.words (some x) = Datum.words (some y) ↔ x.IsExact := by
  obtain ⟨low, high⟩ := bounds_of_toInt? hx
  rw [Datum.words_of_toInt? hx, Datum.words_of_toDouble? hy hb, ← Double.words_eq_of_compare h,
    eq_comm, Double.words_eq_iff _ low high]
  constructor
  · intro exact m hm
    cases hx.symm.trans hm
    exact exact
  · intro exact; exact exact n hx

theorem words_eq_iff {x y : Value} (h : x.compare? y = some .eq) :
    Datum.words (some x) = Datum.words (some y) ↔
      Datum.isFloating (some x) = Datum.isFloating (some y) ∨ (x.IsExact ∧ y.IsExact) := by
  rcases Value.compare?_eq_some_eq_iff.mp h with
    ⟨rfl, -⟩ | ⟨n, hx, hy⟩ | ⟨floating, a, b, ha, hb, equal⟩
  · exact iff_of_true rfl (.inl rfl)
  · refine iff_of_true ?_ (.inl ?_)
    · rw [Datum.words_of_toInt? hx, Datum.words_of_toInt? hy]
    · rw [isFloating_of_toInt? hx, isFloating_of_toInt? hy]
  · cases hx : x.toInt? with
    | some n =>
      have hy : y.toInt? = none := floating.resolve_left (hx ▸ nofun)
      cases (toDouble?_of_toInt? hx).symm.trans ha
      rw [words_eq_iff_isExact hx hy hb equal, isFloating_of_toInt? hx,
        isFloating_of_toDouble? hy hb, or_iff_right Bool.false_ne_true]
      exact (and_iff_left (isExact_of_toInt?_eq_none hy)).symm
    | none =>
      cases hy : y.toInt? with
      | some n =>
        cases (toDouble?_of_toInt? hy).symm.trans hb
        rw [eq_comm, words_eq_iff_isExact hy hx ha (compare_symm equal), isFloating_of_toInt? hy,
          isFloating_of_toDouble? hx ha, or_iff_right Bool.false_ne_true.symm]
        exact (and_iff_right (isExact_of_toInt?_eq_none hx)).symm
      | none =>
        refine iff_of_true ?_ (.inl ?_)
        · rw [Datum.words_of_toDouble? hx ha, Datum.words_of_toDouble? hy hb,
            Double.words_eq_of_compare equal]
        · rw [isFloating_of_toDouble? hx ha, isFloating_of_toDouble? hy hb]

/-! ### cells and rows -/

namespace Datum

/-- Both cells are NULL, or they hold values that compare as equal. -/
def Same (a b : Datum) : Prop := (a = none ∧ b = none) ∨ a.Equal b

/-- To compare the cells no number had to be rounded: either both of them hold a float or none,
or a float can hold each of them. -/
def Unrounded (a b : Datum) : Prop :=
  a.isFloating = b.isFloating ∨ ((∀ v, a = some v → v.IsExact) ∧ ∀ v, b = some v → v.IsExact)

end Datum

theorem words_eq_of_equal {a b : Datum} (h : a.Equal b) (exact : a.Unrounded b) :
    a.words = b.words := by
  obtain ⟨x, y, rfl, rfl, equal⟩ := h
  refine (words_eq_iff equal).mpr (exact.imp_right ?_)
  rintro ⟨ha, hb⟩
  exact ⟨ha x rfl, hb y rfl⟩

theorem words_eq_of_same {a b : Datum} (h : a.Same b) (exact : a.Unrounded b) :
    a.words = b.words := by
  rcases h with ⟨rfl, rfl⟩ | equal
  · rfl
  · exact words_eq_of_equal equal exact

theorem hashRow_congr {as bs : List Datum} (h : as.map Datum.words = bs.map Datum.words) :
    hashRow as = hashRow bs := by
  unfold hashRow
  rw [List.flatMap_def, List.flatMap_def, h]

theorem eval_hash {row : Row} {args : List ScalarExpr} {cells : List Datum}
    (h : ScalarExpr.evalAll row args = .ok cells) (label : Option String) :
    (ScalarExpr.call .hash args label).eval row =
      .ok (some (.long (hashRow cells).toInt64)) := by
  rw [ScalarExpr.eval]
  · show ScalarExpr.evalAll row args >>= _ = _
    rw [h]
    rfl
  · decide

/-- **Arguments with the same cells hash alike**, as far as no number is rounded when these cells
are compared. -/
theorem eval_hash_of_same {row other : Row} {as bs : List ScalarExpr} {xs ys : List Datum}
    (hx : ScalarExpr.evalAll row as = .ok xs) (hy : ScalarExpr.evalAll other bs = .ok ys)
    (same : List.Forall₂ Datum.Same xs ys) (exact : List.Forall₂ Datum.Unrounded xs ys) :
    ∃ hash, (ScalarExpr.call .hash as none).eval row = .ok (some (.long hash)) ∧
      (ScalarExpr.call .hash bs none).eval other = .ok (some (.long hash)) := by
  have words : xs.map Datum.words = ys.map Datum.words := by
    clear hx hy
    induction same with
    | nil => rfl
    | cons h _ ih =>
      obtain ⟨he, hes⟩ := List.forall₂_cons.mp exact
      rw [List.map_cons, List.map_cons, words_eq_of_same h he, ih hes]
  refine ⟨(hashRow xs).toInt64, eval_hash hx none, ?_⟩
  rw [eval_hash hy none, hashRow_congr words]

/-- The number three as an `INTEGER` and as a `DOUBLE`, each next to a NULL. -/
theorem eval_hash_three :
    ∃ hash,
      (ScalarExpr.call .hash [.field 0 none, .field 1 none] none).eval
        [some (.integer 3), none] = .ok (some (.long hash)) ∧
      (ScalarExpr.call .hash [.field 0 none, .field 1 none] none).eval
        [some (.double (.ofBits 0x4008000000000000)), none] = .ok (some (.long hash)) := by
  have same : List.Forall₂ Datum.Same [some (.integer 3), none]
      [some (.double (.ofBits 0x4008000000000000)), none] :=
    .cons (.inr ⟨_, _, rfl, rfl, by decide⟩) (.cons (.inl ⟨rfl, rfl⟩) .nil)
  have small : (Value.integer 3).IsExact := isExact_of_natAbs_lt fun n hn => by
    cases hn
    decide
  have exact : List.Forall₂ Datum.Unrounded [some (.integer 3), none]
      [some (.double (.ofBits 0x4008000000000000)), none] := by
    refine .cons (.inr ⟨?_, ?_⟩) (.cons (.inl rfl) .nil)
    · rintro _ ⟨⟩
      exact small
    · rintro _ ⟨⟩
      exact isExact_of_toInt?_eq_none rfl
  exact eval_hash_of_same rfl rfl same exact

/-- The odd integer behind 2⁵³ is rounded when it is compared with the float 2⁵³, so both are
equal; but they do not hash alike. -/
theorem eval_hash_rounded :
    (Value.long 9007199254740993).compare? (.double (.ofBits 0x4340000000000000)) = some .eq ∧
      (ScalarExpr.call .hash [.field 0 none] none).eval [some (.long 9007199254740993)] ≠
        (ScalarExpr.call .hash [.field 0 none] none).eval
          [some (.double (.ofBits 0x4340000000000000))] := by
  have apart : hashRow [some (.long 9007199254740993)] ≠
      hashRow [some (.double (.ofBits 0x4340000000000000))] := by decide
  refine ⟨by decide, fun alike => apart ?_⟩
  have long : ScalarExpr.evalAll [some (.long 9007199254740993)] [.field 0 none] =
      .ok [some (.long 9007199254740993)] := rfl
  have double : ScalarExpr.evalAll [some (.double (.ofBits 0x4340000000000000))] [.field 0 none] =
      .ok [some (.double (.ofBits 0x4340000000000000))] := rfl
  rw [eval_hash long none, eval_hash double none] at alike
  have bits := Value.long.inj (Option.some.inj (Except.ok.inj alike))
  exact congrArg Int64.toUInt64 bits

end ColumnPlan
