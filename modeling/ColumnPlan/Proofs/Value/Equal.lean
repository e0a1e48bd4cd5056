import ColumnPlan.Proofs.Logical.Meaning
import ColumnPlan.Proofs.Number.Parts

/-!
# Values that compare as equal

Equal values are of one kind.  Booleans and bytes are the same then, integers have one size, and
if a float is among the two, both of them are equal as floats.

* `compare?_of_toInt?`        integers compare by their size;
* `compare?_eq_some_eq_iff`   when two values compare as equal;
* `compare?_symm`             which of them comes first does not matter;
* `Datum.Equal`               cells that hold such values;
* `between_eq_true_iff`       an equation is true of such cells, and of no others.
-/

namespace ColumnPlan

namespace Value

theorem compare?_of_toInt? {x y : Value} {m n : Int} (hx : x.toInt? = some m)
    (hy : y.toInt? = some n) : x.compare? y = some (compare m n) := by
  cases x with
  | integer a | long a =>
    cases y with
    | integer b | long b =>
      cases hx
      cases hy
      rfl
    | boolean b | float b | double b | binary b => cases hy
  | boolean a | float a | double a | binary a => cases hx

theorem compare?_eq_some_eq_iff {x y : Value} :
    x.compare? y = some .eq ↔
      (x = y ∧ x.toDouble? = none) ∨
      (∃ n, x.toInt? = some n ∧ y.toInt? = some n) ∨
      ((x.toInt? = none ∨ y.toInt? = none) ∧ ∃ a b, x.toDouble? = some a ∧
        y.toDouble? = some b ∧ a.toModel.compare b.toModel = some .eq) := by
  cases x with
  | boolean a | binary a =>
    cases y <;> simp [compare?, toInt?, toDouble?]
  | integer m | long m =>
    cases y with
    | integer n | long n =>
      rw [compare?_of_toInt? rfl rfl, Option.some.injEq, Std.LawfulEqOrd.compare_eq_iff_eq]
      constructor
      · intro size; exact .inr (.inl ⟨_, rfl, congrArg some size.symm⟩)
      · rintro (⟨-, number⟩ | ⟨k, hm, hn⟩ | ⟨floating, -⟩)
        · cases number
        · exact Option.some.inj (hm.trans hn.symm)
        · rcases floating with hm | hn
          · cases hm
          · cases hn
    | boolean b | float b | double b | binary b => simp [compare?, toInt?, toDouble?]
  | float a | double a => cases y <;> simp [compare?, toInt?, toDouble?]

theorem compare?_symm {x y : Value} (h : x.compare? y = some .eq) :
    y.compare? x = some .eq := by
  rw [compare?_eq_some_eq_iff] at h ⊢
  rcases h with ⟨rfl, hx⟩ | ⟨n, hx, hy⟩ | ⟨floating, a, b, hx, hy, equal⟩
  · exact .inl ⟨rfl, hx⟩
  · exact .inr (.inl ⟨n, hy, hx⟩)
  · exact .inr (.inr ⟨floating.symm, b, a, hy, hx, compare_symm equal⟩)

end Value

/-! ### cells -/

/-- Both cells hold values, and these compare as equal. -/
def Datum.Equal (a b : Datum) : Prop :=
  ∃ x y, a = some x ∧ b = some y ∧ x.compare? y = some .eq

theorem Datum.Equal.symm {a b : Datum} (h : a.Equal b) : b.Equal a := by
  obtain ⟨x, y, hx, hy, equal⟩ := h
  exact ⟨y, x, hy, hx, Value.compare?_symm equal⟩

theorem Comparison.between_eq_true_iff (a b : Datum) :
    Comparison.eq.between a b = .true ↔ a.Equal b := by
  constructor
  · intro h
    cases a with
    | none => cases h
    | some x =>
      cases b with
      | none => cases h
      | some y =>
        replace h : (x.compare? y).elim Truth.unknown (fun o => .ofBool (decide (o = .eq))) =
          .true := h
        cases hc : x.compare? y with
        | none => rw [hc] at h; cases h
        | some o =>
          rw [hc] at h
          have equal : o = .eq := of_decide_eq_true ((Truth.ofBool_eq_true_iff _).mp h)
          exact ⟨x, y, rfl, rfl, equal ▸ hc⟩
  · rintro ⟨x, y, rfl, rfl, equal⟩
    show (x.compare? y).elim Truth.unknown (fun o => .ofBool (decide (o = .eq))) = .true
    rw [equal]
    rfl

instance (a b : Datum) : Decidable (a.Equal b) :=
  decidable_of_iff _ (Comparison.between_eq_true_iff a b)

end ColumnPlan
