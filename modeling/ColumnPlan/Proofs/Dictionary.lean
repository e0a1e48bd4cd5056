import ColumnPlan.Dictionary

/-!
# The entries of a dictionary

* `mem_of_get?`              what is found under a key is an entry;
* `forall_mem_set`           the entries after a new key;
* `Ascending`                the keys are in order, and so each is there once;
* `mem_entries_iff`          then an entry is what is found under its key.
-/

namespace ColumnPlan.Dictionary
variable {κ ν : Type} [DecidableEq κ]

theorem mem_of_find? {key : κ} {value : ν} {entries : List (κ × ν)}
    (h : find? key entries = some value) : (key, value) ∈ entries := by
  induction entries with
  | nil => cases h
  | cons entry rest ih =>
    obtain ⟨k, v⟩ := entry
    rw [find?] at h
    split at h
    · next hk =>
      cases hk
      cases h
      exact List.mem_cons_self
    · exact List.mem_cons_of_mem _ (ih h)

theorem mem_of_get? {d : Dictionary κ ν} {key : κ} {value : ν} (h : d.get? key = some value) :
    (key, value) ∈ d.entries := mem_of_find? h

/-- A key that is not there is put somewhere among the others. -/
theorem perm_setEntry [Ord κ] {key : κ} {entries : List (κ × ν)} (value : ν)
    (h : find? key entries = none) :
    (setEntry key value entries).Perm ((key, value) :: entries) := by
  induction entries with
  | nil => exact .refl _
  | cons entry rest ih =>
    obtain ⟨k, v⟩ := entry
    rw [find?] at h
    split at h
    · cases h
    · next hk =>
      rw [setEntry, if_neg hk]
      split
      · exact .refl _
      · exact ((ih h).cons _).trans (.swap _ _ _)

theorem forall_mem_set [Ord κ] {d : Dictionary κ ν} {key : κ} (value : ν)
    (h : d.get? key = none) (P : κ × ν → Prop) :
    (∀ entry ∈ (d.set key value).entries, P entry) ↔
      P (key, value) ∧ ∀ entry ∈ d.entries, P entry := by
  rw [← List.forall_mem_cons]
  have perm : (d.set key value).entries.Perm ((key, value) :: d.entries) := perm_setEntry value h
  constructor
  · intro hp entry he; exact hp entry (perm.mem_iff.mpr he)
  · intro hp entry he; exact hp entry (perm.mem_iff.mp he)

/-! ### keys in order -/

theorem find?_append (key : κ) (as bs : List (κ × ν)) :
    find? key (as ++ bs) = (find? key as).or (find? key bs) := by
  induction as with
  | nil => rfl
  | cons entry as ih =>
    obtain ⟨k, v⟩ := entry
    show (if key = k then some v else find? key (as ++ bs)) =
      (if key = k then some v else find? key as).or (find? key bs)
    by_cases h : key = k
    · simp only [h, if_true, Option.some_or]
    · simp only [h, if_false, ih]

theorem find?_eq_none_iff {key : κ} {entries : List (κ × ν)} :
    find? key entries = none ↔ ∀ entry ∈ entries, entry.1 ≠ key := by
  induction entries with
  | nil => simp [find?]
  | cons entry rest ih =>
    obtain ⟨k, v⟩ := entry
    by_cases h : key = k
    · simp [find?, h]
    · simp [find?, h, ih, Ne.symm h]

section
variable [Ord κ]

/-- The keys come in strictly ascending order. -/
def Ascending (d : Dictionary κ ν) : Prop :=
  d.entries.Pairwise fun entry later => (compare entry.1 later.1).isLT = true

theorem mem_setEntry {key : κ} {value : ν} {entries : List (κ × ν)} {entry : κ × ν}
    (h : entry ∈ setEntry key value entries) : entry = (key, value) ∨ entry ∈ entries := by
  induction entries with
  | nil => exact .inl (List.mem_singleton.mp h)
  | cons head rest ih =>
    obtain ⟨k, v⟩ := head
    unfold setEntry at h
    split at h
    · rcases List.mem_cons.mp h with h | h
      · exact .inl h
      · exact .inr (List.mem_cons_of_mem _ h)
    · split at h
      · exact List.mem_cons.mp h
      · rcases List.mem_cons.mp h with h | h
        · exact .inr (h ▸ List.mem_cons_self)
        · exact (ih h).imp_right (List.mem_cons_of_mem _)

variable [Std.LawfulEqOrd κ]

/-- An entry is what is found under its key. -/
theorem mem_entries_iff {d : Dictionary κ ν} (h : d.Ascending) {key : κ} {value : ν} :
    (key, value) ∈ d.entries ↔ d.get? key = some value := by
  refine ⟨fun hm => ?_, mem_of_get?⟩
  obtain ⟨entries⟩ := d
  show find? key entries = some value
  unfold Ascending at h
  dsimp only at h hm
  induction entries with
  | nil => exact absurd hm List.not_mem_nil
  | cons head rest ih =>
    obtain ⟨k, v⟩ := head
    obtain ⟨first, sorted⟩ := List.pairwise_cons.mp h
    rcases List.mem_cons.mp hm with same | hm
    · cases same
      exact if_pos rfl
    · have apart : key ≠ k := by
        intro same
        have less : (compare k key).isLT = true := first (key, value) hm
        rw [same, Std.ReflOrd.compare_self] at less
        cases less
      rw [find?, if_neg apart]
      exact ih sorted hm

variable [Std.TransOrd κ]

theorem ascending_set {d : Dictionary κ ν} (h : d.Ascending) (key : κ) (value : ν) :
    (d.set key value).Ascending := by
  obtain ⟨entries⟩ := d
  show (setEntry key value entries).Pairwise _
  unfold Ascending at h
  dsimp only at h
  induction entries with
  | nil => exact List.pairwise_singleton _ _
  | cons head rest ih =>
    obtain ⟨k, v⟩ := head
    obtain ⟨first, sorted⟩ := List.pairwise_cons.mp h
    unfold setEntry
    split
    · next same =>
      subst same
      exact List.pairwise_cons.mpr ⟨first, sorted⟩
    · next apart =>
      split
      · next less =>
        refine List.pairwise_cons.mpr ⟨fun entry he => ?_, h⟩
        rcases List.mem_cons.mp he with rfl | he
        · exact less
        · have later := first entry he
          rw [Ordering.isLT_iff_eq_lt] at less later ⊢
          exact Std.TransCmp.lt_trans less later
      · next more =>
        refine List.pairwise_cons.mpr ⟨fun entry he => ?_, ih sorted⟩
        rcases mem_setEntry he with rfl | he
        · have unequal : compare key k ≠ .eq := fun eq => apart (Std.LawfulEqCmp.eq_of_compare eq)
          have greater : compare key k = .gt := by
            cases hc : compare key k with
            | lt => rw [hc] at more; exact absurd rfl more
            | eq => exact absurd hc unequal
            | gt => rfl
          rw [Ordering.isLT_iff_eq_lt]
          exact Std.OrientedCmp.lt_of_gt greater
        · exact first entry he

end

end ColumnPlan.Dictionary
