import ColumnPlan.Join.Natural
import ColumnPlan.Proofs.Schema.Resolve

/-!
# Names behind a prefix

What a name says behind a prefix gives the name back when it is qualified again.  In a schema whose
columns have names of their own, without stars, a name means its column and no other one, so what
two schemas say alike can be looked up again on both sides.

* `qualify_of_stripQualifier?`   a name from what it says;
* `Schema.Distinct`              columns whose names mean them;
* `Schema.Says`                  what the name of a column says behind a prefix;
* `Distinct.columns_qualify`     what a column says means that column;
* `mem_naturalJoinColumns`       what two schemas share, each once, in the order of the first.
-/

namespace ColumnPlan

theorem eq_append_of_stripChars? {pre name rest : List Char}
    (h : stripChars? pre name = some rest) : pre ++ '.' :: rest = name := by
  unfold stripChars? at h
  split at h
  · next c tail dropped =>
    split at h
    · next starts =>
      cases h
      obtain ⟨behind, rfl⟩ := List.isPrefixOf_iff_prefix.mp starts
      rw [List.drop_left] at dropped
      rw [dropped]
    · cases h
  · cases h

/-- A name is what it says behind a prefix, under that prefix. -/
theorem qualify_of_stripQualifier? {name suffix : String} {pre : Option String}
    (h : stripQualifier? name pre = some suffix) : qualify pre suffix = name := by
  cases pre with
  | none => exact (Option.some.inj h).symm
  | some p =>
    obtain ⟨rest, stripped, rfl⟩ := Option.map_eq_some_iff.mp h
    have name := eq_append_of_stripChars? stripped
    show p ++ "." ++ String.ofList rest = _
    rw [← String.toList_inj, String.toList_append, String.toList_append, List.append_assoc, ← name]
    simp only [String.toList_ofList]
    rfl

namespace Schema

/-- The columns, keys apart, have names of their own, and none has a star in its name. -/
structure Distinct (s : Schema) : Prop where
  apart : s.fields.Pairwise fun f g => f.isKey = false → g.isKey = false → f.name ≠ g.name
  starless : ∀ f ∈ s.fields, f.isKey = false → '*' ∉ f.name.toList

/-- The name of a column, which is no key, says this behind the prefix. -/
def Says (s : Schema) (pre : Option String) (i : Nat) (suffix : String) : Prop :=
  ∃ f, s.fields[i]? = some f ∧ f.isKey = false ∧ stripQualifier? f.name pre = some suffix

section
variable {s : Schema} {pre : Option String} {suffix : String}

theorem Distinct.eq_of_name (h : s.Distinct) {i j : Nat} {f g : Field}
    (hf : s.fields[i]? = some f) (hg : s.fields[j]? = some g) (kf : f.isKey = false)
    (kg : g.isKey = false) (same : f.name = g.name) : i = j := by
  obtain ⟨hi, rfl⟩ := List.getElem?_eq_some_iff.mp hf
  obtain ⟨hj, rfl⟩ := List.getElem?_eq_some_iff.mp hg
  have apart := List.pairwise_iff_getElem.mp h.apart
  rcases Nat.lt_trichotomy i j with less | equal | more
  · exact absurd same (apart i j hi hj less kf kg)
  · exact equal
  · exact absurd same.symm (apart j i hj hi more kg kf)

/-- The name of a column means that column alone. -/
theorem Distinct.columns_name (h : s.Distinct) {i : Nat} {f : Field} (hf : s.fields[i]? = some f)
    (kf : f.isKey = false) : s.columns f.name = [i] := by
  have starless := h.starless f (List.mem_of_getElem? hf) kf
  refine columns_eq_singleton fun j => ?_
  constructor
  · intro hj
    obtain ⟨g, hg, kg, accepts⟩ := mem_columns.mp hj
    exact h.eq_of_name hg hf kg kf ((Glob.accepts_iff_of_starless starless).mp accepts)
  · rintro rfl
    exact mem_columns.mpr ⟨f, hf, kf, Glob.accepts_self f.name⟩

theorem Distinct.columns_qualify (h : s.Distinct) {i : Nat} (hi : s.Says pre i suffix) :
    s.columns (qualify pre suffix) = [i] := by
  obtain ⟨f, hf, kf, stripped⟩ := hi
  rw [qualify_of_stripQualifier? stripped]
  exact h.columns_name hf kf

theorem mem_suffixes : suffix ∈ s.suffixes pre ↔ ∃ i, s.Says pre i suffix := by
  unfold suffixes Says
  rw [List.mem_filterMap]
  constructor
  · rintro ⟨f, hf, stripped⟩
    obtain ⟨member, column⟩ := List.mem_filter.mp hf
    obtain ⟨i, hi⟩ := List.mem_iff_getElem?.mp member
    exact ⟨i, f, hi, (Bool.not_eq_true' _).mp column, stripped⟩
  · rintro ⟨i, f, hf, column, stripped⟩
    exact ⟨f, List.mem_filter.mpr ⟨List.mem_of_getElem? hf, (Bool.not_eq_true' _).mpr column⟩,
      stripped⟩

end

end Schema

/-! ### shared names -/

/-- Dropping repetitions keeps the order. -/
theorem eraseDups_sublist : (names : List String) → names.eraseDups.Sublist names
  | [] => .slnil
  | name :: names => by
    have shorter := List.length_filter_le (fun other => !other == name) names
    rw [List.eraseDups_cons]
    exact ((eraseDups_sublist _).trans List.filter_sublist).cons_cons name
termination_by names => names.length

theorem nodup_eraseDups : (names : List String) → names.eraseDups.Nodup
  | [] => .nil
  | name :: names => by
    have shorter := List.length_filter_le (fun other => !other == name) names
    rw [List.eraseDups_cons, List.nodup_cons, List.mem_eraseDups, List.mem_filter]
    refine ⟨?_, nodup_eraseDups _⟩
    rintro ⟨-, other⟩
    rw [beq_self_eq_true] at other
    cases other
termination_by names => names.length

section
variable (build probe : Schema) (buildPrefix probePrefix : Option String)

theorem nodup_naturalJoinColumns :
    (naturalJoinColumns build probe buildPrefix probePrefix).Nodup := nodup_eraseDups _

theorem naturalJoinColumns_sublist :
    (naturalJoinColumns build probe buildPrefix probePrefix).Sublist
      (build.suffixes buildPrefix) :=
  (eraseDups_sublist _).trans List.filter_sublist

theorem mem_naturalJoinColumns {suffix : String} :
    suffix ∈ naturalJoinColumns build probe buildPrefix probePrefix ↔
      (∃ l, build.Says buildPrefix l suffix) ∧ ∃ r, probe.Says probePrefix r suffix := by
  unfold naturalJoinColumns
  rw [List.mem_eraseDups, List.mem_filter, List.contains_iff_mem, Schema.mem_suffixes,
    Schema.mem_suffixes]

end

end ColumnPlan
