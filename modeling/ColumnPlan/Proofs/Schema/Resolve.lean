import ColumnPlan.Proofs.Schema.Wildcard

/-!
# Columns that are found

* `mem_indicesWhere`           the indices of a schema are places in it;
* `pairwise_indicesWhere`      in their order, and so each of them once;
* `mem_columns`                the columns that a path means;
* `columns_eq_singleton`       a path for which one column is found means that column;
* `eq_of_columns`              a path that means one column means no other one of that name;
* `eq_of_columns_name`         a name that means one column means its own;
* `columns_of_resolve`         a path that is resolved means one column;
* `keyIndices_of_resolveKey`   a key that is resolved is the only one.
-/

namespace ColumnPlan.Schema

theorem mem_indicesWhere {s : Schema} {test : Field → Bool} {i : Nat} :
    i ∈ s.indicesWhere test ↔ ∃ f, s.fields[i]? = some f ∧ test f = true := by
  unfold indicesWhere
  rw [List.mem_map]
  constructor
  · rintro ⟨⟨f, j⟩, h, rfl⟩
    obtain ⟨hm, ht⟩ := List.mem_filter.mp h
    exact ⟨f, List.mem_zipIdx_iff_getElem?.mp hm, ht⟩
  · rintro ⟨f, hf, ht⟩
    exact ⟨(f, i), List.mem_filter.mpr ⟨List.mem_zipIdx_iff_getElem?.mpr hf, ht⟩, rfl⟩

theorem lt_size_of_mem_indicesWhere {s : Schema} {test : Field → Bool} {i : Nat}
    (h : i ∈ s.indicesWhere test) : i < s.size := by
  obtain ⟨f, hf, -⟩ := mem_indicesWhere.mp h
  exact (List.getElem?_eq_some_iff.mp hf).1

theorem pairwise_indicesWhere (s : Schema) (test : Field → Bool) :
    (s.indicesWhere test).Pairwise (· < ·) := by
  have places : (s.fields.zipIdx.map (·.2)).Pairwise (· < ·) := by
    rw [List.zipIdx_map_snd]
    exact List.pairwise_lt_range' 1
  exact places.sublist (List.filter_sublist.map _)

theorem nodup_indicesWhere (s : Schema) (test : Field → Bool) : (s.indicesWhere test).Nodup :=
  (s.pairwise_indicesWhere test).imp Nat.ne_of_lt

theorem getElem?_names_eq_some_iff {s : Schema} {i : Nat} {name : String} :
    s.names[i]? = some name ↔ ∃ f, s.fields[i]? = some f ∧ f.name = name := by
  unfold names
  rw [List.getElem?_map, Option.map_eq_some_iff]

theorem mem_columns {s : Schema} {pattern : String} {i : Nat} :
    i ∈ s.columns pattern ↔
      ∃ f, s.fields[i]? = some f ∧ f.isKey = false ∧ Glob.accepts pattern f.name = true := by
  unfold columns
  rw [matching_eq, mem_indicesWhere]
  simp only [Bool.false_or, Bool.and_eq_true, Bool.not_eq_true']

theorem lt_size_of_mem_columns {s : Schema} {pattern : String} {i : Nat}
    (h : i ∈ s.columns pattern) : i < s.size := by
  unfold columns at h
  rw [matching_eq] at h
  exact lt_size_of_mem_indicesWhere h

theorem nodup_columns (s : Schema) (pattern : String) : (s.columns pattern).Nodup := by
  unfold columns
  rw [matching_eq]
  exact nodup_indicesWhere s _

theorem columns_eq_singleton {s : Schema} {pattern : String} {i : Nat}
    (only : ∀ j, j ∈ s.columns pattern ↔ j = i) : s.columns pattern = [i] := by
  have same : ∀ j, j ∈ s.columns pattern ↔ j ∈ [i] := fun j =>
    (only j).trans List.mem_singleton.symm
  have single : [i].Nodup := List.pairwise_singleton _ _
  have perm := List.perm_ext_iff_of_nodup (s.nodup_columns pattern) single
  exact List.perm_singleton.mp (perm.mpr same)

/-- A path that means one column means a column. -/
theorem exists_of_columns {s : Schema} {pattern : String} {i : Nat} (h : s.columns pattern = [i]) :
    ∃ f, s.fields[i]? = some f ∧ f.isKey = false ∧ Glob.accepts pattern f.name = true :=
  mem_columns.mp (h ▸ List.mem_singleton_self i)

/-- Whatever path means one of some columns of one name means all of them. -/
theorem eq_of_columns {s : Schema} {pattern : String} {i j : Nat} {f g : Field}
    (h : s.columns pattern = [i]) (hf : s.fields[i]? = some f) (hg : s.fields[j]? = some g)
    (hk : g.isKey = false) (hn : g.name = f.name) : j = i := by
  obtain ⟨f', hf', -, accepts⟩ := exists_of_columns h
  cases hf.symm.trans hf'
  have other : j ∈ s.columns pattern := mem_columns.mpr ⟨g, hg, hk, hn ▸ accepts⟩
  rw [h] at other
  exact List.mem_singleton.mp other

/-- The name of a column means that column. -/
theorem eq_of_columns_name {s : Schema} {i j : Nat} {f : Field} (h : s.columns f.name = [i])
    (hf : s.fields[j]? = some f) (hk : f.isKey = false) : j = i := by
  have named : j ∈ s.columns f.name := mem_columns.mpr ⟨f, hf, hk, Glob.accepts_self f.name⟩
  rw [h] at named
  exact List.mem_singleton.mp named

variable (s : Schema)

theorem unique_eq_ok_iff (pattern : String) (is : List Nat) (i : Nat) :
    s.unique pattern is = .ok i ↔ is = [i] := by
  constructor
  · intro h
    unfold unique at h
    split at h
    · cases h
      rfl
    · cases h
    · cases h
  · rintro rfl
    rfl

theorem columns_of_resolve {pattern : String} {i : Nat} (h : s.resolve pattern = .ok i) :
    s.columns pattern = [i] := (s.unique_eq_ok_iff pattern _ i).mp h

theorem keyIndices_of_resolveKey {i : Nat} (h : s.resolveKey = .ok i) : s.keyIndices = [i] := by
  unfold resolveKey at h
  split at h
  · next hk =>
    cases h
    exact hk
  · cases h

end ColumnPlan.Schema
