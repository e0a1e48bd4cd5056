import ColumnPlan.Proofs.Schema.Resolve

/-!
# The columns of two schemas side by side

In a merged schema a path means what it means on the left, then what it means on the right, there
moved behind all columns of the left.

* `indicesWhere_merge`         the fields of a merged schema that satisfy a test;
* `matching_merge`, `named_merge`, `keyIndices_merge`   the columns that match a glob, that have a
                               name, and that are keys;
* `columns_merge`              the columns that a path means there;
* `columns_left_of_merge`, `columns_right_of_merge`   a path with one column on a side and one in
                               all means that column;
* `columns_eq_of_merge_left`, `exists_of_merge_right`   a path with one column in all and some on
                               a side has one column there.
-/

namespace ColumnPlan.Schema

variable (s t : Schema)

theorem indicesWhere_merge (test : Field → Bool) :
    (s.merge t).indicesWhere test =
      s.indicesWhere test ++ (t.indicesWhere test).map (· + s.size) := by
  unfold indicesWhere merge
  rw [List.zipIdx_append, List.filter_append, List.map_append, Nat.zero_add]
  congr 1
  rw [List.zipIdx_eq_map_add, List.filter_map, List.map_map, List.map_map]
  refine List.map_congr_left fun fi _ => ?_
  exact Nat.add_comm s.size fi.2

theorem matching_merge (pattern : String) (withKey : Bool) :
    (s.merge t).matching pattern withKey =
      s.matching pattern withKey ++ (t.matching pattern withKey).map (· + s.size) := by
  simp only [matching_eq, s.indicesWhere_merge t]

theorem named_merge (name : String) :
    (s.merge t).named name = s.named name ++ (t.named name).map (· + s.size) :=
  s.indicesWhere_merge t _

theorem keyIndices_merge :
    (s.merge t).keyIndices = s.keyIndices ++ t.keyIndices.map (· + s.size) :=
  s.indicesWhere_merge t _

theorem columns_merge (pattern : String) :
    (s.merge t).columns pattern =
      s.columns pattern ++ (t.columns pattern).map (· + s.size) := s.matching_merge t pattern false

variable {s t}

theorem columns_left_of_merge {pattern : String} {i j : Nat} (hs : s.columns pattern = [i])
    (hm : (s.merge t).columns pattern = [j]) : j = i := by
  rw [columns_merge, hs] at hm
  exact (List.cons.inj hm).1.symm

theorem columns_right_of_merge {pattern : String} {i j : Nat} (ht : t.columns pattern = [i])
    (hm : (s.merge t).columns pattern = [j]) : j = i + s.size := by
  rw [columns_merge, ht, List.map_singleton] at hm
  obtain ⟨-, hj⟩ := List.append_eq_singleton_iff.mp hm |>.resolve_right fun h =>
    List.cons_ne_nil _ _ h.2
  exact (List.cons.inj hj).1.symm

theorem columns_eq_of_merge_left {pattern : String} {j : Nat} (hs : s.columns pattern ≠ [])
    (hm : (s.merge t).columns pattern = [j]) : s.columns pattern = [j] := by
  rw [columns_merge] at hm
  rcases List.append_eq_singleton_iff.mp hm with ⟨hl, -⟩ | ⟨hl, -⟩
  · exact absurd hl hs
  · exact hl

theorem exists_of_merge_right {pattern : String} {j : Nat} (ht : t.columns pattern ≠ [])
    (hm : (s.merge t).columns pattern = [j]) : ∃ i, t.columns pattern = [i] := by
  rw [columns_merge] at hm
  rcases List.append_eq_singleton_iff.mp hm with ⟨-, hr⟩ | ⟨-, hr⟩
  · obtain ⟨i, hi, -⟩ := List.map_eq_singleton_iff.mp hr
    exact ⟨i, hi⟩
  · exact absurd (List.map_eq_nil_iff.mp hr) ht

end ColumnPlan.Schema
