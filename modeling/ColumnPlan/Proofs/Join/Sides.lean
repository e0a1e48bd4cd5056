import ColumnPlan.Join.Execute
import ColumnPlan.Proofs.Schema.Batch

/-!
# The rows of a side

A side of a join is a list of batches, and its rows are those of the batches one after the other.
A build row is known by its place among them.

* `Reads width batches rows`      batches of a width with these rows;
* `readSide_eq_ok_iff`            this is what reading a side finds;
* `Reads.length_eq`               the rows have the width of the side;
* `Reads.mem_column`              a cell of a row is NULL or stands in a column of some batch;
* `mem_enumerate`                 each row in its place.
-/

namespace ColumnPlan

/-- The batches have a width, and these are their rows in order. -/
def Reads (width : Nat) (batches : List Batch) (rows : List Row) : Prop :=
  (∀ batch ∈ batches, batch.width = width) ∧
    ∃ parts, batches.mapM Batch.rows = .ok parts ∧ rows = parts.flatten

variable {width : Nat} {batches : List Batch} {rows : List Row} {row : Row}

theorem readSide_eq_ok_iff {side : JoinSide} :
    readSide side width batches = .ok rows ↔ Reads width batches rows := by
  constructor
  · intro h
    obtain ⟨parts, hp, h⟩ := bind_eq_ok_iff.mp h
    cases h
    have widths : ∀ batch ∈ batches, batch.width = width := by
      intro batch hb
      obtain ⟨part, hpart⟩ := exists_mapM_ok_iff.mp ⟨parts, hp⟩ batch hb
      by_contra hw
      rw [if_neg hw] at hpart
      cases hpart
    refine ⟨widths, parts, mapM_eq_ok_of_imp hp fun batch hb part hpart => ?_, rfl⟩
    rw [if_pos (widths batch hb)] at hpart
    exact hpart
  · rintro ⟨widths, parts, hp, rfl⟩
    refine bind_eq_ok_iff.mpr ⟨parts, mapM_eq_ok_of_imp hp fun batch hb part hpart => ?_, rfl⟩
    rw [if_pos (widths batch hb)]
    exact hpart

namespace Reads

theorem exists_batch (h : Reads width batches rows) (hr : row ∈ rows) :
    ∃ batch ∈ batches, ∃ part, batch.rows = .ok part ∧ row ∈ part := by
  obtain ⟨-, parts, hp, rfl⟩ := h
  obtain ⟨part, hpart, hr⟩ := List.mem_flatten.mp hr
  obtain ⟨batch, hb, hrows⟩ := exists_of_mem_mapM hp hpart
  exact ⟨batch, hb, part, hrows, hr⟩

theorem length_eq (h : Reads width batches rows) (hr : row ∈ rows) : row.length = width := by
  obtain ⟨batch, hb, part, hp, hr⟩ := h.exists_batch hr
  rw [Batch.length_of_mem_rows hp hr, h.1 batch hb]

theorem mem_column (h : Reads width batches rows) (hr : row ∈ rows) {i : Nat} {cell : Datum}
    (hc : row[i]? = some cell) :
    cell = none ∨ ∃ batch ∈ batches, ∃ column, batch.columns[i]? = some column ∧ cell ∈ column := by
  obtain ⟨batch, hb, part, hp, hr⟩ := h.exists_batch hr
  rcases Batch.mem_column_of_mem_rows hp hr hc with hn | hm
  · exact .inl hn
  · exact .inr ⟨batch, hb, hm⟩

end Reads

/-! ### places -/

theorem mem_enumerate {i : Nat} :
    (i, row) ∈ enumerate rows ↔ rows[i]? = some row := by
  unfold enumerate
  rw [List.mem_map]
  constructor
  · rintro ⟨⟨r, j⟩, h, he⟩
    cases he
    exact List.mem_zipIdx_iff_getElem?.mp h
  · intro h; exact ⟨(row, i), List.mem_zipIdx_iff_getElem?.mpr h, rfl⟩

theorem map_enumerate (rows : List Row) : (enumerate rows).map (·.2) = rows := by
  unfold enumerate
  rw [List.map_map]
  exact List.zipIdx_map_fst 0 rows

theorem mem_of_mem_enumerate {candidate : Candidate} (h : candidate ∈ enumerate rows) :
    candidate.2 ∈ rows :=
  map_enumerate rows ▸ List.mem_map_of_mem h

end ColumnPlan
