import ColumnPlan.Proofs.Fallible
import ColumnPlan.Schema.Batch

/-!
# What the rows of a batch hold

* `length_of_mem_rows`        a row has a cell for each column;
* `mem_column_of_mem_rows`    a cell of a row is NULL or stands in the column.
-/

namespace ColumnPlan.Batch

theorem eq_of_readCell {t : DataType} {cell read : Datum} (h : readCell t cell = .ok read) :
    read = none ∨ read = cell := by
  unfold readCell at h
  split at h
  · cases h
    exact .inl rfl
  · split at h
    · cases h
      exact .inr rfl
    · cases h

variable {batch : Batch} {rows : List Row} {row : Row}

theorem length_of_mem_rows (h : batch.rows = .ok rows) (hr : row ∈ rows) :
    row.length = batch.width := by
  obtain ⟨n, -, hn⟩ := exists_of_mem_mapM h hr
  have fields : batch.columns.length = batch.schema.fields.length := batch.sameCount
  rw [length_of_mapM hn, List.length_zip, ← fields, Nat.min_self]
  rfl

theorem mem_column_of_mem_rows (h : batch.rows = .ok rows) (hr : row ∈ rows) {i : Nat}
    {cell : Datum} (hc : row[i]? = some cell) :
    cell = none ∨ ∃ column, batch.columns[i]? = some column ∧ cell ∈ column := by
  obtain ⟨n, -, hn⟩ := exists_of_mem_mapM h hr
  obtain ⟨⟨f, column⟩, hi, hf⟩ := exists_of_getElem?_mapM hn hc
  obtain ⟨-, hcol⟩ := List.getElem?_zip_eq_some.mp hi
  rcases eq_of_readCell hf with rfl | rfl
  · exact .inl rfl
  · cases hv : column[n]? with
    | none => exact .inl rfl
    | some v => exact .inr ⟨column, hcol, List.mem_of_getElem? hv⟩

end ColumnPlan.Batch
