import ColumnPlan.Schema.Basic

/-!
# Batches of rows

* `Batch`               cells column by column; all columns have the length of the batch;
* `Batch.ofColumns`     a batch, unless the columns do not fit the schema;
* `Batch.rows`          the rows of a batch.
-/

namespace ColumnPlan

structure Batch where
  schema : Schema
  columns : List (List Datum)
  length : Nat
  sameCount : columns.length = schema.size
  sameLength : ∀ column ∈ columns, column.length = length

namespace Batch

/-- Whether a cell counts as missing where NULL is forbidden.  A column of the `Null` type keeps
no record of missing cells. -/
def isMissing (t : DataType) (cell : Datum) : Bool := t ≠ .null && cell.isNone

/-- The first column that holds a NULL although its field forbids it. -/
def nullColumn? (s : Schema) (columns : List (List Datum)) : Option Field :=
  ((s.fields.zip columns).find? fun (f, cells) => !f.nullable && cells.any (isMissing f.type)).map
    (·.1)

def ofColumns (s : Schema) (columns : List (List Datum)) : Except Error Batch :=
  match columns with
  | [] => .error (.batch .noColumns)
  | first :: rest =>
    if hc : (first :: rest).length = s.size then
      if hl : ∀ column ∈ first :: rest, column.length = first.length then
        match nullColumn? s (first :: rest) with
        | some f => .error (.batch (.nullCell f.name))
        | none => .ok ⟨s, first :: rest, first.length, hc, hl⟩
      else .error (.batch .unequalLengths)
    else .error (.batch (.columnCount (first :: rest).length s.size))

def width (b : Batch) : Nat := b.columns.length

/-- Reads one cell.  A missing cell is NULL whatever its column holds. -/
def readCell (t : DataType) (cell : Datum) : Except Error Datum :=
  if isMissing t cell then .ok none
  else if t.valueType?.isSome then .ok cell
  else .error (.unsupported (.cell t))

def row (b : Batch) (i : Nat) : Except Error Row :=
  (b.schema.fields.zip b.columns).mapM fun (f, cells) => readCell f.type (cells[i]?.getD none)

/-- The rows in order; the first cell that cannot be read is the error. -/
def rows (b : Batch) : Except Error (List Row) := (List.range b.length).mapM b.row

end Batch

end ColumnPlan
