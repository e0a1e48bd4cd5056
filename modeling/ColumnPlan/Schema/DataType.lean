import ColumnPlan.Value.Basic

/-!
# Types of columns

* `DataType`               how the cells of a column are stored;
* `DataType.valueType?`    the type of their values; some columns hold no values of this library;
* `ValueType.dataType`     the usual way to store values of a type.
-/

namespace ColumnPlan

inductive DataType where
  | null
  | boolean
  | int8
  | int16
  | int32
  | int64
  | uint8
  | uint16
  | uint32
  | uint64
  | float16
  | float32
  | float64
  | timestampMillis
  | date32
  | date64
  | decimal128 (precision scale : Nat)
  | binary
  | largeBinary
  | binaryView
  | utf8
  | largeUtf8
  | utf8View
  deriving DecidableEq, Repr

def DataType.text : DataType → String
  | .null => "Null"
  | .boolean => "Boolean"
  | .int8 => "Int8"
  | .int16 => "Int16"
  | .int32 => "Int32"
  | .int64 => "Int64"
  | .uint8 => "UInt8"
  | .uint16 => "UInt16"
  | .uint32 => "UInt32"
  | .uint64 => "UInt64"
  | .float16 => "Float16"
  | .float32 => "Float32"
  | .float64 => "Float64"
  | .timestampMillis => "Timestamp(Millisecond, None)"
  | .date32 => "Date32"
  | .date64 => "Date64"
  | .decimal128 precision scale =>
    "Decimal128(" ++ toString precision ++ ", " ++ toString scale ++ ")"
  | .binary => "Binary"
  | .largeBinary => "LargeBinary"
  | .binaryView => "BinaryView"
  | .utf8 => "Utf8"
  | .largeUtf8 => "LargeUtf8"
  | .utf8View => "Utf8View"

def DataType.valueType? : DataType → Option ValueType
  | .boolean => some .boolean
  | .int32 => some .integer
  | .int64 => some .long
  | .float32 => some .float
  | .float64 => some .double
  | .binary | .largeBinary | .utf8 | .largeUtf8 => some .binary
  | _ => none

def ValueType.dataType : ValueType → DataType
  | .boolean => .boolean
  | .integer => .int32
  | .long => .int64
  | .float => .float32
  | .double => .float64
  | .binary => .binary

@[simp] theorem ValueType.valueType?_dataType (t : ValueType) : t.dataType.valueType? = some t := by
  cases t <;> rfl

end ColumnPlan
