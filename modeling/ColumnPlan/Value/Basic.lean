import ColumnPlan.Number.Shortest
import ColumnPlan.Text.Utf8

/-!
# Values and their types

* `ValueType`           the six types a value can have;
* `Value`               a value that is not NULL; equality tells types apart, and floats by their
                        bits (there is one NaN);
* `Value.toInt?`        the integer of an integral value;
* `Value.toDouble?`     any number as a 64-bit float;
* `Value.text`          the text of a value in names and plans;
* `Datum`, `Row`        a cell that may be NULL, and a row of cells;
* `Datum.debug`         the text of a cell in the report of an internal error.
-/

namespace ColumnPlan

inductive ValueType where
  | boolean
  | integer
  | long
  | float
  | double
  | binary
  deriving DecidableEq, Repr

namespace ValueType

def text : ValueType → String
  | .boolean => "BOOLEAN"
  | .integer => "INTEGER"
  | .long => "LONG"
  | .float => "FLOAT"
  | .double => "DOUBLE"
  | .binary => "BINARY"

def isNumeric : ValueType → Bool
  | .boolean | .binary => false
  | _ => true

/-- The place of the type in the order of values of mixed types. -/
def rank : ValueType → Nat
  | .boolean => 0
  | .integer => 1
  | .long => 2
  | .float => 3
  | .double => 4
  | .binary => 5

end ValueType

inductive Value where
  | boolean (b : Bool)
  | integer (n : Int32)
  | long (n : Int64)
  | float (x : Float32)
  | double (x : Float)
  | binary (bytes : List UInt8)
  deriving DecidableEq

/-- A cell; `none` is NULL. -/
abbrev Datum := Option Value

abbrev Row := List Datum

namespace Value

instance : Inhabited Value := ⟨.boolean false⟩

def type : Value → ValueType
  | .boolean _ => .boolean
  | .integer _ => .integer
  | .long _ => .long
  | .float _ => .float
  | .double _ => .double
  | .binary _ => .binary

/-- The bytes of a text. -/
def ofText (s : String) : Value := .binary (Utf8.encode s)

def bytes? : Value → Option (List UInt8)
  | .binary bytes => some bytes
  | _ => none

def isBinary (v : Value) : Bool := v.bytes?.isSome

/-- The number of an `INTEGER` or `LONG` value. -/
def toInt? : Value → Option Int
  | .integer n => some n.toInt
  | .long n => some n.toInt
  | _ => none

/-- A number as a 64-bit float; a `LONG` beyond 53 bits is rounded. -/
def toDouble? : Value → Option Float
  | .integer n => some (Double.ofInt n.toInt)
  | .long n => some (Double.ofInt n.toInt)
  | .float x => some (Double.ofSingle x)
  | .double x => some x
  | .boolean _ | .binary _ => none

def text : Value → String
  | .boolean b => if b then "true" else "false"
  | .integer n => toString n.toInt
  | .long n => toString n.toInt
  | .float x => Single.text x
  | .double x => Double.text x
  | .binary bytes => "'" ++ Utf8.lossy bytes ++ "'"

/-- The text of a value with the name of its constructor. -/
def debug : Value → String
  | .boolean b => "Boolean(" ++ (if b then "true" else "false") ++ ")"
  | .integer n => "Integer(" ++ toString n.toInt ++ ")"
  | .long n => "Long(" ++ toString n.toInt ++ ")"
  | .float x => "Float(" ++ Single.debug x ++ ")"
  | .double x => "Double(" ++ Double.debug x ++ ")"
  | .binary bytes => "Binary([" ++ ", ".intercalate (bytes.map (toString ·.toNat)) ++ "])"

/-! ### integers of a fixed width -/

/-- A number as an `INTEGER`, if it fits into 32 bits. -/
def integer? (z : Int) : Option Value :=
  if Int32.minValue.toInt ≤ z ∧ z ≤ Int32.maxValue.toInt then some (.integer (.ofInt z)) else none

/-- A number as a `LONG`, if it fits into 64 bits. -/
def long? (z : Int) : Option Value :=
  if Int64.minValue.toInt ≤ z ∧ z ≤ Int64.maxValue.toInt then some (.long (.ofInt z)) else none

end Value

def Datum.debug (cell : Datum) : String := cell.elim "None" fun v => "Some(" ++ v.debug ++ ")"

end ColumnPlan
