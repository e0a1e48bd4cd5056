import ColumnPlan.Logical.Operator
import ColumnPlan.Schema.DataType
import ColumnPlan.Text.Utf8

/-!
# What can go wrong

An error states its cause; `Error.message` words it.

* `Unsupported`     a request that is well formed and cannot be planned;
* `Malformed`       a request that contradicts itself;
* `EvalFault`       a failure while an expression is evaluated on a row;
* `BatchFault`      columns that form no batch;
* `Error`           all of them, the failures to find a column, and broken invariants.
-/

namespace ColumnPlan

/-- How a function relates its input to its output: row by row, set by set, or freely. -/
inductive MappingType where
  | row
  | set
  | free
  deriving DecidableEq, Repr

def MappingType.text : MappingType → String
  | .row => "ROW_MAPPING"
  | .set => "SET_MAPPING"
  | .free => "MAPPING"

inductive Unsupported where
  | dataType (t : DataType)
  | cell (t : DataType)
  | unaryOperator (op : ArithmeticOp)
  | likeOperand (op : CompareOp) (value : Value)
  | likePattern (pattern : List UInt8)
  | pathPattern (pattern : String)
  | distinctCall (function : String)
  | unknownFunction (function : String)
  | notRowMapping (function : String) (mapping : MappingType)
  | extractField (name : List UInt8)
  | negation
  | noEqualityKey
  | noHashers

namespace Unsupported

def message : Unsupported → String
  | .dataType t => "data type " ++ t.text ++ " has no value type mapping"
  | .cell t => "cannot read values of type " ++ t.text
  | .unaryOperator op => "unary operator '" ++ op.text ++ "'"
  | .likeOperand op value =>
    "'" ++ op.text ++ "' against " ++ value.type.text ++ " value " ++ value.text
  | .likePattern pattern => "invalid LIKE pattern '" ++ Utf8.lossy pattern ++ "'"
  | .pathPattern pattern => "path pattern '" ++ pattern ++ "'"
  | .distinctCall function => "DISTINCT in row function '" ++ function ++ "'"
  | .unknownFunction function => "unknown function '" ++ function ++ "'"
  | .notRowMapping function mapping =>
    "function '" ++ function ++ "' is " ++ mapping.text ++
      ", only ROW_MAPPING functions are allowed in expressions"
  | .extractField name => "extract field '" ++ Utf8.lossy name ++ "'"
  | .negation => "NOT must be eliminated before filter compilation"
  | .noEqualityKey =>
    "hash join needs at least one equality key; use the nested loop algorithm"
  | .noHashers => "hash join over a plan without hashers"

end Unsupported

/-- The input of a join that is read first and kept, and the one that is matched against it. -/
inductive JoinSide where
  | build
  | probe
  deriving DecidableEq, Repr

def JoinSide.text : JoinSide → String
  | .build => "build"
  | .probe => "probe"

inductive Malformed where
  | caseArity (conditions results : Nat)
  | emptyChain
  | chainArity (terms operators : Nat)
  | chainOperator (op : ArithmeticOp)
  | emptyIdentifier
  | extractArity (found : Nat)
  | extractField
  | markMissing (join : String)
  | markEmpty
  | batchWidth (side : JoinSide) (found expected : Nat)
  | stated (text : String)

namespace Malformed

def message : Malformed → String
  | .caseArity conditions results =>
    "CASE WHEN has " ++ toString conditions ++ " conditions but " ++ toString results ++ " results"
  | .emptyChain => "empty arithmetic chain"
  | .chainArity terms operators =>
    "arithmetic chain has " ++ toString terms ++ " terms but " ++ toString operators ++
      " operators"
  | .chainOperator op => "operator '" ++ op.text ++ "' in additive chain"
  | .emptyIdentifier => "function identifier must not be empty"
  | .extractArity found => "extract expects 1 column argument, got " ++ toString found
  | .extractField => "extract expects a field name argument"
  | .markMissing join => join ++ " join requires a mark column name"
  | .markEmpty => "mark column name must not be empty"
  | .batchWidth side found expected =>
    side.text ++ " batch has " ++ toString found ++ " columns, plan expects " ++ toString expected
  | .stated text => text

end Malformed

inductive EvalFault where
  | fieldOutOfRange (index cells : Nat)
  | operandCount (predicate : String) (expected found : Nat)
  | argumentCount (function : String) (expected found : Nat)
  | overflow (function : String)
  | operandTypes (function : String) (left right : ValueType)
  | negateType (type : ValueType)
  | notType (type : ValueType)
  | timestampType (type : ValueType)
  | timestampRange (millis : Int64)
  | stated (text : String)

namespace EvalFault

def message : EvalFault → String
  | .fieldOutOfRange index cells =>
    "field #" ++ toString index ++ " out of range for row of " ++ toString cells ++ " cells"
  | .operandCount predicate expected found =>
    predicate ++ " expects " ++ toString expected ++ " operands, got " ++ toString found
  | .argumentCount function expected found =>
    function ++ " expects " ++ toString expected ++
      (if expected = 1 then " argument, got " else " arguments, got ") ++ toString found
  | .overflow function => "integer overflow in " ++ function
  | .operandTypes function left right =>
    "cannot apply " ++ function ++ " to " ++ left.text ++ " and " ++ right.text
  | .negateType type => "cannot negate " ++ type.text ++ " value"
  | .notType type => "cannot apply not to " ++ type.text ++ " value"
  | .timestampType type => "extract expects an integral timestamp, got " ++ type.text
  | .timestampRange millis => "timestamp " ++ toString millis.toInt ++ " out of range"
  | .stated text => text

end EvalFault

inductive BatchFault where
  | columnCount (found expected : Nat)
  | unequalLengths
  | nullCell (column : String)
  | noColumns

namespace BatchFault

def message : BatchFault → String
  | .columnCount found expected =>
    toString found ++ " columns for a schema of " ++ toString expected ++ " fields"
  | .unequalLengths => "columns of different lengths"
  | .nullCell column => "NULL in column '" ++ column ++ "', which is not nullable"
  | .noColumns => "a batch needs a column"

end BatchFault

inductive Error where
  | columnNotFound (pattern : String) (names : List String)
  | ambiguousColumn (pattern : String) (found names : List String)
  | ambiguousKey (found : Nat) (names : List String)
  | unsupported (cause : Unsupported)
  | malformed (cause : Malformed)
  | evaluation (cause : EvalFault)
  | batch (cause : BatchFault)
  | fieldIndex (index fields : Nat)
  | internal (text : String)

/-- Names with a comma between two of them. -/
def listNames (names : List String) : String := ", ".intercalate names

def Error.message : Error → String
  | .columnNotFound pattern names =>
    "column '" ++ pattern ++ "' not found in schema [" ++ listNames names ++ "]"
  | .ambiguousColumn pattern found names =>
    "column '" ++ pattern ++ "' is ambiguous, matches [" ++ listNames found ++ "] in schema [" ++
      listNames names ++ "]"
  | .ambiguousKey found names =>
    "expected exactly one key field, found " ++ toString found ++ " in schema [" ++
      listNames names ++ "]"
  | .unsupported cause => "unsupported operation: " ++ cause.message
  | .malformed cause => "malformed input: " ++ cause.message
  | .evaluation cause => "evaluation error: " ++ cause.message
  | .batch cause => "batch error: " ++ cause.message
  | .fieldIndex index fields =>
    "An internal operation failed: field index " ++ toString index ++
      " out of range for schema of " ++ toString fields ++ " fields"
  | .internal text => "An internal operation failed: " ++ text

end ColumnPlan
