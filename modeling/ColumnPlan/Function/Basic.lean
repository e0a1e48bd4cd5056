import ColumnPlan.Logical.Basic
import ColumnPlan.Error
import ColumnPlan.Physical.Basic

/-!
# Functions

* `Function`                  a function that expressions call by name: what it maps to what, and
                              how a call of it is carried out;
* `Function.extractUnit?`     the field of a timestamp that a call asks for;
* `Function.extract`          the function that extracts it.
-/

namespace ColumnPlan

structure Function where
  identifier : String
  mapping : MappingType
  /-- The expression that carries out a call, from the arguments and the parameters of the call. -/
  transform : List ScalarExpr → Params → Except Error ScalarExpr

namespace Function

/-- The unit is the first parameter, or the one named "field". -/
def extractUnit? (params : Params) : Except Error TemporalUnit :=
  match (params.get? 0 "field").bind (·.bytes?) with
  | none => .error (.malformed .extractField)
  | some bytes =>
    match TemporalUnit.ofName? (Utf8.lossy bytes) with
    | some unit => .ok unit
    | none => .error (.unsupported (.extractField bytes))

def extract : Function where
  identifier := "extract"
  mapping := .row
  transform args params := do
    if args.length ≠ 1 then throw (.malformed (.extractArity args.length))
    let unit ← extractUnit? params
    match args.getLast? with
    | some timestamp => pure (.call (.extract unit) [timestamp] none)
    | none => throw (.internal "extract argument vanished")

/-- A call of one argument has that argument. -/
theorem transform_extract_singleton (timestamp : ScalarExpr) (params : Params) :
    extract.transform [timestamp] params =
      extractUnit? params >>= fun unit => .ok (.call (.extract unit) [timestamp] none) := rfl

theorem transform_extract_of_length_ne {args : List ScalarExpr} (h : args.length ≠ 1)
    (params : Params) :
    extract.transform args params = .error (.malformed (.extractArity args.length)) := by
  show (if args.length ≠ 1 then _ else _) = _
  rw [if_pos h]
  rfl

end Function

end ColumnPlan
