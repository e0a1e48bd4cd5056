import ColumnPlan.Physical.Basic
import ColumnPlan.Error
import ColumnPlan.Value.Hash

/-!
# Evaluation on a row

NULL passes through arithmetic and makes every comparison false.  Two `INTEGER` operands stay
within 32 bits, other integers within 64 bits, and a float on either side makes both of them
64-bit floats.

* `arithmetic`                an operation on two values;
* `ScalarFunction.apply`      a function on cells;
* `Comparison.holds`          a comparison of two values;
* `PredicateFunction.holds`   a predicate on values;
* `ScalarExpr.eval`, `PredicateExpr.eval`   expressions and predicates on a row.
-/

namespace ColumnPlan

/-! ### functions -/

/-- The five operations between two numbers. -/
inductive ArithmeticFunction where
  | add
  | minus
  | multiply
  | ratio
  | mod
  deriving DecidableEq, Repr

namespace ArithmeticFunction

def function : ArithmeticFunction → ScalarFunction
  | .add => .add
  | .minus => .minus
  | .multiply => .multiply
  | .ratio => .ratio
  | .mod => .mod

def name (f : ArithmeticFunction) : String := f.function.name

/-- The exact result; the quotient is truncated toward zero, and the remainder has the sign of
the dividend.  Nothing is divided by zero. -/
def integerResult? (f : ArithmeticFunction) (a b : Int) : Option Int :=
  match f with
  | .add => some (a + b)
  | .minus => some (a - b)
  | .multiply => some (a * b)
  | .ratio => if b = 0 then none else some (a.tdiv b)
  | .mod => if b = 0 then none else some (a.tmod b)

def onDoubles (f : ArithmeticFunction) (x y : Float) : Float :=
  match f with
  | .add => x + y
  | .minus => x - y
  | .multiply => x * y
  | .ratio => x / y
  | .mod => Double.rem x y

/-- The remainder of the least number and -1 counts as an overflow with its quotient. -/
def quotientOverflows (f : ArithmeticFunction) (least a b : Int) : Bool :=
  f = .mod && a = least && b = -1

/-- An operation on integers of a width: NULL if it divides by zero, and an error if the result
does not fit. -/
def onInts (f : ArithmeticFunction) (fit? : Int → Option Value) (least a b : Int) :
    Except Error Datum :=
  match f.integerResult? a b with
  | none => .ok none
  | some z =>
    match fit? z with
    | some v =>
      if f.quotientOverflows least a b then .error (.evaluation (.overflow f.name))
      else .ok (some v)
    | none => .error (.evaluation (.overflow f.name))

end ArithmeticFunction

def arithmetic (f : ArithmeticFunction) (left right : Value) : Except Error Datum :=
  match left, right with
  | .integer a, .integer b => f.onInts Value.integer? Int32.minValue.toInt a.toInt b.toInt
  | left, right =>
    match left.toInt?, right.toInt? with
    | some a, some b => f.onInts Value.long? Int64.minValue.toInt a b
    | _, _ =>
      match left.toDouble?, right.toDouble? with
      | some x, some y => .ok (some (.double (f.onDoubles x y)))
      | _, _ => .error (.evaluation (.operandTypes f.name left.type right.type))

def negateValue : Value → Except Error Value
  | .integer n =>
    match Value.integer? (-n.toInt) with
    | some v => .ok v
    | none => .error (.evaluation (.overflow "negate"))
  | .long n =>
    match Value.long? (-n.toInt) with
    | some v => .ok v
    | none => .error (.evaluation (.overflow "negate"))
  | .float x => .ok (.float (-x))
  | .double x => .ok (.double (-x))
  | v => .error (.evaluation (.negateType v.type))

def notValue : Value → Except Error Value
  | .boolean b => .ok (.boolean !b)
  | v => .error (.evaluation (.notType v.type))

/-- A field of the date and time of a timestamp in milliseconds. -/
def extractUnit (unit : TemporalUnit) (millis : Int64) : Except Error Int64 :=
  match Calendar.fieldAt? unit millis.toInt with
  | some n => .ok (.ofInt n)
  | none => .error (.evaluation (.timestampRange millis))

def extractValue (unit : TemporalUnit) (v : Value) : Except Error Value :=
  match v.toInt? with
  | some n => do pure (.long (← extractUnit unit (.ofInt n)))
  | none => .error (.evaluation (.timestampType v.type))

/-- A function of one value; NULL passes through. -/
def onValue (f : Value → Except Error Value) : Datum → Except Error Datum
  | none => .ok none
  | some v => do pure (some (← f v))

/-- A function of two values; NULL passes through. -/
def onValues (f : Value → Value → Except Error Datum) : Datum → Datum → Except Error Datum
  | some v, some w => f v w
  | _, _ => .ok none

/-- A function on the cells of its arguments.  A case expression does not look at all of its
arguments and is evaluated apart. -/
def ScalarFunction.apply (f : ScalarFunction) (cells : List Datum) : Except Error Datum :=
  match f, cells with
  | .add, [a, b] => onValues (arithmetic .add) a b
  | .minus, [a, b] => onValues (arithmetic .minus) a b
  | .multiply, [a, b] => onValues (arithmetic .multiply) a b
  | .ratio, [a, b] => onValues (arithmetic .ratio) a b
  | .mod, [a, b] => onValues (arithmetic .mod) a b
  | .negate, [a] => onValue negateValue a
  | .not, [a] => onValue notValue a
  | .extract unit, [a] => onValue (extractValue unit) a
  | .hash, cells => .ok (some (.long (hashRow cells).toInt64))
  | f, cells => .error (.evaluation (.argumentCount f.name (f.arity?.getD 0) cells.length))

/-! ### predicates -/

/-- Whether a comparison holds of operands in a given order; none compares with NaN. -/
def Comparison.holdsFor : Comparison → Option Ordering → Bool
  | _, none => false
  | .eq, some o => o.isEq
  | .notEq, some o => !o.isEq
  | .gt, some o => o.isGT
  | .gtEq, some o => o.isGE
  | .lt, some o => o.isLT
  | .ltEq, some o => o.isLE
  | .like, some _ | .notLike, some _ => false

/-- Whether a text matches a pattern that is known only now. -/
def likeHolds (wanted : Bool) (text pattern : Value) : Except Error Bool :=
  match text.bytes?, pattern.bytes? with
  | some bytes, some p =>
    match LikePattern.ofBytes? p with
    | some regex => .ok (regex.isMatch bytes == wanted)
    | none => .error (.unsupported (.likePattern p))
  | _, _ => .ok false

def Comparison.holds (c : Comparison) (left right : Value) : Except Error Bool :=
  match c with
  | .like => likeHolds true left right
  | .notLike => likeHolds false left right
  | c => .ok (c.holdsFor (left.compare? right))

/-- A predicate on the values of its operands. -/
def PredicateFunction.holds (f : PredicateFunction) (values : List Value) : Except Error Bool :=
  match f, values with
  | .compare c, [a, b] => c.holds a b
  | .equalConst k, [v] => .ok (Comparison.eq.holdsFor (v.compare? k))
  | .notEqualConst k, [v] => .ok (Comparison.notEq.holdsFor (v.compare? k))
  | .likeConst p, [v] => .ok (v.bytes?.any p.isMatch)
  | .notLikeConst p, [v] => .ok (v.bytes?.any fun bytes => !p.isMatch bytes)
  | .inSet s, [v] => .ok (s.contains v)
  | .notInSet s, [v] => .ok (!s.contains v)
  | f, values => .error (.evaluation (.operandCount f.name f.arity values.length))

/-! ### trees -/

mutual

def ScalarExpr.eval (row : Row) : ScalarExpr → Except Error Datum
  | .field index _ =>
    match row[index]? with
    | some cell => .ok cell
    | none => .error (.evaluation (.fieldOutOfRange index row.length))
  | .literal value _ => .ok (some value)
  | .call .caseWhen args _ => ScalarExpr.evalCases row args
  | .call function args _ =>
    match function.arity? with
    | some n =>
      if args.length = n then ScalarExpr.evalAll row args >>= function.apply
      else .error (.evaluation (.argumentCount function.name n args.length))
    | none => ScalarExpr.evalAll row args >>= function.apply
  | .rename _ child => child.eval row
  | .predicate p => do pure (some (.boolean (← p.eval row)))

/-- All arguments from left to right. -/
def ScalarExpr.evalAll (row : Row) : List ScalarExpr → Except Error (List Datum)
  | [] => .ok []
  | e :: es => do
    let cell ← e.eval row
    let cells ← ScalarExpr.evalAll row es
    pure (cell :: cells)

/-- The result behind the first true condition; no other result is looked at. -/
def ScalarExpr.evalCases (row : Row) : List ScalarExpr → Except Error Datum
  | [] => .ok none
  | [last] => last.eval row
  | condition :: result :: rest => do
    if (← condition.eval row) = some (.boolean true) then result.eval row
    else ScalarExpr.evalCases row rest

/-- The operands of a comparison from left to right, up to the first NULL. -/
def ScalarExpr.evalOperands (row : Row) : List ScalarExpr → Except Error (Option (List Value))
  | [] => .ok (some [])
  | e :: es => do
    match ← e.eval row with
    | none => pure none
    | some v => pure ((← ScalarExpr.evalOperands row es).map (v :: ·))

def PredicateExpr.eval (row : Row) : PredicateExpr → Except Error Bool
  | .always => .ok true
  | .never => .ok false
  | .and children => PredicateExpr.evalAnd row children
  | .or children => PredicateExpr.evalOr row children
  | .compare function operands =>
    if operands.length = function.arity then do
      match ← ScalarExpr.evalOperands row operands with
      | some values => function.holds values
      | none => pure false
    else .error (.evaluation (.operandCount function.name function.arity operands.length))

/-- Up to the first child that does not hold. -/
def PredicateExpr.evalAnd (row : Row) : List PredicateExpr → Except Error Bool
  | [] => .ok true
  | p :: ps => do if ← p.eval row then PredicateExpr.evalAnd row ps else pure false

/-- Up to the first child that holds. -/
def PredicateExpr.evalOr (row : Row) : List PredicateExpr → Except Error Bool
  | [] => .ok false
  | p :: ps => do if ← p.eval row then pure true else PredicateExpr.evalOr row ps

end

end ColumnPlan
