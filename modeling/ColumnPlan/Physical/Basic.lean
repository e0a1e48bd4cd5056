import ColumnPlan.Calendar
import ColumnPlan.Logical.Operator
import ColumnPlan.Pattern.Like
import ColumnPlan.Value.Order

/-!
# Physical expressions and predicates

The trees that a planner makes.  Columns are known by their place in a row; the only names left
are those of output columns.

* `ScalarFunction`, `PredicateFunction`     what is applied to values;
* `ScalarExpr`                              an expression whose value is a cell;
* `PredicateExpr`                           a condition;
* `ScalarExpr.alias?`, `ScalarExpr.withAlias`   the name of an output column.
-/

namespace ColumnPlan

inductive ScalarFunction where
  | add
  | minus
  | multiply
  | ratio
  | mod
  | negate
  | not
  /-- Conditions and results in turn, then perhaps a last result. -/
  | caseWhen
  | hash
  | extract (unit : TemporalUnit)
  deriving DecidableEq, Repr

namespace ScalarFunction

def name : ScalarFunction → String
  | .add => "add"
  | .minus => "minus"
  | .multiply => "multiply"
  | .ratio => "ratio"
  | .mod => "mod"
  | .negate => "negate"
  | .not => "not"
  | .caseWhen => "case_when"
  | .hash => "hash"
  | .extract _ => "extract"

/-- The number of arguments, where it is fixed. -/
def arity? : ScalarFunction → Option Nat
  | .add | .minus | .multiply | .ratio | .mod => some 2
  | .negate | .not | .extract _ => some 1
  | .caseWhen | .hash => none

end ScalarFunction

inductive PredicateFunction where
  | compare (c : Comparison)
  | equalConst (value : Value)
  | notEqualConst (value : Value)
  | likeConst (pattern : LikePattern)
  | notLikeConst (pattern : LikePattern)
  | inSet (set : ValueSet)
  | notInSet (set : ValueSet)
  deriving DecidableEq

namespace PredicateFunction

def comparisonName : Comparison → String
  | .eq => "equal"
  | .notEq => "not_equal"
  | .gt => "greater"
  | .gtEq => "greater_equal"
  | .lt => "less"
  | .ltEq => "less_equal"
  | .like => "like"
  | .notLike => "not_like"

def name : PredicateFunction → String
  | .compare c => comparisonName c
  | .equalConst _ => "equal_const"
  | .notEqualConst _ => "not_equal_const"
  | .likeConst _ => "like_const"
  | .notLikeConst _ => "not_like_const"
  | .inSet _ => "in_set"
  | .notInSet _ => "not_in_set"

def arity : PredicateFunction → Nat
  | .compare _ => 2
  | _ => 1

/-- The predicate of an operator between two operands. -/
def ofOp (op : CompareOp) : PredicateFunction := .compare op.base

end PredicateFunction

mutual

inductive ScalarExpr where
  | field (index : Nat) (label : Option String)
  | literal (value : Value) (label : Option String)
  | call (function : ScalarFunction) (args : List ScalarExpr) (label : Option String)
  | rename (label : String) (child : ScalarExpr)
  | predicate (p : PredicateExpr)

inductive PredicateExpr where
  | compare (function : PredicateFunction) (operands : List ScalarExpr)
  | and (children : List PredicateExpr)
  | or (children : List PredicateExpr)
  | always
  | never

end

instance : Inhabited ScalarExpr := ⟨.field 0 none⟩
instance : Inhabited PredicateExpr := ⟨.always⟩

namespace ScalarExpr

/-- The name that the expression gives to its column. -/
def alias? : ScalarExpr → Option String
  | .field _ label | .literal _ label | .call _ _ label => label
  | .rename label _ => some label
  | .predicate _ => none

/-- The expression under a new name, in place of the one it has of its own. -/
def withAlias (label : String) : ScalarExpr → ScalarExpr
  | .field index _ => .field index (some label)
  | .literal value _ => .literal value (some label)
  | .call function args _ => .call function args (some label)
  | e => .rename label e

end ScalarExpr

/-! ### sizes -/

mutual

/-- The number of nodes, with one more for each place in a list. -/
def ScalarExpr.size : ScalarExpr → Nat
  | .field _ _ | .literal _ _ => 1
  | .call _ args _ => 1 + ScalarExpr.listSize args
  | .rename _ child => 1 + child.size
  | .predicate p => 1 + p.size

def ScalarExpr.listSize : List ScalarExpr → Nat
  | [] => 0
  | e :: es => 1 + e.size + ScalarExpr.listSize es

def PredicateExpr.size : PredicateExpr → Nat
  | .compare _ operands => 1 + ScalarExpr.listSize operands
  | .and children => 1 + PredicateExpr.listSize children
  | .or children => 1 + PredicateExpr.listSize children
  | .always | .never => 1

def PredicateExpr.listSize : List PredicateExpr → Nat
  | [] => 0
  | p :: ps => 1 + p.size + PredicateExpr.listSize ps

end

theorem ScalarExpr.listSize_append (es fs : List ScalarExpr) :
    listSize (es ++ fs) = listSize es + listSize fs := by
  induction es with
  | nil => simp [listSize]
  | cons e es ih => simp only [List.cons_append, listSize, ih]; omega

theorem PredicateExpr.listSize_append (ps qs : List PredicateExpr) :
    listSize (ps ++ qs) = listSize ps + listSize qs := by
  induction ps with
  | nil => simp [listSize]
  | cons p ps ih => simp only [List.cons_append, listSize, ih]; omega

end ColumnPlan
