import ColumnPlan.Dictionary
import ColumnPlan.Logical.Operator
import ColumnPlan.Value.Basic

/-!
# Logical expressions and filters

The trees that a planner is given.  They speak of columns by path, not by place.

* `Params`                 the arguments of a call that are not expressions;
* `Expr`                   an expression;
* `Filter`                 a condition on a row;
* `Filter.isLeaf`, `Filter.children`   the shape of a filter.
-/

namespace ColumnPlan

/-- Values given to a function by place and by name. -/
structure Params where
  positional : List Value
  named : Dictionary String Value
  deriving DecidableEq

namespace Params

def none : Params := ⟨[], .empty⟩

/-- The value at a place, or else under a name. -/
def get? (p : Params) (place : Nat) (name : String) : Option Value :=
  p.positional[place]?.or (p.named.get? name)

end Params

mutual

inductive Expr where
  | path (pattern : String)
  | key
  | const (value : Value)
  | binary (op : ArithmeticOp) (left right : Expr)
  | unary (op : ArithmeticOp) (operand : Expr)
  | bracket (inner : Expr) (label : Option String)
  | caseWhen (conditions : List Filter) (results : List Expr) (otherwise : Option Expr)
  | call (name : String) (args : List Expr) (params : Params) (distinct : Bool)
  /-- A chain of terms; each operator stands before its term. -/
  | chain (terms : List Expr) (ops : List ArithmeticOp)

inductive Filter where
  | value (path : String) (op : CompareOp) (value : Value)
  | path (left : String) (op : CompareOp) (right : String)
  | key (op : CompareOp) (value : Int64)
  | expr (left : Expr) (op : CompareOp) (right : Expr)
  | member (path : String) (op : MemberOp) (values : List Value)
  | bool (value : Bool)
  | and (children : List Filter)
  | or (children : List Filter)
  | not (child : Filter)

end

deriving instance BEq for Expr, Filter

instance : Inhabited Expr := ⟨.key⟩
instance : Inhabited Filter := ⟨.bool true⟩

namespace Filter

def isLeaf : Filter → Bool
  | .and _ | .or _ | .not _ => false
  | _ => true

def children : Filter → List Filter
  | .and children | .or children => children
  | .not child => [child]
  | _ => []

end Filter

/-! ### size -/

mutual

/-- The number of nodes, with one more for each place in a list. -/
def Expr.size : Expr → Nat
  | .path _ | .key | .const _ => 1
  | .binary _ left right => 1 + left.size + right.size
  | .unary _ operand => 1 + operand.size
  | .bracket inner _ => 1 + inner.size
  | .caseWhen conditions results otherwise =>
    1 + Filter.listSize conditions + Expr.listSize results + Expr.optionSize otherwise
  | .call _ args _ _ => 1 + Expr.listSize args
  | .chain terms _ => 1 + Expr.listSize terms

def Expr.listSize : List Expr → Nat
  | [] => 0
  | e :: es => 1 + e.size + Expr.listSize es

def Expr.optionSize : Option Expr → Nat
  | none => 0
  | some e => 1 + e.size

def Filter.size : Filter → Nat
  | .value _ _ _ | .path _ _ _ | .key _ _ | .member _ _ _ | .bool _ => 1
  | .expr left _ right => 1 + left.size + right.size
  | .and children => 1 + Filter.listSize children
  | .or children => 1 + Filter.listSize children
  | .not child => 1 + child.size

def Filter.listSize : List Filter → Nat
  | [] => 0
  | f :: fs => 1 + f.size + Filter.listSize fs

end

end ColumnPlan
