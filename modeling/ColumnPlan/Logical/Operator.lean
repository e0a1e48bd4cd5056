/-!
# Operators of logical expressions and filters

* `ArithmeticOp`     the operators between numbers;
* `Comparison`       the eight comparisons, and `Quantifier`, how a path with several matching
                     columns is read;
* `CompareOp`        a comparison with its quantifier;
* `MemberOp`         membership in a list, or its absence, with a quantifier.
-/

namespace ColumnPlan

inductive ArithmeticOp where
  | plus
  | minus
  | star
  | div
  | mod
  deriving DecidableEq, Repr

def ArithmeticOp.text : ArithmeticOp → String
  | .plus => "+"
  | .minus => "-"
  | .star => "*"
  | .div => "/"
  | .mod => "%"

inductive Comparison where
  | eq
  | notEq
  | gt
  | gtEq
  | lt
  | ltEq
  | like
  | notLike
  deriving DecidableEq, Repr

namespace Comparison

def text : Comparison → String
  | .eq => "=="
  | .notEq => "!="
  | .gt => ">"
  | .gtEq => ">="
  | .lt => "<"
  | .ltEq => "<="
  | .like => "like"
  | .notLike => "not like"

/-- The comparison that holds of two comparable operands iff this one does not. -/
def negate : Comparison → Comparison
  | .eq => .notEq
  | .notEq => .eq
  | .gt => .ltEq
  | .gtEq => .lt
  | .lt => .gtEq
  | .ltEq => .gt
  | .like => .notLike
  | .notLike => .like

def isLike : Comparison → Bool
  | .like | .notLike => true
  | _ => false

@[simp] theorem negate_negate (c : Comparison) : c.negate.negate = c := by cases c <;> rfl

end Comparison

/-- Over several matching columns a comparison holds if it holds of one, or of all of them. -/
inductive Quantifier where
  | any
  | all
  deriving DecidableEq, Repr

namespace Quantifier

def dual : Quantifier → Quantifier
  | .any => .all
  | .all => .any

/-- The mark before an operator that speaks of all columns. -/
def mark : Quantifier → String
  | .any => ""
  | .all => "&"

@[simp] theorem dual_dual (q : Quantifier) : q.dual.dual = q := by cases q <;> rfl

end Quantifier

structure CompareOp where
  base : Comparison
  quantifier : Quantifier
  deriving DecidableEq, Repr

namespace CompareOp

def text (op : CompareOp) : String := op.quantifier.mark ++ op.base.text

/-- The operator of the negation: not one column compares so iff all compare otherwise. -/
def opposite (op : CompareOp) : CompareOp := ⟨op.base.negate, op.quantifier.dual⟩

def isEquality (op : CompareOp) : Bool := op.base = .eq

def isLike (op : CompareOp) : Bool := op.base.isLike

@[simp] theorem opposite_opposite (op : CompareOp) : op.opposite.opposite = op := by
  simp [opposite]

end CompareOp

structure MemberOp where
  negated : Bool
  quantifier : Quantifier
  deriving DecidableEq, Repr

namespace MemberOp

def text (op : MemberOp) : String := op.quantifier.mark ++ (if op.negated then "not in" else "in")

def opposite (op : MemberOp) : MemberOp := ⟨!op.negated, op.quantifier.dual⟩

@[simp] theorem opposite_opposite (op : MemberOp) : op.opposite.opposite = op := by
  simp [opposite]

end MemberOp

end ColumnPlan
