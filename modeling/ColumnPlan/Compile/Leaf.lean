import ColumnPlan.Compile.Context
import ColumnPlan.Physical.Connective
import ColumnPlan.Schema.Resolve

/-!
# Leaves of filters

A path in a leaf may mean several columns.  The leaf becomes one predicate for each of them, and
its quantifier says whether one of these has to hold or all.

* `Quantifier.combine`       the predicates of the columns as one;
* `compileComparison`        a column compared with a value;
* `compileValue`             a leaf that compares with a value;
* `compileMember`            a leaf that asks for membership.
-/

namespace ColumnPlan

def Quantifier.combine : Quantifier → List PredicateExpr → PredicateExpr
  | .any => PredicateExpr.anyOf
  | .all => PredicateExpr.allOf

/-- The value behind `like` as a pattern. -/
def likeOperand (op : CompareOp) (value : Value) : Except Error LikePattern :=
  match value.bytes? with
  | none => .error (.unsupported (.likeOperand op value))
  | some bytes =>
    match LikePattern.ofBytes? bytes with
    | some pattern => .ok pattern
    | none => .error (.unsupported (.likePattern bytes))

/-- A comparison with a value that stays an operand. -/
def compileOperand (op : CompareOp) (value : Value) (index : Nat) : Compile PredicateExpr := do
  if op.isLike && !value.isBinary then throw (.unsupported (.likeOperand op value))
  pure (.compare (.ofOp op) [.field index none, .literal (← literal value) none])

def compileComparison (options : CompileOptions) (op : CompareOp) (value : Value) (index : Nat) :
    Compile PredicateExpr :=
  let folded (function : PredicateFunction) := PredicateExpr.compare function [.field index none]
  if options.fold then
    match op.base with
    | .eq => do pure (folded (.equalConst (← literal value)))
    | .notEq => do pure (folded (.notEqualConst (← literal value)))
    | .like => do pure (folded (.likeConst (← likeOperand op value)))
    | .notLike => do pure (folded (.notLikeConst (← likeOperand op value)))
    | _ => compileOperand op value index
  else compileOperand op value index

/-- The columns that a leaf speaks of; there has to be one. -/
def leafColumns (s : Schema) (pattern : String) : Except Error (List Nat) :=
  match s.columns pattern with
  | [] => .error (.columnNotFound pattern s.names)
  | columns => .ok columns

def compileValue (options : CompileOptions) (s : Schema) (pattern : String) (op : CompareOp)
    (value : Value) : Compile PredicateExpr := do
  let comparisons ← (← leafColumns s pattern).mapM (compileComparison options op value)
  pure (op.quantifier.combine comparisons)

def compileKey (options : CompileOptions) (s : Schema) (op : CompareOp) (value : Int64) :
    Compile PredicateExpr := do
  let comparison ← compileComparison options op (.long value) (← s.resolveKey)
  pure (op.quantifier.combine [comparison])

/-- Membership of one column; values of another type than the column has are left out. -/
def compileMembership (s : Schema) (op : MemberOp) (values : List Value) (index : Nat) :
    Except Error PredicateExpr := do
  let type ← s.valueType index
  let set := ValueSet.ofList (values.filter fun v => v.type = type)
  pure (.compare (if op.negated then .notInSet set else .inSet set) [.field index none])

def compileMember (s : Schema) (pattern : String) (op : MemberOp) (values : List Value) :
    Except Error PredicateExpr := do
  let memberships ← (← leafColumns s pattern).mapM (compileMembership s op values)
  pure (op.quantifier.combine memberships)

/-- Two columns compared with each other. -/
def compilePaths (s : Schema) (left : String) (op : CompareOp) (right : String) :
    Except Error PredicateExpr := do
  let l ← s.resolve left
  let r ← s.resolve right
  pure (.compare (.ofOp op) [.field l none, .field r none])

end ColumnPlan
