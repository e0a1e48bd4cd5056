import ColumnPlan.Compile.Chain
import ColumnPlan.Compile.Leaf
import ColumnPlan.Logical.Normalize
import ColumnPlan.Logical.Text

/-!
# Compilation of expressions and filters

Paths become places in the rows of a schema.  An expression may be asked to name its column; its
operands are never named.  A filter is normalized first, also where it is a condition inside an
expression.

* `compileExpr`         a logical expression as a physical one;
* `compileFilter`       a logical filter as a predicate;
* `compileNormal`       the same for a filter in normal form.
-/

namespace ColumnPlan

def ArithmeticOp.function : ArithmeticOp → ScalarFunction
  | .plus => .add
  | .minus => .minus
  | .star => .multiply
  | .div => .ratio
  | .mod => .mod

/-- The column that already holds the value of a call, if there is one of its name. -/
def computedColumn? (s : Schema) (name : String) : Except Error (Option Nat) :=
  match s.named name with
  | [] => .ok none
  | columns => some <$> s.unique name columns

/-- The function of a call, if expressions may call it. -/
def rowFunction (functions : Registry) (name : String) (distinct : Bool) :
    Except Error Function :=
  if distinct then .error (.unsupported (.distinctCall name))
  else
    match functions.lookup? name with
    | none => .error (.unsupported (.unknownFunction name))
    | some f =>
      if f.mapping = .row then .ok f else .error (.unsupported (.notRowMapping name f.mapping))

/-- A chain has an operator for each term, and only plus and minus. -/
def checkChain (terms : Nat) (ops : List ArithmeticOp) : Except Error Unit :=
  if terms = 0 then .error (.malformed .emptyChain)
  else if terms ≠ ops.length then .error (.malformed (.chainArity terms ops.length))
  else
    match ops.find? fun op => op ≠ .plus ∧ op ≠ .minus with
    | some op => .error (.malformed (.chainOperator op))
    | none => .ok ()

/-- The tree of the terms of a chain. -/
def chainTree (ops : List ArithmeticOp) (terms : List ScalarExpr) : Except Error ScalarExpr :=
  halved false (List.zipWith (fun op e => SignedTerm.mk (op = .minus) e) ops terms)

section
variable {ops : List ArithmeticOp} {terms : List ScalarExpr}

theorem chainTree_nil
    (h : List.zipWith (fun op e => SignedTerm.mk (op = .minus) e) ops terms = []) :
    chainTree ops terms = .error (.internal "balanced chain over no terms") := by
  rw [chainTree, h, halved]

theorem chainTree_cons {first : SignedTerm} {rest : List SignedTerm}
    (h : List.zipWith (fun op e => SignedTerm.mk (op = .minus) e) ops terms = first :: rest) :
    chainTree ops terms = .ok (balanced false first rest) := by
  rw [chainTree, h, halved_cons]

end

def ScalarExpr.renamed (label : Option String) (e : ScalarExpr) : ScalarExpr :=
  label.elim e (.rename · e)

mutual

def compileExpr (c : Setting) (s : Schema) (e : Expr) (named : Bool) : Compile ScalarExpr :=
  let label := if named then some e.columnName else none
  match e with
  | .path pattern => do pure (.field (← s.resolve pattern) label)
  | .key => do pure (.field (← s.resolveKey) label)
  | .const value => do pure (.literal (← literal value) label)
  | .binary op left right => do
    let l ← compileExpr c s left false
    let r ← compileExpr c s right false
    pure (.call op.function [l, r] label)
  | .unary op operand => compileUnary c s op operand label
  | .bracket inner _ => do pure ((← compileExpr c s inner false).renamed label)
  | .caseWhen conditions results otherwise => do
    if conditions.length ≠ results.length then
      throw (.malformed (.caseArity conditions.length results.length))
    let branches ← compileBranches c s conditions results
    let last ← compileOtherwise c s otherwise
    pure (.call .caseWhen (branches ++ last) label)
  | .call name args params distinct => do
    match ← computedColumn? s (Expr.call name args params distinct).columnName with
    | some index => pure (.field index label)
    | none =>
      let function ← rowFunction c.functions name distinct
      let compiled ← function.transform (← compileExprs c s args) params
      pure (compiled.renamed label)
  | .chain terms ops => do
    checkChain terms.length ops
    match terms, ops with
    | [term], [op] => compileUnary c s op term label
    | terms, ops => do
      let tree ← chainTree ops (← compileExprs c s terms)
      pure (label.elim tree tree.withAlias)
termination_by 3 * e.size
decreasing_by
  all_goals
    simp only [Expr.size, Expr.listSize]
    omega

/-- A sign before an operand.  A plus leaves the operand as it is, its name included. -/
def compileUnary (c : Setting) (s : Schema) (op : ArithmeticOp) (operand : Expr)
    (label : Option String) : Compile ScalarExpr :=
  match op with
  | .plus => compileExpr c s operand label.isSome
  | .minus => do pure (.call .negate [← compileExpr c s operand false] label)
  | op => throw (.unsupported (.unaryOperator op))
termination_by 3 * operand.size + 1

def compileExprs (c : Setting) (s : Schema) (es : List Expr) : Compile (List ScalarExpr) :=
  match es with
  | [] => pure []
  | e :: es => do
    let first ← compileExpr c s e false
    let rest ← compileExprs c s es
    pure (first :: rest)
termination_by 3 * Expr.listSize es
decreasing_by
  all_goals
    simp only [Expr.listSize]
    omega

/-- Conditions and results in turn. -/
def compileBranches (c : Setting) (s : Schema) (conditions : List Filter) (results : List Expr) :
    Compile (List ScalarExpr) :=
  match conditions, results with
  | f :: fs, e :: es => do
    let condition ← compileFilter c s f
    let result ← compileExpr c s e false
    let rest ← compileBranches c s fs es
    pure (.predicate condition :: result :: rest)
  | _, _ => pure []
termination_by 3 * (Filter.listSize conditions + Expr.listSize results)
decreasing_by
  all_goals
    simp only [Expr.listSize, Filter.listSize]
    omega

def compileOtherwise (c : Setting) (s : Schema) (otherwise : Option Expr) :
    Compile (List ScalarExpr) :=
  match otherwise with
  | none => pure []
  | some e => do pure [← compileExpr c s e false]
termination_by 3 * Expr.optionSize otherwise
decreasing_by
  all_goals
    simp only [Expr.optionSize]
    omega

def compileFilter (c : Setting) (s : Schema) (f : Filter) : Compile PredicateExpr :=
  compileNormal c s (f.normalize c.options.reorder)
termination_by 3 * f.size + 1
decreasing_by
  have := Filter.size_normalize_le c.options.reorder f
  omega

/-- Each leaf for itself, from left to right. -/
def compileNormal (c : Setting) (s : Schema) (f : Filter) : Compile PredicateExpr :=
  match f with
  | .bool b => pure (if b then .always else .never)
  | .value pattern op value => compileValue c.options s pattern op value
  | .key op value => compileKey c.options s op value
  | .path left op right => compilePaths s left op right
  | .expr left op right => do
    let l ← compileExpr c s left false
    let r ← compileExpr c s right false
    pure (.compare (.ofOp op) [l, r])
  | .member pattern op values => compileMember s pattern op values
  | .and children => do pure (PredicateExpr.allOf (← compileNormals c s children))
  | .or children => do pure (PredicateExpr.anyOf (← compileNormals c s children))
  | .not _ => throw (.unsupported .negation)
termination_by 3 * f.size
decreasing_by
  all_goals
    simp only [Filter.size]
    omega

def compileNormals (c : Setting) (s : Schema) (fs : List Filter) :
    Compile (List PredicateExpr) :=
  match fs with
  | [] => pure []
  | f :: fs => do
    let first ← compileNormal c s f
    let rest ← compileNormals c s fs
    pure (first :: rest)
termination_by 3 * Filter.listSize fs
decreasing_by
  all_goals
    simp only [Filter.listSize]
    omega

end

end ColumnPlan
