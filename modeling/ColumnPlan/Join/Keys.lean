import ColumnPlan.Dictionary
import ColumnPlan.Join.Natural
import ColumnPlan.Join.Options
import ColumnPlan.Logical.Basic
import ColumnPlan.Physical.Connective
import ColumnPlan.Schema.Resolve

/-!
# The keys of a join

The condition of a join is the filter of its caller together with an equation for each declared
column.  A comparison of a build column with a probe column that the condition demands as it
stands becomes a *key* of the join; the rest of the condition remains a filter.

* `joinCondition`          the whole condition;
* `EquiKey`                how the two columns of a pair are compared;
* `place?`                 the pair of columns that two paths mean;
* `takeKeys`               the keys of a condition and what remains of it;
* `JoinKeys.comparisons`   the keys as predicates on a joined row.
-/

namespace ColumnPlan

/-- A build column and a probe column, each by its place in its own side. -/
structure KeyPair where
  build : Nat
  probe : Nat
  deriving DecidableEq, Ord, Repr

structure EquiKey where
  op : CompareOp
  /-- The probe column is the left operand. -/
  reversed : Bool
  deriving DecidableEq, Repr

abbrev JoinKeys := Dictionary KeyPair EquiKey

/-! ### the condition -/

/-- The pairs of paths that a descriptor equates. -/
def JoinDescriptor.equations (d : JoinDescriptor) : List (String × String) :=
  d.sharedPaths.map (fun path => (path, path)) ++
    d.columns.map fun column => (qualify d.buildPrefix column, qualify d.probePrefix column)

/-- An equation between paths that each mean something on their own side. -/
def equation (build probe : Schema) (paths : String × String) : Except Error Filter :=
  if (build.columns paths.1).isEmpty then .error (.columnNotFound paths.1 build.names)
  else if (probe.columns paths.2).isEmpty then .error (.columnNotFound paths.2 probe.names)
  else .ok (.path paths.1 ⟨.eq, .any⟩ paths.2)

def joinCondition (build probe : Schema) (d : JoinDescriptor) (filter : Option Filter) :
    Except Error Filter := do
  pure (.and (filter.toList ++ (← d.equations.mapM (equation build probe))))

/-! ### keys -/

/-- The pair that two paths mean, the first one on the build side. -/
def pair? (build probe : Schema) (left right : String) : Option KeyPair :=
  match build.columns left, probe.columns right with
  | [l], [r] => some ⟨l, r⟩
  | _, _ => none

/-- The key that a comparison of two paths states, in the order of the paths if possible. -/
def place? (build probe : Schema) (left : String) (op : CompareOp) (right : String) :
    Option (KeyPair × EquiKey) :=
  ((pair? build probe left right).map (·, ⟨op, false⟩)).or
    ((pair? build probe right left).map (·, ⟨op, true⟩))

mutual

/-- Takes keys out of a condition.  The first comparison of a pair is its key; another comparison
of the same pair remains in the condition.  What is taken out leaves an empty conjunction. -/
def takeKeys (build probe : Schema) : Filter → StateM JoinKeys Filter
  | .and children => do pure (.and (← takeAllKeys build probe children))
  | .bool true => pure (.and [])
  | .bool false => pure (.or [])
  | .path left op right =>
    match place? build probe left op right with
    | none => pure (.path left op right)
    | some (pair, key) => do
      match (← get).get? pair with
      | none =>
        modify (·.set pair key)
        pure (.and [])
      | some known => pure (if known = key then .and [] else .path left op right)
  | f => pure f

def takeAllKeys (build probe : Schema) : List Filter → StateM JoinKeys (List Filter)
  | [] => pure []
  | f :: fs => do
    let first ← takeKeys build probe f
    let rest ← takeAllKeys build probe fs
    pure (first :: rest)

end

namespace JoinKeys

/-- A key as a predicate on a joined row, where `width` columns of the build side come first. -/
def comparison (width : Nat) (pair : KeyPair) (key : EquiKey) : PredicateExpr :=
  let build := ScalarExpr.field pair.build none
  let probe := ScalarExpr.field (pair.probe + width) none
  .compare (.ofOp key.op) (if key.reversed then [probe, build] else [build, probe])

def comparisons (keys : JoinKeys) (width : Nat) : List PredicateExpr :=
  keys.entries.map fun (pair, key) => comparison width pair key

/-- The pairs that are equated. -/
def equalities (keys : JoinKeys) : List KeyPair :=
  (keys.entries.filter fun (_, key) => key.op.isEquality).map (·.1)

end JoinKeys

end ColumnPlan
