import ColumnPlan.Compile.Tree
import ColumnPlan.Join.Projection
import ColumnPlan.Physical.Text

/-!
# Plans of joins

A joined row is a build row, then a probe row, and for a mark join the mark.  The predicates and
the outputs of a plan speak of the cells of a joined row.

* `JoinStrategy`       how pairs of rows are found;
* `JoinPlan`           all that an execution needs;
* `compileJoin`        the plan of a join;
* `JoinPlan.text`      its text.
-/

namespace ColumnPlan

inductive JoinStrategy where
  | nestedLoop
  /-- The hash of a build row, and the hash of a probe row. -/
  | hash (build probe : ScalarExpr)

def JoinStrategy.algorithm : JoinStrategy → JoinAlgorithm
  | .nestedLoop => .nestedLoop
  | .hash _ _ => .hash

/-- Rows are hashed by the columns that are equated. -/
def JoinStrategy.choose (algorithm : JoinAlgorithm) (keys : JoinKeys) :
    Except Error JoinStrategy :=
  match algorithm with
  | .nestedLoop => .ok .nestedLoop
  | .hash =>
    match keys.equalities with
    | [] => .error (.unsupported .noEqualityKey)
    | pairs =>
      .ok (.hash (.call .hash (pairs.map fun pair => .field pair.build none) none)
        (.call .hash (pairs.map fun pair => .field pair.probe none) none))

structure JoinPlan where
  keys : JoinKeys
  /-- The condition without the keys. -/
  residual : PredicateExpr
  /-- The condition with the keys. -/
  matcher : PredicateExpr
  outputs : List ScalarExpr
  strategy : JoinStrategy
  options : JoinOptions
  buildWidth : Nat
  probeWidth : Nat

namespace JoinPlan

def algorithm (plan : JoinPlan) : JoinAlgorithm := plan.strategy.algorithm

def text (plan : JoinPlan) : String :=
  plan.algorithm.text ++ "Join(" ++ plan.options.type.text ++ ") on " ++ plan.matcher.text ++
    " output [" ++ ", ".intercalate (plan.outputs.map (·.text)) ++ "]"

end JoinPlan

def compileJoin (c : Setting) (build probe : Schema) (d : JoinDescriptor)
    (filter : Option Filter) : Compile JoinPlan := do
  d.options.validate
  let condition ← joinCondition build probe d filter
  let (rest, keys) := (takeKeys build probe condition).run .empty
  let residual ← compileFilter c (build.merge probe) rest
  let strategy ← JoinStrategy.choose d.options.algorithm keys
  pure {
    keys := keys
    residual := residual
    matcher := .allOf (keys.comparisons build.size ++ [residual])
    outputs := joinOutputs build probe d keys
    strategy := strategy
    options := d.options
    buildWidth := build.size
    probeWidth := probe.size }

end ColumnPlan
