import ColumnPlan.Physical.Basic

/-!
# The fields that an expression refers to

Expressions are visited from left to right.  A predicate among the arguments is set aside until
all expressions at hand have been visited; of those set aside the last one comes next.

* `ScalarExpr.referencedFields`     the indices in the order of the visit;
* `ScalarExpr.fieldCount`           how often an index occurs.
-/

namespace ColumnPlan

/-- Visits the expressions, then the predicates that are set aside. -/
def visitFields (exprs : List ScalarExpr) (aside : List PredicateExpr) : List Nat :=
  match exprs, aside with
  | .field index _ :: es, ps => index :: visitFields es ps
  | .literal _ _ :: es, ps => visitFields es ps
  | .call _ args _ :: es, ps => visitFields (args ++ es) ps
  | .rename _ child :: es, ps => visitFields (child :: es) ps
  | .predicate p :: es, ps => visitFields es (p :: ps)
  | [], .compare _ operands :: ps => visitFields operands ps
  | [], .and children :: ps => visitFields [] (children ++ ps)
  | [], .or children :: ps => visitFields [] (children ++ ps)
  | [], .always :: ps => visitFields [] ps
  | [], .never :: ps => visitFields [] ps
  | [], [] => []
termination_by ScalarExpr.listSize exprs + PredicateExpr.listSize aside
decreasing_by
  all_goals
    simp only [ScalarExpr.listSize, ScalarExpr.size, PredicateExpr.listSize, PredicateExpr.size,
      ScalarExpr.listSize_append, PredicateExpr.listSize_append]
    omega

def ScalarExpr.referencedFields (e : ScalarExpr) : List Nat := visitFields [e] []

mutual

def ScalarExpr.fieldCount (i : Nat) : ScalarExpr → Nat
  | .field index _ => if index = i then 1 else 0
  | .literal _ _ => 0
  | .call _ args _ => ScalarExpr.fieldCounts i args
  | .rename _ child => child.fieldCount i
  | .predicate p => p.fieldCount i

def ScalarExpr.fieldCounts (i : Nat) : List ScalarExpr → Nat
  | [] => 0
  | e :: es => e.fieldCount i + ScalarExpr.fieldCounts i es

def PredicateExpr.fieldCount (i : Nat) : PredicateExpr → Nat
  | .compare _ operands => ScalarExpr.fieldCounts i operands
  | .and children => PredicateExpr.fieldCounts i children
  | .or children => PredicateExpr.fieldCounts i children
  | .always | .never => 0

def PredicateExpr.fieldCounts (i : Nat) : List PredicateExpr → Nat
  | [] => 0
  | p :: ps => p.fieldCount i + PredicateExpr.fieldCounts i ps

end

end ColumnPlan
