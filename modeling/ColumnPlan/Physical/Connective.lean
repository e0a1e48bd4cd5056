import ColumnPlan.Physical.Basic

/-!
# Conjunctions and disjunctions in simple form

Nested connectives of the same kind are opened up, neutral children dropped, and one absorbing
child decides the whole.

* `Connective`                 and, or; with its neutral and its absorbing predicate;
* `Connective.spliceLoop`      the parts of some predicates under a connective, none if one absorbs;
* `PredicateExpr.allOf`, `PredicateExpr.anyOf`   the simplified connectives.
-/

namespace ColumnPlan

inductive Connective where
  | conjunction
  | disjunction
  deriving DecidableEq, Repr

namespace Connective

/-- The connective of the children, as it stands. -/
def join : Connective → List PredicateExpr → PredicateExpr
  | .conjunction, children => .and children
  | .disjunction, children => .or children

/-- The connective of no children. -/
def neutral : Connective → PredicateExpr
  | .conjunction => .always
  | .disjunction => .never

/-- The child that decides the whole. -/
def absorbing : Connective → PredicateExpr
  | .conjunction => .never
  | .disjunction => .always

/-- Works off the children on the stack.  A nested connective of the kind leaves its children there;
`flat` holds the parts that stay, the last one first. -/
@[semireducible]
def spliceLoop (k : Connective) (stack flat : List PredicateExpr) : Option (List PredicateExpr) :=
  match k, stack with
  | _, [] => some flat.reverse
  | .conjunction, .and nested :: rest => spliceLoop .conjunction (nested ++ rest) flat
  | .disjunction, .or nested :: rest => spliceLoop .disjunction (nested ++ rest) flat
  | .conjunction, .always :: rest => spliceLoop .conjunction rest flat
  | .disjunction, .never :: rest => spliceLoop .disjunction rest flat
  | .disjunction, .always :: _ => none
  | .conjunction, .never :: _ => none
  | k, child :: rest => spliceLoop k rest (child :: flat)
termination_by PredicateExpr.listSize stack
decreasing_by
  all_goals
    simp only [PredicateExpr.listSize, PredicateExpr.size, PredicateExpr.listSize_append]
    omega

/-- The simplified connective of some children. -/
def simplify (k : Connective) (children : List PredicateExpr) : PredicateExpr :=
  match k.spliceLoop children [] with
  | none => k.absorbing
  | some [] => k.neutral
  | some [p] => p
  | some parts => k.join parts

end Connective

namespace PredicateExpr

def allOf (children : List PredicateExpr) : PredicateExpr :=
  Connective.conjunction.simplify children

def anyOf (children : List PredicateExpr) : PredicateExpr :=
  Connective.disjunction.simplify children

end PredicateExpr

end ColumnPlan
