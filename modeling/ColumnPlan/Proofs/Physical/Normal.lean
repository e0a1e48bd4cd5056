import ColumnPlan.Proofs.Physical.Connective

/-!
# The normal form of predicates

A predicate is in normal form if its connectives are needed: each has at least two children, none of
them a constant or a connective of its own kind, and the predicates in the operands of comparisons
are in normal form as well.

* `PredicateExpr.Normal`, `ScalarExpr.Normal`   normal forms;
* `Connective.Solid.normal_join`   a connective of solid children;
* `normal_simplify`                simplification keeps normal forms.
-/

namespace ColumnPlan

mutual

/-- All predicates in the expression are in normal form. -/
inductive ScalarExpr.Normal : ScalarExpr → Prop
  | field (index : Nat) (label : Option String) : ScalarExpr.Normal (.field index label)
  | literal (value : Value) (label : Option String) : ScalarExpr.Normal (.literal value label)
  | call (function : ScalarFunction) {args : List ScalarExpr} (label : Option String) :
    (∀ e ∈ args, ScalarExpr.Normal e) → ScalarExpr.Normal (.call function args label)
  | rename (label : String) {child : ScalarExpr} :
    ScalarExpr.Normal child → ScalarExpr.Normal (.rename label child)
  | predicate {p : PredicateExpr} : PredicateExpr.Normal p → ScalarExpr.Normal (.predicate p)

/-- A constant stands alone, and a connective has two children or more that are neither constants
nor connectives of its kind; so it is at every depth. -/
inductive PredicateExpr.Normal : PredicateExpr → Prop
  | always : PredicateExpr.Normal .always
  | never : PredicateExpr.Normal .never
  | compare (function : PredicateFunction) {operands : List ScalarExpr} :
    (∀ e ∈ operands, ScalarExpr.Normal e) → PredicateExpr.Normal (.compare function operands)
  | and {children : List PredicateExpr} : 2 ≤ children.length →
    (∀ p ∈ children, Connective.conjunction.Solid p) → (∀ p ∈ children, PredicateExpr.Normal p) →
      PredicateExpr.Normal (.and children)
  | or {children : List PredicateExpr} : 2 ≤ children.length →
    (∀ p ∈ children, Connective.disjunction.Solid p) → (∀ p ∈ children, PredicateExpr.Normal p) →
      PredicateExpr.Normal (.or children)

end

namespace Connective
variable {k : Connective} {ps : List PredicateExpr}

theorem normal_join (length : 2 ≤ ps.length) (solid : ∀ p ∈ ps, k.Solid p)
    (normal : ∀ p ∈ ps, p.Normal) : (k.join ps).Normal := by
  cases k with
  | conjunction => exact .and length solid normal
  | disjunction => exact .or length solid normal

theorem normal_of_join (h : (k.join ps).Normal) : ∀ p ∈ ps, p.Normal := by
  cases k with
  | conjunction =>
    cases h with
    | and _ _ normal => exact normal
  | disjunction =>
    cases h with
    | or _ _ normal => exact normal

theorem normal_neutral (k : Connective) : k.neutral.Normal := by
  cases k with
  | conjunction => exact .always
  | disjunction => exact .never

theorem normal_absorbing (k : Connective) : k.absorbing.Normal := by
  cases k with
  | conjunction => exact .never
  | disjunction => exact .always

/-- A connective of normal forms is simplified to a normal form, also where a single child is left
and turns out to be a connective of the other kind. -/
theorem normal_simplify (k : Connective) (h : ∀ p ∈ ps, p.Normal) : (k.simplify ps).Normal :=
  simplify_induction (fun _ => normal_of_join) (normal_neutral k) (normal_absorbing k)
    (fun _ => normal_join) h

end Connective

end ColumnPlan
