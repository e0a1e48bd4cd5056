import ColumnPlan.Error
import ColumnPlan.Physical.Basic

/-!
# Chains of terms as balanced trees

A chain of `n` terms that are added and subtracted becomes a tree whose depth grows with the
logarithm of `n`.  A subtraction turns the signs of all terms behind it, so that no term but the
first of the chain is ever negated.

* `SignedTerm`       a term with its sign in the chain;
* `halved`           the tree of a list of terms;
* `balanced`         the tree of a chain, which has a first term;
* `balanced_nil`, `balanced_of_drop`   a single term, and two halves;
* `balanced_induction`   induction on the halves;
* `halved_cons`      no half of a chain is without terms.
-/

namespace ColumnPlan

structure SignedTerm where
  negative : Bool
  expr : ScalarExpr

/-- The term, negated if its sign is not the one that is expected here. -/
def SignedTerm.leaf (flipped : Bool) (t : SignedTerm) : ScalarExpr :=
  if t.negative != flipped then .call .negate [t.expr] none else t.expr

/-- The tree of a list of terms, which is halved until single terms are left.  Without terms there
is none. -/
def halved (flipped : Bool) : List SignedTerm → Except Error ScalarExpr
  | [] => .error (.internal "balanced chain over no terms")
  | [term] => .ok (term.leaf flipped)
  | first :: second :: rest => do
    let terms := first :: second :: rest
    -- of an odd number the front has one more
    let half := (terms.length + 1) / 2
    let negative := (terms.drop half).head?.any (·.negative)
    let left ← halved flipped (terms.take half)
    let right ← halved negative (terms.drop half)
    pure (.call (if negative != flipped then .minus else .add) [left, right] none)
termination_by terms => terms.length
decreasing_by
  · simp only [List.length_take, List.length_cons]
    omega
  · simp only [List.length_drop, List.length_cons]
    omega

/-- The signed sum of the terms, or its opposite if all signs are flipped.  The second half is
added or subtracted such that its own first term counts as positive. -/
def balanced (flipped : Bool) (first : SignedTerm) (rest : List SignedTerm) : ScalarExpr :=
  match _h : rest.drop (rest.length / 2) with
  | [] => first.leaf flipped
  | middle :: last =>
    .call (if middle.negative != flipped then .minus else .add)
      [balanced flipped first (rest.take (rest.length / 2)), balanced middle.negative middle last]
      none
termination_by rest.length
decreasing_by
  · have hlen := congrArg List.length _h
    simp only [List.length_drop, List.length_cons] at hlen
    simp only [List.length_take]
    omega
  · have hlen := congrArg List.length _h
    simp only [List.length_drop, List.length_cons] at hlen
    omega

/-- Induction on the halves of a chain. -/
@[elab_as_elim]
theorem balanced_induction {motive : Bool → SignedTerm → List SignedTerm → Prop}
    (single : ∀ flipped first, motive flipped first [])
    (halves : ∀ flipped first rest middle last, rest.drop (rest.length / 2) = middle :: last →
      motive flipped first (rest.take (rest.length / 2)) → motive middle.negative middle last →
        motive flipped first rest)
    (flipped : Bool) (first : SignedTerm) (rest : List SignedTerm) :
    motive flipped first rest := by
  induction flipped, first, rest using balanced.induct with
  | case1 flipped first rest none =>
    have short := List.drop_eq_nil_iff.mp none
    have empty : rest = [] := List.eq_nil_of_length_eq_zero (by omega)
    subst empty
    exact single flipped first
  | case2 flipped first rest middle last h left right =>
    exact halves flipped first rest middle last h left right

theorem balanced_nil (flipped : Bool) (first : SignedTerm) :
    balanced flipped first [] = first.leaf flipped := by
  rw [balanced]
  rfl

theorem balanced_of_drop (flipped : Bool) (first : SignedTerm) {rest : List SignedTerm}
    {middle : SignedTerm} {last : List SignedTerm}
    (h : rest.drop (rest.length / 2) = middle :: last) :
    balanced flipped first rest =
      .call (if middle.negative != flipped then .minus else .add)
        [balanced flipped first (rest.take (rest.length / 2)),
          balanced middle.negative middle last] none := by
  rw [balanced]
  split
  · next none => cases h.symm.trans none
  · next m l found =>
    cases h.symm.trans found
    rfl

theorem halved_cons (flipped : Bool) (first : SignedTerm) (rest : List SignedTerm) :
    halved flipped (first :: rest) = .ok (balanced flipped first rest) := by
  induction flipped, first, rest using balanced_induction with
  | single flipped first => rw [halved, balanced_nil]
  | halves flipped first rest middle last h left right =>
    rw [balanced_of_drop flipped first h]
    rcases rest with _ | ⟨second, rest⟩
    · cases h
    · have half : ((first :: second :: rest).length + 1) / 2 = (second :: rest).length / 2 + 1 := by
        simp only [List.length_cons]
        omega
      rw [halved]
      simp only [half, List.take_succ_cons, List.drop_succ_cons, h, left, List.head?_cons,
        Option.any_some, right]
      rfl

end ColumnPlan
