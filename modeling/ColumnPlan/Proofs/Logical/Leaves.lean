import Mathlib.Data.List.Perm.Basic
import ColumnPlan.Logical.Fold
import ColumnPlan.Logical.Normalize

/-!
# The leaves of a filter

Normalization changes connectives and the order of their children, but no leaf appears or is lost:
the leaves of a normal form are those of the filter, each with its operator or with the opposite
one, and the negation of a filter has the same leaves with all operators exchanged.

* `Filter.induction`            induction on a filter, leaves taken together;
* `children_induction`          induction on a filter, all nodes taken together;
* `Filter.leaves`               the leaves from left to right;
* `preorder_subset`             the nodes below a node are nodes of the filter;
* `Filter.NotFree`              no node is a negation;
* `notFree_normalize`           a normal form has no negations;
* `leaves_negate`               the leaves of a negation;
* `perm_leaves_normalize`       normal forms with and without a new order.
-/

-- in a mutual block the linter does not see what the other theorem uses
set_option linter.unusedSectionVars false

namespace ColumnPlan.Filter

/-! ### induction -/

section
variable {motive : Filter → Prop} (leaf : ∀ f : Filter, f.isLeaf = true → motive f)
  (and : ∀ fs, (∀ f ∈ fs, motive f) → motive (.and fs))
  (or : ∀ fs, (∀ f ∈ fs, motive f) → motive (.or fs))
  (not : ∀ f, motive f → motive (.not f))
include leaf and or not

mutual

/-- Induction on a filter.  Expressions below it are of no concern. -/
@[elab_as_elim]
theorem induction : (f : Filter) → motive f
  | .and fs => and fs (forall_induction fs)
  | .or fs => or fs (forall_induction fs)
  | .not f => not f (induction f)
  | .value p op v => leaf (.value p op v) rfl
  | .path l op r => leaf (.path l op r) rfl
  | .key op n => leaf (.key op n) rfl
  | .expr l op r => leaf (.expr l op r) rfl
  | .member p op vs => leaf (.member p op vs) rfl
  | .bool b => leaf (.bool b) rfl

theorem forall_induction : (fs : List Filter) → ∀ f ∈ fs, motive f
  | [] => fun _ h => absurd h List.not_mem_nil
  | f :: fs => List.forall_mem_cons.mpr ⟨induction f, forall_induction fs⟩

end

end

theorem children_of_isLeaf {f : Filter} (h : f.isLeaf = true) : f.children = [] := by
  cases f with
  | and | or | not => cases h
  | value | path | key | expr | member | bool => rfl

@[elab_as_elim]
theorem children_induction {motive : Filter → Prop}
    (node : ∀ f, (∀ child ∈ f.children, motive child) → motive f) (f : Filter) : motive f := by
  induction f using Filter.induction with
  | leaf f h =>
    refine node f ?_
    rw [children_of_isLeaf h]
    exact fun _ h => absurd h List.not_mem_nil
  | and fs ih => exact node (.and fs) ih
  | or fs ih => exact node (.or fs) ih
  | not f ih => exact node (.not f) (List.forall_mem_singleton.mpr ih)

/-! ### functions on lists of filters -/

theorem preorderAll_eq_flatMap (fs : List Filter) : preorderAll fs = fs.flatMap preorder := by
  induction fs with
  | nil => rw [preorderAll, List.flatMap_nil]
  | cons f fs ih => rw [preorderAll, ih, List.flatMap_cons]

theorem pushNotAll_eq_map (fs : List Filter) : pushNotAll fs = fs.map pushNot := by
  induction fs with
  | nil => rw [pushNotAll, List.map_nil]
  | cons f fs ih => rw [pushNotAll, ih, List.map_cons]

theorem negateAll_eq_map (fs : List Filter) : negateAll fs = fs.map negate := by
  induction fs with
  | nil => rw [negateAll, List.map_nil]
  | cons f fs ih => rw [negateAll, ih, List.map_cons]

theorem reorderAll_eq_map (fs : List Filter) : reorderAll fs = fs.map reorder := by
  induction fs with
  | nil => rw [reorderAll, List.map_nil]
  | cons f fs ih => rw [reorderAll, ih, List.map_cons]

/-! ### a leaf by itself -/

section
variable {f : Filter} (h : f.isLeaf = true)
include h

theorem preorder_of_isLeaf : f.preorder = [f] := by
  cases f with
  | and | or | not => cases h
  | value | path | key | expr | member | bool => rw [preorder]

theorem pushNot_of_isLeaf : f.pushNot = f := by
  cases f with
  | and | or | not => cases h
  | value | path | key | expr | member | bool => rw [pushNot]

theorem reorder_of_isLeaf : f.reorder = f := by
  cases f with
  | and | or | not => cases h
  | value | path | key | expr | member | bool => rw [reorder]

theorem normalize_of_isLeaf (reordering : Bool) : f.normalize reordering = f := by
  unfold normalize
  rw [pushNot_of_isLeaf h, reorder_of_isLeaf h, ite_self]

theorem isLeaf_negate : f.negate.isLeaf = true := by
  cases f with
  | and | or | not => cases h
  | value | path | key | expr | member | bool => rfl

/-- The opposite of the opposite operator is the operator itself. -/
theorem negate_negate_of_isLeaf : f.negate.negate = f := by
  cases f with
  | and | or | not => cases h
  | value | path | key | expr => simp only [negate, CompareOp.opposite_opposite]
  | member => simp only [negate, MemberOp.opposite_opposite]
  | bool => simp only [negate, Bool.not_not]

end

/-! ### nodes -/

theorem preorder_node (f : Filter) : f.preorder = f :: f.children.flatMap preorder := by
  cases f with
  | and fs | or fs =>
    rw [preorder, preorderAll_eq_flatMap]
    rfl
  | not f =>
    rw [preorder, children, List.flatMap_singleton]
  | value | path | key | expr | member | bool =>
    rw [preorder]
    rfl

theorem mem_preorder_self (f : Filter) : f ∈ f.preorder := by
  rw [preorder_node]
  exact List.mem_cons_self

theorem mem_preorder_of_mem_children {f child : Filter} (h : child ∈ f.children) :
    child ∈ f.preorder := by
  rw [preorder_node]
  exact List.mem_cons_of_mem _ (List.mem_flatMap.mpr ⟨child, h, child.mem_preorder_self⟩)

theorem preorder_subset {f g : Filter} (h : g ∈ f.preorder) : g.preorder ⊆ f.preorder := by
  induction f using children_induction with
  | node f ih =>
    rw [preorder_node f] at h ⊢
    rcases List.mem_cons.mp h with rfl | below
    · rw [preorder_node g]
      exact List.Subset.refl _
    · obtain ⟨child, hc, hg⟩ := List.mem_flatMap.mp below
      intro part hp
      exact List.mem_cons_of_mem _ (List.mem_flatMap.mpr ⟨child, hc, ih child hc hg hp⟩)

/-! ### leaves -/

/-- The leaves from left to right. -/
def leaves (f : Filter) : List Filter := f.preorder.filter isLeaf

theorem isLeaf_of_mem_leaves {f leaf : Filter} (h : leaf ∈ f.leaves) : leaf.isLeaf = true :=
  (List.mem_filter.mp h).2

theorem leaves_of_isLeaf {f : Filter} (h : f.isLeaf = true) : f.leaves = [f] := by
  unfold leaves
  rw [preorder_of_isLeaf h, List.filter_cons_of_pos h, List.filter_nil]

theorem leaves_and (fs : List Filter) : (Filter.and fs).leaves = fs.flatMap leaves := by
  unfold leaves
  rw [preorder, List.filter_cons_of_neg Bool.false_ne_true, preorderAll_eq_flatMap,
    List.filter_flatMap]

theorem leaves_or (fs : List Filter) : (Filter.or fs).leaves = fs.flatMap leaves := by
  unfold leaves
  rw [preorder, List.filter_cons_of_neg Bool.false_ne_true, preorderAll_eq_flatMap,
    List.filter_flatMap]

theorem leaves_not (f : Filter) : (Filter.not f).leaves = f.leaves := by
  unfold leaves
  rw [preorder, List.filter_cons_of_neg Bool.false_ne_true]

theorem size_le_listSize {f : Filter} {fs : List Filter} (h : f ∈ fs) :
    f.size ≤ Filter.listSize fs := by
  induction h with
  | head fs =>
    rw [Filter.listSize]
    omega
  | tail g _ ih =>
    rw [Filter.listSize]
    omega

theorem size_le_of_mem_leaves {f leaf : Filter} (h : leaf ∈ f.leaves) : leaf.size ≤ f.size := by
  induction f using Filter.induction with
  | leaf f hf =>
    rw [leaves_of_isLeaf hf, List.mem_singleton] at h
    exact h ▸ Nat.le_refl _
  | and fs ih =>
    rw [leaves_and, List.mem_flatMap] at h
    obtain ⟨f, hf, hl⟩ := h
    have below := Nat.le_trans (ih f hf hl) (size_le_listSize hf)
    rw [Filter.size]
    omega
  | or fs ih =>
    rw [leaves_or, List.mem_flatMap] at h
    obtain ⟨f, hf, hl⟩ := h
    have below := Nat.le_trans (ih f hf hl) (size_le_listSize hf)
    rw [Filter.size]
    omega
  | not f ih =>
    rw [leaves_not] at h
    have below := ih h
    rw [Filter.size]
    omega

/-- The leaves of a negation are those of the filter, with the opposite operators. -/
theorem leaves_negate (f : Filter) : f.negate.leaves = f.pushNot.leaves.map negate := by
  induction f using Filter.induction with
  | leaf f h =>
    rw [pushNot_of_isLeaf h, leaves_of_isLeaf h, leaves_of_isLeaf (isLeaf_negate h)]
    rfl
  | and fs ih =>
    rw [negate, pushNot, leaves_or, leaves_and, negateAll_eq_map, pushNotAll_eq_map,
      List.flatMap_map, List.flatMap_map, List.map_flatMap]
    exact List.flatMap_congr ih
  | or fs ih =>
    rw [negate, pushNot, leaves_or, leaves_and, negateAll_eq_map, pushNotAll_eq_map,
      List.flatMap_map, List.flatMap_map, List.map_flatMap]
    exact List.flatMap_congr ih
  | not f ih =>
    have back : ∀ leaf ∈ f.pushNot.leaves, (negate ∘ negate) leaf = leaf := fun _ h =>
      negate_negate_of_isLeaf (isLeaf_of_mem_leaves h)
    rw [negate, pushNot, ih, List.map_map, List.map_congr_left back, List.map_id']

theorem perm_leaves_reorder (f : Filter) : f.reorder.leaves.Perm f.leaves := by
  induction f using Filter.induction with
  | leaf f h => rw [reorder_of_isLeaf h]
  | and fs ih =>
    rw [reorder, leaves_and, leaves_and, reorderAll_eq_map]
    refine ((perm_sortByComplexity _).flatMap_right _).trans ?_
    rw [List.flatMap_map]
    exact List.Perm.flatMap_left fs ih
  | or fs ih =>
    rw [reorder, leaves_or, leaves_or, reorderAll_eq_map]
    refine ((perm_sortByComplexity _).flatMap_right _).trans ?_
    rw [List.flatMap_map]
    exact List.Perm.flatMap_left fs ih
  | not f ih =>
    rw [reorder, leaves_not, leaves_not]
    exact ih

/-- Whether cheap parts come first or not, the leaves are the same. -/
theorem perm_leaves_normalize (reordering : Bool) (f : Filter) :
    (f.normalize reordering).leaves.Perm f.pushNot.leaves := by
  unfold normalize
  split
  · exact perm_leaves_reorder _
  · exact .refl _

/-- A conjunction keeps its children, in some order. -/
theorem normalize_and (reordering : Bool) (fs : List Filter) :
    ∃ gs, gs.Perm (fs.map (normalize reordering)) ∧
      (Filter.and fs).normalize reordering = .and gs := by
  cases reordering with
  | false => exact ⟨fs.map pushNot, .refl _, by rw [← pushNotAll_eq_map]; rfl⟩
  | true =>
    refine ⟨_, ?_, rfl⟩
    refine (perm_sortByComplexity _).trans ?_
    rw [reorderAll_eq_map, pushNotAll_eq_map, List.map_map]
    exact .refl _

/-! ### negations -/

/-- No node is a negation. -/
def NotFree (f : Filter) : Prop := ∀ g ∈ f.preorder, g.isNot = false

theorem NotFree.isNot_eq_false {f : Filter} (h : f.NotFree) : f.isNot = false :=
  h f f.mem_preorder_self

theorem NotFree.of_mem {f g : Filter} (h : f.NotFree) (hg : g ∈ f.preorder) : g.NotFree :=
  fun part hp => h part (preorder_subset hg hp)

theorem notFree_of_isLeaf {f : Filter} (h : f.isLeaf = true) : f.NotFree := by
  intro g hg
  rw [preorder_of_isLeaf h, List.mem_singleton] at hg
  subst hg
  cases g with
  | and | or | not => cases h
  | value | path | key | expr | member | bool => rfl

theorem notFree_and_iff (fs : List Filter) : (Filter.and fs).NotFree ↔ ∀ f ∈ fs, f.NotFree := by
  unfold NotFree
  rw [preorder, preorderAll_eq_flatMap, List.forall_mem_cons, List.forall_mem_flatMap]
  exact and_iff_right rfl

theorem notFree_or_iff (fs : List Filter) : (Filter.or fs).NotFree ↔ ∀ f ∈ fs, f.NotFree := by
  unfold NotFree
  rw [preorder, preorderAll_eq_flatMap, List.forall_mem_cons, List.forall_mem_flatMap]
  exact and_iff_right rfl

theorem not_notFree_not (f : Filter) : ¬ (Filter.not f).NotFree := by
  intro h
  have root : (Filter.not f).isNot = false := h _ (by rw [preorder]; exact List.mem_cons_self)
  cases root

/-- Both halves of the pass at once, since each calls the other. -/
theorem notFree_pushNot_negate (f : Filter) : f.pushNot.NotFree ∧ f.negate.NotFree := by
  induction f using Filter.induction with
  | leaf f h =>
    rw [pushNot_of_isLeaf h]
    exact ⟨notFree_of_isLeaf h, notFree_of_isLeaf (isLeaf_negate h)⟩
  | and fs ih =>
    rw [pushNot, negate, notFree_and_iff, notFree_or_iff, pushNotAll_eq_map, negateAll_eq_map,
      List.forall_mem_map, List.forall_mem_map]
    exact ⟨fun f hf => (ih f hf).1, fun f hf => (ih f hf).2⟩
  | or fs ih =>
    rw [pushNot, negate, notFree_and_iff, notFree_or_iff, pushNotAll_eq_map, negateAll_eq_map,
      List.forall_mem_map, List.forall_mem_map]
    exact ⟨fun f hf => (ih f hf).1, fun f hf => (ih f hf).2⟩
  | not f ih =>
    rw [pushNot, negate]
    exact ⟨ih.2, ih.1⟩

theorem notFree_reorder {f : Filter} (h : f.NotFree) : f.reorder.NotFree := by
  induction f using Filter.induction with
  | leaf f hf =>
    rw [reorder_of_isLeaf hf]
    exact h
  | and fs ih =>
    rw [reorder, notFree_and_iff, reorderAll_eq_map]
    intro g hg
    obtain ⟨f, hf, rfl⟩ := List.mem_map.mp ((perm_sortByComplexity _).mem_iff.mp hg)
    exact ih f hf ((notFree_and_iff fs).mp h f hf)
  | or fs ih =>
    rw [reorder, notFree_or_iff, reorderAll_eq_map]
    intro g hg
    obtain ⟨f, hf, rfl⟩ := List.mem_map.mp ((perm_sortByComplexity _).mem_iff.mp hg)
    exact ih f hf ((notFree_or_iff fs).mp h f hf)
  | not f => exact absurd h (not_notFree_not f)

theorem notFree_normalize (reordering : Bool) (f : Filter) : (f.normalize reordering).NotFree := by
  unfold normalize
  split
  · exact notFree_reorder (notFree_pushNot_negate f).1
  · exact (notFree_pushNot_negate f).1

end ColumnPlan.Filter
