import Mathlib.Data.List.Forall2
import ColumnPlan.Proofs.Logical.Fold

/-!
# Cheap parts before expensive ones

The children of each connective are sorted after their own parts have been: each child is there once
and costs as much as before, so the order that was made below does not disturb the order above.

* `Filter.StableSort`            a list sorted by complexity, ties left as they are;
* `StableSort.eq`                there is one such list;
* `Filter.Reordered`             a filter with the children of each connective so sorted;
* `reordered_iff`                what the pass makes, and nothing else;
* `perm_preorder_reorder`        the nodes of the result;
* `complexity_reorder`           nothing becomes cheaper or more expensive;
* `complexity_eq_countP`         complexity counts expensive leaves;
* `reorder_sorts`                all of this together.
-/

namespace ColumnPlan.Filter

/-! ### sorting once -/

def Ascending (fs : List Filter) : Prop := fs.Pairwise fun f g => f.complexity ≤ g.complexity

/-- The filters of one complexity, in their order. -/
def ofComplexity (n : Nat) (fs : List Filter) : List Filter := fs.filter (·.complexity = n)

theorem mem_ofComplexity {n : Nat} {fs : List Filter} {f : Filter} :
    f ∈ ofComplexity n fs ↔ f ∈ fs ∧ f.complexity = n := by
  unfold ofComplexity
  rw [List.mem_filter, decide_eq_true_iff]

theorem ofComplexity_cons (n : Nat) (f : Filter) (fs : List Filter) :
    ofComplexity n (f :: fs) =
      if f.complexity = n then f :: ofComplexity n fs else ofComplexity n fs := by
  unfold ofComplexity
  rw [List.filter_cons]
  simp only [decide_eq_true_iff]

/-- `gs` is `fs` sorted by complexity; filters of one complexity keep their order. -/
structure StableSort (fs gs : List Filter) : Prop where
  perm : gs.Perm fs
  ascending : Ascending gs
  stable : ∀ n, ofComplexity n gs = ofComplexity n fs

section
variable (f g h : Filter)

theorem le_trans_complexity : decide (f.complexity ≤ g.complexity) = true →
    decide (g.complexity ≤ h.complexity) = true → decide (f.complexity ≤ h.complexity) = true := by
  simp only [decide_eq_true_iff]
  exact Nat.le_trans

theorem le_total_complexity :
    (decide (f.complexity ≤ g.complexity) || decide (g.complexity ≤ f.complexity)) = true := by
  simp only [Bool.or_eq_true, decide_eq_true_iff]
  exact Nat.le_total _ _

end

theorem ascending_sortByComplexity (fs : List Filter) : Ascending (sortByComplexity fs) :=
  (List.pairwise_mergeSort le_trans_complexity le_total_complexity fs).imp of_decide_eq_true

/-- The filters of one complexity are a sorted part of the list, and the sort keeps such parts. -/
theorem ofComplexity_sortByComplexity (n : Nat) (fs : List Filter) :
    ofComplexity n (sortByComplexity fs) = ofComplexity n fs := by
  have sorted : (ofComplexity n fs).Pairwise fun f g => decide (f.complexity ≤ g.complexity) := by
    refine List.pairwise_of_forall_mem_list fun f hf g hg => decide_eq_true ?_
    have tied : f.complexity = g.complexity :=
      (mem_ofComplexity.mp hf).2.trans (mem_ofComplexity.mp hg).2.symm
    exact Nat.le_of_eq tied
  have kept : (ofComplexity n fs).Sublist (sortByComplexity fs) :=
    List.sublist_mergeSort le_trans_complexity le_total_complexity sorted List.filter_sublist
  have part : (ofComplexity n (ofComplexity n fs)).Sublist (ofComplexity n (sortByComplexity fs)) :=
    kept.filter _
  have once : ofComplexity n (ofComplexity n fs) = ofComplexity n fs := by
    unfold ofComplexity
    rw [List.filter_filter]
    simp only [Bool.and_self]
  have length : (ofComplexity n (sortByComplexity fs)).length = (ofComplexity n fs).length :=
    ((perm_sortByComplexity fs).filter _).length_eq
  rw [once] at part
  exact (part.eq_of_length length.symm).symm

theorem stableSort_sortByComplexity (fs : List Filter) : StableSort fs (sortByComplexity fs) where
  perm := perm_sortByComplexity fs
  ascending := ascending_sortByComplexity fs
  stable n := ofComplexity_sortByComplexity n fs

/-- Of two lists with the same filters of each complexity, neither has anything cheaper than the
first filter of the other one, if that one is sorted. -/
theorem complexity_le_of_ascending {f g : Filter} {fs gs : List Filter}
    (ascending : Ascending (f :: fs))
    (same : ∀ n, ofComplexity n (f :: fs) = ofComplexity n (g :: gs)) :
    f.complexity ≤ g.complexity := by
  have member : g ∈ ofComplexity g.complexity (g :: gs) :=
    mem_ofComplexity.mpr ⟨List.mem_cons_self, rfl⟩
  rw [← same] at member
  rcases List.mem_cons.mp (mem_ofComplexity.mp member).1 with rfl | below
  · exact Nat.le_refl _
  · exact (List.pairwise_cons.mp ascending).1 g below

theorem eq_of_ascending {fs gs : List Filter} (hf : Ascending fs) (hg : Ascending gs)
    (same : ∀ n, ofComplexity n fs = ofComplexity n gs) : fs = gs := by
  induction fs generalizing gs with
  | nil =>
    cases gs with
    | nil => rfl
    | cons g gs =>
      have head := same g.complexity
      rw [ofComplexity_cons, if_pos rfl] at head
      cases head
  | cons f fs ih =>
    cases gs with
    | nil =>
      have head := same f.complexity
      rw [ofComplexity_cons, if_pos rfl] at head
      cases head
    | cons g gs =>
      have tied : f.complexity = g.complexity :=
        Nat.le_antisymm (complexity_le_of_ascending hf same)
          (complexity_le_of_ascending hg fun n => (same n).symm)
      have head := same g.complexity
      rw [ofComplexity_cons, ofComplexity_cons, if_pos tied, if_pos rfl] at head
      obtain ⟨rfl, -⟩ := List.cons.inj head
      refine congrArg (f :: ·) (ih hf.of_cons hg.of_cons fun n => ?_)
      have part := same n
      rw [ofComplexity_cons, ofComplexity_cons] at part
      split at part
      · exact (List.cons.inj part).2
      · exact part

theorem StableSort.eq {fs gs : List Filter} (h : StableSort fs gs) : sortByComplexity fs = gs :=
  eq_of_ascending (ascending_sortByComplexity fs) h.ascending fun n =>
    (ofComplexity_sortByComplexity n fs).trans (h.stable n).symm

/-- Two filters change places if the first one is the more expensive one. -/
theorem sortByComplexity_pair (f g : Filter) :
    sortByComplexity [f, g] = if f.complexity ≤ g.complexity then [f, g] else [g, f] := by
  simp [sortByComplexity, List.mergeSort, List.merge]

/-! ### sorting everywhere -/

/-- The second filter is the first one with the children of each connective sorted, when their own
parts have been. -/
inductive Reordered : Filter → Filter → Prop
  | leaf {f : Filter} (h : f.isLeaf = true) : Reordered f f
  | and {fs gs hs : List Filter} (each : List.Forall₂ Reordered fs gs) (sorted : StableSort gs hs) :
    Reordered (.and fs) (.and hs)
  | or {fs gs hs : List Filter} (each : List.Forall₂ Reordered fs gs) (sorted : StableSort gs hs) :
    Reordered (.or fs) (.or hs)
  | not {f g : Filter} (below : Reordered f g) : Reordered (.not f) (.not g)

theorem forall₂_reordered_iff {fs gs : List Filter}
    (each : ∀ f ∈ fs, ∀ g, f.Reordered g ↔ f.reorder = g) :
    List.Forall₂ Reordered fs gs ↔ fs.map reorder = gs := by
  induction fs generalizing gs with
  | nil => rw [List.forall₂_nil_left_iff, List.map_nil, eq_comm]
  | cons f fs ih =>
    obtain ⟨first, others⟩ := List.forall_mem_cons.mp each
    rw [List.forall₂_cons_left_iff, List.map_cons]
    constructor
    · rintro ⟨g, gs, hg, hgs, rfl⟩
      rw [(first g).mp hg, (ih others).mp hgs]
    · rintro rfl
      exact ⟨_, _, (first _).mpr rfl, (ih others).mpr rfl, rfl⟩

theorem reordered_iff (f g : Filter) : f.Reordered g ↔ f.reorder = g := by
  induction f using Filter.induction generalizing g with
  | leaf f h =>
    rw [reorder_of_isLeaf h]
    constructor
    · rintro (_ | _ | _ | _)
      · rfl
      · cases h
      · cases h
      · cases h
    · rintro rfl
      exact .leaf h
  | and fs ih =>
    rw [reorder, reorderAll_eq_map]
    constructor
    · rintro (h | ⟨each, sorted⟩)
      · cases h
      · rw [(forall₂_reordered_iff ih).mp each, sorted.eq]
    · rintro rfl
      exact .and ((forall₂_reordered_iff ih).mpr rfl) (stableSort_sortByComplexity _)
  | or fs ih =>
    rw [reorder, reorderAll_eq_map]
    constructor
    · rintro (h | _ | ⟨each, sorted⟩)
      · cases h
      · rw [(forall₂_reordered_iff ih).mp each, sorted.eq]
    · rintro rfl
      exact .or ((forall₂_reordered_iff ih).mpr rfl) (stableSort_sortByComplexity _)
  | not f ih =>
    rw [reorder]
    constructor
    · rintro (h | _ | _ | below)
      · cases h
      · rw [(ih _).mp below]
    · rintro rfl
      exact .not ((ih _).mpr rfl)

/-- The nodes of the result are the nodes of the filter, each with its own parts sorted. -/
theorem perm_preorder_reorder (f : Filter) : f.reorder.preorder.Perm (f.preorder.map reorder) := by
  have sorted (fs : List Filter) (ih : ∀ f ∈ fs, f.reorder.preorder.Perm (f.preorder.map reorder)) :
      ((sortByComplexity (fs.map reorder)).flatMap preorder).Perm
        ((fs.flatMap preorder).map reorder) := by
    refine ((perm_sortByComplexity _).flatMap_right _).trans ?_
    rw [List.flatMap_map, List.map_flatMap]
    exact List.Perm.flatMap_left fs ih
  induction f using Filter.induction with
  | leaf f h =>
    rw [reorder_of_isLeaf h, preorder_of_isLeaf h, List.map_singleton, reorder_of_isLeaf h]
  | and fs ih =>
    rw [preorder, List.map_cons, preorderAll_eq_flatMap, reorder, preorder, preorderAll_eq_flatMap,
      reorderAll_eq_map]
    exact (sorted fs ih).cons _
  | or fs ih =>
    rw [preorder, List.map_cons, preorderAll_eq_flatMap, reorder, preorder, preorderAll_eq_flatMap,
      reorderAll_eq_map]
    exact (sorted fs ih).cons _
  | not f ih =>
    rw [preorder, List.map_cons, reorder, preorder]
    exact ih.cons _

/-! ### complexity -/

theorem complexityAll_sortByComplexity (fs : List Filter) :
    complexityAll (sortByComplexity fs) = complexityAll fs := by
  rw [complexityAll_eq_sum, complexityAll_eq_sum]
  exact ((perm_sortByComplexity fs).map complexity).sum_nat

theorem complexityAll_map {fs : List Filter} {change : Filter → Filter}
    (each : ∀ f ∈ fs, (change f).complexity = f.complexity) :
    complexityAll (fs.map change) = complexityAll fs := by
  rw [complexityAll_eq_sum, complexityAll_eq_sum, List.map_map]
  exact congrArg List.sum (List.map_congr_left each)

theorem complexity_reorder (f : Filter) : f.reorder.complexity = f.complexity := by
  induction f using Filter.induction with
  | leaf f h => rw [reorder_of_isLeaf h]
  | and fs ih =>
    rw [reorder, complexity, complexity, complexityAll_sortByComplexity, reorderAll_eq_map,
      complexityAll_map ih]
  | or fs ih =>
    rw [reorder, complexity, complexity, complexityAll_sortByComplexity, reorderAll_eq_map,
      complexityAll_map ih]
  | not f ih => rw [reorder, complexity, complexity, ih]

theorem complexity_of_isLeaf {f : Filter} (h : f.isLeaf = true) :
    f.complexity = f.isExpensive.toNat := by
  cases f with
  | and | or | not => cases h
  | value | path | key | expr | member | bool => rw [complexity]

theorem complexity_eq_countP (f : Filter) : f.complexity = f.leaves.countP isExpensive := by
  induction f using Filter.induction with
  | leaf f h =>
    rw [leaves_of_isLeaf h, complexity_of_isLeaf h, List.countP_singleton]
    cases f.isExpensive <;> rfl
  | and fs ih =>
    rw [leaves_and, complexity, complexityAll_eq_sum, List.countP_flatMap]
    exact congrArg List.sum (List.map_congr_left ih)
  | or fs ih =>
    rw [leaves_or, complexity, complexityAll_eq_sum, List.countP_flatMap]
    exact congrArg List.sum (List.map_congr_left ih)
  | not f ih => rw [leaves_not, complexity, ih]

/-- **Reordering is a stable sort at each connective.**  The result, and no other filter, has as the
children of each connective those of the filter, with their own parts sorted: each of them once, the
cheaper ones first, and those of one complexity in their order.  A node for a node it has the
complexity that the filter has, which is the number of expensive leaves and what the fold with a
stack of its own finds. -/
theorem reorder_sorts (f : Filter) :
    (∀ g, f.reorder = g ↔ f.Reordered g) ∧
    f.reorder.preorder.Perm (f.preorder.map reorder) ∧
    f.reorder.complexity = f.complexity ∧
    f.complexity = f.leaves.countP isExpensive ∧
    foldPostorder score f = .ok f.complexity :=
  ⟨fun g => (f.reordered_iff g).symm, f.perm_preorder_reorder, f.complexity_reorder,
    f.complexity_eq_countP, f.foldPostorder_score⟩

end ColumnPlan.Filter
