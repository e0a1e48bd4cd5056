import ColumnPlan.Compile.Tree
import ColumnPlan.Proofs.Logical.Negations
import ColumnPlan.Proofs.Logical.Reorder

/-!
# Normal forms

A negation costs what the filter costs, so the sort does not see whether negations have been pushed
down yet, and the two passes can change places.  A sorted list stays as it is when it is sorted
again.  So a filter in normal form is its own normal form, and so is each part of it.

* `complexity_pushNot_negate`      negations cost nothing;
* `sortByComplexity_map`           a change that keeps complexity, before or after the sort;
* `reorder_pushNot_negate`         the two passes commute;
* `reorder_reorder`                a sorted filter is not sorted again;
* `normalize_of_mem`               the parts of a normal form are normal forms;
* `normalize_laws`                 normalizing again changes nothing, wherever it is done.
-/

namespace ColumnPlan.Filter

/-! ### the two passes -/

theorem complexity_pushNot_negate (f : Filter) :
    f.pushNot.complexity = f.complexity ∧ f.negate.complexity = f.complexity := by
  induction f using Filter.induction with
  | leaf f h =>
    rw [pushNot_of_isLeaf h, complexity_of_isLeaf (isLeaf_negate h), complexity_of_isLeaf h]
    refine ⟨rfl, ?_⟩
    cases f with
    | and | or | not => cases h
    | value | path | key | expr | member | bool => rfl
  | and fs ih =>
    rw [pushNot, negate, complexity, complexity, complexity, pushNotAll_eq_map, negateAll_eq_map]
    exact ⟨complexityAll_map fun f hf => (ih f hf).1, complexityAll_map fun f hf => (ih f hf).2⟩
  | or fs ih =>
    rw [pushNot, negate, complexity, complexity, complexity, pushNotAll_eq_map, negateAll_eq_map]
    exact ⟨complexityAll_map fun f hf => (ih f hf).1, complexityAll_map fun f hf => (ih f hf).2⟩
  | not f ih =>
    rw [pushNot, negate, complexity]
    exact ⟨ih.2, ih.1⟩

/-- Children that are changed and then sorted, or sorted and then changed. -/
theorem sortByComplexity_map {change : Filter → Filter} {fs : List Filter}
    (cost : ∀ f, (change f).complexity = f.complexity)
    (each : ∀ f ∈ fs, (change f).reorder = change f.reorder) :
    sortByComplexity ((fs.map change).map reorder) =
      (sortByComplexity (fs.map reorder)).map change := by
  have commute : (fs.map change).map reorder = (fs.map reorder).map change := by
    rw [List.map_map, List.map_map]
    exact List.map_congr_left each
  rw [commute]
  refine (List.map_mergeSort fun f _ g _ => ?_).symm
  rw [cost f, cost g]

/-- Both halves of the first pass at once, since each calls the other. -/
theorem reorder_pushNot_negate (f : Filter) :
    f.pushNot.reorder = f.reorder.pushNot ∧ f.negate.reorder = f.reorder.negate := by
  induction f using Filter.induction with
  | leaf f h =>
    rw [pushNot_of_isLeaf h, reorder_of_isLeaf h, reorder_of_isLeaf (isLeaf_negate h),
      pushNot_of_isLeaf h]
    exact ⟨rfl, rfl⟩
  | and fs ih =>
    rw [pushNot, negate, reorder, reorder, reorder, pushNot, negate, pushNotAll_eq_map,
      pushNotAll_eq_map, negateAll_eq_map, negateAll_eq_map, reorderAll_eq_map, reorderAll_eq_map,
      reorderAll_eq_map,
      sortByComplexity_map (fun f => f.complexity_pushNot_negate.1) fun f hf => (ih f hf).1,
      sortByComplexity_map (fun f => f.complexity_pushNot_negate.2) fun f hf => (ih f hf).2]
    exact ⟨rfl, rfl⟩
  | or fs ih =>
    rw [pushNot, negate, reorder, reorder, reorder, pushNot, negate, pushNotAll_eq_map,
      pushNotAll_eq_map, negateAll_eq_map, negateAll_eq_map, reorderAll_eq_map, reorderAll_eq_map,
      reorderAll_eq_map,
      sortByComplexity_map (fun f => f.complexity_pushNot_negate.1) fun f hf => (ih f hf).1,
      sortByComplexity_map (fun f => f.complexity_pushNot_negate.2) fun f hf => (ih f hf).2]
    exact ⟨rfl, rfl⟩
  | not f ih =>
    rw [pushNot, negate, reorder, pushNot, negate]
    exact ⟨ih.2, ih.1⟩

theorem sortByComplexity_of_ascending {fs : List Filter} (h : Ascending fs) :
    sortByComplexity fs = fs :=
  List.mergeSort_of_pairwise (h.imp decide_eq_true)

/-- The sorted children are the reordered ones, which are found in order a second time. -/
theorem sortByComplexity_reorderAll {fs : List Filter}
    (each : ∀ f ∈ fs, f.reorder.reorder = f.reorder) :
    sortByComplexity (reorderAll (sortByComplexity (reorderAll fs))) =
      sortByComplexity (reorderAll fs) := by
  have again : (sortByComplexity (fs.map reorder)).map reorder =
      sortByComplexity (fs.map reorder) := by
    refine (List.map_congr_left fun g hg => ?_).trans (List.map_id _)
    obtain ⟨f, hf, rfl⟩ := List.mem_map.mp ((perm_sortByComplexity _).mem_iff.mp hg)
    exact each f hf
  rw [reorderAll_eq_map, reorderAll_eq_map, again,
    sortByComplexity_of_ascending (ascending_sortByComplexity _)]

theorem reorder_reorder (f : Filter) : f.reorder.reorder = f.reorder := by
  induction f using Filter.induction with
  | leaf f h => rw [reorder_of_isLeaf h, reorder_of_isLeaf h]
  | and fs ih => rw [reorder, reorder, sortByComplexity_reorderAll ih]
  | or fs ih => rw [reorder, reorder, sortByComplexity_reorderAll ih]
  | not f ih => rw [reorder, reorder, ih]

/-! ### parts of normal forms -/

theorem normalize_of_mem (reordering : Bool) {f g : Filter}
    (h : g ∈ (f.normalize reordering).preorder) : g.normalize reordering = g := by
  have free : g.NotFree := (notFree_normalize reordering f).of_mem h
  unfold normalize
  rw [pushNot_of_notFree free]
  cases reordering with
  | false => rfl
  | true =>
    have part : g ∈ f.pushNot.reorder.preorder := h
    obtain ⟨node, -, rfl⟩ := List.mem_map.mp (f.pushNot.perm_preorder_reorder.mem_iff.mp part)
    exact node.reorder_reorder

/-- **Normalization is done once for all.**  Its passes can change places, and neither they nor both
together change what they have made.  A part of a normal form is in normal form as well, so to
compile it as any filter, with a normalization of its own, is to compile it as it stands. -/
theorem normalize_laws (f : Filter) :
    f.pushNot.reorder = f.reorder.pushNot ∧
    f.reorder.reorder = f.reorder ∧
    (∀ o : CompileOptions,
      (f.normalize o.reorder).normalize o.reorder = f.normalize o.reorder) ∧
    ∀ (c : Setting) (s : Schema), ∀ part ∈ (f.normalize c.options.reorder).preorder,
      part.normalize c.options.reorder = part ∧
        compileFilter c s part = compileNormal c s part := by
  refine ⟨f.reorder_pushNot_negate.1, f.reorder_reorder,
    fun o => normalize_of_mem o.reorder (mem_preorder_self _), fun c s part h => ?_⟩
  have same := normalize_of_mem c.options.reorder h
  refine ⟨same, ?_⟩
  rw [compileFilter, same]

/-- A disjunction that came out of two negations and was sorted with the rest. -/
theorem normalize_laws_part :
    let c : Setting := ⟨.builtins, .default⟩
    let s : Schema := ⟨[.key, ⟨"s", .utf8, true, none⟩]⟩
    let text := Filter.value "s" ⟨.eq, .any⟩ (.binary [97])
    let f := Filter.not (.or [.value "s" ⟨.like, .any⟩ (.binary [97]),
      .not (.or [text, .key ⟨.eq, .any⟩ 9])])
    let part := Filter.or [.key ⟨.eq, .any⟩ 9, text]
    part ∈ (f.normalize c.options.reorder).preorder ∧
      part.normalize c.options.reorder = part ∧
        compileFilter c s part = compileNormal c s part := by
  intro c s text f part
  have normal : f.normalize c.options.reorder =
      .and [.value "s" ⟨.notLike, .all⟩ (.binary [97]), part] := by
    show Filter.and (sortByComplexity [_, .or (sortByComplexity [text, .key ⟨.eq, .any⟩ 9])]) = _
    rw [sortByComplexity_pair, sortByComplexity_pair]
    rfl
  have member : part ∈ (f.normalize c.options.reorder).preorder := by
    rw [normal]
    exact .tail _ (.tail _ (.head _))
  exact ⟨member, (normalize_laws f).2.2.2 c s part member⟩

end ColumnPlan.Filter
