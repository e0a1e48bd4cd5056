import ColumnPlan.Proofs.Join.Hash

/-!
# Comparisons that are placed

The paths of a key are looked up on either side, and those of the residual condition in the merged
schema, where the columns of the probe side come behind those of the build side.  Both ways find the
same columns, so a comparison is compiled to the same predicate whether it becomes a key or stays in
the condition.

* `comparison_of_compileFilter`   a comparison of joined rows is that of its key;
* `getElem?_comparisons`          each key has its comparison, in the order of the keys;
* `matcher_of_compileJoin`        the matcher of a plan has all of them;
* `comparison_placed`             the same from the columns on.
-/

namespace ColumnPlan

open Compile

section
variable {c : Setting} {build probe : Schema}

theorem comparison_of_compileFilter {left right : String} {op : CompareOp} {pair : KeyPair}
    {key : EquiKey} {p : PredicateExpr}
    (placed : place? build probe left op right = some (pair, key))
    (compiled : (compileFilter c (build.merge probe) (.path left op right)).outcome = .ok p) :
    p = JoinKeys.comparison build.size pair key := by
  rw [Filter.outcome_compileFilter_of_isLeaf rfl, compileNormal, outcome_lift,
    compilePaths_eq_ok_iff] at compiled
  obtain ⟨i, j, hi, hj, rfl⟩ := compiled
  exact (comparison_of_place placed hi hj).symm

theorem getElem?_comparisons (keys : JoinKeys) (width i : Nat) :
    (keys.comparisons width)[i]? =
      keys.entries[i]?.map fun entry => JoinKeys.comparison width entry.1 entry.2 :=
  List.getElem?_map

theorem matcher_of_compileJoin {d : JoinDescriptor} {filter : Option Filter} {plan : JoinPlan}
    (planned : (compileJoin c build probe d filter).outcome = .ok plan) :
    plan.matcher = .allOf (plan.keys.comparisons build.size ++ [plan.residual]) := by
  obtain ⟨-, condition, -, made⟩ := (outcome_compileJoin c build probe d filter plan).mp planned
  obtain ⟨residual, strategy, -, -, rfl⟩ :=
    (outcome_compileCondition c build probe d condition plan).mp made
  rfl

end

/-- **Resolution distributes over the sides of a join.**  In the merged schema a path matches what
it matches on the build side, then what it matches on the probe side, moved behind the columns of
the build side, whether key columns are left out or not; and so it is with the columns of a name and
with the key columns.  Hence a comparison of two paths that is placed, in either order, and compiles
for joined rows is compiled to the predicate that a matcher has for its key. -/
theorem comparison_placed (build probe : Schema) :
    (∀ pattern withKey, (build.merge probe).matching pattern withKey =
      build.matching pattern withKey ++
        (probe.matching pattern withKey).map (· + build.size)) ∧
    (∀ name, (build.merge probe).named name =
      build.named name ++ (probe.named name).map (· + build.size)) ∧
    (build.merge probe).keyIndices =
      build.keyIndices ++ probe.keyIndices.map (· + build.size) ∧
    (∀ left op right pair key, place? build probe left op right = some (pair, key) →
      ∀ (c : Setting) (pool : LiteralPool) (p : PredicateExpr),
        (compileFilter c (build.merge probe) (.path left op right)).result pool = .ok p →
        p = JoinKeys.comparison build.size pair key ∧
        ∀ (keys : JoinKeys) (i : Nat), keys.entries[i]? = some (pair, key) →
          (keys.comparisons build.size)[i]? = some p) ∧
    ∀ (c : Setting) (d : JoinDescriptor) (filter : Option Filter) (pool : LiteralPool)
      (plan : JoinPlan), (compileJoin c build probe d filter).result pool = .ok plan →
      plan.matcher = .allOf (plan.keys.comparisons build.size ++ [plan.residual]) := by
  refine ⟨build.matching_merge probe, build.named_merge probe, build.keyIndices_merge probe,
    ?_, ?_⟩
  · intro left op right pair key placed c pool p compiled
    rw [(blind_compileFilter c _ _).result_eq] at compiled
    have same := comparison_of_compileFilter placed compiled
    refine ⟨same, fun keys i entry => ?_⟩
    rw [getElem?_comparisons, entry, same]
    rfl
  · intro c d filter pool plan planned
    rw [(blind_compileJoin c build probe d filter).result_eq] at planned
    exact matcher_of_compileJoin planned

/-- Globs of the two sides in the opposite order: the predicate is that of the first key, although
the condition states this key by other paths. -/
theorem comparison_placed_swapped :
    let op : CompareOp := ⟨.eq, .any⟩
    let p := PredicateExpr.compare (.ofOp op) [.field 2 none, .field 0 none]
    place? Sample.build Sample.probe "b.*" op "a.i*" = some (⟨0, 0⟩, ⟨op, true⟩) ∧
    (compileFilter Sample.setting (Sample.build.merge Sample.probe)
      (.path "b.*" op "a.i*")).result .empty = .ok p ∧
    ∃ plan, (compileJoin Sample.setting Sample.build Sample.probe
        (Sample.descriptor .left .nestedLoop) Sample.filter).result .empty = .ok plan ∧
      plan.keys.entries[0]? = some (⟨0, 0⟩, ⟨op, true⟩) ∧
      plan.matcher = .allOf (plan.keys.comparisons 2 ++ [plan.residual]) ∧
      (plan.keys.comparisons 2)[0]? = some p := by
  intro op p
  have placed : place? Sample.build Sample.probe "b.*" op "a.i*" =
      some (⟨0, 0⟩, ⟨op, true⟩) := by decide +kernel
  have compiled : (compileFilter Sample.setting (Sample.build.merge Sample.probe)
      (.path "b.*" op "a.i*")).result .empty = .ok p := by
    rw [(blind_compileFilter _ _ _).result_eq, Filter.outcome_compileFilter_of_isLeaf rfl,
      compileNormal, outcome_lift, compilePaths_eq_ok_iff]
    exact ⟨2, 0, by decide +kernel, by decide +kernel, rfl⟩
  have planned := Sample.result_compileJoin .left .nestedLoop rfl
  obtain ⟨-, -, -, comparison, matcher⟩ := comparison_placed Sample.build Sample.probe
  obtain ⟨-, emitted⟩ := comparison _ _ _ _ _ placed _ _ _ compiled
  have first : (Sample.plan .left .nestedLoop).keys.entries[0]? =
      some (⟨0, 0⟩, ⟨op, true⟩) := by decide +kernel
  exact ⟨placed, compiled, _, planned, first, matcher _ _ _ _ _ planned, emitted _ 0 first⟩

end ColumnPlan
