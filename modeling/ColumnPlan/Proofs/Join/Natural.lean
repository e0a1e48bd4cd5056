import ColumnPlan.Proofs.Join.Order
import ColumnPlan.Proofs.Schema.Natural

/-!
# Plans of natural joins

A natural join equates the columns that both sides share.  Each equation is looked up on both sides
under its prefixes and found, and no two of them compete for a pair, so all become keys and nothing
of the condition remains.

* `outcome_compileFilter_replicate`   what is left where all keys were taken is always true;
* `run_takeAllKeys_of_key`            conjuncts that state one comparison are all taken;
* `mem_keys_iff`                      and the keys are what they state;
* `JoinDescriptor.natural`            what a natural join is asked to do;
* `compileJoin_natural`               it is planned, with the shared columns as its keys.
-/

namespace ColumnPlan

open Compile

/-! ### nothing remains of a condition -/

theorem allOf_replicate_always (n : Nat) :
    PredicateExpr.allOf (List.replicate n .always) = .always := by
  have nothing : Connective.conjunction.spliceAll? (List.replicate n .always) = some [] := by
    induction n with
    | zero => rfl
    | succ n ih =>
      rw [List.replicate_succ, Connective.spliceAll?, ih]
      rfl
  rw [PredicateExpr.allOf, Connective.simplify_eq, nothing]
  rfl

theorem normalize_empty (reordering : Bool) :
    (Filter.and []).normalize reordering = .and [] := by
  obtain ⟨gs, perm, normal⟩ := Filter.normalize_and reordering []
  rw [List.map_nil, List.perm_nil] at perm
  rw [normal, perm]

/-- A conjunction of empty conjunctions is always true, whatever its order. -/
theorem outcome_compileFilter_replicate (c : Setting) (s : Schema) (n : Nat) :
    (compileFilter c s (.and (List.replicate n (.and [])))).outcome = .ok .always := by
  obtain ⟨gs, perm, normal⟩ :=
    Filter.normalize_and c.options.reorder (List.replicate n (Filter.and []))
  rw [List.map_replicate, normalize_empty, List.perm_replicate] at perm
  have child : ∀ g ∈ gs, (compileNormal c s g).outcome = .ok .always := by
    intro g hg
    rw [perm] at hg
    rw [List.eq_of_mem_replicate hg, outcome_compileNormal_and]
    rfl
  rw [outcome_compileFilter, normal, outcome_compileNormal_and, mapM_eq_map child, ok_bind, perm,
    List.map_replicate, allOf_replicate_always]

section
variable {build probe : Schema} {key : EquiKey}

/-! ### conjuncts that state one comparison -/

/-- All keys compare alike. -/
def JoinKeys.Uniform (key : EquiKey) (keys : JoinKeys) : Prop :=
  ∀ pair other, keys.get? pair = some other → other = key

theorem JoinKeys.uniform_empty (key : EquiKey) : JoinKeys.Uniform key .empty := by
  intro pair other h
  cases h

theorem run_takeKeys_of_key {f : Filter} {pair : KeyPair}
    (hf : f.key? build probe = some (pair, key)) {keys : JoinKeys} (hk : keys.Uniform key) :
    ((takeKeys build probe f).run keys).1 = .and [] ∧
      ((takeKeys build probe f).run keys).2.Uniform key := by
  cases f with
  | path left op right =>
    rw [run_takeKeys_path hf]
    cases found : keys.get? pair with
    | none =>
      refine ⟨rfl, fun other known h => ?_⟩
      rw [Dictionary.get?_set] at h
      split at h
      · exact (Option.some.inj h).symm
      · exact hk other known h
    | some known => exact ⟨if_pos (hk pair known found), hk⟩
  | value | key | expr | member | bool | and | or | not => cases hf

/-- Of conjuncts that state one comparison, each for a pair of its own or again, nothing remains. -/
theorem run_takeAllKeys_of_key {fs : List Filter}
    (hf : ∀ f ∈ fs, ∃ pair, f.key? build probe = some (pair, key)) {keys : JoinKeys}
    (hk : keys.Uniform key) :
    ((takeAllKeys build probe fs).run keys).1 = List.replicate fs.length (.and []) := by
  induction fs generalizing keys with
  | nil => rfl
  | cons f fs ih =>
    obtain ⟨⟨pair, first⟩, rest⟩ := List.forall_mem_cons.mp hf
    obtain ⟨taken, uniform⟩ := run_takeKeys_of_key first hk
    rw [run_takeAllKeys_cons, List.length_cons, List.replicate_succ, taken, ih rest uniform]

/-- Only a comparison states a key, and it is a conjunct as it stands. -/
theorem conjuncts_of_key {f : Filter} {entry : KeyPair × EquiKey}
    (hf : f.key? build probe = some entry) : f.conjuncts = [f] := by
  cases f with
  | path left op right => rfl
  | value | key | expr | member | bool | and | or | not => cases hf

theorem mem_statedAll_of_key {fs : List Filter}
    (hf : ∀ f ∈ fs, ∃ pair, f.key? build probe = some (pair, key)) {entry : KeyPair × EquiKey} :
    entry ∈ Filter.statedAll build probe fs ↔ ∃ f ∈ fs, f.key? build probe = some entry := by
  have leaves : Filter.conjunctsAll fs = fs := by
    clear entry
    induction fs with
    | nil => rfl
    | cons f fs ih =>
      obtain ⟨⟨pair, first⟩, rest⟩ := List.forall_mem_cons.mp hf
      rw [Filter.conjunctsAll, conjuncts_of_key first, ih rest, List.singleton_append]
  unfold Filter.statedAll
  rw [leaves, List.mem_filterMap]

/-- The keys are what the conjuncts state. -/
theorem mem_keys_iff {fs : List Filter}
    (hf : ∀ f ∈ fs, ∃ pair, f.key? build probe = some (pair, key)) {pair : KeyPair}
    {other : EquiKey} :
    (pair, other) ∈ ((Filter.and fs).keys build probe).entries ↔
      other = key ∧ ∃ f ∈ fs, f.key? build probe = some (pair, key) := by
  have stated : ∀ {other}, (pair, other) ∈ Filter.statedAll build probe fs → other = key := by
    intro other h
    obtain ⟨f, member, states⟩ := (mem_statedAll_of_key hf).mp h
    obtain ⟨pair', known⟩ := hf f member
    rw [known] at states
    cases states
    rfl
  rw [Dictionary.mem_entries_iff (ascending_keys (Filter.and fs)), keys_and,
    get?_takeAllKeys_eq]
  show Dictionary.find? pair (Filter.statedAll build probe fs) = some other ↔ _
  rw [← mem_statedAll_of_key hf]
  constructor
  · intro found
    have member := Dictionary.mem_of_find? found
    have same := stated member
    exact ⟨same, same ▸ member⟩
  · rintro ⟨rfl, member⟩
    cases found : Dictionary.find? pair (Filter.statedAll build probe fs) with
    | none => exact absurd rfl (Dictionary.find?_eq_none_iff.mp found _ member)
    | some known => rw [stated (Dictionary.mem_of_find? found)]

end

/-! ### natural joins -/

/-- An inner join by trying all pairs, on the columns that both sides share. -/
def JoinDescriptor.natural (build probe : Schema) (buildPrefix probePrefix : Option String)
    (emitBuildSideKey : Bool) (mark : Option String) : JoinDescriptor where
  options := ⟨.inner, .nestedLoop, emitBuildSideKey, mark⟩
  buildPrefix := buildPrefix
  probePrefix := probePrefix
  columns := naturalJoinColumns build probe buildPrefix probePrefix
  sharedPaths := []

section
variable {build probe : Schema} {buildPrefix probePrefix : Option String}

/-- The equation of a shared column. -/
def sharedEquation (buildPrefix probePrefix : Option String) (suffix : String) : Filter :=
  .path (qualify buildPrefix suffix) ⟨.eq, .any⟩ (qualify probePrefix suffix)

/-- What the equations of a natural join say. -/
theorem mem_demands_natural {emitBuildSideKey : Bool} {mark : Option String} {f : Filter} :
    f ∈ (JoinDescriptor.natural build probe buildPrefix probePrefix emitBuildSideKey mark).demands ↔
      ∃ suffix l r, build.Says buildPrefix l suffix ∧ probe.Says probePrefix r suffix ∧
        f = sharedEquation buildPrefix probePrefix suffix := by
  unfold JoinDescriptor.demands JoinDescriptor.equations JoinDescriptor.natural
  rw [List.map_nil, List.nil_append, List.map_map, List.mem_map]
  constructor
  · rintro ⟨suffix, shared, rfl⟩
    obtain ⟨⟨l, hl⟩, r, hr⟩ := (mem_naturalJoinColumns build probe _ _).mp shared
    exact ⟨suffix, l, r, hl, hr, rfl⟩
  · rintro ⟨suffix, l, r, hl, hr, rfl⟩
    exact ⟨suffix, (mem_naturalJoinColumns build probe _ _).mpr ⟨⟨l, hl⟩, r, hr⟩, rfl⟩

section
variable (hb : build.Distinct) (hp : probe.Distinct)
include hb hp

/-- A shared column is found on both sides, in the order in which it is written. -/
theorem key?_sharedEquation {l r : Nat} {suffix : String} (hl : build.Says buildPrefix l suffix)
    (hr : probe.Says probePrefix r suffix) :
    (sharedEquation buildPrefix probePrefix suffix).key? build probe =
      some (⟨l, r⟩, ⟨⟨.eq, .any⟩, false⟩) := by
  show place? build probe (qualify buildPrefix suffix) ⟨.eq, .any⟩ (qualify probePrefix suffix) = _
  unfold place? pair?
  rw [hb.columns_qualify hl, hp.columns_qualify hr]
  rfl

theorem exists_key?_of_demands {emitBuildSideKey : Bool} {mark : Option String} :
    ∀ f ∈ (JoinDescriptor.natural build probe buildPrefix probePrefix emitBuildSideKey mark).demands,
      ∃ pair, f.key? build probe = some (pair, ⟨⟨.eq, .any⟩, false⟩) := by
  intro f hf
  obtain ⟨suffix, l, r, hl, hr, rfl⟩ := mem_demands_natural.mp hf
  exact ⟨⟨l, r⟩, key?_sharedEquation hb hp hl hr⟩

/-- The equations of a natural join all speak of columns. -/
theorem joinCondition_natural (emitBuildSideKey : Bool) (mark : Option String) :
    joinCondition build probe
        (.natural build probe buildPrefix probePrefix emitBuildSideKey mark) none =
      .ok (.and (JoinDescriptor.natural build probe buildPrefix probePrefix emitBuildSideKey
        mark).demands) := by
  rw [joinCondition_eq_ok_iff]
  refine ⟨exists_mapM_ok_iff.mpr fun paths member => ?_, rfl⟩
  have demanded : Filter.path paths.1 ⟨.eq, .any⟩ paths.2 ∈
      (JoinDescriptor.natural build probe buildPrefix probePrefix emitBuildSideKey mark).demands :=
    List.mem_map_of_mem member
  obtain ⟨suffix, l, r, hl, hr, same⟩ := mem_demands_natural.mp demanded
  obtain ⟨left, -, right⟩ := Filter.path.inj same
  refine ⟨.path paths.1 ⟨.eq, .any⟩ paths.2, ?_⟩
  unfold equation
  rw [left, right, hb.columns_qualify hl, hp.columns_qualify hr]
  rfl

theorem mem_keys_natural {emitBuildSideKey : Bool} {mark : Option String} {pair : KeyPair}
    {key : EquiKey} :
    (pair, key) ∈ ((Filter.and (JoinDescriptor.natural build probe buildPrefix probePrefix
        emitBuildSideKey mark).demands).keys build probe).entries ↔
      key = ⟨⟨.eq, .any⟩, false⟩ ∧
        ∃ suffix, build.Says buildPrefix pair.build suffix ∧
          probe.Says probePrefix pair.probe suffix := by
  rw [mem_keys_iff (exists_key?_of_demands hb hp)]
  refine and_congr_right fun _ => ?_
  constructor
  · rintro ⟨f, hf, states⟩
    obtain ⟨suffix, l, r, hl, hr, rfl⟩ := mem_demands_natural.mp hf
    rw [key?_sharedEquation hb hp hl hr] at states
    cases states
    exact ⟨suffix, hl, hr⟩
  · rintro ⟨suffix, hl, hr⟩
    exact ⟨_, mem_demands_natural.mpr ⟨suffix, _, _, hl, hr, rfl⟩,
      key?_sharedEquation hb hp hl hr⟩

end

end

/-- **A natural join is planned, and its keys are the shared columns.**  The columns are listed
once each, in the order of the build side; two columns are equated iff their names say the same
behind the prefixes of their sides; and nothing else is asked of a pair of rows. -/
theorem compileJoin_natural {build probe : Schema} (hb : build.Distinct) (hp : probe.Distinct)
    (buildPrefix probePrefix : Option String) (c : Setting) (emitBuildSideKey : Bool)
    (mark : Option String) (pool : LiteralPool) :
    ((naturalJoinColumns build probe buildPrefix probePrefix).Nodup ∧
      (naturalJoinColumns build probe buildPrefix probePrefix).Sublist
        (build.suffixes buildPrefix) ∧
      ∀ suffix, suffix ∈ naturalJoinColumns build probe buildPrefix probePrefix ↔
        (∃ l, build.Says buildPrefix l suffix) ∧ ∃ r, probe.Says probePrefix r suffix) ∧
    ∃ plan, (compileJoin c build probe
        (.natural build probe buildPrefix probePrefix emitBuildSideKey mark) none).result pool =
          .ok plan ∧
      plan.keys.Ascending ∧
      (∀ pair key, (pair, key) ∈ plan.keys.entries ↔ key = ⟨⟨.eq, .any⟩, false⟩ ∧
        ∃ suffix, build.Says buildPrefix pair.build suffix ∧
          probe.Says probePrefix pair.probe suffix) ∧
      plan.residual = .always := by
  refine ⟨⟨nodup_naturalJoinColumns build probe buildPrefix probePrefix,
    naturalJoinColumns_sublist build probe buildPrefix probePrefix,
    fun _ => mem_naturalJoinColumns build probe buildPrefix probePrefix⟩, ?_⟩
  let d := JoinDescriptor.natural build probe buildPrefix probePrefix emitBuildSideKey mark
  have nothing : (Filter.and d.demands).withoutKeys build probe =
      .and (List.replicate d.demands.length (.and [])) := by
    rw [withoutKeys_and, run_takeAllKeys_of_key (exists_key?_of_demands hb hp)
      (JoinKeys.uniform_empty _)]
  refine ⟨d.plan build probe ((Filter.and d.demands).keys build probe) .always .nestedLoop, ?_,
    ascending_keys _, fun pair key => mem_keys_natural hb hp, rfl⟩
  rw [(blind_compileJoin c build probe d none).result_eq, outcome_compileJoin]
  refine ⟨rfl, .and d.demands, joinCondition_natural hb hp emitBuildSideKey mark, ?_⟩
  rw [outcome_compileCondition, nothing]
  exact ⟨.always, .nestedLoop, outcome_compileFilter_replicate c _ _, rfl, rfl⟩

/-- The key of the probe side is named as a column of the build side and is not equated with it. -/
theorem compileJoin_natural_key :
    let build : Schema := ⟨[.key, ⟨"t.b", .int32, true, none⟩, ⟨"t.a", .int64, true, none⟩]⟩
    let probe : Schema := ⟨[⟨"b", .int64, false, some "TRUE"⟩, ⟨"a", .int64, true, none⟩]⟩
    naturalJoinColumns build probe (some "t") none = ["a"] ∧
    ∃ plan, (compileJoin Sample.setting build probe
        (.natural build probe (some "t") none false none) none).result .empty = .ok plan ∧
      (⟨2, 1⟩, ⟨⟨.eq, .any⟩, false⟩) ∈ plan.keys.entries ∧ plan.residual = .always := by
  intro build probe
  have distinct : build.Distinct := ⟨by decide +kernel, by decide +kernel⟩
  have distinct' : probe.Distinct := ⟨by decide +kernel, by decide +kernel⟩
  obtain ⟨-, plan, planned, -, keys, residual⟩ := compileJoin_natural distinct distinct'
    (some "t") none Sample.setting false none .empty
  refine ⟨by decide +kernel, plan, planned, ?_, residual⟩
  rw [keys]
  exact ⟨rfl, "a", ⟨_, rfl, by decide +kernel, by decide +kernel⟩,
    ⟨_, rfl, by decide +kernel, rfl⟩⟩

end ColumnPlan
