import ColumnPlan.Proofs.Join.Equations

/-!
# The order of conjuncts

Keys are taken from left to right, and the first comparison of a pair of columns is the key of the
pair.  Another comparison of the pair remains in the condition and has to be compiled there.  So the
order of the conjuncts matters only where several of them compete for a pair.

* `Filter.conjuncts`          the parts that a filter demands as they stand;
* `Filter.stated`             the keys that they state;
* `get?_takeKeys_eq`          the key of a pair is the first one that is stated;
* `compiles_takeKeys_iff`     what remains can be compiled iff each conjunct is a key or can be;
* `exists_compileJoin_iff`    which joins can be planned;
* `Filter.Agree`, `JoinDescriptor.Clear`   conjuncts that compete without harm;
* `compileJoin_perm`          these may be permuted.
-/

namespace ColumnPlan

open Compile

/-! ### the order of pairs -/

theorem KeyPair.compare_eq : (compare : KeyPair → KeyPair → Ordering) =
    compareLex (compareOn KeyPair.build) (compareOn KeyPair.probe) := by
  funext p q
  show (compare p.build q.build).then ((compare p.probe q.probe).then .eq) =
    (compare p.build q.build).then (compare p.probe q.probe)
  rw [Ordering.then_eq]

instance : Std.TransOrd KeyPair := by
  unfold Std.TransOrd
  rw [KeyPair.compare_eq]
  infer_instance

instance : Std.LawfulEqOrd KeyPair where
  eq_of_compare := by
    intro p q h
    rw [KeyPair.compare_eq] at h
    obtain ⟨hb, hp⟩ := Ordering.then_eq_eq.mp h
    have build : p.build = q.build := Std.LawfulEqOrd.eq_of_compare hb
    have probe : p.probe = q.probe := Std.LawfulEqOrd.eq_of_compare hp
    cases p; cases q
    simp_all

/-! ### conjuncts and the keys that they state -/

namespace Filter

mutual

/-- The parts of a filter that it demands as they stand: conjunctions are opened up. -/
def conjuncts : Filter → List Filter
  | .and fs => conjunctsAll fs
  | f => [f]

def conjunctsAll : List Filter → List Filter
  | [] => []
  | f :: fs => conjuncts f ++ conjunctsAll fs

end

theorem conjunctsAll_eq_flatMap (fs : List Filter) : conjunctsAll fs = fs.flatMap conjuncts := by
  induction fs with
  | nil => rfl
  | cons f fs ih => rw [conjunctsAll, ih, List.flatMap_cons]

section
variable (build probe : Schema)

/-- The key that a conjunct states, with its pair. -/
def key? : Filter → Option (KeyPair × EquiKey)
  | .path left op right => place? build probe left op right
  | _ => none

/-- The keys that the conjuncts of a filter state, from left to right. -/
def stated (f : Filter) : List (KeyPair × EquiKey) := f.conjuncts.filterMap (key? build probe)

def statedAll (fs : List Filter) : List (KeyPair × EquiKey) :=
  (conjunctsAll fs).filterMap (key? build probe)

end

end Filter

section
variable {build probe : Schema}

theorem Filter.stated_path {left right : String} {op : CompareOp} :
    (Filter.path left op right).stated build probe = (place? build probe left op right).toList := by
  show [Filter.path left op right].filterMap (Filter.key? build probe) = _
  cases h : place? build probe left op right with
  | none => simp [Filter.key?, h]
  | some entry => simp [Filter.key?, h]

theorem Filter.statedAll_cons (f : Filter) (fs : List Filter) :
    Filter.statedAll build probe (f :: fs) =
      f.stated build probe ++ Filter.statedAll build probe fs := by
  show (f.conjuncts ++ Filter.conjunctsAll fs).filterMap _ = _
  rw [List.filterMap_append]
  rfl

theorem get?_takeKeys_path {left right : String} {op : CompareOp} {keys : JoinKeys}
    {pair : KeyPair} :
    ((takeKeys build probe (.path left op right)).run keys).2.get? pair =
      (keys.get? pair).or
        (Dictionary.find? pair (place? build probe left op right).toList) := by
  cases hp : place? build probe left op right with
  | none =>
    rw [takeKeys, hp]
    show keys.get? pair = _
    simp [Dictionary.find?]
  | some placed =>
    obtain ⟨other, key⟩ := placed
    rw [run_takeKeys_path hp]
    by_cases same : pair = other
    · subst same
      cases hk : keys.get? pair with
      | none =>
        show (keys.set pair key).get? pair = _
        simp [Dictionary.get?_set, Dictionary.find?]
      | some known => simp [hk]
    · have absent : Dictionary.find? pair [(other, key)] = none := by
        simp [Dictionary.find?, same]
      rw [Option.toList_some, absent, Option.or_none]
      cases hk : keys.get? other with
      | none =>
        show (keys.set other key).get? pair = _
        rw [Dictionary.get?_set, if_neg same]
      | some known => rfl

mutual

/-- **The first of the keys that a filter states for a pair is the key of the pair**, unless the
pair has a key already. -/
theorem get?_takeKeys_eq {pair : KeyPair} : (f : Filter) → (keys : JoinKeys) →
    ((takeKeys build probe f).run keys).2.get? pair =
      (keys.get? pair).or (Dictionary.find? pair (f.stated build probe))
  | .and fs, keys => by
    rw [takeKeys]
    exact get?_takeAllKeys_eq fs keys
  | .path left op right, keys => by rw [get?_takeKeys_path, Filter.stated_path]
  | .bool true, keys | .bool false, keys | .value _ _ _, keys | .key _ _, keys
  | .expr _ _ _, keys | .member _ _ _, keys | .or _, keys | .not _, keys =>
    (Option.or_none (o := keys.get? pair)).symm

theorem get?_takeAllKeys_eq {pair : KeyPair} : (fs : List Filter) → (keys : JoinKeys) →
    ((takeAllKeys build probe fs).run keys).2.get? pair =
      (keys.get? pair).or (Dictionary.find? pair (Filter.statedAll build probe fs))
  | [], keys => (Option.or_none (o := keys.get? pair)).symm
  | f :: fs, keys => by
    rw [run_takeAllKeys_cons, Filter.statedAll_cons, Dictionary.find?_append]
    show ((takeAllKeys build probe fs).run ((takeKeys build probe f).run keys).2).2.get? pair = _
    rw [get?_takeAllKeys_eq fs, get?_takeKeys_eq f, Option.or_assoc]

end

mutual

theorem ascending_takeKeys : (f : Filter) → (keys : JoinKeys) → keys.Ascending →
    ((takeKeys build probe f).run keys).2.Ascending
  | .and fs, keys, h => by
    rw [takeKeys]
    exact ascending_takeAllKeys fs keys h
  | .path left op right, keys, h => by
    cases hp : place? build probe left op right with
    | none =>
      rw [takeKeys, hp]
      exact h
    | some placed =>
      obtain ⟨pair, key⟩ := placed
      rw [run_takeKeys_path hp]
      cases keys.get? pair with
      | none => exact Dictionary.ascending_set h pair key
      | some known => exact h
  | .bool true, _, h | .bool false, _, h | .value _ _ _, _, h | .key _ _, _, h
  | .expr _ _ _, _, h | .member _ _ _, _, h | .or _, _, h | .not _, _, h => h

theorem ascending_takeAllKeys : (fs : List Filter) → (keys : JoinKeys) → keys.Ascending →
    ((takeAllKeys build probe fs).run keys).2.Ascending
  | [], _, h => h
  | f :: fs, keys, h =>
    ascending_takeAllKeys fs ((takeKeys build probe f).run keys).2 (ascending_takeKeys f keys h)

end

end

/-! ### what remains of a condition -/

section
variable {c : Setting} {build probe : Schema}

/-- The key that a conjunct states is the key of its pair. -/
def JoinKeys.Has (keys : JoinKeys) (build probe : Schema) (f : Filter) : Prop :=
  ∃ pair key, f.key? build probe = some (pair, key) ∧ keys.get? pair = some key

/-- What remains of a comparison can be compiled iff the comparison is a key or can be compiled. -/
theorem compiles_takeKeys_path {left right : String} {op : CompareOp} {keys final : JoinKeys}
    (kept : ∀ pair key, ((takeKeys build probe (.path left op right)).run keys).2.get? pair =
      some key → final.get? pair = some key) :
    ((takeKeys build probe (.path left op right)).run keys).1.Compiles c (build.merge probe) ↔
      final.Has build probe (.path left op right) ∨
        (Filter.path left op right).Compiles c (build.merge probe) := by
  cases hp : place? build probe left op right with
  | none =>
    have none : ¬ final.Has build probe (.path left op right) := by
      rintro ⟨pair, key, h, -⟩
      rw [Filter.key?, hp] at h
      cases h
    rw [takeKeys, hp]
    exact (or_iff_right none).symm
  | some placed =>
    obtain ⟨pair, key⟩ := placed
    rw [run_takeKeys_path hp] at kept ⊢
    have has : final.Has build probe (.path left op right) ↔ final.get? pair = some key := by
      constructor
      · rintro ⟨pair', key', h, hk⟩
        rw [Filter.key?, hp] at h
        cases h
        exact hk
      · intro hk
        exact ⟨pair, key, hp, hk⟩
    rw [has]
    cases hk : keys.get? pair with
    | none =>
      rw [hk] at kept
      have found : final.get? pair = some key := by
        apply kept
        show (keys.set pair key).get? pair = some key
        rw [Dictionary.get?_set, if_pos rfl]
      exact iff_of_true (compiles_empty _) (.inl found)
    | some known =>
      rw [hk] at kept
      have found : final.get? pair = some known := kept pair known hk
      rw [found, Option.some.injEq]
      by_cases same : known = key
      · show (if known = key then _ else _ : Filter).Compiles c _ ↔ _
        rw [if_pos same]
        exact iff_of_true (compiles_empty _) (.inl same)
      · show (if known = key then _ else _ : Filter).Compiles c _ ↔ _
        rw [if_neg same, or_iff_right same]

/-- A conjunct that is left alone. -/
theorem compiles_leaf_iff {f : Filter} {final : JoinKeys} (hc : f.conjuncts = [f])
    (hk : f.key? build probe = none) :
    f.Compiles c (build.merge probe) ↔
      ∀ g ∈ f.conjuncts, final.Has build probe g ∨ g.Compiles c (build.merge probe) := by
  have none : ¬ final.Has build probe f := by
    rintro ⟨pair, key, h, -⟩
    rw [hk] at h
    cases h
  rw [hc, List.forall_mem_singleton, or_iff_right none]

mutual

/-- What remains of a filter can be compiled iff each conjunct of the filter is a key or can be
compiled. -/
theorem compiles_takeKeys_iff {final : JoinKeys} : (f : Filter) → (keys : JoinKeys) →
    (∀ pair key, ((takeKeys build probe f).run keys).2.get? pair = some key →
      final.get? pair = some key) →
    (((takeKeys build probe f).run keys).1.Compiles c (build.merge probe) ↔
      ∀ g ∈ f.conjuncts, final.Has build probe g ∨ g.Compiles c (build.merge probe))
  | .and fs, keys, kept => by
    rw [takeKeys] at kept ⊢
    show (Filter.and ((takeAllKeys build probe fs).run keys).1).Compiles c _ ↔ _
    rw [Filter.compiles_and_iff]
    exact compiles_takeAllKeys_iff fs keys kept
  | .path left op right, keys, kept => by
    show _ ↔ ∀ g ∈ [Filter.path left op right], _
    rw [List.forall_mem_singleton]
    exact compiles_takeKeys_path kept
  | .bool true, keys, _ => by
    show _ ↔ ∀ g ∈ [Filter.bool true], _
    rw [List.forall_mem_singleton]
    exact iff_of_true (compiles_empty _) (.inr (Filter.compiles_bool true))
  | .bool false, keys, _ => by
    show _ ↔ ∀ g ∈ [Filter.bool false], _
    rw [List.forall_mem_singleton]
    have remains : (Filter.or []).Compiles c (build.merge probe) :=
      (Filter.compiles_or_iff c _ []).mpr fun _ hf => absurd hf List.not_mem_nil
    exact iff_of_true remains (.inr (Filter.compiles_bool false))
  | .value p op v, _, _ => compiles_leaf_iff (f := .value p op v) rfl rfl
  | .key op n, _, _ => compiles_leaf_iff (f := .key op n) rfl rfl
  | .expr l op r, _, _ => compiles_leaf_iff (f := .expr l op r) rfl rfl
  | .member p op vs, _, _ => compiles_leaf_iff (f := .member p op vs) rfl rfl
  | .or fs, _, _ => compiles_leaf_iff (f := .or fs) rfl rfl
  | .not f, _, _ => compiles_leaf_iff (f := .not f) rfl rfl

theorem compiles_takeAllKeys_iff {final : JoinKeys} : (fs : List Filter) → (keys : JoinKeys) →
    (∀ pair key, ((takeAllKeys build probe fs).run keys).2.get? pair = some key →
      final.get? pair = some key) →
    ((∀ g ∈ ((takeAllKeys build probe fs).run keys).1, g.Compiles c (build.merge probe)) ↔
      ∀ g ∈ Filter.conjunctsAll fs, final.Has build probe g ∨ g.Compiles c (build.merge probe))
  | [], _, _ =>
    iff_of_true (fun _ hg => absurd hg List.not_mem_nil) fun _ hg => absurd hg List.not_mem_nil
  | f :: fs, keys, kept => by
    rw [run_takeAllKeys_cons] at kept ⊢
    have head := compiles_takeKeys_iff f keys fun pair key h =>
      kept pair key (get?_takeAllKeys fs _ h)
    have tail := compiles_takeAllKeys_iff fs ((takeKeys build probe f).run keys).2 kept
    rw [Filter.conjunctsAll, List.forall_mem_append, List.forall_mem_cons, head, tail]

end
end

/-! ### plans of permuted conditions -/

theorem mem_equalities_iff {keys : JoinKeys} (h : keys.Ascending) {pair : KeyPair} :
    pair ∈ keys.equalities ↔ ∃ key, keys.get? pair = some key ∧ key.op.isEquality = true := by
  rw [mem_equalities]
  refine exists_congr fun key => and_congr_left fun _ => ?_
  exact Dictionary.mem_entries_iff h

theorem pairwise_equalities {keys : JoinKeys} (h : keys.Ascending) :
    keys.equalities.Pairwise fun pair later => compare pair later = .lt := by
  unfold JoinKeys.equalities
  rw [List.pairwise_map]
  refine (List.Pairwise.sublist List.filter_sublist h).imp ?_
  intro entry later less
  exact Ordering.isLT_iff_eq_lt.mp less

/-- Equated pairs are listed in order, so it is enough to know which pairs are equated. -/
theorem equalities_ext {keys more : JoinKeys} (hk : keys.Ascending) (hm : more.Ascending)
    (h : ∀ pair, pair ∈ keys.equalities ↔ pair ∈ more.equalities) :
    keys.equalities = more.equalities := by
  have irrefl : ∀ {pair later : KeyPair}, compare pair later = .lt → pair ≠ later := by
    rintro pair _ less rfl
    rw [Std.ReflOrd.compare_self] at less
    cases less
  have nodup : ∀ {keys : JoinKeys}, keys.Ascending → keys.equalities.Nodup := fun h =>
    (pairwise_equalities h).imp irrefl
  have perm := (List.perm_ext_iff_of_nodup (nodup hk) (nodup hm)).mpr h
  refine perm.eq_of_pairwise ?_ (pairwise_equalities hk) (pairwise_equalities hm)
  intro pair later _ _ less more
  have swapped : compare later pair = .gt := Std.OrientedCmp.gt_of_lt less
  rw [swapped] at more
  cases more

section
variable (c : Setting) (build probe : Schema) (d : JoinDescriptor)

/-- The equations of a descriptor as filters. -/
def JoinDescriptor.demands : List Filter :=
  d.equations.map fun paths => .path paths.1 ⟨.eq, .any⟩ paths.2

/-- The condition of a join whose equations all speak of columns. -/
def JoinDescriptor.condition (filter : Option Filter) : Filter :=
  .and (filter.toList ++ d.demands)

theorem joinCondition_eq_ok_iff {filter : Option Filter} {condition : Filter} :
    joinCondition build probe d filter = .ok condition ↔
      (∃ equations, d.equations.mapM (equation build probe) = .ok equations) ∧
        condition = d.condition filter := by
  have demanded : ∀ {equations}, d.equations.mapM (equation build probe) = .ok equations →
      equations = d.demands := by
    intro equations h
    have same : List.Forall₂ (fun f paths => f = Filter.path paths.1 ⟨.eq, .any⟩ paths.2) equations
        d.equations :=
      (mapM_eq_ok_iff.mp h).flip.imp fun f paths hf => (eq_path_of_equation hf).2.2
    rw [← List.forall₂_map_right_iff, List.forall₂_eq_eq_eq] at same
    exact same
  constructor
  · intro h
    obtain ⟨equations, he, h⟩ := bind_eq_ok_iff.mp h
    cases h
    refine ⟨⟨equations, he⟩, ?_⟩
    rw [demanded he]
    rfl
  · rintro ⟨⟨equations, he⟩, rfl⟩
    refine bind_eq_ok_iff.mpr ⟨equations, he, ?_⟩
    rw [demanded he]
    rfl

variable {c build probe d}

/-- A join can be planned iff it is valid, its equations speak of columns, what its keys leave of
the condition can be compiled, and its algorithm has the keys it needs. -/
theorem exists_compileJoin_iff (filter : Option Filter) (pool : LiteralPool) :
    (∃ plan, (compileJoin c build probe d filter).result pool = .ok plan) ↔
      d.options.validate = .ok () ∧
      (∃ equations, d.equations.mapM (equation build probe) = .ok equations) ∧
      ((d.condition filter).withoutKeys build probe).Compiles c (build.merge probe) ∧
      ∃ strategy, JoinStrategy.choose d.options.algorithm
        ((d.condition filter).keys build probe) = .ok strategy := by
  rw [(blind_compileJoin c build probe d filter).result_eq]
  constructor
  · rintro ⟨plan, h⟩
    obtain ⟨valid, condition, hc, h⟩ := (outcome_compileJoin c build probe d filter plan).mp h
    obtain ⟨equations, rfl⟩ := (joinCondition_eq_ok_iff build probe d).mp hc
    obtain ⟨residual, strategy, hr, hs, -⟩ := (outcome_compileCondition c build probe d _ _).mp h
    exact ⟨valid, equations, ⟨residual, hr⟩, strategy, hs⟩
  · rintro ⟨valid, equations, ⟨residual, hr⟩, strategy, hs⟩
    refine ⟨d.plan build probe ((d.condition filter).keys build probe) residual strategy, ?_⟩
    rw [outcome_compileJoin]
    refine ⟨valid, d.condition filter, (joinCondition_eq_ok_iff build probe d).mpr
      ⟨equations, rfl⟩, ?_⟩
    rw [outcome_compileCondition]
    exact ⟨residual, strategy, hr, hs, rfl⟩

theorem keys_of_compileJoin {filter : Option Filter} {pool : LiteralPool} {plan : JoinPlan}
    (h : (compileJoin c build probe d filter).result pool = .ok plan) :
    plan.keys = (d.condition filter).keys build probe ∧
      plan.outputs = joinOutputs build probe d plan.keys := by
  rw [(blind_compileJoin c build probe d filter).result_eq, outcome_compileJoin] at h
  obtain ⟨-, condition, hc, h⟩ := h
  obtain ⟨-, rfl⟩ := (joinCondition_eq_ok_iff build probe d).mp hc
  obtain ⟨residual, strategy, -, -, rfl⟩ := (outcome_compileCondition c build probe d _ _).mp h
  exact ⟨rfl, rfl⟩

/-! ### a pair with several keys -/

variable (build probe d)

/-- Of the keys that some conjuncts state for a pair of columns all are equations or none is. -/
def Filter.Agree (fs : List Filter) : Prop :=
  ∀ pair key other, (pair, key) ∈ Filter.statedAll build probe fs →
    (pair, other) ∈ Filter.statedAll build probe fs → key.op.isEquality = other.op.isEquality

/-- Where some conjuncts state several keys for a pair of columns, the paths of each comparison of
that pair mean one column of a joined row. -/
def JoinDescriptor.Clear (fs : List Filter) : Prop :=
  ∀ pair key other, (pair, key) ∈ Filter.statedAll build probe fs →
    (pair, other) ∈ Filter.statedAll build probe fs → key ≠ other →
      ∀ left op right known, .path left op right ∈ Filter.conjunctsAll fs ++ d.demands →
        place? build probe left op right = some (pair, known) →
          (∃ i, (build.merge probe).columns left = [i]) ∧
            ∃ j, (build.merge probe).columns right = [j]

variable {build probe d} {fs gs : List Filter}

theorem perm_conjunctsAll (h : fs.Perm gs) :
    (Filter.conjunctsAll fs).Perm (Filter.conjunctsAll gs) := by
  rw [Filter.conjunctsAll_eq_flatMap, Filter.conjunctsAll_eq_flatMap]
  exact h.flatMap_right _

theorem mem_statedAll_perm (h : fs.Perm gs) {entry : KeyPair × EquiKey} :
    entry ∈ Filter.statedAll build probe fs ↔ entry ∈ Filter.statedAll build probe gs :=
  ((perm_conjunctsAll h).filterMap _).mem_iff

theorem mem_conjuncts_perm (h : fs.Perm gs) {f : Filter} :
    f ∈ Filter.conjunctsAll fs ++ d.demands ↔ f ∈ Filter.conjunctsAll gs ++ d.demands :=
  ((perm_conjunctsAll h).append_right d.demands).mem_iff

theorem Filter.Agree.perm (ha : Filter.Agree build probe fs) (h : fs.Perm gs) :
    Filter.Agree build probe gs := by
  intro pair key other hk ho
  exact ha pair key other ((mem_statedAll_perm h).mpr hk) ((mem_statedAll_perm h).mpr ho)

theorem JoinDescriptor.Clear.perm (hc : d.Clear build probe fs) (h : fs.Perm gs) :
    d.Clear build probe gs := by
  intro pair key other hk ho apart left op right known hm
  exact hc pair key other ((mem_statedAll_perm h).mpr hk) ((mem_statedAll_perm h).mpr ho) apart
    left op right known ((mem_conjuncts_perm h).mpr hm)

theorem conjuncts_condition (fs : List Filter) :
    (d.condition (some (.and fs))).conjuncts = Filter.conjunctsAll fs ++ d.demands := by
  have demands : ∀ paths : List (String × String), Filter.conjunctsAll
      (paths.map fun p => Filter.path p.1 ⟨.eq, .any⟩ p.2) =
        paths.map fun p => Filter.path p.1 ⟨.eq, .any⟩ p.2 := by
    intro paths
    induction paths with
    | nil => rfl
    | cons p paths ih =>
      show Filter.path _ _ _ :: Filter.conjunctsAll _ = _
      rw [ih]
      rfl
  show Filter.conjunctsAll fs ++ Filter.conjunctsAll d.demands = _
  rw [JoinDescriptor.demands, demands]

/-- The first key among those that the conjuncts state, or else among those of the equations. -/
theorem get?_keys_condition (fs : List Filter) (pair : KeyPair) :
    ((d.condition (some (.and fs))).keys build probe).get? pair =
      (Dictionary.find? pair (Filter.statedAll build probe fs)).or
        (Dictionary.find? pair (d.demands.filterMap (Filter.key? build probe))) := by
  unfold Filter.keys
  rw [get?_takeKeys_eq, Filter.stated, conjuncts_condition, List.filterMap_append,
    Dictionary.find?_append]
  rfl

/-- Two orders of some conjuncts give a pair the same key, or each gives it one of several keys
that the conjuncts state. -/
theorem get?_keys_perm (h : fs.Perm gs) (pair : KeyPair) :
    ((d.condition (some (.and fs))).keys build probe).get? pair =
        ((d.condition (some (.and gs))).keys build probe).get? pair ∨
      ∃ key other, key ≠ other ∧
        (pair, key) ∈ Filter.statedAll build probe fs ∧
        (pair, other) ∈ Filter.statedAll build probe fs ∧
        ((d.condition (some (.and fs))).keys build probe).get? pair = some key ∧
        ((d.condition (some (.and gs))).keys build probe).get? pair = some other := by
  rw [get?_keys_condition, get?_keys_condition]
  cases hf : Dictionary.find? pair (Filter.statedAll build probe fs) with
  | none =>
    have absent : Dictionary.find? pair (Filter.statedAll build probe gs) = none := by
      rw [Dictionary.find?_eq_none_iff] at hf ⊢
      intro entry he
      exact hf entry ((mem_statedAll_perm h).mpr he)
    rw [absent]
    exact .inl rfl
  | some key =>
    have stated := Dictionary.mem_of_find? hf
    cases hg : Dictionary.find? pair (Filter.statedAll build probe gs) with
    | none =>
      have restated := (mem_statedAll_perm h).mp stated
      exact absurd rfl (Dictionary.find?_eq_none_iff.mp hg _ restated)
    | some other =>
      have restated := (mem_statedAll_perm h).mpr (Dictionary.mem_of_find? hg)
      by_cases same : key = other
      · exact .inl (congrArg some same)
      · exact .inr ⟨key, other, same, stated, restated, rfl, rfl⟩

theorem ascending_keys (condition : Filter) : (condition.keys build probe).Ascending :=
  ascending_takeKeys condition .empty List.Pairwise.nil

/-- Permuted conjuncts equate the same pairs. -/
theorem equalities_perm (h : fs.Perm gs) (ha : Filter.Agree build probe fs) :
    ((d.condition (some (.and fs))).keys build probe).equalities =
      ((d.condition (some (.and gs))).keys build probe).equalities := by
  apply equalities_ext (ascending_keys _) (ascending_keys _)
  intro pair
  rw [mem_equalities_iff (ascending_keys _), mem_equalities_iff (ascending_keys _)]
  rcases get?_keys_perm h pair with same | ⟨key, other, -, hk, ho, hf, hg⟩
  · rw [same]
  · have agree := ha pair key other hk ho
    rw [hf, hg]
    simp [agree]

/-- What remains of permuted conjuncts can be compiled in either order. -/
theorem compiles_withoutKeys_perm (h : fs.Perm gs) (hc : d.Clear build probe fs)
    (hf : ((d.condition (some (.and fs))).withoutKeys build probe).Compiles c
      (build.merge probe)) :
    ((d.condition (some (.and gs))).withoutKeys build probe).Compiles c (build.merge probe) := by
  have each := (compiles_takeKeys_iff (d.condition (some (.and fs))) .empty
    fun _ _ h => h).mp hf
  refine (compiles_takeKeys_iff (d.condition (some (.and gs))) .empty fun _ _ h => h).mpr ?_
  rw [conjuncts_condition] at each ⊢
  intro g hg
  have member := (mem_conjuncts_perm h).mpr hg
  rcases each g member with ⟨pair, key, hk, known⟩ | compiles
  · rcases get?_keys_perm h pair with same | ⟨first, other, apart, hf, ho, -, -⟩
    · exact .inl ⟨pair, key, hk, same ▸ known⟩
    · -- the conjuncts state several keys of this pair, and `g` may have lost to another one
      cases g with
      | path left op right =>
        have unique := hc pair first other hf ho apart left op right key member hk
        exact .inr (Filter.compiles_path_iff.mpr unique)
      | value p op v | key op n | expr l op r | member p op vs | bool b | and fs | or fs | not f =>
        cases hk
  · exact .inr compiles

/-- An algorithm asks for nothing but the equated pairs. -/
theorem choose_congr {keys more : JoinKeys} (h : keys.equalities = more.equalities)
    (algorithm : JoinAlgorithm) :
    JoinStrategy.choose algorithm keys = JoinStrategy.choose algorithm more := by
  unfold JoinStrategy.choose
  rw [h]

theorem joinOutputs_congr {keys more : JoinKeys} (h : keys.equalities = more.equalities) :
    joinOutputs build probe d keys = joinOutputs build probe d more := by
  have shared : sharedNames build probe keys = sharedNames build probe more := by
    unfold sharedNames
    rw [h]
  unfold joinOutputs
  rw [shared]

theorem exists_compileJoin_perm (h : fs.Perm gs) (hc : d.Clear build probe fs)
    (ha : d.options.algorithm = .nestedLoop ∨ Filter.Agree build probe fs)
    {pool other : LiteralPool}
    (hp : ∃ plan, (compileJoin c build probe d (some (.and fs))).result pool = .ok plan) :
    ∃ plan, (compileJoin c build probe d (some (.and gs))).result other = .ok plan := by
  rw [exists_compileJoin_iff] at hp ⊢
  obtain ⟨valid, equations, compiles, strategy, chosen⟩ := hp
  refine ⟨valid, equations, compiles_withoutKeys_perm h hc compiles, ?_⟩
  rcases ha with nested | agree
  · rw [nested]
    exact ⟨.nestedLoop, rfl⟩
  · rw [← choose_congr (equalities_perm h agree)]
    exact ⟨strategy, chosen⟩

end

/-- **The conjuncts of a join may be permuted.**  If the paths of competing comparisons are clear,
and for a hash join competing comparisons agree on whether they equate, a join can be planned in one
order iff it can in the other.  If competing comparisons agree, the plans of both orders emit the
same columns and equate the same pairs. -/
theorem compileJoin_perm (c : Setting) (build probe : Schema) (d : JoinDescriptor)
    {fs gs : List Filter} (h : fs.Perm gs) (pool other : LiteralPool) :
    (d.Clear build probe fs →
      d.options.algorithm = .nestedLoop ∨ Filter.Agree build probe fs →
        ((∃ plan, (compileJoin c build probe d (some (.and fs))).result pool = .ok plan) ↔
          ∃ plan, (compileJoin c build probe d (some (.and gs))).result other = .ok plan)) ∧
    (Filter.Agree build probe fs →
      ∀ plan plan', (compileJoin c build probe d (some (.and fs))).result pool = .ok plan →
        (compileJoin c build probe d (some (.and gs))).result other = .ok plan' →
          plan.outputs = plan'.outputs ∧ plan.keys.equalities = plan'.keys.equalities) := by
  constructor
  · intro clear agree
    refine ⟨exists_compileJoin_perm h clear agree, ?_⟩
    exact exists_compileJoin_perm h.symm (clear.perm h) (agree.imp_right fun ha => ha.perm h)
  · intro agree plan plan' hp hp'
    obtain ⟨keys, outputs⟩ := keys_of_compileJoin hp
    obtain ⟨keys', outputs'⟩ := keys_of_compileJoin hp'
    have same : plan.keys.equalities = plan'.keys.equalities := by
      rw [keys, keys']
      exact equalities_perm h agree
    refine ⟨?_, same⟩
    rw [outputs, outputs', joinOutputs_congr same]

/-! ### competing comparisons -/

namespace Sample

/-- sides without declared columns -/
def undeclared (algorithm : JoinAlgorithm) : JoinDescriptor :=
  ⟨⟨.inner, algorithm, false, none⟩, some "a", some "b", [], []⟩

def equal : Filter := .path "a.id" ⟨.eq, .any⟩ "b.id"

/-- the same equation with its sides exchanged -/
def swapped : Filter := .path "b.id" ⟨.eq, .any⟩ "a.id"

def less : Filter := .path "a.id" ⟨.lt, .any⟩ "b.id"

/-- A comparison of the two numbers means one column on either side. -/
theorem compiles_id {f : Filter} (h : f ∈ [equal, swapped, less]) :
    f.Compiles setting (build.merge probe) := by
  have left : (build.merge probe).columns "a.id" = [0] := by decide
  have right : (build.merge probe).columns "b.id" = [2] := by decide
  rcases List.mem_cons.mp h with rfl | h
  · exact Filter.compiles_path_iff.mpr ⟨⟨0, left⟩, 2, right⟩
  · rcases List.mem_pair.mp h with rfl | rfl
    · exact Filter.compiles_path_iff.mpr ⟨⟨2, right⟩, 0, left⟩
    · exact Filter.compiles_path_iff.mpr ⟨⟨0, left⟩, 2, right⟩

theorem exists_plan (fs : List Filter)
    (h : ∀ f ∈ Filter.conjunctsAll fs, f ∈ [equal, swapped, less])
    (he : (((undeclared .hash).condition (some (.and fs))).keys build probe).equalities =
      [⟨0, 0⟩]) :
    ∃ plan, (compileJoin setting build probe (undeclared .hash) (some (.and fs))).result .empty =
      .ok plan := by
  rw [exists_compileJoin_iff]
  refine ⟨rfl, ⟨[], rfl⟩, ?_, ?_⟩
  · refine (compiles_takeKeys_iff _ .empty fun _ _ h => h).mpr ?_
    rw [conjuncts_condition]
    intro f hf
    exact .inr (compiles_id (h f ((List.append_nil _).subst hf)))
  · unfold JoinStrategy.choose
    rw [he]
    exact ⟨_, rfl⟩

end Sample

/-- Two equations of one pair compete, and either may come first. -/
theorem compileJoin_perm_swapped :
    ∃ plan plan', (compileJoin Sample.setting Sample.build Sample.probe (Sample.undeclared .hash)
        (some (.and [Sample.equal, Sample.swapped]))).result .empty = .ok plan ∧
      (compileJoin Sample.setting Sample.build Sample.probe (Sample.undeclared .hash)
        (some (.and [Sample.swapped, Sample.equal]))).result .empty = .ok plan' ∧
      plan.outputs = plan'.outputs ∧ plan.keys.equalities = plan'.keys.equalities := by
  have stated : Filter.statedAll Sample.build Sample.probe [Sample.equal, Sample.swapped] =
      [(⟨0, 0⟩, ⟨⟨.eq, .any⟩, false⟩), (⟨0, 0⟩, ⟨⟨.eq, .any⟩, true⟩)] := rfl
  have agree : Filter.Agree Sample.build Sample.probe [Sample.equal, Sample.swapped] := by
    intro pair key other hk ho
    rw [stated] at hk ho
    rcases List.mem_pair.mp hk with hk | hk <;> rcases List.mem_pair.mp ho with ho | ho <;>
      cases hk <;> cases ho <;> rfl
  have known : ∀ f ∈ [Sample.equal, Sample.swapped],
      f ∈ [Sample.equal, Sample.swapped, Sample.less] := by
    intro f hf
    exact List.mem_append_left [Sample.less] hf
  have clear : (Sample.undeclared .hash).Clear Sample.build Sample.probe
      [Sample.equal, Sample.swapped] := by
    intro pair key other _ _ _ left op right _ hm _
    have compiles := Sample.compiles_id (known _ hm)
    exact Filter.compiles_path_iff.mp compiles
  obtain ⟨planned, same⟩ := compileJoin_perm Sample.setting Sample.build Sample.probe
    (Sample.undeclared .hash) (.swap Sample.swapped Sample.equal []) .empty .empty
  obtain ⟨plan, hp⟩ := Sample.exists_plan [Sample.equal, Sample.swapped] known rfl
  obtain ⟨plan', hp'⟩ := (planned clear (.inr agree)).mp ⟨plan, hp⟩
  exact ⟨plan, plan', hp, hp', same agree plan plan' hp hp'⟩

/-- Of an equation and another comparison of one pair the first is the key, and a hash join needs
an equation. -/
theorem not_compileJoin_perm_less :
    ∃ fs gs : List Filter, fs.Perm gs ∧
      (∃ plan, (compileJoin Sample.setting Sample.build Sample.probe (Sample.undeclared .hash)
        (some (.and fs))).result .empty = .ok plan) ∧
      ¬ ∃ plan, (compileJoin Sample.setting Sample.build Sample.probe (Sample.undeclared .hash)
        (some (.and gs))).result .empty = .ok plan := by
  refine ⟨[Sample.equal, Sample.less], [Sample.less, Sample.equal], .swap .., ?_, ?_⟩
  · refine Sample.exists_plan [Sample.equal, Sample.less] ?_ rfl
    intro f hf
    rcases List.mem_pair.mp hf with rfl | rfl
    · exact List.mem_cons_self
    · exact List.mem_append_right [Sample.equal, Sample.swapped] (List.mem_singleton_self _)
  · rw [exists_compileJoin_iff]
    rintro ⟨-, -, -, strategy, chosen⟩
    have nothing : (((Sample.undeclared .hash).condition
        (some (.and [Sample.less, Sample.equal]))).keys Sample.build Sample.probe).equalities =
        [] := rfl
    unfold JoinStrategy.choose at chosen
    rw [nothing] at chosen
    cases chosen

end ColumnPlan
