import ColumnPlan.Proofs.Join.Plan

/-!
# The equations of a descriptor

An equation of two paths becomes a key, or it remains in the condition.  There each path means one
column of a joined row, and so one of its own side: the equation has a place either way, and where
the matcher holds the two columns of this place are equal.  If one of the paths is ambiguous on
its own side, the place is that of the equation with its sides exchanged.

* `get?_takeKeys`             a key that was taken stays;
* `mem_or_get?_takeAllKeys`   a comparison among some filters remains or is a key;
* `holds_of_mem`              the place of a comparison holds where the matcher does;
* `equal_of_equation`         the columns of the place of an equation are equal;
* `equal_of_matcher`          so are those that a descriptor declares.
-/

namespace ColumnPlan

open Compile

/-! ### keys that were taken -/

section
variable {build probe : Schema}

mutual

/-- A key that was taken stays as it is. -/
theorem get?_takeKeys {pair : KeyPair} {key : EquiKey} : (f : Filter) → (keys : JoinKeys) →
    keys.get? pair = some key → ((takeKeys build probe f).run keys).2.get? pair = some key
  | .and fs, keys, h => by
    rw [takeKeys]
    exact get?_takeAllKeys fs keys h
  | .path left op right, keys, h => by
    cases hp : place? build probe left op right with
    | none =>
      rw [takeKeys, hp]
      exact h
    | some placed =>
      obtain ⟨other, new⟩ := placed
      rw [run_takeKeys_path hp]
      cases hk : keys.get? other with
      | none =>
        -- a pair with a key is not the one that gets its first key here
        have apart : pair ≠ other := by
          rintro rfl
          rw [hk] at h
          cases h
        show (keys.set other new).get? pair = some key
        rw [Dictionary.get?_set, if_neg apart]
        exact h
      | some known => exact h
  | .bool true, _, h | .bool false, _, h | .value _ _ _, _, h | .key _ _, _, h
  | .expr _ _ _, _, h | .member _ _ _, _, h | .or _, _, h | .not _, _, h => h

theorem get?_takeAllKeys {pair : KeyPair} {key : EquiKey} : (fs : List Filter) →
    (keys : JoinKeys) → keys.get? pair = some key →
      ((takeAllKeys build probe fs).run keys).2.get? pair = some key
  | [], _, h => h
  | f :: fs, keys, h =>
    get?_takeAllKeys fs ((takeKeys build probe f).run keys).2 (get?_takeKeys f keys h)

end

theorem run_takeAllKeys_cons (f : Filter) (fs : List Filter) (keys : JoinKeys) :
    (takeAllKeys build probe (f :: fs)).run keys =
      (((takeKeys build probe f).run keys).1 ::
          ((takeAllKeys build probe fs).run ((takeKeys build probe f).run keys).2).1,
        ((takeAllKeys build probe fs).run ((takeKeys build probe f).run keys).2).2) := by
  rw [takeAllKeys]
  rfl

variable {left right : String} {op : CompareOp}

/-- A comparison remains, or its place has it as key. -/
theorem eq_or_get?_takeKeys (keys : JoinKeys) :
    ((takeKeys build probe (.path left op right)).run keys).1 = .path left op right ∨
      ∃ pair key, place? build probe left op right = some (pair, key) ∧
        ((takeKeys build probe (.path left op right)).run keys).2.get? pair = some key := by
  cases hp : place? build probe left op right with
  | none =>
    rw [takeKeys, hp]
    exact .inl rfl
  | some placed =>
    obtain ⟨pair, key⟩ := placed
    rw [run_takeKeys_path hp]
    cases hk : keys.get? pair with
    | none =>
      refine .inr ⟨pair, key, rfl, ?_⟩
      show (keys.set pair key).get? pair = some key
      rw [Dictionary.get?_set, if_pos rfl]
    | some known =>
      by_cases same : known = key
      · exact .inr ⟨pair, key, rfl, same ▸ hk⟩
      · exact .inl (if_neg same)

theorem mem_or_get?_takeAllKeys {fs : List Filter} (h : .path left op right ∈ fs)
    (keys : JoinKeys) :
    .path left op right ∈ ((takeAllKeys build probe fs).run keys).1 ∨
      ∃ pair key, place? build probe left op right = some (pair, key) ∧
        ((takeAllKeys build probe fs).run keys).2.get? pair = some key := by
  induction fs generalizing keys with
  | nil => exact absurd h List.not_mem_nil
  | cons f fs ih =>
    rw [run_takeAllKeys_cons]
    rcases List.mem_cons.mp h with rfl | h
    · rcases eq_or_get?_takeKeys keys with stays | ⟨pair, key, hp, hk⟩
      · rw [stays]
        exact .inl List.mem_cons_self
      · exact .inr ⟨pair, key, hp, get?_takeAllKeys fs _ hk⟩
    · exact (ih h _).imp_left (List.mem_cons_of_mem _)

end

/-! ### equations where the matcher holds -/

section
variable {c : Setting} {build probe : Schema} {d : JoinDescriptor}

/-- The part of a conjunction that remains is a conjunction. -/
theorem withoutKeys_and (fs : List Filter) : (Filter.and fs).withoutKeys build probe =
    .and ((takeAllKeys build probe fs).run .empty).1 := by
  unfold Filter.withoutKeys
  rw [takeKeys]
  rfl

theorem keys_and (fs : List Filter) :
    (Filter.and fs).keys build probe = ((takeAllKeys build probe fs).run .empty).2 := by
  unfold Filter.keys
  rw [takeKeys]
  rfl

/-- Paths that mean something on their own sides have a place, if they can be compared in a
joined row. -/
theorem place?_of_compiles {left right : String} {op : CompareOp}
    (hl : build.columns left ≠ []) (hr : probe.columns right ≠ [])
    (h : (Filter.path left op right).Compiles c (build.merge probe)) :
    ∃ pair key, place? build probe left op right = some (pair, key) := by
  obtain ⟨⟨i, hi⟩, j, hj⟩ := Filter.compiles_path_iff.mp h
  have own := Schema.columns_eq_of_merge_left hl hi
  obtain ⟨r, hr⟩ := Schema.exists_of_merge_right hr hj
  refine ⟨⟨i, r⟩, ⟨op, false⟩, ?_⟩
  unfold place? pair?
  rw [own, hr]
  rfl

/-- What a condition demands of two paths holds at their place where the matcher holds. -/
theorem holds_of_mem {fs : List Filter} {residual : PredicateExpr} {strategy : JoinStrategy}
    (hc : (compileFilter c (build.merge probe)
      ((Filter.and fs).withoutKeys build probe)).outcome = .ok residual)
    {left right : String} {op : CompareOp} (hf : .path left op right ∈ fs)
    (hl : build.columns left ≠ []) (hr : probe.columns right ≠ []) {row : Row}
    (h : (d.plan build probe ((Filter.and fs).keys build probe) residual strategy).matcher.Holds
      row) :
    ∃ pair key, place? build probe left op right = some (pair, key) ∧
      (JoinKeys.comparison build.size pair key).Holds row := by
  obtain ⟨hold, rest⟩ := (holds_matcher_iff row).mp h
  rw [holds_of_compileFilter c _ row hc, withoutKeys_and, meaningIn_and_eq_true_iff] at rest
  have compiles : (Filter.and _).Compiles c (build.merge probe) :=
    ⟨residual, withoutKeys_and fs ▸ hc⟩
  rw [Filter.compiles_and_iff] at compiles
  rw [keys_and] at hold
  rcases mem_or_get?_takeAllKeys hf .empty with stays | ⟨pair, key, hp, hk⟩
  · obtain ⟨pair, key, hp⟩ := place?_of_compiles hl hr (compiles _ stays)
    exact ⟨pair, key, hp, (holds_place c row hp (compiles _ stays)).mpr (rest _ stays)⟩
  · exact ⟨pair, key, hp, hold (pair, key) (Dictionary.mem_of_get? hk)⟩

/-- An equation is demanded of paths that mean something on their own sides. -/
theorem eq_path_of_equation {paths : String × String} {f : Filter}
    (h : equation build probe paths = .ok f) :
    build.columns paths.1 ≠ [] ∧ probe.columns paths.2 ≠ [] ∧
      f = .path paths.1 ⟨.eq, .any⟩ paths.2 := by
  unfold equation at h
  split at h
  · cases h
  · next hl =>
    split at h
    · cases h
    · next hr =>
      cases h
      exact ⟨fun none => hl (List.isEmpty_iff.mpr none), fun none => hr (List.isEmpty_iff.mpr none),
        rfl⟩

/-- The equations of a descriptor are among the conjuncts of its condition. -/
theorem mem_of_joinCondition {filter : Option Filter} {condition : Filter}
    (h : joinCondition build probe d filter = .ok condition) :
    ∃ fs, condition = .and fs ∧ ∀ paths ∈ d.equations, build.columns paths.1 ≠ [] ∧
      probe.columns paths.2 ≠ [] ∧ .path paths.1 ⟨.eq, .any⟩ paths.2 ∈ fs := by
  obtain ⟨equations, he, h⟩ := bind_eq_ok_iff.mp h
  cases h
  refine ⟨_, rfl, fun paths hp => ?_⟩
  obtain ⟨f, hm, hf⟩ := exists_mem_of_mapM he hp
  obtain ⟨hl, hr, rfl⟩ := eq_path_of_equation hf
  exact ⟨hl, hr, List.mem_append_right _ hm⟩

variable {filter : Option Filter} {pool : LiteralPool} {plan : JoinPlan}

/-- The parts of a plan, with the conjuncts of its condition. -/
theorem exists_of_compileJoin (h : (compileJoin c build probe d filter).result pool = .ok plan) :
    ∃ fs residual strategy,
      (∀ paths ∈ d.equations, build.columns paths.1 ≠ [] ∧ probe.columns paths.2 ≠ [] ∧
        .path paths.1 ⟨.eq, .any⟩ paths.2 ∈ fs) ∧
      (compileFilter c (build.merge probe)
        ((Filter.and fs).withoutKeys build probe)).outcome = .ok residual ∧
      plan = d.plan build probe ((Filter.and fs).keys build probe) residual strategy := by
  rw [(blind_compileJoin c build probe d filter).result_eq, outcome_compileJoin] at h
  obtain ⟨-, condition, hc, h⟩ := h
  obtain ⟨residual, strategy, hr, -, rfl⟩ := (outcome_compileCondition c build probe d _ _).mp h
  obtain ⟨fs, rfl, equations⟩ := mem_of_joinCondition hc
  exact ⟨fs, residual, strategy, equations, hr, rfl⟩

/-- The pair of a place is that of the paths as they stand, if there is one. -/
theorem or_eq_of_place {left right : String} {op : CompareOp} {pair : KeyPair} {key : EquiKey}
    (h : place? build probe left op right = some (pair, key)) :
    (pair? build probe left right).or (pair? build probe right left) = some pair ∧
      key.op = op := by
  unfold place? at h
  cases hp : pair? build probe left right with
  | some placed =>
    rw [hp] at h
    cases h
    exact ⟨rfl, rfl⟩
  | none =>
    rw [hp, Option.map_none, Option.none_or] at h
    obtain ⟨placed, hr, he⟩ := Option.map_eq_some_iff.mp h
    cases he
    exact ⟨hr, rfl⟩

theorem equal_of_equation (h : (compileJoin c build probe d filter).result pool = .ok plan)
    {paths : String × String} (hp : paths ∈ d.equations) {b p : Row} (hb : b.length = build.size)
    (hm : plan.matcher.eval (b ++ p) = .ok true) :
    ∃ pair, (pair? build probe paths.1 paths.2).or (pair? build probe paths.2 paths.1) =
        some pair ∧ Datum.Equal (b.value? pair.build) (p.value? pair.probe) := by
  obtain ⟨fs, residual, strategy, equations, hc, rfl⟩ := exists_of_compileJoin h
  obtain ⟨hl, hr, hf⟩ := equations paths hp
  have holds := (PredicateExpr.holds_iff_of_eval _ _ hm).mpr rfl
  obtain ⟨pair, key, place, hold⟩ := holds_of_mem hc hf hl hr holds
  obtain ⟨found, op⟩ := or_eq_of_place place
  have equates : key.op.isEquality = true := op ▸ rfl
  rw [← hb] at hold
  exact ⟨pair, found, equal_of_comparison equates (hb ▸ (lt_size_of_place place).1) hold⟩

end

/-- **Rows that match have equal cells in the columns that a descriptor equates.**  Shared paths
are equated as they stand.  So is a declared column, if each of its two paths means one column of
its own side; otherwise the build column of the second path equals the probe column of the first
one. -/
theorem equal_of_matcher (c : Setting) (build probe : Schema) (d : JoinDescriptor)
    (filter : Option Filter) (pool : LiteralPool) {plan : JoinPlan}
    (h : (compileJoin c build probe d filter).result pool = .ok plan) {b p : Row}
    (hb : b.length = build.size) (hm : plan.matcher.eval (b ++ p) = .ok true) :
    (∀ path ∈ d.sharedPaths, ∃ l ∈ build.columns path, ∃ r ∈ probe.columns path,
      Datum.Equal (b.value? l) (p.value? r)) ∧
    ∀ column ∈ d.columns,
      let left := qualify d.buildPrefix column
      let right := qualify d.probePrefix column
      (∃ l ∈ build.columns left, ∃ r ∈ probe.columns right,
        Datum.Equal (b.value? l) (p.value? r)) ∨
      (pair? build probe left right = none ∧ ∃ l ∈ build.columns right, ∃ r ∈ probe.columns left,
        Datum.Equal (b.value? l) (p.value? r)) := by
  have columns : ∀ {left right : String} {pair : KeyPair},
      pair? build probe left right = some pair →
        Datum.Equal (b.value? pair.build) (p.value? pair.probe) →
          ∃ l ∈ build.columns left, ∃ r ∈ probe.columns right,
            Datum.Equal (b.value? l) (p.value? r) := by
    intro left right pair hp equal
    obtain ⟨hl, hr⟩ := pair?_eq_some hp
    exact ⟨pair.build, hl ▸ List.mem_singleton_self _, pair.probe,
      hr ▸ List.mem_singleton_self _, equal⟩
  constructor
  · intro path hp
    have declared : (path, path) ∈ d.equations :=
      List.mem_append_left _ (List.mem_map_of_mem hp)
    obtain ⟨pair, found, equal⟩ := equal_of_equation h declared hb hm
    rw [Option.or_self] at found
    exact columns found equal
  · intro column hc
    dsimp only
    have declared : (qualify d.buildPrefix column, qualify d.probePrefix column) ∈ d.equations :=
      List.mem_append_right _ (List.mem_map_of_mem hc)
    obtain ⟨pair, found, equal⟩ := equal_of_equation h declared hb hm
    rcases Option.or_eq_some_iff.mp found with forward | ⟨none, reverse⟩
    · exact .inl (columns forward equal)
    · exact .inr ⟨none, columns reverse equal⟩

/-! ### a repeated name -/

namespace Sample

/-- the equation of the sample descriptor -/
def equated : Filter := .and [.path "a.id" ⟨.eq, .any⟩ "b.id"]

/-- a side with a repeated name and a name of the other side -/
def repeated : Schema :=
  ⟨[⟨"a.id", .int64, true, none⟩, ⟨"a.id", .int64, true, none⟩, ⟨"b.id", .int64, true, none⟩]⟩

/-- a side with a name of each side -/
def mixed : Schema := ⟨[⟨"a.id", .int64, true, none⟩, ⟨"b.id", .int64, true, none⟩]⟩

/-- the plan of two sides with one key and nothing else to check -/
def keyPlan (build probe : Schema) (d : JoinDescriptor) (condition : Filter) : JoinPlan :=
  d.plan build probe (condition.keys build probe) .always .nestedLoop

theorem result_compileJoin_keyPlan {build probe : Schema} {d : JoinDescriptor}
    {condition : Filter} (hv : d.options.validate = .ok ())
    (ha : d.options.algorithm = .nestedLoop)
    (hc : joinCondition build probe d none = .ok condition)
    (hr : condition.withoutKeys build probe = .and [.and []]) :
    (compileJoin setting build probe d none).result .empty =
      .ok (keyPlan build probe d condition) := by
  have nothing : (compileFilter setting (build.merge probe) (.and [.and []])).outcome =
      .ok .always := by
    rw [compileFilter]
    show (compileNormal _ _ (.and [.and []])).outcome = _
    rw [compileNormal, compileNormals, compileNormal, compileNormals]
    rfl
  rw [(blind_compileJoin _ _ _ _ _).result_eq, outcome_compileJoin]
  refine ⟨hv, condition, hc, ?_⟩
  rw [outcome_compileCondition, hr, ha]
  exact ⟨.always, .nestedLoop, nothing, rfl, rfl⟩

/-- the plan of the sample descriptor without a filter -/
def equatedPlan (type : JoinType) : JoinPlan :=
  keyPlan build probe (descriptor type .nestedLoop) equated

theorem result_compileJoin_equated (type : JoinType) :
    (compileJoin setting build probe (descriptor type .nestedLoop) none).result .empty =
      .ok (equatedPlan type) := by
  have valid : (descriptor type .nestedLoop).options.validate = .ok () := by
    cases type <;> rfl
  have joined : joinCondition build probe (descriptor .inner .nestedLoop) none = .ok equated := rfl
  exact result_compileJoin_keyPlan valid rfl joined rfl

end Sample

/-- A row of each side that match on the declared column. -/
theorem equal_of_matcher_declared :
    ∃ plan, (compileJoin Sample.setting Sample.build Sample.probe
        (Sample.descriptor .inner .nestedLoop) none).result .empty = .ok plan ∧
      plan.matcher.eval ([some (.integer 1), some (.long 5)] ++ [some (.long 1)]) = .ok true ∧
      ∃ l ∈ Sample.build.columns "a.id", ∃ r ∈ Sample.probe.columns "b.id",
        Datum.Equal (Row.value? [some (.integer 1), some (.long 5)] l)
          (Row.value? [some (.long 1)] r) := by
  have planned := Sample.result_compileJoin_equated .inner
  have matched : (Sample.equatedPlan .inner).matcher.eval
      ([some (.integer 1), some (.long 5)] ++ [some (.long 1)]) = .ok true := rfl
  obtain ⟨-, declared⟩ := equal_of_matcher _ _ _ _ _ _ planned rfl matched
  have unique : pair? Sample.build Sample.probe "a.id" "b.id" ≠ none := by decide
  refine ⟨_, planned, matched, ?_⟩
  exact (declared "id" List.mem_cons_self).resolve_right fun reverse => unique reverse.1

/-- Where a name is repeated on the build side, its declared equation holds of no pair of columns
of its paths. -/
theorem not_equal_of_matcher_repeated :
    ∃ plan, (compileJoin Sample.setting Sample.repeated Sample.mixed
        (Sample.descriptor .inner .nestedLoop) none).result .empty = .ok plan ∧
      plan.matcher.eval ([some (.long 1), some (.long 2), some (.long 5)] ++
        [some (.long 5), some (.long 9)]) = .ok true ∧
      ∀ l ∈ Sample.repeated.columns "a.id", ∀ r ∈ Sample.mixed.columns "b.id",
        ¬ Datum.Equal (Row.value? [some (.long 1), some (.long 2), some (.long 5)] l)
          (Row.value? [some (.long 5), some (.long 9)] r) := by
  have planned : (compileJoin Sample.setting Sample.repeated Sample.mixed
      (Sample.descriptor .inner .nestedLoop) none).result .empty =
      .ok (Sample.keyPlan Sample.repeated Sample.mixed (Sample.descriptor .inner .nestedLoop)
        Sample.equated) := Sample.result_compileJoin_keyPlan rfl rfl rfl rfl
  exact ⟨_, planned, rfl, by decide⟩

end ColumnPlan
