import ColumnPlan.Proofs.Join.Equations
import Mathlib.Data.List.Count
import Mathlib.Data.List.Nodup

/-!
# The columns that a plan shows

A plan shows each column that is not a key once, unless its name is skipped.  A name is skipped on
account of an equated pair of columns, and the other column of the pair shows what the skipped one
holds, if it is not skipped itself.

* `JoinPlan.shown`              the columns of joined rows that a plan shows;
* `JoinPlan.Equates`            two columns are equal in rows that match;
* `count_shown_build`           a build column is shown once, or it is skipped;
* `count_shown_probe`           so is a probe column;
* `equates_of_mem_equalities`   an equated pair is equal in rows that match;
* `JoinDescriptor.Apart`        what keeps the columns of a pair from being skipped both;
* `count_shown`                 no column is lost then.
-/

namespace ColumnPlan

/-- the column that an expression is, if it is one -/
def ScalarExpr.column? : ScalarExpr → Option Nat
  | .field i _ => some i
  | _ => none

namespace JoinPlan

/-- The columns of joined rows that a plan shows, in order. -/
def shown (plan : JoinPlan) : List Nat := plan.outputs.filterMap ScalarExpr.column?

/-- A build column and a probe column that are equal in rows that match. -/
def Equates (plan : JoinPlan) (l r : Nat) : Prop :=
  ∀ b p : Row, b.length = plan.buildWidth → plan.matcher.eval (b ++ p) = .ok true →
    Datum.Equal (b.value? l) (p.value? r)

end JoinPlan

/-! ### one side -/

section
variable {offset : Nat} {s : Schema} {pre : Option String} {emitKey : Bool} {skip : String → Bool}

/-- what a side emits of one of its fields -/
def sideOutput (offset : Nat) (pre : Option String) (emitKey : Bool) (skip : String → Bool)
    (f : Field) (i : Nat) : Option ScalarExpr :=
  if f.isKey then
    match pre with
    | some p => if emitKey then some (.field (offset + i) (qualify (some p) f.name)) else none
    | none => none
  else if skip f.name then none
  else some (.field (offset + i) none)

/-- whether it emits the field -/
def sideEmits (pre : Option String) (emitKey : Bool) (skip : String → Bool) (f : Field) : Bool :=
  if f.isKey then pre.isSome && emitKey else !skip f.name

theorem column?_sideOutput (f : Field) (i : Nat) :
    (sideOutput offset pre emitKey skip f i).bind ScalarExpr.column? =
      if sideEmits pre emitKey skip f then some (offset + i) else none := by
  unfold sideOutput sideEmits
  cases f.isKey with
  | true =>
    cases pre with
    | none => rfl
    | some p => cases emitKey <;> rfl
  | false => cases skip f.name <;> rfl

theorem columns_sideOutputs :
    (sideOutputs offset s pre emitKey skip).filterMap ScalarExpr.column? =
      (s.indicesWhere (sideEmits pre emitKey skip)).map (offset + ·) := by
  have outputs : sideOutputs offset s pre emitKey skip = s.fields.zipIdx.filterMap fun fi =>
      sideOutput offset pre emitKey skip fi.1 fi.2 := rfl
  unfold Schema.indicesWhere
  rw [outputs, List.filterMap_filterMap, List.map_map]
  induction s.fields.zipIdx with
  | nil => rfl
  | cons fi rest ih =>
    obtain ⟨f, i⟩ := fi
    rw [List.filterMap_cons, List.filter_cons, column?_sideOutput, ih]
    dsimp only
    by_cases emitted : sideEmits pre emitKey skip f = true
    · rw [if_pos emitted, if_pos emitted]
      rfl
    · rw [if_neg emitted, if_neg emitted]

theorem bounds_of_mem_sideOutputs {n : Nat}
    (h : n ∈ (sideOutputs offset s pre emitKey skip).filterMap ScalarExpr.column?) :
    offset ≤ n ∧ n < offset + s.size := by
  rw [columns_sideOutputs] at h
  obtain ⟨i, hi, rfl⟩ := List.mem_map.mp h
  obtain ⟨f, hf, -⟩ := Schema.mem_indicesWhere.mp hi
  have bound : i < s.size := (List.getElem?_eq_some_iff.mp hf).1
  omega

/-- A column that is not a key is emitted once, or its name is skipped. -/
theorem count_sideOutputs {i : Nat} {f : Field} (hf : s.fields[i]? = some f)
    (hk : f.isKey = false) :
    ((sideOutputs offset s pre emitKey skip).filterMap ScalarExpr.column?).count (offset + i) =
      if skip f.name then 0 else 1 := by
  have injective : Function.Injective (offset + ·) := fun _ _ h => Nat.add_left_cancel h
  have emits : sideEmits pre emitKey skip f = !skip f.name := by
    unfold sideEmits
    rw [hk]
    rfl
  rw [columns_sideOutputs, List.count_map_of_injective _ _ injective]
  split
  · next skipped =>
    refine List.count_eq_zero_of_not_mem fun hi => ?_
    obtain ⟨g, hg, hs⟩ := Schema.mem_indicesWhere.mp hi
    cases hf.symm.trans hg
    rw [emits, skipped] at hs
    cases hs
  · next kept =>
    have shown : i ∈ s.indicesWhere (sideEmits pre emitKey skip) := by
      refine Schema.mem_indicesWhere.mpr ⟨f, hf, ?_⟩
      rw [emits, Bool.eq_false_iff.mpr kept]
      rfl
    exact List.count_eq_one_of_mem (Schema.nodup_indicesWhere s _) shown

end

/-! ### both sides -/

namespace JoinDescriptor
variable (build probe : Schema) (d : JoinDescriptor) (keys : JoinKeys)

/-- Of an equated pair the build column is kept. -/
def keepsBuild : Bool :=
  d.options.type.emitsBuildData && d.options.type.emitsBuildUnmatched &&
    !d.options.type.emitsProbeUnmatched

/-- The build columns of a name are left out. -/
def skipsBuild (name : String) : Bool :=
  (sharedNames build probe keys).contains name ||
    (!d.keepsBuild && (d.columns.map (qualify d.buildPrefix)).contains name)

/-- The probe columns of a name are left out. -/
def skipsProbe (name : String) : Bool :=
  d.keepsBuild && (d.columns.map (qualify d.probePrefix)).contains name

theorem keepsBuild_eq_true_iff : d.keepsBuild = true ↔ d.options.type = .left := by
  unfold keepsBuild
  cases d.options.type <;> decide

theorem skipsBuild_eq_true_iff (name : String) : d.skipsBuild build probe keys name = true ↔
    name ∈ sharedNames build probe keys ∨
      (d.options.type ≠ .left ∧ ∃ column ∈ d.columns, qualify d.buildPrefix column = name) := by
  unfold skipsBuild
  rw [Bool.or_eq_true, Bool.and_eq_true, List.contains_iff_mem, List.contains_iff_mem,
    List.mem_map, Bool.not_eq_true', ← Bool.not_eq_true, keepsBuild_eq_true_iff]

theorem skipsProbe_eq_true_iff (name : String) : d.skipsProbe name = true ↔
    d.options.type = .left ∧ ∃ column ∈ d.columns, qualify d.probePrefix column = name := by
  unfold skipsProbe
  rw [Bool.and_eq_true, List.contains_iff_mem, List.mem_map, keepsBuild_eq_true_iff]

end JoinDescriptor

section
variable {build probe : Schema} {d : JoinDescriptor} {keys : JoinKeys}
  {residual : PredicateExpr} {strategy : JoinStrategy}

theorem shown_plan (hm : d.options.type.isMark = false) :
    (d.plan build probe keys residual strategy).shown =
      (leadingKey build probe d.options).filterMap ScalarExpr.column? ++
        (sideOutputs 0 build d.buildPrefix d.options.emitBuildSideKey
          (d.skipsBuild build probe keys)).filterMap ScalarExpr.column? ++
        (sideOutputs build.size probe d.probePrefix d.options.emitBuildSideKey
          d.skipsProbe).filterMap ScalarExpr.column? := by
  have data : d.options.type.emitsBuildData = true := by
    unfold JoinType.emitsBuildData
    rw [hm]
    rfl
  unfold JoinPlan.shown JoinDescriptor.plan joinOutputs markOutput
  dsimp only
  rw [if_pos data, hm, if_neg Bool.false_ne_true, List.append_nil, List.filterMap_append,
    List.filterMap_append]
  rfl

/-- In front comes a key of the probe side. -/
theorem isKey_of_mem_leadingKey {n : Nat} {o : JoinOptions}
    (h : n ∈ (leadingKey build probe o).filterMap ScalarExpr.column?) :
    ∃ i f, n = build.size + i ∧ probe.fields[i]? = some f ∧ f.isKey = true := by
  unfold leadingKey at h
  split at h
  · exact absurd h List.not_mem_nil
  · cases hi : probe.keyIndex? with
    | none =>
      rw [hi] at h
      exact absurd h List.not_mem_nil
    | some i =>
      rw [hi] at h
      have only : probe.keyIndices = [i] := by
        unfold Schema.keyIndex? at hi
        split at hi
        · next j hj =>
          cases hi
          exact hj
        · cases hi
      have mem : i ∈ probe.keyIndices := only ▸ List.mem_singleton_self i
      obtain ⟨f, hf, hk⟩ := Schema.mem_indicesWhere.mp mem
      exact ⟨i, f, List.mem_singleton.mp h, hf, hk⟩

theorem count_shown_build (hm : d.options.type.isMark = false) {l : Nat} {f : Field}
    (hf : build.fields[l]? = some f) (hk : f.isKey = false) :
    (d.plan build probe keys residual strategy).shown.count l =
      if d.skipsBuild build probe keys f.name then 0 else 1 := by
  have bound : l < build.size := (List.getElem?_eq_some_iff.mp hf).1
  have front : l ∉ (leadingKey build probe d.options).filterMap ScalarExpr.column? := by
    intro h
    obtain ⟨i, -, rfl, -⟩ := isKey_of_mem_leadingKey h
    omega
  have other : l ∉ (sideOutputs build.size probe d.probePrefix d.options.emitBuildSideKey
      d.skipsProbe).filterMap ScalarExpr.column? := by
    intro h
    have := (bounds_of_mem_sideOutputs h).1
    omega
  rw [shown_plan hm, List.count_append, List.count_append, List.count_eq_zero_of_not_mem front,
    List.count_eq_zero_of_not_mem other, Nat.zero_add, Nat.add_zero]
  nth_rewrite 1 [← Nat.zero_add l]
  exact count_sideOutputs hf hk

theorem count_shown_probe (hm : d.options.type.isMark = false) {r : Nat} {f : Field}
    (hf : probe.fields[r]? = some f) (hk : f.isKey = false) :
    (d.plan build probe keys residual strategy).shown.count (build.size + r) =
      if d.skipsProbe f.name then 0 else 1 := by
  have front : build.size + r ∉ (leadingKey build probe d.options).filterMap
      ScalarExpr.column? := by
    intro h
    obtain ⟨i, g, hi, hg, key⟩ := isKey_of_mem_leadingKey h
    cases Nat.add_left_cancel hi
    cases hf.symm.trans hg
    rw [hk] at key
    cases key
  have other : build.size + r ∉ (sideOutputs 0 build d.buildPrefix d.options.emitBuildSideKey
      (d.skipsBuild build probe keys)).filterMap ScalarExpr.column? := by
    intro h
    have := (bounds_of_mem_sideOutputs h).2
    omega
  rw [shown_plan hm, List.count_append, List.count_append, List.count_eq_zero_of_not_mem front,
    List.count_eq_zero_of_not_mem other, Nat.zero_add]
  exact count_sideOutputs hf hk

/-! ### pairs of columns -/

theorem mem_sharedNames {name : String} :
    name ∈ sharedNames build probe keys ↔ ∃ pair ∈ keys.equalities,
      build.names[pair.build]? = some name ∧ probe.names[pair.probe]? = some name := by
  unfold sharedNames
  rw [List.mem_filterMap]
  refine exists_congr fun pair => and_congr_right fun _ => ?_
  show (build.names[pair.build]?.bind fun name' =>
    if probe.names[pair.probe]? = some name' then some name' else none) = some name ↔ _
  rw [Option.bind_eq_some_iff]
  constructor
  · rintro ⟨name', hb, h⟩
    split at h
    · next hp =>
      cases h
      exact ⟨hb, hp⟩
    · cases h
  · rintro ⟨hb, hp⟩
    exact ⟨name, hb, if_pos hp⟩

/-- An equated pair is equal in rows that match. -/
theorem equates_of_mem_equalities {pair : KeyPair} (h : pair ∈ keys.equalities)
    (bound : pair.build < build.size) :
    (d.plan build probe keys residual strategy).Equates pair.build pair.probe := by
  intro b p hb hm
  have width : b.length = build.size := hb
  have holds := (PredicateExpr.holds_iff_of_eval _ _ hm).mpr rfl
  obtain ⟨key, hk, he⟩ := mem_equalities.mp h
  have hold := ((holds_matcher_iff _).mp holds).1 (pair, key) hk
  rw [← width] at hold
  exact equal_of_comparison he (width ▸ bound) hold

/-- The columns of a key are the only ones that some path means on each side. -/
theorem exists_columns_of_mem_equalities {condition : Filter} {pair : KeyPair}
    (h : pair ∈ (condition.keys build probe).equalities) :
    ∃ left right, build.columns left = [pair.build] ∧ probe.columns right = [pair.probe] := by
  obtain ⟨key, hk, -⟩ := mem_equalities.mp h
  refine forall_mem_takeKeys (P := fun entry => ∃ left right,
    build.columns left = [entry.1.build] ∧ probe.columns right = [entry.1.probe]) ?_ condition
    .empty ?_ _ hk
  · rintro left op right ⟨pair, key⟩ place
    rcases place?_eq_some place with ⟨hp, -⟩ | ⟨hp, -⟩
    · exact ⟨left, right, pair?_eq_some hp⟩
    · exact ⟨right, left, pair?_eq_some hp⟩
  · exact fun _ hm => absurd hm List.not_mem_nil

end

/-! ### columns that are left out -/

/-- The declared columns are set apart: each is one column of either side, and in a left join none
is a name that an equated pair has in common. -/
structure JoinDescriptor.Apart (build probe : Schema) (d : JoinDescriptor) (keys : JoinKeys) :
    Prop where
  unique : ∀ column ∈ d.columns, (pair? build probe (qualify d.buildPrefix column)
    (qualify d.probePrefix column)).isSome = true
  unshared : d.options.type = .left → ∀ column ∈ d.columns,
    ∀ name ∈ sharedNames build probe keys,
      Glob.accepts (qualify d.buildPrefix column) name = false ∧
        Glob.accepts (qualify d.probePrefix column) name = false

section
variable {c : Setting} {build probe : Schema} {d : JoinDescriptor} {filter : Option Filter}
  {pool : LiteralPool} {plan : JoinPlan}

/-- A declared column is a pair of columns, and it equates them. -/
theorem exists_equates_of_mem_columns
    (h : (compileJoin c build probe d filter).result pool = .ok plan)
    (ha : d.Apart build probe plan.keys) {column : String} (hc : column ∈ d.columns) :
    ∃ l r, build.columns (qualify d.buildPrefix column) = [l] ∧
      probe.columns (qualify d.probePrefix column) = [r] ∧ plan.Equates l r := by
  obtain ⟨pair, hp⟩ := Option.isSome_iff_exists.mp (ha.unique column hc)
  obtain ⟨hl, hr⟩ := pair?_eq_some hp
  refine ⟨pair.build, pair.probe, hl, hr, ?_⟩
  intro b p hb hm
  have declared : (qualify d.buildPrefix column, qualify d.probePrefix column) ∈ d.equations :=
    List.mem_append_right _ (List.mem_map_of_mem hc)
  have width : plan.buildWidth = build.size := by
    obtain ⟨_, _, _, -, -, rfl⟩ := exists_of_compileJoin h
    rfl
  obtain ⟨found, hf, equal⟩ := equal_of_equation h declared (hb.trans width) hm
  rw [hp] at hf
  cases hf
  exact equal

/-- A build column whose name an equated pair shares is the column of that pair. -/
theorem exists_equates_of_mem_sharedNames
    (h : (compileJoin c build probe d filter).result pool = .ok plan) {l : Nat} {f : Field}
    (hf : build.fields[l]? = some f) (hk : f.isKey = false)
    (hs : f.name ∈ sharedNames build probe plan.keys) :
    ∃ r g, probe.fields[r]? = some g ∧ g.isKey = false ∧ g.name = f.name ∧ plan.Equates l r := by
  obtain ⟨fs, residual, strategy, -, -, rfl⟩ := exists_of_compileJoin h
  obtain ⟨pair, hp, hb, hn⟩ := mem_sharedNames.mp hs
  obtain ⟨left, right, hl, hr⟩ := exists_columns_of_mem_equalities hp
  obtain ⟨f', hf', shared⟩ := Schema.getElem?_names_eq_some_iff.mp hb
  obtain ⟨g, hg, same⟩ := Schema.getElem?_names_eq_some_iff.mp hn
  cases Schema.eq_of_columns hl hf' hf hk shared.symm
  obtain ⟨g', hg', unkeyed, -⟩ := Schema.exists_of_columns hr
  cases hg.symm.trans hg'
  exact ⟨pair.probe, g, hg, unkeyed, same,
    equates_of_mem_equalities hp (lt_size_of_mem_equalities hp).1⟩

/-- For a build column that is left out a probe column is kept. -/
theorem exists_of_skipsBuild (h : (compileJoin c build probe d filter).result pool = .ok plan)
    (ha : d.Apart build probe plan.keys) {l : Nat} {f : Field} (hf : build.fields[l]? = some f)
    (hk : f.isKey = false) (hs : d.skipsBuild build probe plan.keys f.name = true) :
    ∃ r g, probe.fields[r]? = some g ∧ g.isKey = false ∧ ¬ d.skipsProbe g.name = true ∧
      plan.Equates l r := by
  rcases (d.skipsBuild_eq_true_iff _ _ _ _).mp hs with shared | ⟨type, column, hc, name⟩
  · obtain ⟨r, g, hg, unkeyed, same, equates⟩ := exists_equates_of_mem_sharedNames h hf hk shared
    refine ⟨r, g, hg, unkeyed, fun skipped => ?_, equates⟩
    obtain ⟨left, column, hc, name⟩ := (d.skipsProbe_eq_true_iff _).mp skipped
    have unlike := (ha.unshared left column hc f.name shared).2
    rw [name, same, Glob.accepts_self] at unlike
    cases unlike
  · obtain ⟨l', r, hl, hr, equates⟩ := exists_equates_of_mem_columns h ha hc
    cases Schema.eq_of_columns_name (name ▸ hl) hf hk
    obtain ⟨g, hg, unkeyed, -⟩ := Schema.exists_of_columns hr
    refine ⟨r, g, hg, unkeyed, fun skipped => ?_, equates⟩
    exact type ((d.skipsProbe_eq_true_iff _).mp skipped).1

/-- For a probe column that is left out a build column is kept. -/
theorem exists_of_skipsProbe (h : (compileJoin c build probe d filter).result pool = .ok plan)
    (ha : d.Apart build probe plan.keys) {r : Nat} {g : Field} (hg : probe.fields[r]? = some g)
    (hk : g.isKey = false) (hs : d.skipsProbe g.name = true) :
    ∃ l f, build.fields[l]? = some f ∧ f.isKey = false ∧
      ¬ d.skipsBuild build probe plan.keys f.name = true ∧ plan.Equates l r := by
  obtain ⟨left, column, hc, name⟩ := (d.skipsProbe_eq_true_iff _).mp hs
  obtain ⟨l, r', hl, hr, equates⟩ := exists_equates_of_mem_columns h ha hc
  cases Schema.eq_of_columns_name (name ▸ hr) hg hk
  obtain ⟨f, hf, unkeyed, accepts⟩ := Schema.exists_of_columns hl
  refine ⟨l, f, hf, unkeyed, fun skipped => ?_, equates⟩
  rcases (d.skipsBuild_eq_true_iff _ _ _ _).mp skipped with shared | ⟨type, -⟩
  · have unlike := (ha.unshared left column hc f.name shared).1
    rw [accepts] at unlike
    cases unlike
  · exact type left

end

/-- **No column is lost.**  A column that is not a key is shown once, or it is left out, and then
a column of the other side is shown that is equal to it in all rows that match. -/
theorem count_shown (c : Setting) (build probe : Schema) (d : JoinDescriptor)
    (filter : Option Filter) (pool : LiteralPool) {plan : JoinPlan}
    (h : (compileJoin c build probe d filter).result pool = .ok plan)
    (hm : d.options.type.isMark = false) (ha : d.Apart build probe plan.keys) :
    (∀ l f, build.fields[l]? = some f → f.isKey = false →
      plan.shown.count l = 1 ∨ (plan.shown.count l = 0 ∧
        ∃ r < probe.size, plan.shown.count (build.size + r) = 1 ∧ plan.Equates l r)) ∧
    ∀ r g, probe.fields[r]? = some g → g.isKey = false →
      plan.shown.count (build.size + r) = 1 ∨ (plan.shown.count (build.size + r) = 0 ∧
        ∃ l < build.size, plan.shown.count l = 1 ∧ plan.Equates l r) := by
  obtain ⟨fs, residual, strategy, -, -, parts⟩ := exists_of_compileJoin h
  have builds : ∀ {l f}, build.fields[l]? = some f → f.isKey = false →
      plan.shown.count l = if d.skipsBuild build probe plan.keys f.name then 0 else 1 := by
    intro l f hf hk
    rw [parts]
    exact count_shown_build hm hf hk
  have probes : ∀ {r g}, probe.fields[r]? = some g → g.isKey = false →
      plan.shown.count (build.size + r) = if d.skipsProbe g.name then 0 else 1 := by
    intro r g hg hk
    rw [parts]
    exact count_shown_probe hm hg hk
  constructor
  · intro l f hf hk
    rw [builds hf hk]
    split
    · next skipped =>
      obtain ⟨r, g, hg, unkeyed, kept, equates⟩ := exists_of_skipsBuild h ha hf hk skipped
      refine .inr ⟨rfl, r, (List.getElem?_eq_some_iff.mp hg).1, ?_, equates⟩
      rw [probes hg unkeyed, if_neg kept]
    · exact .inl rfl
  · intro r g hg hk
    rw [probes hg hk]
    split
    · next skipped =>
      obtain ⟨l, f, hf, unkeyed, kept, equates⟩ := exists_of_skipsProbe h ha hg hk skipped
      refine .inr ⟨rfl, l, (List.getElem?_eq_some_iff.mp hf).1, ?_, equates⟩
      rw [builds hf unkeyed, if_neg kept]
    · exact .inl rfl

/-- A left join shows the build column of a declared pair for both. -/
theorem count_shown_left :
    ∃ plan, (compileJoin Sample.setting Sample.build Sample.probe
        (Sample.descriptor .left .nestedLoop) none).result .empty = .ok plan ∧
      plan.shown.count 2 = 0 ∧ ∃ l < 2, plan.shown.count l = 1 ∧ plan.Equates l 0 := by
  have planned := Sample.result_compileJoin_equated .left
  have apart : (Sample.descriptor .left .nestedLoop).Apart Sample.build Sample.probe
      (Sample.equatedPlan .left).keys := ⟨by decide, by decide⟩
  obtain ⟨-, probes⟩ := count_shown _ _ _ _ _ _ planned rfl apart
  rcases probes 0 _ rfl rfl with shown | hidden
  · exact absurd shown (by decide)
  · exact ⟨_, planned, hidden⟩

/-! ### a declared column with one name on both sides -/

namespace Sample

/-- numbered values without a prefix -/
def numbered : Schema := ⟨[⟨"id", .int64, true, none⟩, ⟨"v", .int64, true, none⟩]⟩

/-- other values with the same numbers -/
def renumbered : Schema := ⟨[⟨"id", .int64, true, none⟩, ⟨"w", .int64, true, none⟩]⟩

/-- a left join without prefixes -/
def unprefixed (columns sharedPaths : List String) : JoinDescriptor :=
  ⟨⟨.left, .nestedLoop, false, none⟩, none, none, columns, sharedPaths⟩

/-- the equation of both numbers -/
def sameId : Filter := .and [.path "id" ⟨.eq, .any⟩ "id"]

end Sample

/-- A left join loses a declared column that has one name on both sides: neither number is shown,
and no column that is shown equals it. -/
theorem not_shown_declared :
    ∃ plan, (compileJoin Sample.setting Sample.numbered Sample.renumbered
        (Sample.unprefixed ["id"] []) none).result .empty = .ok plan ∧
      plan.shown.count 0 = 0 ∧ plan.shown.count 2 = 0 ∧
      ∀ r < 2, plan.shown.count (2 + r) = 1 → ¬ plan.Equates 0 r := by
  have planned : (compileJoin Sample.setting Sample.numbered Sample.renumbered
      (Sample.unprefixed ["id"] []) none).result .empty =
      .ok (Sample.keyPlan Sample.numbered Sample.renumbered (Sample.unprefixed ["id"] [])
        Sample.sameId) := Sample.result_compileJoin_keyPlan rfl rfl rfl rfl
  refine ⟨_, planned, by decide, by decide, ?_⟩
  intro r hr shown equates
  have only : r = 1 := by
    have either : r = 0 ∨ r = 1 := by omega
    rcases either with rfl | rfl
    · exact absurd shown (by decide)
    · rfl
  subst only
  have matched := equates [some (.long 1), some (.long 10)] [some (.long 1), some (.long 7)] rfl rfl
  exact absurd matched (by decide)

end ColumnPlan
