import ColumnPlan.Proofs.Join.Candidates
import ColumnPlan.Proofs.Join.NestedLoop
import ColumnPlan.Proofs.Value.Hash

/-!
# A hash join yields what the nested loop yields

Rows that match agree on every equated pair of columns, so they hash alike: a candidate that the
hash leaves out does not match.  With floats this would be false, since a number can equal a float
that hashes otherwise.

* `JoinPlan.FloatFree`         no batch has a float in an equated column;
* `hashOf_fields`              the hash of a row, if its columns are there;
* `words_eq_of_comparison`     an equation that holds is between cells with the same words;
* `hashJoin_eq`                the run of a hash join: the candidates have the hash of the row;
* `executeJoin_hash`           what a nested loop yields, the hash join yields.
-/

namespace ColumnPlan

open Compile PredicateExpr

/-- A column of the batch holds no float. -/
def Batch.FloatFree (batch : Batch) (i : Nat) : Prop :=
  ∀ column, batch.columns[i]? = some column → ∀ cell ∈ column, cell.isFloating = false

/-- The equated columns of both sides hold no floats. -/
def JoinPlan.FloatFree (plan : JoinPlan) (build probe : List Batch) : Prop :=
  ∀ pair ∈ plan.keys.equalities, (∀ batch ∈ build, batch.FloatFree pair.build) ∧
    ∀ batch ∈ probe, batch.FloatFree pair.probe

instance (batch : Batch) (i : Nat) : Decidable (batch.FloatFree i) :=
  decidable_of_iff (∀ cell ∈ batch.columns[i]?.getD [], cell.isFloating = false) <| by
    unfold Batch.FloatFree
    cases batch.columns[i]? with
    | none => exact iff_of_true (fun _ h => absurd h List.not_mem_nil) nofun
    | some column =>
      constructor
      · rintro h _ ⟨⟩
        exact h
      · intro h; exact h column rfl

instance (plan : JoinPlan) (build probe : List Batch) : Decidable (plan.FloatFree build probe) :=
  inferInstanceAs (Decidable (∀ pair ∈ plan.keys.equalities,
    (∀ batch ∈ build, batch.FloatFree pair.build) ∧ ∀ batch ∈ probe, batch.FloatFree pair.probe))

/-- the same join by another algorithm -/
def JoinDescriptor.withAlgorithm (d : JoinDescriptor) (algorithm : JoinAlgorithm) :
    JoinDescriptor := { d with options := { d.options with algorithm := algorithm } }

theorem Reads.isFloating_eq_false {width : Nat} {batches : List Batch} {rows : List Row}
    {row : Row} (h : Reads width batches rows) (hr : row ∈ rows) {i : Nat}
    (hf : ∀ batch ∈ batches, batch.FloatFree i) :
    Datum.isFloating (row.value? i) = false := by
  unfold Row.value?
  cases hc : row[i]? with
  | none => rfl
  | some cell =>
    rcases h.mem_column hr hc with rfl | ⟨batch, hb, column, hcol, hm⟩
    · rfl
    · exact hf batch hb column hcol cell hm

/-! ### hashes of rows -/

/-- the expression that hashes some columns -/
def fieldHasher (is : List Nat) : ScalarExpr := .call .hash (is.map fun i => .field i none) none

/-- the hash of some cells of a row -/
def hashAt (is : List Nat) (row : Row) : UInt64 := hashRow (is.map row.value?)

theorem evalAll_fields {row : Row} {is : List Nat} (h : ∀ i ∈ is, i < row.length) :
    ScalarExpr.evalAll row (is.map fun i => .field i none) = .ok (is.map row.value?) := by
  induction is with
  | nil => rfl
  | cons i is ih =>
    obtain ⟨hi, his⟩ := List.forall_mem_cons.mp h
    have cell : (ScalarExpr.field i none).eval row = .ok (row.value? i) := by
      unfold Row.value?
      rw [ScalarExpr.eval, List.getElem?_eq_getElem hi]
      rfl
    rw [List.map_cons, ScalarExpr.evalAll, cell, ih his]
    rfl

theorem hashOf_fields {row : Row} {is : List Nat} (h : ∀ i ∈ is, i < row.length) :
    hashOf (fieldHasher is) row = .ok (hashAt is row) := by
  unfold hashOf fieldHasher hashAt
  rw [ScalarExpr.eval]
  · show (ScalarExpr.evalAll row _ >>= _) >>= _ = _
    rw [evalAll_fields h]
    show Except.ok (hashRow _).toInt64.toUInt64 = _
    rw [UInt64.toUInt64_toInt64]
  · intro h; cases h

/-! ### equations that hold -/

theorem words_eq_of_comparison {pair : KeyPair} {key : EquiKey} {b p : Row}
    (he : key.op.isEquality = true) (hi : pair.build < b.length)
    (hb : Datum.isFloating (b.value? pair.build) = false)
    (hp : Datum.isFloating (p.value? pair.probe) = false)
    (h : (JoinKeys.comparison b.length pair key).Holds (b ++ p)) :
    Datum.words (b.value? pair.build) = Datum.words (p.value? pair.probe) :=
  words_eq_of_equal (equal_of_comparison he hi h) (.inl (hb.trans hp.symm))

/-! ### the run of a hash join -/

/-- The candidates of a probe row are the build rows of its hash. -/
theorem hashJoin_eq (plan : JoinPlan) {bs ps : List Nat} {left right : List Batch}
    {B P : List Row} (hs : plan.strategy = .hash (fieldHasher bs) (fieldHasher ps))
    (hl : Reads plan.buildWidth left B) (hr : Reads plan.probeWidth right P)
    (hb : ∀ i ∈ bs, i < plan.buildWidth) (hp : ∀ i ∈ ps, i < plan.probeWidth) :
    ∃ candidates, hashJoin plan left right = plan.run (enumerate B) P candidates ∧
      ∀ row ∈ P, candidates row = .ok ((enumerate B).filter fun candidate =>
        hashAt bs candidate.2 = hashAt ps row) := by
  let hashed := (enumerate B).map fun candidate => (hashAt bs candidate.2, candidate)
  refine ⟨fun row => do
    pure ((Buckets.ofList hashed).getD (← hashOf (fieldHasher ps) row) []), ?_, ?_⟩
  · have build : ((enumerate B).mapM fun candidate => do
        pure (← hashOf (fieldHasher bs) candidate.2, candidate)) = .ok hashed := by
      refine mapM_eq_map fun candidate hc => ?_
      have width := hl.length_eq (mem_of_mem_enumerate hc)
      rw [hashOf_fields fun i hi => width ▸ hb i hi]
      rfl
    unfold hashJoin
    rw [hs]
    dsimp only
    rw [readSide_eq_ok_iff.mpr hl, readSide_eq_ok_iff.mpr hr, ok_bind, ok_bind, build, ok_bind]
  · intro row hrow
    have width := hr.length_eq hrow
    dsimp only
    rw [hashOf_fields fun i hi => width ▸ hp i hi]
    show Except.ok ((Buckets.ofList hashed).getD (hashAt ps row) []) = _
    rw [Buckets.getD_ofList, List.filter_map, List.map_map]
    congr 1
    exact List.map_id' _

/-! ### plans by hash -/

section
variable {build probe : Schema} {d : JoinDescriptor}

/-- The hashers look at the columns of the equated pairs, in one order on both sides. -/
theorem strategy_of_choose_hash {keys : JoinKeys} {strategy : JoinStrategy}
    (h : JoinStrategy.choose .hash keys = .ok strategy) :
    strategy = .hash (fieldHasher (keys.equalities.map (·.build)))
      (fieldHasher (keys.equalities.map (·.probe))) := by
  unfold JoinStrategy.choose at h
  dsimp only at h
  split at h
  · cases h
  · cases h
    unfold fieldHasher
    rw [List.map_map, List.map_map]
    rfl

theorem alike_plan (keys : JoinKeys) (residual : PredicateExpr) (a b : JoinAlgorithm)
    (s t : JoinStrategy) :
    ((d.withAlgorithm a).plan build probe keys residual s).Alike
      ((d.withAlgorithm b).plan build probe keys residual t) := ⟨rfl, rfl, rfl, rfl, rfl⟩

/-- Rows of different hashes do not match. -/
theorem spares_hashAt {keys : JoinKeys} {residual : PredicateExpr} {strategy : JoinStrategy}
    {left right : List Batch} {B P : List Row}
    (hf : (d.plan build probe keys residual strategy).FloatFree left right)
    (hl : Reads build.size left B) (hr : Reads probe.size right P)
    (hb : ∀ pair ∈ keys.equalities, pair.build < build.size) :
    ∀ row ∈ P, (d.plan build probe keys residual strategy).Spares row (enumerate B)
      fun candidate => hashAt (keys.equalities.map (·.build)) candidate.2 =
        hashAt (keys.equalities.map (·.probe)) row := by
  intro row hrow candidate hc apart holds
  have hm := mem_of_mem_enumerate hc
  have width := hl.length_eq hm
  refine of_decide_eq_false apart ?_
  -- no more than the words of the equated cells goes into a hash
  unfold hashAt
  apply hashRow_congr
  rw [List.map_map, List.map_map, List.map_map, List.map_map]
  refine List.map_congr_left fun pair hpair => ?_
  obtain ⟨key, hk, he⟩ := mem_equalities.mp hpair
  obtain ⟨floatsLeft, floatsRight⟩ := hf pair hpair
  have hold := ((holds_matcher_iff _).mp holds).1 (pair, key) hk
  rw [← width] at hold
  exact words_eq_of_comparison he (width ▸ hb pair hpair)
    (hl.isFloating_eq_false hm floatsLeft) (hr.isFloating_eq_false hrow floatsRight) hold

end

/-- **What a nested loop yields, the hash join yields**: the same rows in the same order.  A join
that has a plan by hash has one by a nested loop, and if no equated column holds a float, the hash
join succeeds wherever the nested loop does. -/
theorem executeJoin_hash (c : Setting) (build probe : Schema) (d : JoinDescriptor)
    (filter : Option Filter) (pool other : LiteralPool) {plan : JoinPlan}
    (h : (compileJoin c build probe (d.withAlgorithm .hash) filter).result pool = .ok plan) :
    ∃ looped, (compileJoin c build probe (d.withAlgorithm .nestedLoop) filter).result other =
        .ok looped ∧
      ∀ (left right : List Batch) (rows : List Row), plan.FloatFree left right →
        executeJoin looped left right = .ok rows → executeJoin plan left right = .ok rows := by
  rw [(blind_compileJoin c build probe _ filter).result_eq, outcome_compileJoin] at h
  obtain ⟨hv, condition, hc, h⟩ := h
  obtain ⟨residual, strategy, hr, hs, rfl⟩ := (outcome_compileCondition c build probe _ _ _).mp h
  refine ⟨(d.withAlgorithm .nestedLoop).plan build probe (condition.keys build probe) residual
    .nestedLoop, ?_, ?_⟩
  · rw [(blind_compileJoin c build probe _ filter).result_eq, outcome_compileJoin]
    refine ⟨hv, condition, hc, ?_⟩
    rw [outcome_compileCondition]
    exact ⟨residual, .nestedLoop, hr, rfl, rfl⟩
  · intro left right rows floats loop
    obtain ⟨B, hB, loop⟩ := bind_eq_ok_iff.mp loop
    obtain ⟨P, hP, loop⟩ := bind_eq_ok_iff.mp loop
    have readsLeft := readSide_eq_ok_iff.mp hB
    have readsRight := readSide_eq_ok_iff.mp hP
    cases strategy_of_choose_hash hs
    have bounds : ∀ pair ∈ (condition.keys build probe).equalities,
        pair.build < build.size ∧ pair.probe < probe.size := fun _ => lt_size_of_mem_equalities
    obtain ⟨candidates, run, found⟩ := hashJoin_eq ((d.withAlgorithm .hash).plan build probe
      (condition.keys build probe) residual _) rfl readsLeft readsRight
      (List.forall_mem_map.mpr fun pair hp => (bounds pair hp).1)
      (List.forall_mem_map.mpr fun pair hp => (bounds pair hp).2)
    -- the loop of the hash plan is that of the other plan; then candidates are left out of it
    refine run.trans (JoinPlan.run_filter found
      (spares_hashAt floats readsLeft readsRight fun pair hp => (bounds pair hp).1) ?_)
    rw [← loop]
    exact JoinPlan.run_congr (alike_plan _ _ _ _ _ _) _ _ _

/-! ### a left join by hash -/

namespace Sample

theorem outcome_withoutKeys :
    (compileFilter setting (build.merge probe) (condition.withoutKeys build probe)).outcome =
      .ok residual := by
  have rest : condition.withoutKeys build probe =
      .and [.and [.and [], .value "a.v" ⟨.gt, .any⟩ (.long 3)],
        .path "a.id" ⟨.eq, .any⟩ "b.id"] := rfl
  rw [rest, compileFilter]
  show (compileNormal _ _ (.and [.and [.and [], .value "a.v" ⟨.gt, .any⟩ (.long 3)],
    .path "a.id" ⟨.eq, .any⟩ "b.id"])).outcome = _
  rw [compileNormal, compileNormals, compileNormal, compileNormals, compileNormal,
    compileNormals, compileNormals, compileNormal, compileNormals, compileNormals, compileNormal,
    compileNormals]
  rfl

/-- Each strategy for the keys of the sample makes a plan. -/
theorem result_compileJoin (type : JoinType) (strategy : JoinStrategy)
    (hs : JoinStrategy.choose strategy.algorithm (condition.keys build probe) = .ok strategy) :
    (compileJoin setting build probe (descriptor type strategy.algorithm)
      filter).result .empty = .ok (plan type strategy) := by
  have joined : joinCondition build probe (descriptor .inner .nestedLoop) filter =
      .ok condition := rfl
  rw [(blind_compileJoin _ _ _ _ _).result_eq, outcome_compileJoin]
  refine ⟨by cases type <;> rfl, condition, joined, ?_⟩
  rw [outcome_compileCondition]
  exact ⟨residual, strategy, outcome_withoutKeys, hs, rfl⟩

end Sample

/-- An `INTEGER` key finds its `LONG` by hash, and the build rows without a match follow. -/
theorem executeJoin_hash_left :
    ∃ plan, (compileJoin Sample.setting Sample.build Sample.probe
        (Sample.descriptor .left .hash) Sample.filter).result .empty = .ok plan ∧
      executeJoin plan [Sample.values [1, 2] [5, 1] rfl, Sample.values [3] [9] rfl]
        [Sample.references [1, 4]] =
        .ok [[some (.integer 1), some (.long 5)], [some (.integer 2), some (.long 1)],
          [some (.integer 3), some (.long 9)]] := by
  have planned := Sample.result_compileJoin .left (.hash (fieldHasher [0]) (fieldHasher [0])) rfl
  have byLoop := Sample.result_compileJoin .left .nestedLoop rfl
  obtain ⟨looped, hl, h⟩ := executeJoin_hash Sample.setting Sample.build Sample.probe
    (Sample.descriptor .left .hash) Sample.filter .empty .empty planned
  have same : looped = Sample.plan .left .nestedLoop := Except.ok.inj (hl.symm.trans byLoop)
  refine ⟨_, planned, h _ _ _ (by decide) ?_⟩
  rw [same]
  rfl

end ColumnPlan
