import ColumnPlan.Proofs.Join.Plan
import ColumnPlan.Proofs.Join.Sides

/-!
# What a nested loop yields

The rows of a join are said here without a loop: for each probe row what it yields on all build
rows, then what the build rows without a match yield.  All of these are *joined* rows, and the
output is made of their projections.

* `JoinPlan.joins plan b p`        whether a build row and a probe row match;
* `JoinPlan.rowsOfProbe`           the joined rows of one probe row;
* `JoinPlan.rowsOfUnmatched`       the joined rows of the build rows without a match;
* `JoinPlan.joinedRows`            all of them;
* `nestedLoopJoin_eq`              a nested loop yields their projections.
-/

namespace ColumnPlan

namespace JoinPlan

/-! ### joined rows -/

/-- A build row and a probe row match. -/
def joins (plan : JoinPlan) (build probe : Row) : Bool :=
  match plan.matcher.eval (build ++ probe) with
  | .ok b => b
  | .error _ => false

/-- The build rows that match, each with the probe row. -/
def pairs (plan : JoinPlan) (build : List Row) (probe : Row) : List Row :=
  (build.filter (plan.joins · probe)).map (· ++ probe)

/-- The joined rows of one probe row. -/
def rowsOfProbe (plan : JoinPlan) (build : List Row) (probe : Row) : List Row :=
  let matched := build.any (plan.joins · probe)
  match plan.options.type with
  | .semi | .anti => [nullRow plan.buildWidth ++ probe ++ [some (.boolean matched)]]
  | .inner | .left => plan.pairs build probe
  | .right | .full =>
    plan.pairs build probe ++ if matched then [] else [nullRow plan.buildWidth ++ probe]

/-- The joined rows of the build rows that match no probe row. -/
def rowsOfUnmatched (plan : JoinPlan) (build probes : List Row) : List Row :=
  match plan.options.type with
  | .left | .full =>
    (build.filter fun b => !probes.any (plan.joins b)).map (· ++ nullRow plan.probeWidth)
  | .inner | .right | .semi | .anti => []

/-- The joined rows in the order in which they are projected. -/
def joinedRows (plan : JoinPlan) (build probes : List Row) : List Row :=
  probes.flatMap (plan.rowsOfProbe build) ++ plan.rowsOfUnmatched build probes

/-- The matcher can be evaluated on a pair. -/
def Decides (plan : JoinPlan) (build probe : Row) : Prop :=
  ∃ b, plan.matcher.eval (build ++ probe) = .ok b

variable {plan : JoinPlan}

theorem decides_iff {build probe : Row} :
    plan.Decides build probe ↔ (plan.matcher.eval (build ++ probe)).isOk = true := by
  unfold Decides
  cases plan.matcher.eval (build ++ probe) with
  | error e => exact iff_of_false nofun nofun
  | ok b => exact iff_of_true ⟨b, rfl⟩ rfl

instance (build probe : Row) : Decidable (plan.Decides build probe) :=
  decidable_of_iff _ decides_iff.symm

theorem Decides.eval_eq {build probe : Row} (h : plan.Decides build probe) :
    plan.matcher.eval (build ++ probe) = .ok (plan.joins build probe) := by
  obtain ⟨b, hb⟩ := h
  unfold joins
  rw [hb]

/-! ### one probe row -/

/-- The places of the candidates that match. -/
def places (plan : JoinPlan) (candidates : List Candidate) (probe : Row) : List Nat :=
  (candidates.filter fun candidate => plan.joins candidate.2 probe).map (·.1)

theorem hasMatch_eq {probe : Row} {candidates : List Candidate}
    (h : ∀ candidate ∈ candidates, plan.Decides candidate.2 probe) :
    plan.hasMatch probe candidates =
      .ok (candidates.any fun candidate => plan.joins candidate.2 probe) := by
  induction candidates with
  | nil => rfl
  | cons candidate rest ih =>
    obtain ⟨hc, hr⟩ := List.forall_mem_cons.mp h
    rw [hasMatch, hc.eval_eq, List.any_cons]
    cases plan.joins candidate.2 probe with
    | true => rfl
    | false => exact ih hr

theorem matchAll_eq {probe : Row} {candidates : List Candidate}
    (h : ∀ candidate ∈ candidates, plan.Decides candidate.2 probe) :
    plan.matchAll probe candidates =
      (plan.pairs (candidates.map (·.2)) probe).mapM plan.project >>= fun rows =>
        .ok ⟨plan.places candidates probe, rows⟩ := by
  induction candidates with
  | nil => rfl
  | cons candidate rest ih =>
    obtain ⟨hc, hr⟩ := List.forall_mem_cons.mp h
    have hd := hc.eval_eq
    rw [matchAll, hd]
    unfold pairs places
    rw [List.map_cons, List.filter_cons, List.filter_cons]
    cases plan.joins candidate.2 probe with
    | false => exact ih hr
    | true =>
      show (do
        let row ← plan.project (candidate.2 ++ probe)
        let more ← plan.matchAll probe rest
        pure (⟨candidate.1 :: more.matched, row :: more.rows⟩ : ProbeResult)) = _
      rw [if_pos rfl, if_pos rfl, List.map_cons, List.map_cons, List.mapM_cons, ih hr]
      simp only [bind_assoc, pure_bind]
      rfl

theorem rowsOfProbe_of_isMark (h : plan.options.type.isMark = true) (build : List Row)
    (probe : Row) :
    plan.rowsOfProbe build probe =
      [nullRow plan.buildWidth ++ probe ++
        [some (.boolean (build.any (plan.joins · probe)))]] := by
  unfold rowsOfProbe
  cases ht : plan.options.type with
  | semi | anti => rfl
  | inner | left | right | full => rw [ht] at h; cases h

theorem rowsOfProbe_of_not_isMark (h : plan.options.type.isMark = false) (build : List Row)
    (probe : Row) :
    plan.rowsOfProbe build probe = plan.pairs build probe ++
      if !build.any (plan.joins · probe) && plan.options.type.emitsProbeUnmatched then
        [nullRow plan.buildWidth ++ probe] else [] := by
  unfold rowsOfProbe
  cases ht : plan.options.type with
  | semi | anti => rw [ht] at h; cases h
  | inner | left =>
    show plan.pairs build probe = plan.pairs build probe ++ if (_ && false) = true then _ else _
    rw [Bool.and_false, if_neg Bool.false_ne_true, List.append_nil]
  | right | full =>
    show _ ++ _ = _ ++ if (_ && true) = true then _ else _
    cases build.any (plan.joins · probe) with
    | true => rfl
    | false => rfl

theorem pairs_eq_nil {build : List Row} {probe : Row}
    (h : build.any (plan.joins · probe) = false) : plan.pairs build probe = [] := by
  rw [pairs, List.filter_eq_nil_iff.mpr fun b hb => ?_, List.map_nil]
  exact List.any_eq_false.mp h b hb

theorem isEmpty_places (candidates : List Candidate) (probe : Row) :
    (plan.places candidates probe).isEmpty =
      !(candidates.map (·.2)).any (plan.joins · probe) := by
  unfold places
  rw [List.isEmpty_map, List.any_map, Bool.eq_iff_iff, List.isEmpty_iff, List.filter_eq_nil_iff,
    Bool.not_eq_true', List.any_eq_false]
  rfl

/-- The places that a probe row reports; a mark join has no use for them. -/
def reported (plan : JoinPlan) (candidates : List Candidate) (probe : Row) : List Nat :=
  if plan.options.type.isMark then [] else plan.places candidates probe

/-- A probe row yields the projections of its joined rows. -/
theorem probe_eq {probe : Row} {candidates : List Candidate}
    (h : ∀ candidate ∈ candidates, plan.Decides candidate.2 probe) :
    plan.probe probe candidates =
      (plan.rowsOfProbe (candidates.map (·.2)) probe).mapM plan.project >>= fun rows =>
        .ok ⟨plan.reported candidates probe, rows⟩ := by
  unfold JoinPlan.probe reported
  cases hm : plan.options.type.isMark with
  | true =>
    rw [if_pos rfl, hasMatch_eq h, rowsOfProbe_of_isMark hm, List.any_map]
    simp only [List.mapM_cons, List.mapM_nil, bind_assoc, pure_bind]
    rfl
  | false =>
    rw [if_neg Bool.false_ne_true, matchAll_eq h, rowsOfProbe_of_not_isMark hm]
    show ((_ >>= fun rows => Except.ok _) >>= fun result : ProbeResult => _) = _
    rw [bind_assoc]
    show (_ >>= fun rows =>
      if ((plan.places candidates probe).isEmpty && plan.options.type.emitsProbeUnmatched) = true
      then _ else _) = _
    rw [isEmpty_places]
    split
    · next hw =>
      have unmatched : (candidates.map (·.2)).any (plan.joins · probe) = false :=
        (Bool.not_eq_true' _).mp (Bool.and_eq_true_iff.mp hw).1
      have nowhere : plan.places candidates probe = [] := by
        rw [← List.isEmpty_iff, isEmpty_places, unmatched]
        rfl
      rw [pairs_eq_nil unmatched, nowhere, List.nil_append, List.mapM_cons]
      simp only [List.mapM_nil, bind_assoc, pure_bind]
      rfl
    · rw [List.append_nil]
      rfl

/-! ### all probe rows -/

/-- Probe rows yield one after the other what their joined rows make, whatever is done next. -/
theorem mapM_probe_eq {α : Type} {candidates : List Candidate} {probes : List Row}
    (h : ∀ candidate ∈ candidates, ∀ probe ∈ probes, plan.Decides candidate.2 probe)
    (next : List Nat → List Row → Except Error α) :
    ((probes.mapM fun probe => plan.probe probe candidates) >>= fun results =>
        next (results.flatMap (·.matched)) (results.flatMap (·.rows))) =
      (probes.flatMap (plan.rowsOfProbe (candidates.map (·.2)))).mapM plan.project >>=
        next (probes.flatMap (plan.reported candidates)) := by
  induction probes generalizing next with
  | nil => rfl
  | cons probe rest ih =>
    have hp : ∀ candidate ∈ candidates, plan.Decides candidate.2 probe :=
      fun candidate hc => h candidate hc probe List.mem_cons_self
    have hr := ih fun candidate hc p hm => h candidate hc p (List.mem_cons_of_mem _ hm)
    rw [List.mapM_cons, probe_eq hp, List.flatMap_cons, List.mapM_append, bind_assoc, bind_assoc,
      bind_assoc]
    congr 1
    funext rows
    show ((rest.mapM fun p => plan.probe p candidates) >>= fun results => pure (_ :: results)) >>=
      _ = _
    simp only [bind_assoc, pure_bind, List.flatMap_cons]
    exact hr fun matched more =>
      next (plan.reported candidates probe ++ matched) (rows ++ more)

/-- A build row is reported iff some probe row matches it. -/
theorem contains_reported (hm : plan.options.type.isMark = false) {build : List Row}
    (probes : List Row) {candidate : Candidate} (hc : candidate ∈ enumerate build) :
    (probes.flatMap (plan.reported (enumerate build))).contains candidate.1 =
      probes.any (plan.joins candidate.2) := by
  rw [Bool.eq_iff_iff, List.contains_iff_mem, List.mem_flatMap, List.any_eq_true]
  refine exists_congr fun probe => and_congr_right fun _ => ?_
  unfold reported places
  rw [hm, if_neg Bool.false_ne_true, List.mem_map]
  constructor
  · rintro ⟨⟨i, b⟩, hf, rfl⟩
    obtain ⟨hb, hj⟩ := List.mem_filter.mp hf
    -- a place holds one row only
    have same : b = candidate.2 :=
      Option.some.inj ((mem_enumerate.mp hb).symm.trans (mem_enumerate.mp hc))
    rw [← same]
    exact hj
  · intro hj; exact ⟨candidate, List.mem_filter.mpr ⟨hc, hj⟩, rfl⟩

theorem isMark_eq_false_of_emitsBuildUnmatched {type : JoinType}
    (h : type.emitsBuildUnmatched = true) : type.isMark = false := by
  cases type with
  | semi | anti => cases h
  | inner | left | right | full => rfl

theorem rowsOfUnmatched_eq (build probes : List Row) :
    plan.rowsOfUnmatched build probes =
      if plan.options.type.emitsBuildUnmatched then
        (build.filter fun b => !probes.any (plan.joins b)).map (· ++ nullRow plan.probeWidth)
      else [] := by
  unfold rowsOfUnmatched
  cases plan.options.type with
  | left | full => rfl
  | inner | right | semi | anti => rfl

theorem unmatched_eq (build probes : List Row) :
    plan.unmatched (enumerate build) (probes.flatMap (plan.reported (enumerate build))) =
      (plan.rowsOfUnmatched build probes).mapM plan.project := by
  rw [rowsOfUnmatched_eq]
  unfold unmatched
  cases he : plan.options.type.emitsBuildUnmatched with
  | false => rfl
  | true =>
    have hm := isMark_eq_false_of_emitsBuildUnmatched he
    rw [if_pos rfl, if_pos rfl]
    have kept : (enumerate build).filter (fun candidate =>
          !(probes.flatMap (plan.reported (enumerate build))).contains candidate.1) =
        (enumerate build).filter fun candidate => !probes.any (plan.joins candidate.2) :=
      List.filter_congr fun candidate hc => by rw [contains_reported hm probes hc]
    rw [kept, List.mapM_map]
    conv => rhs; rw [← map_enumerate build, List.filter_map, List.mapM_map]
    rfl

/-- The run over all pairs yields the projections of the joined rows. -/
theorem run_eq {build probes : List Row}
    (h : ∀ b ∈ build, ∀ probe ∈ probes, plan.Decides b probe) :
    plan.run (enumerate build) probes (fun _ => .ok (enumerate build)) =
      (plan.joinedRows build probes).mapM plan.project := by
  have decides : ∀ candidate ∈ enumerate build, ∀ probe ∈ probes,
      plan.Decides candidate.2 probe :=
    fun candidate hc => h candidate.2 (mem_of_mem_enumerate hc)
  have results := mapM_probe_eq decides fun matched rows => do
    let rest ← plan.unmatched (enumerate build) matched
    pure (rows ++ rest)
  rw [map_enumerate, unmatched_eq] at results
  rw [joinedRows, List.mapM_append]
  exact results

end JoinPlan

/-! ### batches -/

theorem nestedLoopJoin_of_reads {plan : JoinPlan} {build probe : List Batch} {B P : List Row}
    (hb : Reads plan.buildWidth build B) (hp : Reads plan.probeWidth probe P) :
    nestedLoopJoin plan build probe =
      plan.run (enumerate B) P fun _ => .ok (enumerate B) := by
  unfold nestedLoopJoin
  rw [readSide_eq_ok_iff.mpr hb, readSide_eq_ok_iff.mpr hp]
  rfl

/-- **A nested loop yields the projections of the joined rows, in their order**, if the matcher can
be evaluated on every pair; and the rows may come in other batches. -/
theorem nestedLoopJoin_eq (plan : JoinPlan) {build probe : List Batch} {B P : List Row}
    (hb : Reads plan.buildWidth build B) (hp : Reads plan.probeWidth probe P)
    (hm : ∀ b ∈ B, ∀ p ∈ P, plan.Decides b p) :
    nestedLoopJoin plan build probe = (plan.joinedRows B P).mapM plan.project ∧
      ∀ build' probe', Reads plan.buildWidth build' B → Reads plan.probeWidth probe' P →
        nestedLoopJoin plan build' probe' = nestedLoopJoin plan build probe := by
  have loop := nestedLoopJoin_of_reads hb hp
  refine ⟨loop.trans (JoinPlan.run_eq hm), fun build' probe' hb' hp' => ?_⟩
  exact (nestedLoopJoin_of_reads hb' hp').trans loop.symm

/-! ### a full join -/

namespace Sample

/-- the condition without its key, compiled -/
def residual : PredicateExpr :=
  .and [.compare (.compare .gt) [.field 1 none, .literal (.long 3) none],
    .compare (.compare .eq) [.field 0 none, .field 2 none]]

def plan (type : JoinType) (strategy : JoinStrategy) : JoinPlan :=
  (descriptor type strategy.algorithm).plan build probe (condition.keys build probe) residual
    strategy

def values (ids : List Int32) (vs : List Int64) (h : vs.length = ids.length) : Batch :=
  ⟨build, [ids.map fun n => some (.integer n), vs.map fun n => some (.long n)], ids.length, rfl,
    by simp [h]⟩

def references (ids : List Int64) : Batch :=
  ⟨probe, [ids.map fun n => some (.long n)], ids.length, rfl, by simp⟩

end Sample

/-- A full join: one pair, then a probe row and two build rows without a match. -/
theorem nestedLoopJoin_full :
    nestedLoopJoin (Sample.plan .full .nestedLoop)
      [Sample.values [1, 2] [5, 1] rfl, Sample.values [3] [9] rfl] [Sample.references [1, 4]] =
      .ok [[some (.long 5), some (.long 1)], [none, some (.long 4)], [some (.long 1), none],
        [some (.long 9), none]] := by
  have hb : Reads 2 [Sample.values [1, 2] [5, 1] rfl, Sample.values [3] [9] rfl]
      [[some (.integer 1), some (.long 5)], [some (.integer 2), some (.long 1)],
        [some (.integer 3), some (.long 9)]] :=
    ⟨by decide, _, rfl, rfl⟩
  have hp : Reads 1 [Sample.references [1, 4]] [[some (.long 1)], [some (.long 4)]] :=
    ⟨by decide, _, rfl, rfl⟩
  rw [(nestedLoopJoin_eq _ hb hp (by decide)).1]
  rfl

end ColumnPlan
