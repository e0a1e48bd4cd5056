import ColumnPlan.Proofs.Compile.Parts
import ColumnPlan.Proofs.Join.Hash
import ColumnPlan.Proofs.Physical.Safe

/-!
# Plans that never fail on their own account

The trees of a plan look at rows of three widths: the hashers at the rows of a side, the matcher at
a build row and a probe row, and the outputs at these with the mark, if the plan has one.  Only a
mark join has a mark among its outputs, and it projects nothing but rows with a mark.

* `JoinPlan.WellMade plan pool`   the trees of a plan were made for these rows;
* `ensures_compileJoin`           every plan is made so;
* `safe_run`                      a run of such a plan does not fail on account of a tree;
* `safe_nestedLoopJoin`, `safe_hashJoin`   nor does either algorithm;
* `compiled_safe`                 whatever is compiled fits and never fails so.
-/

namespace ColumnPlan

open Compile

namespace JoinPlan

/-- The width of the rows that a plan projects. -/
def emittedWidth (plan : JoinPlan) : Nat :=
  plan.buildWidth + plan.probeWidth + if plan.options.type.isMark then 1 else 0

/-- The trees of a plan can be evaluated on the rows that they are meant for. -/
structure Fits (plan : JoinPlan) : Prop where
  residual : plan.residual.Fits (plan.buildWidth + plan.probeWidth)
  matcher : plan.matcher.Fits (plan.buildWidth + plan.probeWidth)
  outputs : ∀ e ∈ plan.outputs, e.Fits plan.emittedWidth
  hashers : ∀ b p, plan.strategy = .hash b p → b.Fits plan.buildWidth ∧ p.Fits plan.probeWidth

/-- The trees of a plan were made for the rows that they are meant for, and rows are hashed by
columns of their own side. -/
structure WellMade (plan : JoinPlan) (pool : LiteralPool) : Prop where
  residual : Made (plan.buildWidth + plan.probeWidth) pool plan.residual.parts
  matcher : Made (plan.buildWidth + plan.probeWidth) pool plan.matcher.parts
  outputs : Made plan.emittedWidth pool (ScalarExpr.listParts plan.outputs)
  hashers : ∀ b p, plan.strategy = .hash b p → ∃ bs ps, b = fieldHasher bs ∧ p = fieldHasher ps ∧
    (∀ i ∈ bs, i < plan.buildWidth) ∧ ∀ i ∈ ps, i < plan.probeWidth

end JoinPlan

theorem made_fieldHasher {is : List Nat} {width : Nat} (h : ∀ i ∈ is, i < width)
    (pool : LiteralPool) : Made width pool (fieldHasher is).parts := by
  refine .call nofun (.listParts fun e he => ?_)
  obtain ⟨i, hi, rfl⟩ := List.mem_map.mp he
  exact .field (h i hi)

theorem JoinPlan.WellMade.fits {plan : JoinPlan} {pool : LiteralPool} (h : plan.WellMade pool) :
    plan.Fits where
  residual := fun part hp => (h.residual part hp).1
  matcher := fun part hp => (h.matcher part hp).1
  outputs := fun e he part hp => (h.outputs part (ScalarExpr.mem_listParts.mpr ⟨e, he, hp⟩)).1
  hashers := by
    intro b p hs
    obtain ⟨bs, ps, rfl, rfl, hb, hp⟩ := h.hashers b p hs
    exact ⟨fun part hm => (made_fieldHasher hb pool part hm).1,
      fun part hm => (made_fieldHasher hp pool part hm).1⟩

/-! ### the plan of a join -/

section
variable {build probe : Schema} (d : JoinDescriptor) (pool : LiteralPool)

theorem made_comparison {offset width : Nat} {pair : KeyPair} (hb : pair.build < width)
    (hp : pair.probe + offset < width) (key : EquiKey) :
    Made width pool (JoinKeys.comparison offset pair key).parts := by
  have first : Made width pool [.field pair.build] := .field hb
  have second : Made width pool [.field (pair.probe + offset)] := .field hp
  unfold JoinKeys.comparison
  cases key.reversed with
  | true => exact .compare nofun (second.append (first.append .nil))
  | false => exact .compare nofun (first.append (second.append .nil))

theorem exists_of_mem_sideOutputs {offset : Nat} {s : Schema} {pre : Option String}
    {emitKey : Bool} {skip : String → Bool} {e : ScalarExpr}
    (h : e ∈ sideOutputs offset s pre emitKey skip) :
    ∃ i label, i < s.size ∧ e = .field (offset + i) label := by
  obtain ⟨⟨f, i⟩, hm, he⟩ := List.mem_filterMap.mp h
  have bound : i < s.size :=
    (List.getElem?_eq_some_iff.mp (List.mem_zipIdx_iff_getElem?.mp hm)).1
  dsimp only at he
  split at he
  · split at he
    · split at he
      · exact ⟨i, _, bound, (Option.some.inj he).symm⟩
      · cases he
    · cases he
  · split at he
    · cases he
    · exact ⟨i, _, bound, (Option.some.inj he).symm⟩

theorem exists_of_mem_leadingKey {o : JoinOptions} {e : ScalarExpr}
    (h : e ∈ leadingKey build probe o) :
    ∃ i, i < probe.size ∧ e = .field (build.size + i) none := by
  unfold leadingKey at h
  split at h
  · cases h
  · obtain ⟨i, hi, he⟩ := Option.map_eq_some_iff.mp (Option.mem_toList.mp h)
    refine ⟨i, ?_, he.symm⟩
    unfold Schema.keyIndex? at hi
    split at hi
    · next j hk =>
      cases hi
      have found : i ∈ probe.keyIndices := hk ▸ List.mem_singleton_self i
      exact Schema.lt_size_of_mem_indicesWhere found
    · cases hi

/-- The mark stands behind the cells of both sides. -/
theorem made_markOutput {place : Nat} {o : JoinOptions} {e : ScalarExpr}
    (h : e ∈ markOutput place o) :
    o.type.isMark = true ∧ Made (place + 1) pool e.parts := by
  unfold markOutput at h
  split at h
  · next marks =>
    refine ⟨marks, ?_⟩
    obtain ⟨mark, -, rfl⟩ := List.mem_map.mp h
    have cell : Made (place + 1) pool [.field place] := .field (Nat.lt_succ_self place)
    dsimp only
    split
    · refine .call ?_ (cell.append .nil)
      intro m hm
      cases hm
      rfl
    · exact cell
  · cases h

theorem made_joinOutputs (keys : JoinKeys) :
    Made (build.size + probe.size + if d.options.type.isMark then 1 else 0) pool
      (ScalarExpr.listParts (joinOutputs build probe d keys)) := by
  refine .listParts fun e he => ?_
  unfold joinOutputs at he
  simp only [List.mem_append] at he
  rcases he with ((leading | side) | side) | mark
  · obtain ⟨i, hi, rfl⟩ := exists_of_mem_leadingKey leading
    exact .field (by omega)
  · split at side
    · obtain ⟨i, label, hi, rfl⟩ := exists_of_mem_sideOutputs side
      exact .field (by omega)
    · cases side
  · obtain ⟨i, label, hi, rfl⟩ := exists_of_mem_sideOutputs side
    exact .field (by omega)
  · obtain ⟨marks, made⟩ := made_markOutput pool mark
    rw [if_pos marks]
    exact made

variable {d pool}

theorem wellMade_plan {condition : Filter} {residual : PredicateExpr} {strategy : JoinStrategy}
    (hr : Made (build.merge probe).size pool residual.parts)
    (hs : JoinStrategy.choose d.options.algorithm (condition.keys build probe) = .ok strategy) :
    (d.plan build probe (condition.keys build probe) residual strategy).WellMade pool := by
  have width : (build.merge probe).size = build.size + probe.size := Schema.size_merge build probe
  rw [width] at hr
  refine ⟨hr, ?_, made_joinOutputs d pool _, ?_⟩
  · refine Made.simplify (fun p hp => ?_) .conjunction
    rcases List.mem_append.mp hp with compared | rest
    · obtain ⟨⟨pair, key⟩, hk, rfl⟩ := List.mem_map.mp compared
      obtain ⟨hb, hp⟩ := lt_size_of_mem_keys hk
      dsimp only at hb hp
      have bounds : pair.build < build.size + probe.size ∧
          pair.probe + build.size < build.size + probe.size := by omega
      exact made_comparison pool bounds.1 bounds.2 key
    · rw [List.mem_singleton.mp rest]
      exact hr
  · intro b p chosen
    have bounds : ∀ pair ∈ (condition.keys build probe).equalities,
        pair.build < build.size ∧ pair.probe < probe.size := fun _ => lt_size_of_mem_equalities
    have hash : strategy = .hash b p := chosen
    subst hash
    cases ha : d.options.algorithm with
    | nestedLoop =>
      rw [ha] at hs
      cases hs
    | hash =>
      rw [ha] at hs
      cases strategy_of_choose_hash hs
      exact ⟨_, _, rfl, rfl, List.forall_mem_map.mpr fun pair hp => (bounds pair hp).1,
        List.forall_mem_map.mpr fun pair hp => (bounds pair hp).2⟩

end

theorem ensures_compileJoin {c : Setting} (hc : c.functions.Keeps) (build probe : Schema)
    (d : JoinDescriptor) (filter : Option Filter) :
    Ensures (compileJoin c build probe d filter) fun pool plan => plan.WellMade pool := by
  rw [compileJoin_eq]
  refine ensures_bind (ensures_lift _) fun _ => ensures_bind (ensures_lift _) fun condition => ?_
  have planned : Ensures (compileCondition c build probe d condition)
      fun pool plan => plan.WellMade pool := by
    refine ensures_bind (ensures_compileFilter hc _ _) fun residual =>
      ensures_bind (ensures_lift _) fun strategy => ensures_pure ?_
    intro pool hs hr
    exact wellMade_plan hr hs
  exact planned.imp fun _ _ h _ _ => h

/-- What a plan is made of, whatever pool it was compiled with. -/
theorem exists_wellMade {c : Setting} (hc : c.functions.Keeps) {build probe : Schema}
    {d : JoinDescriptor} {filter : Option Filter} {pool : LiteralPool} {plan : JoinPlan}
    (h : (compileJoin c build probe d filter).result pool = .ok plan) :
    ∃ later, plan.WellMade later :=
  ⟨_, (ensures_compileJoin hc build probe d filter).yields h⟩

/-! ### a run of a plan -/

namespace JoinPlan
variable {plan : JoinPlan} {pool : LiteralPool}

/-- Candidates that have the width of the build side. -/
def Wide (plan : JoinPlan) (candidates : List Candidate) : Prop :=
  ∀ candidate ∈ candidates, candidate.2.length = plan.buildWidth

theorem safe_project (h : plan.WellMade pool) {row : Row} (hr : row.length = plan.emittedWidth) :
    Safe (plan.project row) := by
  refine safe_mapM fun e he => safe_eval row e ?_
  rw [AllFit, hr]
  exact h.fits.outputs e he

theorem safe_matcher (h : plan.WellMade pool) {b p : Row} (hb : b.length = plan.buildWidth)
    (hp : p.length = plan.probeWidth) : Safe (plan.matcher.eval (b ++ p)) := by
  refine safe_evalPredicate _ _ ?_
  rw [AllFit, List.length_append, hb, hp]
  exact h.fits.matcher

theorem emittedWidth_of_not_isMark (hm : plan.options.type.isMark = false) :
    plan.emittedWidth = plan.buildWidth + plan.probeWidth := by
  unfold emittedWidth
  rw [hm]
  rfl

theorem safe_hasMatch (h : plan.WellMade pool) {p : Row} (hp : p.length = plan.probeWidth)
    {candidates : List Candidate} (hc : plan.Wide candidates) :
    Safe (plan.hasMatch p candidates) := by
  induction candidates with
  | nil => trivial
  | cons candidate rest ih =>
    obtain ⟨first, others⟩ := List.forall_mem_cons.mp hc
    rw [hasMatch]
    refine safe_bind (safe_matcher h first hp) fun matched _ => ?_
    cases matched with
    | true => trivial
    | false => exact ih others

theorem safe_matchAll (h : plan.WellMade pool) (hm : plan.options.type.isMark = false) {p : Row}
    (hp : p.length = plan.probeWidth) {candidates : List Candidate} (hc : plan.Wide candidates) :
    Safe (plan.matchAll p candidates) := by
  induction candidates with
  | nil => trivial
  | cons candidate rest ih =>
    obtain ⟨first, others⟩ := List.forall_mem_cons.mp hc
    rw [matchAll]
    refine safe_bind (safe_matcher h first hp) fun matched _ => ?_
    cases matched with
    | true =>
      have width : (candidate.2 ++ p).length = plan.emittedWidth := by
        rw [emittedWidth_of_not_isMark hm, List.length_append, first, hp]
      exact safe_bind (safe_project h width) fun _ _ => safe_bind (ih others) fun _ _ => trivial
    | false => exact ih others

theorem safe_probe (h : plan.WellMade pool) {p : Row} (hp : p.length = plan.probeWidth)
    {candidates : List Candidate} (hc : plan.Wide candidates) : Safe (plan.probe p candidates) := by
  have missing : (nullRow plan.buildWidth).length = plan.buildWidth := List.length_replicate
  unfold JoinPlan.probe
  dsimp only
  split
  · next hm =>
    refine safe_bind (safe_hasMatch h hp hc) fun marked _ => ?_
    refine safe_bind (safe_project h ?_) fun _ _ => trivial
    unfold emittedWidth
    rw [hm, List.length_append, List.length_append, missing, hp]
    rfl
  · next hm =>
    have unmarked : plan.options.type.isMark = false := Bool.eq_false_iff.mpr hm
    refine safe_bind (safe_matchAll h unmarked hp hc) fun result _ => ?_
    split
    · refine safe_bind (safe_project h ?_) fun _ _ => trivial
      rw [emittedWidth_of_not_isMark unmarked, List.length_append, missing, hp]
    · trivial

theorem safe_unmatched (h : plan.WellMade pool) {build : List Candidate} (hb : plan.Wide build)
    (matched : List Nat) : Safe (plan.unmatched build matched) := by
  unfold unmatched
  split
  · next he =>
    have unmarked := isMark_eq_false_of_emitsBuildUnmatched he
    refine safe_mapM fun candidate hc => safe_project h ?_
    have missing : (nullRow plan.probeWidth).length = plan.probeWidth := List.length_replicate
    rw [emittedWidth_of_not_isMark unmarked, List.length_append, missing,
      hb candidate (List.mem_filter.mp hc).1]
  · trivial

theorem safe_run (h : plan.WellMade pool) {build : List Candidate} (hb : plan.Wide build)
    {probes : List Row} (hp : ∀ p ∈ probes, p.length = plan.probeWidth)
    {candidates : Row → Except Error (List Candidate)}
    (hc : ∀ p ∈ probes, ∃ found, candidates p = .ok found ∧ plan.Wide found) :
    Safe (plan.run build probes candidates) := by
  unfold run
  refine safe_bind (safe_mapM fun p hm => ?_) fun results _ =>
    safe_bind (safe_unmatched h hb _) fun _ _ => trivial
  obtain ⟨found, hf, wide⟩ := hc p hm
  rw [hf]
  exact safe_probe h (hp p hm) wide

end JoinPlan

/-! ### both algorithms -/

theorem safe_readCell (t : DataType) (cell : Datum) : Safe (Batch.readCell t cell) := by
  unfold Batch.readCell
  split
  · trivial
  · split
    · trivial
    · exact id

theorem safe_rows (batch : Batch) : Safe batch.rows :=
  safe_mapM fun _ _ => safe_mapM fun _ _ => safe_readCell _ _

theorem safe_readSide (side : JoinSide) (width : Nat) (batches : List Batch) :
    Safe (readSide side width batches) := by
  refine safe_bind (safe_mapM fun batch _ => ?_) fun _ _ => trivial
  split
  · exact safe_rows batch
  · exact id

section
variable {plan : JoinPlan} {pool : LiteralPool}

theorem wide_enumerate {batches : List Batch} {rows : List Row}
    (h : Reads plan.buildWidth batches rows) : plan.Wide (enumerate rows) :=
  fun _ hc => h.length_eq (mem_of_mem_enumerate hc)

theorem safe_nestedLoopJoin (h : plan.WellMade pool) (left right : List Batch) :
    Safe (nestedLoopJoin plan left right) := by
  refine safe_bind (safe_readSide _ _ _) fun B hB => safe_bind (safe_readSide _ _ _) fun P hP => ?_
  have readsLeft := readSide_eq_ok_iff.mp hB
  have readsRight := readSide_eq_ok_iff.mp hP
  exact JoinPlan.safe_run h (wide_enumerate readsLeft) (fun p hp => readsRight.length_eq hp)
    fun p _ => ⟨_, rfl, wide_enumerate readsLeft⟩

theorem safe_hashJoin (h : plan.WellMade pool) (left right : List Batch) :
    Safe (hashJoin plan left right) := by
  cases hs : plan.strategy with
  | nestedLoop =>
    unfold hashJoin
    rw [hs]
    exact id
  | hash b p =>
    obtain ⟨bs, ps, rfl, rfl, hb, hp⟩ := h.hashers b p hs
    have safeLeft := safe_readSide .build plan.buildWidth left
    have safeRight := safe_readSide .probe plan.probeWidth right
    cases hB : readSide .build plan.buildWidth left with
    | error e =>
      unfold hashJoin
      rw [hs]
      dsimp only
      rw [hB] at safeLeft ⊢
      exact safeLeft
    | ok B =>
      cases hP : readSide .probe plan.probeWidth right with
      | error e =>
        unfold hashJoin
        rw [hs]
        dsimp only
        rw [hP] at safeRight
        rw [hB, hP]
        exact safeRight
      | ok P =>
        have readsLeft := readSide_eq_ok_iff.mp hB
        have readsRight := readSide_eq_ok_iff.mp hP
        obtain ⟨candidates, run, found⟩ := hashJoin_eq plan hs readsLeft readsRight hb hp
        rw [run]
        refine JoinPlan.safe_run h (wide_enumerate readsLeft)
          (fun p hm => readsRight.length_eq hm) fun row hm => ⟨_, found row hm, ?_⟩
        intro candidate hc
        exact wide_enumerate readsLeft candidate (List.mem_filter.mp hc).1

end

/-- **What is compiled never fails on its own account.**  With the functions that are always there,
a compiled expression or filter asks for no cell that a row of the schema lacks and gives each
function as many operands as it takes, and so do all trees of a plan on the rows that they look at.
So no evaluation fails but on account of the values, and no join either, whatever it reads. -/
theorem compiled_safe (options : CompileOptions) (pool : LiteralPool) :
    let c : Setting := ⟨.builtins, options⟩
    (∀ s e named compiled, (compileExpr c s e named).result pool = .ok compiled →
      compiled.Fits s.size ∧ ∀ row : Row, row.length = s.size → Safe (compiled.eval row)) ∧
    (∀ s f p, (compileFilter c s f).result pool = .ok p →
      p.Fits s.size ∧ ∀ row : Row, row.length = s.size → Safe (p.eval row)) ∧
    ∀ build probe d filter plan, (compileJoin c build probe d filter).result pool = .ok plan →
      plan.buildWidth = build.size ∧ plan.probeWidth = probe.size ∧ plan.Fits ∧
        ∀ left right, Safe (nestedLoopJoin plan left right) ∧ Safe (hashJoin plan left right) := by
  intro c
  have keeps : c.functions.Keeps := Registry.keeps_builtins
  refine ⟨?_, ?_, ?_⟩
  · intro s e named compiled h
    have made := (ensures_compileExpr keeps s e named pool).2 compiled h _ fun _ hv => hv
    have fits : compiled.Fits s.size := fun part hp => (made part hp).1
    refine ⟨fits, fun row hr => safe_eval row compiled ?_⟩
    rw [AllFit, hr]
    exact fits
  · intro s f p h
    have made := (ensures_compileFilter keeps s f pool).2 p h _ fun _ hv => hv
    have fits : p.Fits s.size := fun part hp => (made part hp).1
    refine ⟨fits, fun row hr => safe_evalPredicate row p ?_⟩
    rw [AllFit, hr]
    exact fits
  · intro build probe d filter plan h
    obtain ⟨later, made⟩ := exists_wellMade keeps h
    rw [(blind_compileJoin c build probe d filter).result_eq, outcome_compileJoin] at h
    obtain ⟨-, condition, -, h⟩ := h
    obtain ⟨residual, strategy, -, -, rfl⟩ := (outcome_compileCondition c build probe d _ _).mp h
    exact ⟨rfl, rfl, made.fits, fun left right =>
      ⟨safe_nestedLoopJoin made left right, safe_hashJoin made left right⟩⟩

/-- An anti join by hash, whose last output is the mark turned round. -/
theorem compiled_safe_anti :
    let plan := Sample.plan .anti (.hash (fieldHasher [0]) (fieldHasher [0]))
    (ScalarExpr.field 1 (some "a.v")).Fits 2 ∧ Sample.residual.Fits 3 ∧
      ScalarExpr.call .not [.field 3 (some "mark")] (some "mark") ∈ plan.outputs ∧ plan.Fits ∧
      Safe (hashJoin plan [Sample.values [1, 2] [5, 1] rfl] [Sample.references [1, 4]]) := by
  intro plan
  obtain ⟨exprs, filters, joins⟩ := compiled_safe Sample.setting.options .empty
  have column : (compileExpr Sample.setting Sample.build (.path "a.v") true).result .empty =
      .ok (.field 1 (some "a.v")) := by
    rw [compileExpr]
    rfl
  have planned := Sample.result_compileJoin .anti (.hash (fieldHasher [0]) (fieldHasher [0])) rfl
  obtain ⟨-, -, fits, safe⟩ := joins Sample.build Sample.probe _ _ plan planned
  refine ⟨(exprs Sample.build _ true _ column).1, ?_, ?_, fits, (safe _ _).2⟩
  · exact (filters (Sample.build.merge Sample.probe) _ _ Sample.outcome_withoutKeys).1
  · exact List.mem_append_right _ List.mem_cons_self

end ColumnPlan
