import ColumnPlan.Proofs.Join.NestedLoop
import ColumnPlan.Proofs.Join.Outputs

/-!
# Build rows without a match

Only candidates that match are reported, whichever way candidates are found.  So a left join emits
a build row that matches no probe row, with NULLs for the probe side; of its own cells that row
holds those which the plan shows.

* `mem_matched_of_probe`        a place is reported only for a match;
* `exists_of_run`               a build row without a match is emitted;
* `exists_run_of_executeJoin`   candidates are build rows in either algorithm;
* `exists_of_executeJoin`       so each build row without a match is emitted by both;
* `mem_shown_left_iff`          the build columns that a left join shows;
* `executeJoin_left`            what it shows of a build row without a match.
-/

namespace ColumnPlan

namespace JoinPlan

variable {plan : JoinPlan}

/-! ### reported places -/

theorem mem_matched_of_matchAll {row : Row} {candidates : List Candidate} {result : ProbeResult}
    (h : plan.matchAll row candidates = .ok result) {i : Nat} (hi : i ∈ result.matched) :
    ∃ b, (i, b) ∈ candidates ∧ plan.matcher.eval (b ++ row) = .ok true := by
  induction candidates generalizing result with
  | nil =>
    cases h
    exact absurd hi List.not_mem_nil
  | cons candidate rest ih =>
    rw [matchAll] at h
    obtain ⟨matched, hm, h⟩ := bind_eq_ok_iff.mp h
    cases matched with
    | true =>
      obtain ⟨joined, -, h⟩ := bind_eq_ok_iff.mp h
      obtain ⟨more, hmore, h⟩ := bind_eq_ok_iff.mp h
      cases h
      rcases List.mem_cons.mp hi with rfl | hi
      · exact ⟨candidate.2, List.mem_cons_self, hm⟩
      · obtain ⟨b, hb, he⟩ := ih hmore hi
        exact ⟨b, List.mem_cons_of_mem _ hb, he⟩
    | false =>
      obtain ⟨b, hb, he⟩ := ih h hi
      exact ⟨b, List.mem_cons_of_mem _ hb, he⟩

theorem mem_matched_of_probe {row : Row} {candidates : List Candidate} {result : ProbeResult}
    (h : plan.probe row candidates = .ok result) {i : Nat} (hi : i ∈ result.matched) :
    ∃ b, (i, b) ∈ candidates ∧ plan.matcher.eval (b ++ row) = .ok true := by
  unfold JoinPlan.probe at h
  dsimp only at h
  split at h
  · obtain ⟨marked, -, h⟩ := bind_eq_ok_iff.mp h
    obtain ⟨joined, -, h⟩ := bind_eq_ok_iff.mp h
    cases h
    exact absurd hi List.not_mem_nil
  · obtain ⟨found, hf, h⟩ := bind_eq_ok_iff.mp h
    split at h
    · obtain ⟨joined, -, h⟩ := bind_eq_ok_iff.mp h
      cases h
      exact absurd hi List.not_mem_nil
    · cases h
      exact mem_matched_of_matchAll hf hi

/-- A build row that no probe row matches is emitted with NULLs for the probe side. -/
theorem exists_of_run {build : List Candidate} {probes rows : List Row}
    {candidates : Row → Except Error (List Candidate)}
    (h : plan.run build probes candidates = .ok rows)
    (ht : plan.options.type.emitsBuildUnmatched = true) {i : Nat} {b : Row} (hb : (i, b) ∈ build)
    (alone : ∀ row ∈ probes, ∀ found, candidates row = .ok found → ∀ b', (i, b') ∈ found →
      plan.matcher.eval (b' ++ row) ≠ .ok true) :
    ∃ row ∈ rows, plan.project (b ++ nullRow plan.probeWidth) = .ok row := by
  unfold run at h
  obtain ⟨results, hr, h⟩ := bind_eq_ok_iff.mp h
  obtain ⟨rest, hu, h⟩ := bind_eq_ok_iff.mp h
  cases h
  have unreported : i ∉ results.flatMap (·.matched) := by
    intro hi
    obtain ⟨result, hresult, hi⟩ := List.mem_flatMap.mp hi
    obtain ⟨row, hrow, hp⟩ := exists_of_mem_mapM hr hresult
    obtain ⟨found, hf, hp⟩ := bind_eq_ok_iff.mp hp
    obtain ⟨b', hb', he⟩ := mem_matched_of_probe hp hi
    exact alone row hrow found hf b' hb' he
  unfold unmatched at hu
  rw [if_pos ht] at hu
  have kept : (i, b) ∈ build.filter fun candidate =>
      !(results.flatMap (·.matched)).contains candidate.1 := by
    refine List.mem_filter.mpr ⟨hb, ?_⟩
    rw [Bool.not_eq_true', ← Bool.not_eq_true, List.contains_iff_mem]
    exact unreported
  obtain ⟨row, hrow, hp⟩ := exists_mem_of_mapM hu kept
  exact ⟨row, List.mem_append_right _ hrow, hp⟩

/-- A column of the projection of a joined row. -/
theorem getElem?_of_project {joined row : Row} (h : plan.project joined = .ok row) {k i : Nat}
    (hk : plan.outputs[k]?.bind ScalarExpr.column? = some i) :
    ∃ cell, row[k]? = some cell ∧ joined[i]? = some cell := by
  obtain ⟨e, he, hc⟩ := Option.bind_eq_some_iff.mp hk
  obtain ⟨cell, hcell, value⟩ := getElem?_of_mapM h he
  refine ⟨cell, hcell, ?_⟩
  cases e with
  | field index label =>
    cases hc
    rw [ScalarExpr.eval] at value
    split at value
    · next found =>
      cases value
      exact found
    · cases value
  | literal v label | call f args label | rename label child | predicate p => cases hc

end JoinPlan

/-! ### both algorithms -/

section
variable {plan : JoinPlan} {left right : List Batch} {B P rows : List Row}

/-- The candidates for a row are build rows, in their places. -/
theorem exists_run_of_executeJoin (hl : Reads plan.buildWidth left B)
    (hr : Reads plan.probeWidth right P) (h : executeJoin plan left right = .ok rows) :
    ∃ candidates, plan.run (enumerate B) P candidates = .ok rows ∧
      ∀ row found, candidates row = .ok found → ∀ candidate ∈ found, candidate ∈ enumerate B := by
  unfold executeJoin at h
  split at h
  · rw [nestedLoopJoin_of_reads hl hr] at h
    refine ⟨_, h, fun row found hf candidate hc => ?_⟩
    cases hf
    exact hc
  · unfold hashJoin at h
    split at h
    · cases h
    · next buildHasher probeHasher _ =>
      rw [readSide_eq_ok_iff.mpr hl, readSide_eq_ok_iff.mpr hr, ok_bind, ok_bind] at h
      obtain ⟨hashed, hh, h⟩ := bind_eq_ok_iff.mp h
      refine ⟨_, h, fun row found hf candidate hc => ?_⟩
      obtain ⟨hash, -, hf⟩ := bind_eq_ok_iff.mp hf
      cases hf
      rw [Buckets.getD_ofList] at hc
      obtain ⟨entry, he, rfl⟩ := List.mem_map.mp hc
      -- hashing puts a candidate in a bucket as it is
      obtain ⟨candidate, hm, hc⟩ := exists_of_mem_mapM hh (List.mem_filter.mp he).1
      obtain ⟨_, -, hc⟩ := bind_eq_ok_iff.mp hc
      cases hc
      exact hm

/-- A join that wants build rows without a match emits each of them. -/
theorem exists_of_executeJoin (hl : Reads plan.buildWidth left B)
    (hr : Reads plan.probeWidth right P) (h : executeJoin plan left right = .ok rows)
    (ht : plan.options.type.emitsBuildUnmatched = true) {b : Row} (hb : b ∈ B)
    (alone : ∀ p ∈ P, plan.matcher.eval (b ++ p) ≠ .ok true) :
    ∃ row ∈ rows, plan.project (b ++ nullRow plan.probeWidth) = .ok row := by
  obtain ⟨candidates, run, members⟩ := exists_run_of_executeJoin hl hr h
  obtain ⟨i, hi⟩ := List.mem_iff_getElem?.mp hb
  refine JoinPlan.exists_of_run run ht (mem_enumerate.mpr hi) ?_
  intro p hp found hf b' hb'
  -- a place holds one row only
  have place := mem_enumerate.mp (members p found hf _ hb')
  cases hi.symm.trans place
  exact alone p hp

/-! ### what a left join shows -/

variable {c : Setting} {build probe : Schema} {d : JoinDescriptor} {filter : Option Filter}
  {pool : LiteralPool}

/-- A left join shows a build column that is not a key, unless an equated pair shares its name. -/
theorem mem_shown_left_iff (h : (compileJoin c build probe d filter).result pool = .ok plan)
    (hd : d.options.type = .left) {l : Nat} {f : Field} (hf : build.fields[l]? = some f)
    (hk : f.isKey = false) : l ∈ plan.shown ↔ f.name ∉ sharedNames build probe plan.keys := by
  have count : plan.shown.count l = if d.skipsBuild build probe plan.keys f.name then 0 else 1 := by
    obtain ⟨fs, residual, strategy, -, -, rfl⟩ := exists_of_compileJoin h
    have unmarked : d.options.type.isMark = false := hd ▸ rfl
    exact count_shown_build unmarked hf hk
  have skips : d.skipsBuild build probe plan.keys f.name = true ↔
      f.name ∈ sharedNames build probe plan.keys := by
    rw [d.skipsBuild_eq_true_iff, hd]
    exact or_iff_left fun other => other.1 rfl
  rw [← List.count_pos_iff, count, ← skips]
  split
  · next skipped => exact iff_of_false (Nat.lt_irrefl 0) fun kept => kept skipped
  · next kept => exact iff_of_true Nat.one_pos kept

end

/-- **A left join emits a build row without a match**, with NULLs for all columns of the probe side.
The row holds each value of the build row, keys apart, whose name is not shared by an equated
pair. -/
theorem executeJoin_left (c : Setting) (build probe : Schema) (d : JoinDescriptor)
    (filter : Option Filter) (pool : LiteralPool) {plan : JoinPlan}
    (h : (compileJoin c build probe d filter).result pool = .ok plan)
    (hd : d.options.type = .left) {left right : List Batch} {B P rows : List Row}
    (hl : Reads build.size left B) (hr : Reads probe.size right P)
    (he : executeJoin plan left right = .ok rows) {b : Row} (hb : b ∈ B)
    (alone : ∀ p ∈ P, plan.matcher.eval (b ++ p) ≠ .ok true) :
    ∃ row ∈ rows,
      (∀ l f, build.fields[l]? = some f → f.isKey = false →
        f.name ∉ sharedNames build probe plan.keys →
          ∃ k : Nat, plan.outputs[k]?.bind ScalarExpr.column? = some l ∧ row[k]? = b[l]?) ∧
      ∀ k r : Nat, plan.outputs[k]?.bind ScalarExpr.column? = some (build.size + r) →
        row[k]? = some none := by
  have shown := fun {l f} hf hk => mem_shown_left_iff (l := l) (f := f) h hd hf hk
  obtain ⟨fs, residual, strategy, -, -, parts⟩ := exists_of_compileJoin h
  subst parts
  have wanted : d.options.type.emitsBuildUnmatched = true := hd ▸ rfl
  obtain ⟨row, hrow, project⟩ := exists_of_executeJoin hl hr he wanted hb alone
  have width : b.length = build.size := hl.length_eq hb
  refine ⟨row, hrow, ?_, ?_⟩
  · intro l f hf hk unshared
    obtain ⟨e, hm, column⟩ := List.mem_filterMap.mp ((shown hf hk).mpr unshared)
    obtain ⟨k, hk⟩ := List.mem_iff_getElem?.mp hm
    have output := Option.bind_eq_some_iff.mpr ⟨e, hk, column⟩
    obtain ⟨cell, value, joined⟩ := JoinPlan.getElem?_of_project project output
    have bound : l < b.length := width ▸ (List.getElem?_eq_some_iff.mp hf).1
    rw [List.getElem?_append_left bound] at joined
    exact ⟨k, output, value.trans joined.symm⟩
  · intro k r hk
    obtain ⟨cell, value, joined⟩ := JoinPlan.getElem?_of_project project hk
    rw [← width, List.getElem?_append_right (Nat.le_add_right _ _)] at joined
    have missing : cell = none := List.eq_of_mem_replicate (List.mem_of_getElem? joined)
    rw [value, missing]

/-- The second of two build rows matches no number, and its own number is kept. -/
theorem executeJoin_left_unmatched :
    ∃ plan rows, (compileJoin Sample.setting Sample.build Sample.probe
        (Sample.descriptor .left .nestedLoop) none).result .empty = .ok plan ∧
      executeJoin plan [Sample.values [1, 2] [5, 1] rfl] [Sample.references [1, 4]] = .ok rows ∧
      ∃ row ∈ rows, ∃ k : Nat, plan.outputs[k]?.bind ScalarExpr.column? = some 0 ∧
        row[k]? = some (some (.integer 2)) := by
  have planned := Sample.result_compileJoin_equated .left
  have left : Reads Sample.build.size [Sample.values [1, 2] [5, 1] rfl]
      [[some (.integer 1), some (.long 5)], [some (.integer 2), some (.long 1)]] :=
    ⟨by decide, _, rfl, rfl⟩
  have right : Reads Sample.probe.size [Sample.references [1, 4]]
      [[some (.long 1)], [some (.long 4)]] := ⟨by decide, _, rfl, rfl⟩
  have alone : ∀ p ∈ [[some (.long 1)], [some (.long 4)]],
      (Sample.equatedPlan .left).matcher.eval ([some (.integer 2), some (.long 1)] ++ p) ≠
        .ok true := by
    intro p hp
    rcases List.mem_pair.mp hp with rfl | rfl
    · exact nofun
    · exact nofun
  obtain ⟨row, hrow, kept, -⟩ := executeJoin_left _ _ _ _ _ _ planned rfl left right rfl
    (List.mem_cons_of_mem _ List.mem_cons_self) alone
  exact ⟨_, _, planned, rfl, row, hrow, kept 0 _ rfl rfl (by decide)⟩

/-! ### a shared name -/

namespace Sample

def numbers (ids vs : List Int64) (h : vs.length = ids.length) : Batch :=
  ⟨numbered, [ids.map fun n => some (.long n), vs.map fun n => some (.long n)], ids.length, rfl,
    by simp [h]⟩

def weights (ids ws : List Int64) (h : ws.length = ids.length) : Batch :=
  ⟨renumbered, [ids.map fun n => some (.long n), ws.map fun n => some (.long n)], ids.length, rfl,
    by simp [h]⟩

end Sample

/-- The number of a build row without a match is lost, if both sides have a number of that name and
the numbers are equated. -/
theorem executeJoin_left_shared :
    ∃ plan, (compileJoin Sample.setting Sample.numbered Sample.renumbered
        (Sample.unprefixed [] ["id"]) none).result .empty = .ok plan ∧
      0 ∉ plan.shown ∧
      executeJoin plan [Sample.numbers [1, 2] [10, 20] rfl] [Sample.weights [1] [7] rfl] =
        .ok [[some (.long 10), some (.long 1), some (.long 7)], [some (.long 20), none, none]] := by
  have planned : (compileJoin Sample.setting Sample.numbered Sample.renumbered
      (Sample.unprefixed [] ["id"]) none).result .empty =
      .ok (Sample.keyPlan Sample.numbered Sample.renumbered (Sample.unprefixed [] ["id"])
        Sample.sameId) := Sample.result_compileJoin_keyPlan rfl rfl rfl rfl
  exact ⟨_, planned, by decide, rfl⟩

end ColumnPlan
