import ColumnPlan.Join.Execute
import ColumnPlan.Proofs.Physical.Holds

/-!
# Candidates that can be left out

A probe row may be tried on fewer build rows, if none of those left out matches it: what it yields
is the same, as long as it yields something.  An error may be lost with a candidate.

* `matchAll_filter`, `hasMatch_filter`   one probe row tried on some of its candidates;
* `run_filter`                           all probe rows, each on candidates of its own;
* `JoinPlan.Alike`                       plans that differ in the way they find candidates;
* `run_congr`                            they run alike.
-/

namespace ColumnPlan.JoinPlan

/-! ### fewer candidates -/

/-- No candidate that is left out matches the probe row. -/
def Spares (plan : JoinPlan) (probe : Row) (candidates : List Candidate)
    (keep : Candidate → Bool) : Prop :=
  ∀ candidate ∈ candidates, keep candidate = false → ¬ plan.matcher.Holds (candidate.2 ++ probe)

variable {plan : JoinPlan} {probe : Row} {keep : Candidate → Bool}

/-- A candidate that matches is kept. -/
theorem Spares.keep_eq_true {candidates : List Candidate} {candidate : Candidate}
    (h : plan.Spares probe candidates keep) (hc : candidate ∈ candidates)
    (hm : plan.matcher.eval (candidate.2 ++ probe) = .ok true) : keep candidate = true := by
  by_contra hk
  have holds := (PredicateExpr.holds_iff_of_eval _ _ hm).mpr rfl
  exact h candidate hc (Bool.eq_false_iff.mpr hk) holds

theorem Spares.tail {candidate : Candidate} {rest : List Candidate}
    (h : plan.Spares probe (candidate :: rest) keep) : plan.Spares probe rest keep :=
  fun c hc => h c (List.mem_cons_of_mem _ hc)

theorem matchAll_filter {candidates : List Candidate} {result : ProbeResult}
    (hs : plan.Spares probe candidates keep) (h : plan.matchAll probe candidates = .ok result) :
    plan.matchAll probe (candidates.filter keep) = .ok result := by
  induction candidates generalizing result with
  | nil => exact h
  | cons candidate rest ih =>
    rw [matchAll] at h
    obtain ⟨matched, hm, h⟩ := bind_eq_ok_iff.mp h
    cases matched with
    | true =>
      obtain ⟨row, hr, h⟩ := bind_eq_ok_iff.mp h
      obtain ⟨more, hmore, h⟩ := bind_eq_ok_iff.mp h
      rw [List.filter_cons_of_pos (hs.keep_eq_true List.mem_cons_self hm), matchAll]
      exact bind_eq_ok_iff.mpr ⟨true, hm, bind_eq_ok_iff.mpr ⟨row, hr,
        bind_eq_ok_iff.mpr ⟨more, ih hs.tail hmore, h⟩⟩⟩
    | false =>
      -- kept or not, a candidate without a match yields nothing
      have found := ih hs.tail h
      rw [List.filter_cons]
      split
      · rw [matchAll]
        exact bind_eq_ok_iff.mpr ⟨false, hm, found⟩
      · exact found

theorem hasMatch_filter {candidates : List Candidate} {marked : Bool}
    (hs : plan.Spares probe candidates keep) (h : plan.hasMatch probe candidates = .ok marked) :
    plan.hasMatch probe (candidates.filter keep) = .ok marked := by
  induction candidates with
  | nil => exact h
  | cons candidate rest ih =>
    rw [hasMatch] at h
    obtain ⟨matched, hm, h⟩ := bind_eq_ok_iff.mp h
    cases matched with
    | true =>
      rw [List.filter_cons_of_pos (hs.keep_eq_true List.mem_cons_self hm), hasMatch]
      exact bind_eq_ok_iff.mpr ⟨true, hm, h⟩
    | false =>
      have found := ih hs.tail h
      rw [List.filter_cons]
      split
      · rw [hasMatch]
        exact bind_eq_ok_iff.mpr ⟨false, hm, found⟩
      · exact found

theorem probe_filter {candidates : List Candidate} {result : ProbeResult}
    (hs : plan.Spares probe candidates keep) (h : plan.probe probe candidates = .ok result) :
    plan.probe probe (candidates.filter keep) = .ok result := by
  unfold JoinPlan.probe at h ⊢
  dsimp only at h ⊢
  split
  · next hm =>
    rw [if_pos hm] at h
    obtain ⟨marked, hh, h⟩ := bind_eq_ok_iff.mp h
    exact bind_eq_ok_iff.mpr ⟨marked, hasMatch_filter hs hh, h⟩
  · next hm =>
    rw [if_neg hm] at h
    obtain ⟨found, hf, h⟩ := bind_eq_ok_iff.mp h
    exact bind_eq_ok_iff.mpr ⟨found, matchAll_filter hs hf, h⟩

/-- Each probe row may leave out other candidates. -/
theorem run_filter {build : List Candidate} {probes rows : List Row}
    {candidates : Row → Except Error (List Candidate)} {keep : Row → Candidate → Bool}
    (hc : ∀ probe ∈ probes, candidates probe = .ok (build.filter (keep probe)))
    (hs : ∀ probe ∈ probes, plan.Spares probe build (keep probe))
    (h : plan.run build probes (fun _ => .ok build) = .ok rows) :
    plan.run build probes candidates = .ok rows := by
  unfold run at h ⊢
  obtain ⟨results, hr, h⟩ := bind_eq_ok_iff.mp h
  refine bind_eq_ok_iff.mpr ⟨results, mapM_eq_ok_of_imp hr ?_, h⟩
  intro probe hp result hf
  rw [hc probe hp]
  exact probe_filter (hs probe hp) hf

/-! ### plans that run alike -/

/-- Plans that match and emit alike. -/
structure Alike (plan other : JoinPlan) : Prop where
  matcher : plan.matcher = other.matcher
  outputs : plan.outputs = other.outputs
  type : plan.options.type = other.options.type
  buildWidth : plan.buildWidth = other.buildWidth
  probeWidth : plan.probeWidth = other.probeWidth

variable {other : JoinPlan}

theorem Alike.project_eq (h : plan.Alike other) : plan.project = other.project := by
  funext joined
  unfold project
  rw [h.outputs]

theorem Alike.matchAll_eq (h : plan.Alike other) (probe : Row) (candidates : List Candidate) :
    plan.matchAll probe candidates = other.matchAll probe candidates := by
  induction candidates with
  | nil => rfl
  | cons candidate rest ih => rw [matchAll, matchAll, h.matcher, h.project_eq, ih]

theorem Alike.hasMatch_eq (h : plan.Alike other) (probe : Row) (candidates : List Candidate) :
    plan.hasMatch probe candidates = other.hasMatch probe candidates := by
  induction candidates with
  | nil => rfl
  | cons candidate rest ih => rw [hasMatch, hasMatch, h.matcher, ih]

theorem Alike.probe_eq (h : plan.Alike other) (probe : Row) (candidates : List Candidate) :
    plan.probe probe candidates = other.probe probe candidates := by
  unfold JoinPlan.probe
  rw [h.type, h.buildWidth, h.project_eq, h.hasMatch_eq, h.matchAll_eq]

theorem run_congr (h : plan.Alike other) (build : List Candidate) (probes : List Row)
    (candidates : Row → Except Error (List Candidate)) :
    plan.run build probes candidates = other.run build probes candidates := by
  unfold run unmatched
  simp only [h.probe_eq, h.type, h.probeWidth, h.project_eq]

end ColumnPlan.JoinPlan
