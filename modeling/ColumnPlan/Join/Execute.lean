import ColumnPlan.Join.Plan
import ColumnPlan.Physical.Eval
import ColumnPlan.Schema.Batch
import Std.Data.HashMap

/-!
# Execution of joins

Each probe row is tried on some build rows, its *candidates*, in their order.  At the end come
the build rows that had no match, if they are wanted.

* `JoinPlan.probe`        what one probe row yields;
* `JoinPlan.run`          what all of them yield, and the build rows without a match;
* `nestedLoopJoin`        every build row is a candidate;
* `hashJoin`              the build rows of the same hash are;
* `executeJoin`           the algorithm of the plan.
-/

namespace ColumnPlan

/-- A build row with its place. -/
abbrev Candidate := Nat × Row

/-- What a probe row yields: the places of the build rows that it matched, and rows. -/
structure ProbeResult where
  matched : List Nat
  rows : List Row

def nullRow (width : Nat) : Row := List.replicate width none

namespace JoinPlan

def project (plan : JoinPlan) (joined : Row) : Except Error Row :=
  plan.outputs.mapM (·.eval joined)

/-- All pairs with a probe row, up to the first error. -/
def matchAll (plan : JoinPlan) (probe : Row) : List Candidate → Except Error ProbeResult
  | [] => .ok ⟨[], []⟩
  | (i, build) :: rest => do
    if ← plan.matcher.eval (build ++ probe) then
      let row ← plan.project (build ++ probe)
      let more ← plan.matchAll probe rest
      pure ⟨i :: more.matched, row :: more.rows⟩
    else plan.matchAll probe rest

/-- Whether a probe row has a match.  Nothing behind the first match is tried. -/
def hasMatch (plan : JoinPlan) (probe : Row) : List Candidate → Except Error Bool
  | [] => .ok false
  | (_, build) :: rest => do
    if ← plan.matcher.eval (build ++ probe) then pure true else plan.hasMatch probe rest

def probe (plan : JoinPlan) (row : Row) (candidates : List Candidate) :
    Except Error ProbeResult :=
  let missing := nullRow plan.buildWidth
  if plan.options.type.isMark then do
    let marked ← plan.hasMatch row candidates
    pure ⟨[], [← plan.project (missing ++ row ++ [some (.boolean marked)])]⟩
  else do
    let result ← plan.matchAll row candidates
    if result.matched.isEmpty && plan.options.type.emitsProbeUnmatched then
      pure ⟨[], [← plan.project (missing ++ row)]⟩
    else pure result

/-- The build rows whose places are not among the matched ones. -/
def unmatched (plan : JoinPlan) (build : List Candidate) (matched : List Nat) :
    Except Error (List Row) :=
  if plan.options.type.emitsBuildUnmatched then
    (build.filter fun candidate => !matched.contains candidate.1).mapM fun candidate =>
      plan.project (candidate.2 ++ nullRow plan.probeWidth)
  else .ok []

def run (plan : JoinPlan) (build : List Candidate) (probes : List Row)
    (candidates : Row → Except Error (List Candidate)) : Except Error (List Row) := do
  let results ← probes.mapM fun row => do plan.probe row (← candidates row)
  let rest ← plan.unmatched build (results.flatMap (·.matched))
  pure (results.flatMap (·.rows) ++ rest)

end JoinPlan

/-- The rows of the batches of a side. -/
def readSide (side : JoinSide) (width : Nat) (batches : List Batch) : Except Error (List Row) := do
  let rows ← batches.mapM fun batch =>
    if batch.width = width then batch.rows
    else .error (.malformed (.batchWidth side batch.width width))
  pure rows.flatten

def enumerate (rows : List Row) : List Candidate := rows.zipIdx.map fun (row, i) => (i, row)

def nestedLoopJoin (plan : JoinPlan) (build probe : List Batch) : Except Error (List Row) := do
  let buildRows := enumerate (← readSide .build plan.buildWidth build)
  let probeRows ← readSide .probe plan.probeWidth probe
  plan.run buildRows probeRows fun _ => .ok buildRows

/-! ### hashing -/

/-- Candidates by their hashes. -/
abbrev Buckets := Std.HashMap UInt64 (List Candidate)

namespace Buckets

def add (hash : UInt64) (candidate : Candidate) (buckets : Buckets) : Buckets :=
  buckets.insert hash (candidate :: buckets.getD hash [])

/-- The candidates of one hash keep their order. -/
def ofList (candidates : List (UInt64 × Candidate)) : Buckets :=
  candidates.foldr (fun (hash, candidate) buckets => buckets.add hash candidate) ∅

theorem getD_ofList (candidates : List (UInt64 × Candidate)) (hash : UInt64) :
    (ofList candidates).getD hash [] = (candidates.filter (·.1 = hash)).map (·.2) := by
  induction candidates with
  | nil => simp [ofList]
  | cons entry rest ih =>
    obtain ⟨h, candidate⟩ := entry
    simp only [ofList, List.foldr_cons, add, Std.HashMap.getD_insert] at ih ⊢
    by_cases e : h = hash
    · subst e; simp [ih]
    · simp [e, ih]

end Buckets

/-- The hash of a row. -/
def hashOf (hasher : ScalarExpr) (row : Row) : Except Error UInt64 := do
  match ← hasher.eval row with
  | some (.long hash) => pure hash.toUInt64
  | other =>
    throw (.internal ("hasher produced " ++ Datum.debug other ++ " instead of a 64-bit hash"))

def hashJoin (plan : JoinPlan) (build probe : List Batch) : Except Error (List Row) :=
  match plan.strategy with
  | .nestedLoop => .error (.unsupported .noHashers)
  | .hash buildHasher probeHasher => do
    let buildRows := enumerate (← readSide .build plan.buildWidth build)
    let probeRows ← readSide .probe plan.probeWidth probe
    let hashed ← buildRows.mapM fun candidate => do
      pure (← hashOf buildHasher candidate.2, candidate)
    let buckets := Buckets.ofList hashed
    plan.run buildRows probeRows fun row => do
      pure (buckets.getD (← hashOf probeHasher row) [])

def executeJoin (plan : JoinPlan) (build probe : List Batch) : Except Error (List Row) :=
  match plan.algorithm with
  | .nestedLoop => nestedLoopJoin plan build probe
  | .hash => hashJoin plan build probe

end ColumnPlan
