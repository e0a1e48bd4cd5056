import ColumnPlan.Join.Plan
import ColumnPlan.Proofs.Join.Keys

/-!
# The plan of a join and its condition

A plan keeps the keys apart from the rest of the condition and puts them together again in its
matcher.  The matcher holds where the condition, compiled in one piece, holds.

* `Filter.keys`, `Filter.withoutKeys`   what is taken out of a condition and what remains;
* `JoinDescriptor.plan`                 a plan from its parts;
* `outcome_compileJoin`                 a join has a plan iff each of its parts can be made;
* `matcher_holds_iff`                   when the matcher of a plan holds;
* `eval_matcher_eq`                     the matcher and the compiled condition agree.
-/

namespace ColumnPlan

open Compile PredicateExpr

section
variable (build probe : Schema)

/-- the keys of a condition -/
def Filter.keys (condition : Filter) : JoinKeys := ((takeKeys build probe condition).run .empty).2

/-- a condition without its keys -/
def Filter.withoutKeys (condition : Filter) : Filter :=
  ((takeKeys build probe condition).run .empty).1

/-- the plan that has these parts -/
def JoinDescriptor.plan (d : JoinDescriptor) (keys : JoinKeys) (residual : PredicateExpr)
    (strategy : JoinStrategy) : JoinPlan where
  keys := keys
  residual := residual
  matcher := .allOf (keys.comparisons build.size ++ [residual])
  outputs := joinOutputs build probe d keys
  strategy := strategy
  options := d.options
  buildWidth := build.size
  probeWidth := probe.size

end

section
variable (c : Setting) (build probe : Schema) (d : JoinDescriptor)

/-- the plan of a join whose condition is known -/
def compileCondition (condition : Filter) : Compile JoinPlan := do
  let residual ← compileFilter c (build.merge probe) (condition.withoutKeys build probe)
  let strategy ← JoinStrategy.choose d.options.algorithm (condition.keys build probe)
  pure (d.plan build probe (condition.keys build probe) residual strategy)

theorem blind_compileCondition (condition : Filter) :
    Blind (compileCondition c build probe d condition) :=
  blind_bind (blind_compileFilter c _ _) fun _ => blind_bind (blind_lift _) fun _ => blind_pure _

theorem outcome_compileCondition (condition : Filter) (plan : JoinPlan) :
    (compileCondition c build probe d condition).outcome = .ok plan ↔
      ∃ residual strategy,
        (compileFilter c (build.merge probe) (condition.withoutKeys build probe)).outcome =
          .ok residual ∧
        JoinStrategy.choose d.options.algorithm (condition.keys build probe) = .ok strategy ∧
        plan = d.plan build probe (condition.keys build probe) residual strategy := by
  rw [compileCondition, outcome_bind _ fun _ => blind_bind (blind_lift _) fun _ => blind_pure _,
    bind_eq_ok_iff]
  constructor
  · rintro ⟨residual, hr, h⟩
    rw [outcome_bind _ fun _ => blind_pure _] at h
    obtain ⟨strategy, hs, h⟩ := bind_eq_ok_iff.mp h
    exact ⟨residual, strategy, hr, hs, (Except.ok.inj h).symm⟩
  · rintro ⟨residual, strategy, hr, hs, rfl⟩
    refine ⟨residual, hr, ?_⟩
    rw [outcome_bind _ fun _ => blind_pure _]
    exact bind_eq_ok_iff.mpr ⟨strategy, hs, rfl⟩

variable (filter : Option Filter)

theorem compileJoin_eq : compileJoin c build probe d filter =
    liftM d.options.validate >>= fun _ =>
      liftM (joinCondition build probe d filter) >>= compileCondition c build probe d := rfl

theorem blind_compileJoin : Blind (compileJoin c build probe d filter) := by
  rw [compileJoin_eq]
  exact blind_bind (blind_lift _) fun _ =>
    blind_bind (blind_lift _) (blind_compileCondition c build probe d)

theorem outcome_compileJoin (plan : JoinPlan) :
    (compileJoin c build probe d filter).outcome = .ok plan ↔
      d.options.validate = .ok () ∧ ∃ condition,
        joinCondition build probe d filter = .ok condition ∧
        (compileCondition c build probe d condition).outcome = .ok plan := by
  rw [compileJoin_eq, outcome_bind _ fun _ =>
    blind_bind (blind_lift _) (blind_compileCondition c build probe d), bind_eq_ok_iff]
  constructor
  · rintro ⟨_, hv, h⟩
    rw [outcome_bind _ (blind_compileCondition c build probe d)] at h
    exact ⟨hv, bind_eq_ok_iff.mp h⟩
  · rintro ⟨hv, h⟩
    refine ⟨(), hv, ?_⟩
    rw [outcome_bind _ (blind_compileCondition c build probe d)]
    exact bind_eq_ok_iff.mpr h

/-! ### the condition of a plan -/

variable {c build probe d}

theorem lt_size_of_mem_keys {condition : Filter} {entry : KeyPair × EquiKey}
    (h : entry ∈ (condition.keys build probe).entries) :
    entry.1.build < build.size ∧ entry.1.probe < probe.size := by
  refine forall_mem_takeKeys (P := fun entry => entry.1.build < build.size ∧
    entry.1.probe < probe.size) (fun _ _ _ _ => lt_size_of_place) condition .empty ?_ _ h
  exact fun _ hm => absurd hm List.not_mem_nil

theorem lt_size_of_mem_equalities {condition : Filter} {pair : KeyPair}
    (h : pair ∈ (condition.keys build probe).equalities) :
    pair.build < build.size ∧ pair.probe < probe.size := by
  obtain ⟨key, hk, -⟩ := mem_equalities.mp h
  exact lt_size_of_mem_keys hk

theorem holds_matcher_iff {keys : JoinKeys} {residual : PredicateExpr} {strategy : JoinStrategy}
    (row : Row) :
    (d.plan build probe keys residual strategy).matcher.Holds row ↔
      keys.Hold row build.size ∧ residual.Holds row := by
  show (allOf _).Holds row ↔ _
  rw [holds_allOf, List.forall_mem_append, List.forall_mem_singleton, JoinKeys.comparisons,
    List.forall_mem_map]
  rfl

/-- Of a condition that compiles as a whole the part without the keys compiles too. -/
theorem taken_withoutKeys {condition : Filter}
    (h : condition.Compiles c (build.merge probe)) :
    Taken c build probe [condition] .empty [condition.withoutKeys build probe]
      (condition.keys build probe) := taken_takeKeys condition .empty h

theorem hold_empty (row : Row) (width : Nat) : JoinKeys.Hold row width .empty :=
  fun _ h => absurd h List.not_mem_nil

/-- The matcher of a plan holds where the condition is true. -/
theorem holds_matcher_iff_meaningIn {condition : Filter} {residual : PredicateExpr}
    {strategy : JoinStrategy} (h : condition.Compiles c (build.merge probe))
    (hr : (compileFilter c (build.merge probe) (condition.withoutKeys build probe)).outcome =
      .ok residual) (row : Row) :
    (d.plan build probe (condition.keys build probe) residual strategy).matcher.Holds row ↔
      condition.meaningIn c (build.merge probe) row = .true := by
  have taken := (taken_withoutKeys h).holds_iff row
  rw [List.forall_mem_singleton, List.forall_mem_singleton] at taken
  rw [holds_matcher_iff, holds_of_compileFilter c _ row hr, and_comm, taken]
  exact and_iff_left (hold_empty row build.size)

/-- **A join by trying all pairs has a plan if its condition compiles in one piece, and the
matcher of the plan and the compiled condition agree** on every row on which both evaluate. -/
theorem eval_matcher_eq (hv : d.options.validate = .ok ())
    (ha : d.options.algorithm = .nestedLoop) {condition : Filter}
    (hc : joinCondition build probe d filter = .ok condition) (pool : LiteralPool)
    {p : PredicateExpr}
    (hp : (compileFilter c (build.merge probe) condition).result pool = .ok p)
    (other : LiteralPool) :
    ∃ plan, (compileJoin c build probe d filter).result other = .ok plan ∧
      ∀ (row : Row) (b b' : Bool), p.eval row = .ok b → plan.matcher.eval row = .ok b' →
        b = b' := by
  rw [(blind_compileFilter c _ _).result_eq] at hp
  have compiles : condition.Compiles c (build.merge probe) := ⟨p, hp⟩
  obtain ⟨residual, hr⟩ := (taken_withoutKeys compiles).compiles _ List.mem_cons_self
  refine ⟨d.plan build probe (condition.keys build probe) residual .nestedLoop, ?_, ?_⟩
  · rw [(blind_compileJoin c build probe d filter).result_eq, outcome_compileJoin]
    refine ⟨hv, condition, hc, ?_⟩
    rw [outcome_compileCondition]
    exact ⟨residual, .nestedLoop, hr, by rw [ha]; rfl, rfl⟩
  · intro row b b' hb hb'
    rw [Bool.eq_iff_iff, ← holds_iff_of_eval row p hb, ← holds_iff_of_eval row _ hb',
      holds_matcher_iff_meaningIn compiles hr row, holds_of_compileFilter c _ row hp]

end

/-! ### a key with its operands swapped -/

namespace Sample

def setting : Setting := ⟨.builtins, ⟨false, true⟩⟩

/-- numbered values -/
def build : Schema := ⟨[⟨"a.id", .int32, true, none⟩, ⟨"a.v", .int64, true, none⟩]⟩

/-- numbers that refer to them -/
def probe : Schema := ⟨[⟨"b.id", .int64, true, none⟩]⟩

def descriptor (type : JoinType) (algorithm : JoinAlgorithm) : JoinDescriptor :=
  ⟨⟨type, algorithm, false, some "mark"⟩, some "a", some "b", ["id"], []⟩

def filter : Filter :=
  .and [.path "b.id" ⟨.eq, .any⟩ "a.id", .value "a.v" ⟨.gt, .any⟩ (.long 3)]

/-- the filter with the equation of the descriptor -/
def condition : Filter := .and [filter, .path "a.id" ⟨.eq, .any⟩ "b.id"]

end Sample

/-- The filter takes the key with its operands swapped, so the equation of the descriptor remains
in the condition. -/
theorem eval_matcher_swapped :
    ∃ plan, (compileJoin Sample.setting Sample.build Sample.probe
        (Sample.descriptor .inner .nestedLoop) Sample.filter).result .empty = .ok plan ∧
      ∀ b, plan.matcher.eval [some (.integer 1), some (.long 5), some (.long 1)] = .ok b →
        true = b := by
  have condition : joinCondition Sample.build Sample.probe (Sample.descriptor .inner .nestedLoop)
      Sample.filter = .ok Sample.condition := rfl
  have compiled : (compileFilter Sample.setting (Sample.build.merge Sample.probe)
      Sample.condition).result .empty =
      .ok (.and [.compare (.compare .eq) [.field 2 none, .field 0 none],
        .compare (.compare .gt) [.field 1 none, .literal (.long 3) none],
        .compare (.compare .eq) [.field 0 none, .field 2 none]]) := by
    rw [compileFilter]
    show (compileNormal _ _ Sample.condition).result .empty = _
    rw [Sample.condition, Sample.filter, compileNormal, compileNormals, compileNormal,
      compileNormals, compileNormal, compileNormals, compileNormal, compileNormals,
      compileNormals, compileNormal, compileNormals]
    rfl
  obtain ⟨plan, hp, h⟩ := eval_matcher_eq Sample.filter
    (d := Sample.descriptor .inner .nestedLoop) rfl rfl condition .empty compiled .empty
  exact ⟨plan, hp, fun b => h _ true b rfl⟩

end ColumnPlan
