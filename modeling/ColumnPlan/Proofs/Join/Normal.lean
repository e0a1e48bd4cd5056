import ColumnPlan.Proofs.Compile.Built
import ColumnPlan.Proofs.Join.Hash
import ColumnPlan.Proofs.Physical.Normal

/-!
# Compiled predicates are in normal form

A compiler makes a connective only by simplification, which keeps normal forms, and a comparison
only of operands that it has compiled.  The matcher of a plan is put together in the same way, of
its keys and the rest of the condition.

* `closed_normal`       the steps of a compiler keep normal forms;
* `compiled_normal`     all compiled predicates are in normal form.
-/

namespace ColumnPlan

open Compile

theorem closed_normal (width : Nat) :
    Closed width (fun _ e => e.Normal) fun _ p => p.Normal where
  field := fun {_ i} _ => .field i none
  literal := fun {_ v} _ => .literal v none
  call := fun {_ f _} _ h => .call f none h
  predicate := .predicate
  compare := fun {_ f _} _ _ h => .compare f h
  simplify := fun k _ h => k.normal_simplify h

theorem normal_comparison (width : Nat) (pair : KeyPair) (key : EquiKey) :
    (JoinKeys.comparison width pair key).Normal := by
  refine .compare _ fun e he => ?_
  split at he
  · rcases List.mem_pair.mp he with rfl | rfl
    · exact .field _ none
    · exact .field _ none
  · rcases List.mem_pair.mp he with rfl | rfl
    · exact .field _ none
    · exact .field _ none

section
variable {c : Setting} (hands : c.functions.Hands fun _ e => e.Normal)
include hands

theorem normal_of_compileFilter {s : Schema} {f : Filter} {pool : LiteralPool} {p : PredicateExpr}
    (h : (compileFilter c s f).result pool = .ok p) : p.Normal :=
  ((closed_normal s.size).ensures_filter hands f).yields h

theorem normal_of_compileJoin {build probe : Schema} {d : JoinDescriptor} {filter : Option Filter}
    {pool : LiteralPool} {plan : JoinPlan}
    (h : (compileJoin c build probe d filter).result pool = .ok plan) :
    plan.residual.Normal ∧ plan.matcher.Normal := by
  rw [(blind_compileJoin c build probe d filter).result_eq, outcome_compileJoin] at h
  obtain ⟨-, condition, -, h⟩ := h
  obtain ⟨residual, strategy, hr, -, rfl⟩ := (outcome_compileCondition c build probe d _ _).mp h
  have normal : residual.Normal := normal_of_compileFilter hands hr
  refine ⟨normal, Connective.normal_simplify .conjunction fun p hp => ?_⟩
  rcases List.mem_append.mp hp with compared | rest
  · obtain ⟨⟨pair, key⟩, -, rfl⟩ := List.mem_map.mp compared
    exact normal_comparison build.size pair key
  · rw [List.mem_singleton.mp rest]
    exact normal

end

/-- **Compiled predicates are in normal form.**  With the functions that are always there, every
compiled filter, and the residual condition and the matcher of every plan, have at each depth only
connectives of two children or more, none of them a constant or a connective of the same kind; so
have the conditions of case expressions in the operands of comparisons. -/
theorem compiled_normal (options : CompileOptions) (pool : LiteralPool) :
    let c : Setting := ⟨.builtins, options⟩
    (∀ s f p, (compileFilter c s f).result pool = .ok p → p.Normal) ∧
    ∀ build probe d filter plan, (compileJoin c build probe d filter).result pool = .ok plan →
      plan.residual.Normal ∧ plan.matcher.Normal := by
  intro c
  have hands : c.functions.Hands fun _ e => e.Normal := (closed_normal 0).hands_builtins
  exact ⟨fun _ _ _ => normal_of_compileFilter hands, fun _ _ _ _ _ => normal_of_compileJoin hands⟩

/-- A join whose condition nests conjunctions and keeps a constant and a comparison of its own. -/
theorem compiled_normal_left :
    let plan := Sample.plan .left .nestedLoop
    (compileFilter Sample.setting (Sample.build.merge Sample.probe)
        (Sample.condition.withoutKeys Sample.build Sample.probe)).result .empty =
      .ok Sample.residual ∧ Sample.residual.Normal ∧
    plan.residual.Normal ∧ plan.matcher.Normal := by
  intro plan
  obtain ⟨filters, joins⟩ := compiled_normal Sample.setting.options .empty
  have planned := Sample.result_compileJoin .left .nestedLoop rfl
  exact ⟨Sample.outcome_withoutKeys, filters _ _ _ Sample.outcome_withoutKeys,
    joins Sample.build Sample.probe _ _ plan planned⟩

end ColumnPlan
