import ColumnPlan.Proofs.Compile.Parallel
import ColumnPlan.Proofs.Compile.Success

/-!
# Filters with their parts in another order

With cheap parts first or not, a filter has the same leaves, so it can be compiled either way or
not at all.  A leaf may have conditions inside, whose parts change places as well.  Its operands are
then the same but for these conditions, and a function that does not look into them takes both.

* `ScalarExpr.skeleton`             an expression without the predicates inside;
* `Registry.IgnoresPredicates`      no function looks into the predicates of its arguments;
* `parallel_reordered`              either way expressions have the same skeletons;
* `compiles_reordered_iff`          filters can be compiled either way or not at all;
* `compileFilter_leaves`            the leaves alone decide what can be compiled.
-/

namespace ColumnPlan

open Compile

/-! ### skeletons -/

mutual

/-- The expression with `always` in place of each predicate inside. -/
def ScalarExpr.skeleton : ScalarExpr → ScalarExpr
  | .field index label => .field index label
  | .literal value label => .literal value label
  | .call function args label => .call function (ScalarExpr.skeletonAll args) label
  | .rename label child => .rename label child.skeleton
  | .predicate _ => .predicate .always

def ScalarExpr.skeletonAll : List ScalarExpr → List ScalarExpr
  | [] => []
  | e :: es => e.skeleton :: ScalarExpr.skeletonAll es

end

namespace ScalarExpr

theorem skeletonAll_of_forall₂ {es es' : List ScalarExpr}
    (h : List.Forall₂ (fun e e' => skeleton e = skeleton e') es es') :
    skeletonAll es = skeletonAll es' := by
  induction h with
  | nil => rfl
  | cons same _ ih => rw [skeletonAll, skeletonAll, same, ih]

theorem skeleton_withAlias (label : String) (e : ScalarExpr) :
    (e.withAlias label).skeleton = e.skeleton.withAlias label := by
  cases e with
  | field | literal | call | rename | predicate => rfl

theorem skeleton_call (f : ScalarFunction) (label : Option String) {args args' : List ScalarExpr}
    (h : List.Forall₂ (fun e e' => skeleton e = skeleton e') args args') :
    (call f args label).skeleton = (call f args' label).skeleton := by
  rw [skeleton, skeleton, skeletonAll_of_forall₂ h]

end ScalarExpr

/-- What a function makes of its arguments does not depend on the predicates inside them, but for
the predicates inside what it makes. -/
def Registry.IgnoresPredicates (r : Registry) : Prop :=
  r.Respects fun e e' => e.skeleton = e'.skeleton

theorem Registry.ignoresPredicates_builtins : Registry.builtins.IgnoresPredicates :=
  Registry.respects_builtins fun f _ _ h => ScalarExpr.skeleton_call f none (.cons h .nil)

/-! ### the same leaves in another order -/

section
variable {functions : Registry} (ignores : functions.IgnoresPredicates) (before after fold : Bool)
  (s : Schema)

/-- A leaf without expressions below it has no parts to change places. -/
theorem compileNormal_simple {f : Filter} (h : f.isLeaf = true)
    (hf : ∀ l op r, f ≠ .expr l op r) :
    compileNormal ⟨functions, ⟨before, fold⟩⟩ s f =
      compileNormal ⟨functions, ⟨after, fold⟩⟩ s f := by
  cases f with
  | and | or | not => cases h
  | expr left op right => exact absurd rfl (hf left op right)
  | path | member | bool => rw [compileNormal, compileNormal]
  | value | key =>
    rw [compileNormal, compileNormal]
    rfl

include ignores

theorem parallel_reordered :
    Parallel ⟨functions, ⟨before, fold⟩⟩ ⟨functions, ⟨after, fold⟩⟩ s
      (fun e e' => e.skeleton = e'.skeleton) fun _ _ => True where
  functions := rfl
  respects := ignores
  field _ _ := rfl
  literal _ _ := rfl
  call f _ _ label h := ScalarExpr.skeleton_call f label h
  rename label _ _ h := by rw [ScalarExpr.skeleton, ScalarExpr.skeleton, h]
  withAlias label e e' h := by rw [e.skeleton_withAlias, e'.skeleton_withAlias, h]
  predicate _ := rfl
  compare _ _ _ _ _ _ _ := trivial
  simple f h hf := by
    rw [compileNormal_simple before after fold s h hf]
    exact leads_self (blind_compileNormal _ s f) fun _ => trivial
  filter f h := by
    intro pool other p hp
    have compiles : f.Compiles ⟨functions, ⟨before, fold⟩⟩ s :=
      ⟨p, (blind_compileFilter _ s f .empty pool).trans hp⟩
    have each : ∀ leaf ∈ f.pushNot.leaves, leaf.Compiles ⟨functions, ⟨after, fold⟩⟩ s := by
      intro leaf hl
      have isLeaf := Filter.isLeaf_of_mem_leaves hl
      obtain ⟨p, hp⟩ := f.compiles_iff_leaves_pushNot.mp compiles leaf hl
      rw [Filter.outcome_compileFilter_of_isLeaf isLeaf] at hp
      obtain ⟨q, hq, -⟩ := h leaf hl .empty .empty p hp
      exact ⟨q, (Filter.outcome_compileFilter_of_isLeaf isLeaf).trans hq⟩
    obtain ⟨q, hq⟩ := f.compiles_iff_leaves_pushNot.mpr each
    exact ⟨q, (blind_compileFilter _ s f other .empty).trans hq, trivial⟩

theorem compiles_reordered_iff (f : Filter) :
    f.Compiles ⟨functions, ⟨before, fold⟩⟩ s ↔ f.Compiles ⟨functions, ⟨after, fold⟩⟩ s := by
  constructor
  · rintro ⟨p, hp⟩
    obtain ⟨q, hq, -⟩ :=
      (parallel_reordered ignores before after fold s).leads_filter f .empty .empty p hp
    exact ⟨q, hq⟩
  · rintro ⟨p, hp⟩
    obtain ⟨q, hq, -⟩ :=
      (parallel_reordered ignores after before fold s).leads_filter f .empty .empty p hp
    exact ⟨q, hq⟩

end

/-- **The leaves alone decide whether a filter can be compiled.**  It can iff each leaf of its
normal form can, and else it fails with the error of the first leaf that fails, whatever constants
stand beside it.  So a filter can be compiled iff its negation can, and the order of its parts makes
no difference, unless a function looks into the predicates of its arguments. -/
theorem compileFilter_leaves (c : Setting) (s : Schema) (f : Filter) (pool other : LiteralPool) :
    let leaves := (f.normalize c.options.reorder).leaves
    ((∃ p, (compileFilter c s f).result pool = .ok p) ↔
      ∀ leaf ∈ leaves, ∃ p, (compileFilter c s leaf).result other = .ok p) ∧
    (∀ e, (compileFilter c s f).result pool = .error e ↔
      ∃ front leaf back, leaves = front ++ leaf :: back ∧
        (compileFilter c s leaf).result other = .error e ∧
        ∀ earlier ∈ front, ∃ p, (compileFilter c s earlier).result other = .ok p) ∧
    ((∃ p, (compileFilter c s (.not f)).result pool = .ok p) ↔
      ∃ p, (compileFilter c s f).result other = .ok p) ∧
    (c.functions.IgnoresPredicates → ∀ reorder,
      ((∃ p, (compileFilter ⟨c.functions, ⟨reorder, c.options.fold⟩⟩ s f).result pool = .ok p) ↔
        ∃ p, (compileFilter c s f).result other = .ok p)) := by
  simp only [(blind_compileFilter _ s _).result_eq]
  refine ⟨f.compiles_iff_leaves, fun e => ?_, f.compiles_not_iff, fun ignores reorder => ?_⟩
  · rw [← failure?_eq_some_iff, Filter.failure?_compileFilter, List.findSome?_eq_some_iff]
    simp only [failure?_eq_some_iff, failure?_eq_none_iff]
  · exact compiles_reordered_iff ignores reorder c.options.reorder c.options.fold s f

/-- A path without a column, beside a constant that decides the filter. -/
theorem compileFilter_leaves_constant :
    let c : Setting := ⟨.builtins, ⟨false, true⟩⟩
    let s : Schema := ⟨[⟨"a.x", .int32, true, none⟩]⟩
    let f := Filter.not (.or [.bool true, .value "a.y" ⟨.eq, .any⟩ (.integer 3)])
    (compileFilter c s f).outcome = .error (.columnNotFound "a.y" ["a.x"]) ∧
      ¬ (Filter.not f).Compiles c s ∧ ¬ f.Compiles ⟨.builtins, ⟨true, true⟩⟩ s := by
  intro c s f
  let leaf := Filter.value "a.y" ⟨.notEq, .all⟩ (.integer 3)
  have leaves : (f.normalize c.options.reorder).leaves = [.bool false] ++ leaf :: [] := rfl
  have constant : (compileFilter c s (.bool false)).outcome = .ok .never := by
    rw [Filter.outcome_compileFilter_of_isLeaf rfl, compileNormal]
    rfl
  have fails : (compileFilter c s leaf).outcome = .error (.columnNotFound "a.y" ["a.x"]) := by
    rw [Filter.outcome_compileFilter_of_isLeaf rfl, compileNormal]
    rfl
  obtain ⟨-, firstError, negation, order⟩ := compileFilter_leaves c s f .empty .empty
  have error : (compileFilter c s f).outcome = .error (.columnNotFound "a.y" ["a.x"]) :=
    (firstError _).mpr ⟨[.bool false], leaf, [], leaves, fails,
      List.forall_mem_singleton.mpr ⟨.never, constant⟩⟩
  have none : ¬ ∃ p, (compileFilter c s f).outcome = .ok p := by
    rintro ⟨p, hp⟩
    cases error.symm.trans hp
  exact ⟨error, mt negation.mp none, mt (order Registry.ignoresPredicates_builtins true).mp none⟩

end ColumnPlan
