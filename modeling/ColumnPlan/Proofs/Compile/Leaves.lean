import ColumnPlan.Proofs.Compile.Outcome
import ColumnPlan.Proofs.Fallible
import ColumnPlan.Proofs.Logical.Leaves

/-!
# The leaves decide whether a filter can be compiled

Connectives are compiled child by child, and only then simplified, so no constant among the children
hides a leaf that fails: a filter can be compiled iff each leaf of its normal form can, and else it
fails as the first leaf does that fails.

* `Filter.Compiles c s f`           the filter can be compiled;
* `failure?`                        the error of a step that fails;
* `failure?_compileFilter`          a filter fails as its first failing leaf does;
* `compiles_iff_leaves`             a filter can be compiled iff each leaf can.
-/

namespace ColumnPlan

open Compile

section
variable {ε α β : Type}

/-- The error of a step that fails. -/
def failure? : Except ε α → Option ε
  | .ok _ => none
  | .error e => some e

theorem failure?_eq_none_iff {x : Except ε α} : failure? x = none ↔ ∃ a, x = .ok a := by
  cases x with
  | error e => exact ⟨nofun, nofun⟩
  | ok a => exact ⟨fun _ => ⟨a, rfl⟩, fun _ => rfl⟩

theorem failure?_eq_some_iff {x : Except ε α} {e : ε} : failure? x = some e ↔ x = .error e := by
  cases x with
  | error e' =>
    constructor
    · exact fun h => congrArg Except.error (Option.some.inj h)
    · exact fun h => congrArg some (Except.error.inj h)
  | ok a => exact ⟨nofun, nofun⟩

theorem failure?_bind_ok (x : Except ε α) (g : α → β) :
    failure? (x >>= fun a => .ok (g a)) = failure? x := by
  cases x with
  | error e => rfl
  | ok a => rfl

/-- A list of steps fails as the first of them does that fails. -/
theorem failure?_mapM (f : α → Except ε β) (as : List α) :
    failure? (as.mapM f) = as.findSome? fun a => failure? (f a) := by
  induction as with
  | nil => rfl
  | cons a as ih =>
    rw [List.mapM_cons, List.findSome?_cons]
    cases f a with
    | error e => rfl
    | ok b => exact (failure?_bind_ok (as.mapM f) _).trans ih

end

theorem findSome?_flatMap {α β γ : Type} (f : β → Option γ) (g : α → List β) (as : List α) :
    (as.flatMap g).findSome? f = as.findSome? fun a => (g a).findSome? f := by
  induction as with
  | nil => rfl
  | cons a as ih =>
    rw [List.flatMap_cons, List.findSome?_append, ih, List.findSome?_cons]
    cases (g a).findSome? f with
    | none => rfl
    | some c => rfl

theorem findSome?_congr {α β : Type} {f g : α → Option β} {as : List α}
    (h : ∀ a ∈ as, f a = g a) : as.findSome? f = as.findSome? g := by
  induction as with
  | nil => rfl
  | cons a as ih =>
    obtain ⟨ha, has⟩ := List.forall_mem_cons.mp h
    rw [List.findSome?_cons, List.findSome?_cons, ha, ih has]

namespace Filter

/-- The compilation of the filter succeeds. -/
def Compiles (c : Setting) (s : Schema) (f : Filter) : Prop :=
  ∃ p, (compileFilter c s f).outcome = .ok p

variable {c : Setting} {s : Schema}

theorem failure?_compileNormal {f : Filter} (h : f.NotFree) :
    failure? (compileNormal c s f).outcome =
      f.leaves.findSome? fun leaf => failure? (compileNormal c s leaf).outcome := by
  induction f using Filter.induction with
  | leaf f hf =>
    rw [leaves_of_isLeaf hf, List.findSome?_singleton]
  | and fs ih =>
    rw [outcome_compileNormal_and, failure?_bind_ok, failure?_mapM, leaves_and, findSome?_flatMap]
    exact findSome?_congr fun f hf => ih f hf ((notFree_and_iff fs).mp h f hf)
  | or fs ih =>
    rw [outcome_compileNormal_or, failure?_bind_ok, failure?_mapM, leaves_or, findSome?_flatMap]
    exact findSome?_congr fun f hf => ih f hf ((notFree_or_iff fs).mp h f hf)
  | not f => exact absurd h (not_notFree_not f)

theorem outcome_compileFilter_of_isLeaf {leaf : Filter} (h : leaf.isLeaf = true) :
    (compileFilter c s leaf).outcome = (compileNormal c s leaf).outcome := by
  rw [outcome_compileFilter, normalize_of_isLeaf h]

/-- A filter fails as the first leaf of its normal form does that fails. -/
theorem failure?_compileFilter (f : Filter) :
    failure? (compileFilter c s f).outcome =
      (f.normalize c.options.reorder).leaves.findSome? fun leaf =>
        failure? (compileFilter c s leaf).outcome := by
  rw [outcome_compileFilter, failure?_compileNormal (notFree_normalize _ f)]
  refine findSome?_congr fun leaf hl => ?_
  rw [outcome_compileFilter_of_isLeaf (isLeaf_of_mem_leaves hl)]

theorem compiles_iff_leaves (f : Filter) :
    f.Compiles c s ↔ ∀ leaf ∈ (f.normalize c.options.reorder).leaves, leaf.Compiles c s := by
  unfold Compiles
  rw [← failure?_eq_none_iff, failure?_compileFilter, List.findSome?_eq_none_iff]
  exact forall₂_congr fun _ _ => failure?_eq_none_iff

/-- In which order the leaves stand does not matter. -/
theorem compiles_iff_leaves_pushNot (f : Filter) :
    f.Compiles c s ↔ ∀ leaf ∈ f.pushNot.leaves, leaf.Compiles c s := by
  rw [compiles_iff_leaves]
  exact forall_congr' fun leaf => imp_congr_left (perm_leaves_normalize _ f).mem_iff

end Filter

end ColumnPlan
