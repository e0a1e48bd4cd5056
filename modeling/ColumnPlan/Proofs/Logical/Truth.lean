import ColumnPlan.Logical.Operator
import Mathlib.Data.List.Basic

/-!
# Logic with three truth values

A condition on a row with NULLs is true, false or unknown.  The connectives are Kleene's: the
negation swaps true and false, a conjunction is the least of its parts and a disjunction the
greatest, where unknown lies between false and true.

* `Truth`                        the three values;
* `Truth.all`, `Truth.any`       conjunction and disjunction of a list;
* `Quantifier.over`              how the values for several columns count as one;
* `not_all`, `not_over`          De Morgan's laws;
* `all_eq_true_iff`, `all_perm`  when a conjunction is true; its order does not matter.
-/

namespace ColumnPlan

inductive Truth where
  | false
  | unknown
  | true
  deriving DecidableEq, Repr

namespace Truth

def ofBool : Bool → Truth
  | .false => .false
  | .true => .true

def not : Truth → Truth
  | .false => .true
  | .unknown => .unknown
  | .true => .false

def and : Truth → Truth → Truth
  | .false, _ | _, .false => .false
  | .true, .true => .true
  | _, _ => .unknown

def or : Truth → Truth → Truth
  | .true, _ | _, .true => .true
  | .false, .false => .false
  | _, _ => .unknown

def all (ts : List Truth) : Truth := ts.foldr and .true

def any (ts : List Truth) : Truth := ts.foldr or .false

@[simp] theorem not_not (t : Truth) : t.not.not = t := by cases t <;> rfl

@[simp] theorem not_ofBool (b : Bool) : (ofBool b).not = ofBool !b := by cases b <;> rfl

@[simp] theorem ofBool_eq_true_iff (b : Bool) : ofBool b = .true ↔ b = Bool.true := by
  cases b
  · exact ⟨fun h => Truth.noConfusion h, fun h => Bool.noConfusion h⟩
  · exact ⟨fun _ => rfl, fun _ => rfl⟩

theorem not_and (t u : Truth) : (t.and u).not = t.not.or u.not := by
  cases t <;> cases u <;> rfl

theorem not_or (t u : Truth) : (t.or u).not = t.not.and u.not := by
  cases t <;> cases u <;> rfl

theorem and_eq_true_iff (t u : Truth) : t.and u = .true ↔ t = .true ∧ u = .true := by
  cases t <;> cases u <;> decide

theorem or_eq_true_iff (t u : Truth) : t.or u = .true ↔ t = .true ∨ u = .true := by
  cases t <;> cases u <;> decide

/-! ### lists -/

theorem all_cons (t : Truth) (ts : List Truth) : all (t :: ts) = t.and (all ts) := rfl

theorem any_cons (t : Truth) (ts : List Truth) : any (t :: ts) = t.or (any ts) := rfl

theorem not_all (ts : List Truth) : (all ts).not = any (ts.map not) := by
  induction ts with
  | nil => rfl
  | cons t ts ih => rw [all_cons, not_and, ih, List.map_cons, any_cons]

theorem not_any (ts : List Truth) : (any ts).not = all (ts.map not) := by
  induction ts with
  | nil => rfl
  | cons t ts ih => rw [any_cons, not_or, ih, List.map_cons, all_cons]

theorem all_eq_true_iff (ts : List Truth) : all ts = .true ↔ ∀ t ∈ ts, t = .true := by
  induction ts with
  | nil => exact ⟨fun _ t ht => absurd ht List.not_mem_nil, fun _ => rfl⟩
  | cons t ts ih => rw [all_cons, and_eq_true_iff, ih, List.forall_mem_cons]

theorem any_eq_true_iff (ts : List Truth) : any ts = .true ↔ ∃ t ∈ ts, t = .true := by
  induction ts with
  | nil => exact ⟨fun h => Truth.noConfusion h, fun ⟨t, ht, _⟩ => absurd ht List.not_mem_nil⟩
  | cons t ts ih => rw [any_cons, or_eq_true_iff, ih, List.exists_mem_cons_iff]

theorem all_perm {ts us : List Truth} (h : ts.Perm us) : all ts = all us := by
  induction h with
  | nil => rfl
  | cons t _ ih => rw [all_cons, all_cons, ih]
  | swap t u ts =>
    rw [all_cons, all_cons, all_cons, all_cons]
    cases t <;> cases u <;> cases all ts <;> rfl
  | trans _ _ ih₁ ih₂ => exact ih₁.trans ih₂

theorem any_perm {ts us : List Truth} (h : ts.Perm us) : any ts = any us := by
  rw [← not_not (any ts), not_any, all_perm (h.map not), ← not_any, not_not]

end Truth

/-- How a leaf counts that has a truth value for each of its columns. -/
def Quantifier.over : Quantifier → List Truth → Truth
  | .any => Truth.any
  | .all => Truth.all

theorem Quantifier.not_over (q : Quantifier) (ts : List Truth) :
    (q.over ts).not = q.dual.over (ts.map Truth.not) := by
  cases q with
  | any => exact Truth.not_any ts
  | all => exact Truth.not_all ts

end ColumnPlan
