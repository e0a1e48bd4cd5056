import ColumnPlan.Proofs.Physical.Connective

/-!
# When a predicate holds of a row

Evaluation stops at the first child that decides a connective, and at the first error.  Whether a
predicate *holds* is said without that order: a comparison holds if it evaluates to true, so one
that fails does not, and the connectives are those of logic.

* `PredicateExpr.Holds row p`     the predicate holds of the row;
* `holds_iff_of_eval`             an evaluation without error says whether it does;
* `holds_allOf`, `holds_anyOf`    simplified connectives mean what they say.
-/

namespace ColumnPlan

namespace PredicateExpr

mutual

def Holds (row : Row) : PredicateExpr → Prop
  | .compare function operands => (PredicateExpr.compare function operands).eval row = .ok true
  | .and children => AllHold row children
  | .or children => AnyHolds row children
  | .always => True
  | .never => False

def AllHold (row : Row) : List PredicateExpr → Prop
  | [] => True
  | p :: ps => Holds row p ∧ AllHold row ps

def AnyHolds (row : Row) : List PredicateExpr → Prop
  | [] => False
  | p :: ps => Holds row p ∨ AnyHolds row ps

end

variable (row : Row)

theorem allHold_iff (ps : List PredicateExpr) : AllHold row ps ↔ ∀ p ∈ ps, p.Holds row := by
  induction ps with
  | nil => exact ⟨fun _ p hp => absurd hp List.not_mem_nil, fun _ => trivial⟩
  | cons p ps ih => rw [AllHold, ih, List.forall_mem_cons]

theorem anyHolds_iff (ps : List PredicateExpr) : AnyHolds row ps ↔ ∃ p ∈ ps, p.Holds row := by
  induction ps with
  | nil => exact ⟨False.elim, fun ⟨p, hp, _⟩ => absurd hp List.not_mem_nil⟩
  | cons p ps ih => rw [AnyHolds, ih, List.exists_mem_cons_iff]

theorem holds_and (ps : List PredicateExpr) :
    (PredicateExpr.and ps).Holds row ↔ ∀ p ∈ ps, p.Holds row := by
  rw [Holds, allHold_iff]

theorem holds_or (ps : List PredicateExpr) :
    (PredicateExpr.or ps).Holds row ↔ ∃ p ∈ ps, p.Holds row := by
  rw [Holds, anyHolds_iff]

theorem holds_compare (f : PredicateFunction) (operands : List ScalarExpr) :
    (PredicateExpr.compare f operands).Holds row ↔
      (PredicateExpr.compare f operands).eval row = .ok true := by
  rw [Holds]

/-! ### evaluation -/

mutual

theorem holds_iff_of_eval : (p : PredicateExpr) → {b : Bool} → p.eval row = .ok b →
    (p.Holds row ↔ b = true)
  | .compare f operands, b, h => by
    rw [holds_compare, h]
    exact ⟨Except.ok.inj, congrArg _⟩
  | .and ps, b, h => by
    rw [PredicateExpr.eval] at h
    rw [Holds, allHold_iff_of_evalAnd ps h]
  | .or ps, b, h => by
    rw [PredicateExpr.eval] at h
    rw [Holds, anyHolds_iff_of_evalOr ps h]
  | .always, b, h => by
    rw [PredicateExpr.eval] at h
    cases h
    rw [Holds, true_iff]
  | .never, b, h => by
    rw [PredicateExpr.eval] at h
    cases h
    rw [Holds, false_iff]
    exact Bool.false_ne_true

theorem allHold_iff_of_evalAnd : (ps : List PredicateExpr) → {b : Bool} →
    PredicateExpr.evalAnd row ps = .ok b → (AllHold row ps ↔ b = true)
  | [], b, h => by
    rw [PredicateExpr.evalAnd] at h
    cases h
    rw [AllHold, true_iff]
  | p :: ps, b, h => by
    rw [PredicateExpr.evalAnd] at h
    obtain ⟨a, ha, h⟩ := bind_eq_ok_iff.mp h
    rw [AllHold, holds_iff_of_eval p ha]
    cases a with
    | true => rw [allHold_iff_of_evalAnd ps h, eq_self, true_and]
    | false =>
      cases pure_eq_ok_iff.mp h
      exact and_iff_left_of_imp fun h => absurd h Bool.false_ne_true

theorem anyHolds_iff_of_evalOr : (ps : List PredicateExpr) → {b : Bool} →
    PredicateExpr.evalOr row ps = .ok b → (AnyHolds row ps ↔ b = true)
  | [], b, h => by
    rw [PredicateExpr.evalOr] at h
    cases h
    rw [AnyHolds, false_iff]
    exact Bool.false_ne_true
  | p :: ps, b, h => by
    rw [PredicateExpr.evalOr] at h
    obtain ⟨a, ha, h⟩ := bind_eq_ok_iff.mp h
    rw [AnyHolds, holds_iff_of_eval p ha]
    cases a with
    | true =>
      cases pure_eq_ok_iff.mp h
      exact or_iff_left_of_imp fun _ => rfl
    | false =>
      rw [anyHolds_iff_of_evalOr ps h]
      exact or_iff_right Bool.false_ne_true

end

end PredicateExpr

/-! ### simplified connectives -/

namespace Connective
variable (k : Connective) (row : Row)

/-- the parts under a connective as a predicate again -/
def rebuild : Option (List PredicateExpr) → PredicateExpr
  | none => k.absorbing
  | some parts => k.join parts

/-- two conditions under a connective -/
def Both (P Q : Prop) : Prop :=
  match k with
  | .conjunction => P ∧ Q
  | .disjunction => P ∨ Q

theorem holds_join_nil : (k.join []).Holds row ↔ k.neutral.Holds row := by
  cases k with
  | conjunction => exact Iff.rfl
  | disjunction => exact Iff.rfl

theorem holds_join_cons (p : PredicateExpr) (ps : List PredicateExpr) :
    (k.join (p :: ps)).Holds row ↔ k.Both (p.Holds row) ((k.join ps).Holds row) := by
  cases k with
  | conjunction => exact Iff.rfl
  | disjunction => exact Iff.rfl

theorem holds_join_singleton (p : PredicateExpr) : (k.join [p]).Holds row ↔ p.Holds row := by
  cases k with
  | conjunction => exact iff_of_eq (and_true _)
  | disjunction => exact iff_of_eq (or_false _)

theorem holds_join_append (ps qs : List PredicateExpr) :
    (k.join (ps ++ qs)).Holds row ↔ k.Both ((k.join ps).Holds row) ((k.join qs).Holds row) := by
  cases k with
  | conjunction =>
    show (PredicateExpr.and _).Holds row ↔ (PredicateExpr.and _).Holds row ∧ _
    rw [PredicateExpr.holds_and, PredicateExpr.holds_and, List.forall_mem_append]
    exact and_congr_right fun _ => (PredicateExpr.holds_and row qs).symm
  | disjunction =>
    show (PredicateExpr.or _).Holds row ↔ (PredicateExpr.or _).Holds row ∨ _
    rw [PredicateExpr.holds_or, PredicateExpr.holds_or]
    simp only [List.mem_append, or_and_right, exists_or]
    exact or_congr_right (PredicateExpr.holds_or row qs).symm

theorem holds_join_cons_join (ps qs : List PredicateExpr) :
    (k.join (k.join ps :: qs)).Holds row ↔ (k.join (ps ++ qs)).Holds row := by
  rw [holds_join_cons, holds_join_append]

theorem holds_join_cons_neutral (qs : List PredicateExpr) :
    (k.join (k.neutral :: qs)).Holds row ↔ (k.join qs).Holds row := by
  rw [holds_join_cons]
  cases k with
  | conjunction => exact iff_of_eq (true_and _)
  | disjunction => exact iff_of_eq (false_or _)

theorem holds_join_cons_absorbing (qs : List PredicateExpr) :
    (k.join (k.absorbing :: qs)).Holds row ↔ k.absorbing.Holds row := by
  rw [holds_join_cons]
  cases k with
  | conjunction => exact iff_of_eq (false_and _)
  | disjunction => exact iff_of_eq (true_or _)

theorem both_absorbing (P : Prop) :
    k.Both P (k.absorbing.Holds row) ↔ k.absorbing.Holds row := by
  cases k with
  | conjunction => exact iff_of_eq (and_false P)
  | disjunction => exact iff_of_eq (or_true P)

theorem holds_rebuild (ps : List PredicateExpr) :
    (k.rebuild (k.spliceAll? ps)).Holds row ↔ (k.join ps).Holds row := by
  induction ps using work_induction k with
  | nil => rfl
  | join children qs ih => rw [spliceAll?_cons_join, holds_join_cons_join, ih]
  | neutral qs ih => rw [spliceAll?_cons_neutral, holds_join_cons_neutral, ih]
  | absorbing qs =>
    rw [spliceAll?_cons_absorbing, holds_join_cons_absorbing]
    rfl
  | solid p qs hp ih =>
    rw [hp.spliceAll?_cons, holds_join_cons, ← ih]
    cases k.spliceAll? qs with
    | none => exact (both_absorbing k row _).symm
    | some parts => exact holds_join_cons k row p parts

theorem holds_simplify (ps : List PredicateExpr) :
    (k.simplify ps).Holds row ↔ (k.join ps).Holds row := by
  rw [← holds_rebuild, simplify_eq]
  split
  · next h => rw [h]; rfl
  · next h => rw [h]; exact (holds_join_nil k row).symm
  · next p h => rw [h]; exact (holds_join_singleton k row p).symm
  · next parts _ _ h => rw [h]; rfl

end Connective

namespace PredicateExpr
variable (row : Row)

theorem holds_allOf (ps : List PredicateExpr) :
    (allOf ps).Holds row ↔ ∀ p ∈ ps, p.Holds row :=
  (Connective.holds_simplify .conjunction row ps).trans (holds_and row ps)

theorem holds_anyOf (ps : List PredicateExpr) :
    (anyOf ps).Holds row ↔ ∃ p ∈ ps, p.Holds row :=
  (Connective.holds_simplify .disjunction row ps).trans (holds_or row ps)

end PredicateExpr

end ColumnPlan
