import Mathlib.Data.Bool.Basic
import ColumnPlan.Physical.Connective
import ColumnPlan.Physical.Eval
import ColumnPlan.Physical.Fields
import ColumnPlan.Proofs.Fallible

/-!
# The laws of simplified connectives

The children of a connective are worked off from left to right.  A nested connective of the same
kind gives way to its children, a neutral child is dropped, and an absorbing one ends the work; any
other child is solid and stays.  Every law follows from these five steps by induction on the work.

* `Connective.splice?`           the parts of a predicate under a connective, by recursion;
* `Connective.Solid`             a child that stays as it is;
* `Connective.work_induction`    induction on the work;
* `Connective.Reaches`           the children that are met on the way;
* `simplify_induction`           properties that simplification keeps;
* `spliceLoop_eq`                the loop finds the parts that the recursion finds;
* `splice?_simplify`             a simplified connective stands for what it was made of;
* `eval_of_spliceAll?`           what stays evaluates like the children;
* `Connective.Maps`              changes of children that simplification follows;
* `PredicateExpr.dual`           conjunctions and disjunctions exchanged, and so the constants;
* `simplify_laws`                simplification respects structure, meaning and duality.
-/

namespace ColumnPlan

namespace Connective

mutual

/-- The parts of a predicate under a connective; none if one absorbs. -/
def splice? (k : Connective) : PredicateExpr → Option (List PredicateExpr)
  | .and children =>
    match k with
    | .conjunction => spliceAll? k children
    | .disjunction => some [.and children]
  | .or children =>
    match k with
    | .conjunction => some [.or children]
    | .disjunction => spliceAll? k children
  | .always =>
    match k with
    | .conjunction => some []
    | .disjunction => none
  | .never =>
    match k with
    | .conjunction => none
    | .disjunction => some []
  | .compare function operands => some [.compare function operands]

def spliceAll? (k : Connective) : List PredicateExpr → Option (List PredicateExpr)
  | [] => some []
  | p :: ps => do
    let front ← splice? k p
    let rest ← spliceAll? k ps
    pure (front ++ rest)

end

variable {k : Connective}

/-! ### the steps -/

/-- A child that stays as it is: neither a connective of the kind nor a constant. -/
structure Solid (k : Connective) (p : PredicateExpr) : Prop where
  ne_join : ∀ children, p ≠ k.join children
  ne_neutral : p ≠ k.neutral
  ne_absorbing : p ≠ k.absorbing

theorem splice?_join (k : Connective) (ps : List PredicateExpr) :
    k.splice? (k.join ps) = k.spliceAll? ps := by
  cases k with
  | conjunction => rw [join, splice?]
  | disjunction => rw [join, splice?]

theorem splice?_neutral (k : Connective) : k.splice? k.neutral = some [] := by
  cases k with
  | conjunction => rfl
  | disjunction => rfl

theorem splice?_absorbing (k : Connective) : k.splice? k.absorbing = none := by
  cases k with
  | conjunction => rfl
  | disjunction => rfl

theorem Solid.splice? {p : PredicateExpr} (h : k.Solid p) : k.splice? p = some [p] := by
  cases k with
  | conjunction =>
    cases p with
    | compare function operands => rw [Connective.splice?]
    | and children => exact absurd rfl (h.ne_join children)
    | or children => rfl
    | always => exact absurd rfl h.ne_neutral
    | never => exact absurd rfl h.ne_absorbing
  | disjunction =>
    cases p with
    | compare function operands => rw [Connective.splice?]
    | and children => rfl
    | or children => exact absurd rfl (h.ne_join children)
    | always => exact absurd rfl h.ne_absorbing
    | never => exact absurd rfl h.ne_neutral

/-- The four kinds of children. -/
theorem solid_or (k : Connective) (p : PredicateExpr) :
    k.Solid p ∨ (∃ children, p = k.join children) ∨ p = k.neutral ∨ p = k.absorbing := by
  by_cases hj : ∃ children, p = k.join children
  · exact .inr (.inl hj)
  · by_cases hn : p = k.neutral
    · exact .inr (.inr (.inl hn))
    · by_cases ha : p = k.absorbing
      · exact .inr (.inr (.inr ha))
      · exact .inl ⟨fun children h => hj ⟨children, h⟩, hn, ha⟩

theorem spliceAll?_cons (k : Connective) (p : PredicateExpr) (ps : List PredicateExpr) :
    k.spliceAll? (p :: ps) =
      (k.splice? p).bind fun front => (k.spliceAll? ps).map (front ++ ·) := by
  rw [spliceAll?]
  cases k.splice? p with
  | none => rfl
  | some front =>
    cases k.spliceAll? ps with
    | none => rfl
    | some rest => rfl

theorem spliceAll?_append (k : Connective) (ps qs : List PredicateExpr) :
    k.spliceAll? (ps ++ qs) =
      (k.spliceAll? ps).bind fun front => (k.spliceAll? qs).map (front ++ ·) := by
  induction ps with
  | nil =>
    rw [List.nil_append, spliceAll?, Option.bind_some]
    exact Option.map_id'.symm
  | cons p ps ih =>
    rw [List.cons_append, spliceAll?_cons, spliceAll?_cons, ih]
    cases k.splice? p with
    | none => rfl
    | some front =>
      cases k.spliceAll? ps with
      | none => rfl
      | some middle =>
        cases k.spliceAll? qs with
        | none => rfl
        | some rest => exact congrArg some (List.append_assoc front middle rest).symm

theorem spliceAll?_cons_join (k : Connective) (ps qs : List PredicateExpr) :
    k.spliceAll? (k.join ps :: qs) = k.spliceAll? (ps ++ qs) := by
  rw [spliceAll?_cons, splice?_join, spliceAll?_append]

theorem spliceAll?_cons_neutral (k : Connective) (qs : List PredicateExpr) :
    k.spliceAll? (k.neutral :: qs) = k.spliceAll? qs := by
  rw [spliceAll?_cons, splice?_neutral, Option.bind_some]
  exact Option.map_id'

theorem spliceAll?_cons_absorbing (k : Connective) (qs : List PredicateExpr) :
    k.spliceAll? (k.absorbing :: qs) = none := by
  rw [spliceAll?_cons, splice?_absorbing, Option.bind_none]

theorem Solid.spliceAll?_cons {p : PredicateExpr} (h : k.Solid p) (qs : List PredicateExpr) :
    k.spliceAll? (p :: qs) = (k.spliceAll? qs).map (p :: ·) := by
  rw [Connective.spliceAll?_cons, h.splice?, Option.bind_some]
  rfl

theorem listSize_lt_cons (p : PredicateExpr) (ps : List PredicateExpr) :
    PredicateExpr.listSize ps < PredicateExpr.listSize (p :: ps) := by
  rw [PredicateExpr.listSize]
  omega

theorem listSize_append_lt_cons_join (k : Connective) (ps qs : List PredicateExpr) :
    PredicateExpr.listSize (ps ++ qs) < PredicateExpr.listSize (k.join ps :: qs) := by
  have size : (k.join ps).size = 1 + PredicateExpr.listSize ps := by
    cases k with
    | conjunction => rw [join, PredicateExpr.size]
    | disjunction => rw [join, PredicateExpr.size]
  rw [PredicateExpr.listSize, size, PredicateExpr.listSize_append]
  omega

/-- Induction on the work that a list of children causes; each step makes it smaller. -/
@[elab_as_elim]
theorem work_induction (k : Connective) {motive : List PredicateExpr → Prop}
    (nil : motive [])
    (join : ∀ ps qs, motive (ps ++ qs) → motive (k.join ps :: qs))
    (neutral : ∀ qs, motive qs → motive (k.neutral :: qs))
    (absorbing : ∀ qs, motive (k.absorbing :: qs))
    (solid : ∀ p qs, k.Solid p → motive qs → motive (p :: qs))
    (work : List PredicateExpr) : motive work := by
  induction hn : PredicateExpr.listSize work using Nat.strongRecOn generalizing work with
  | ind n ih =>
    subst hn
    rcases work with _ | ⟨p, qs⟩
    · exact nil
    · have rest : motive qs := ih _ (listSize_lt_cons p qs) qs rfl
      rcases k.solid_or p with hp | ⟨ps, rfl⟩ | rfl | rfl
      · exact solid p qs hp rest
      · exact join ps qs (ih _ (listSize_append_lt_cons_join k ps qs) _ rfl)
      · exact neutral qs rest
      · exact absorbing qs

/-! ### the loop -/

theorem Solid.spliceLoop_cons {p : PredicateExpr} (h : k.Solid p) (rest flat : List PredicateExpr) :
    k.spliceLoop (p :: rest) flat = k.spliceLoop rest (p :: flat) := by
  cases k with
  | conjunction =>
    cases p with
    | compare function operands | or children => rw [spliceLoop] <;> intros <;> contradiction
    | and children => exact absurd rfl (h.ne_join children)
    | always => exact absurd rfl h.ne_neutral
    | never => exact absurd rfl h.ne_absorbing
  | disjunction =>
    cases p with
    | compare function operands | and children => rw [spliceLoop] <;> intros <;> contradiction
    | or children => exact absurd rfl (h.ne_join children)
    | always => exact absurd rfl h.ne_absorbing
    | never => exact absurd rfl h.ne_neutral

/-- **The loop finds the parts that the recursion finds.**  Each of its steps is one of the work. -/
theorem spliceLoop_eq (k : Connective) (stack flat : List PredicateExpr) :
    k.spliceLoop stack flat = (k.spliceAll? stack).map (flat.reverse ++ ·) := by
  induction stack using work_induction k generalizing flat with
  | nil =>
    rw [spliceLoop, spliceAll?, Option.map_some, List.append_nil]
  | join ps qs ih =>
    rw [spliceAll?_cons_join, ← ih]
    cases k with
    | conjunction => rw [join, spliceLoop]
    | disjunction => rw [join, spliceLoop]
  | neutral qs ih =>
    rw [spliceAll?_cons_neutral, ← ih]
    cases k with
    | conjunction => rw [neutral, spliceLoop]
    | disjunction => rw [neutral, spliceLoop]
  | absorbing qs =>
    rw [spliceAll?_cons_absorbing]
    cases k with
    | conjunction => rw [absorbing, spliceLoop, Option.map_none]
    | disjunction => rw [absorbing, spliceLoop, Option.map_none]
  | solid p qs hp ih =>
    rw [hp.spliceLoop_cons, ih, hp.spliceAll?_cons, Option.map_map, List.reverse_cons]
    refine congrArg (Option.map · _) (funext fun parts => ?_)
    exact List.append_assoc flat.reverse [p] parts

theorem simplify_eq (k : Connective) (ps : List PredicateExpr) :
    k.simplify ps =
      match k.spliceAll? ps with
      | none => k.absorbing
      | some [] => k.neutral
      | some [p] => p
      | some parts => k.join parts := by
  have parts : k.spliceLoop ps [] = k.spliceAll? ps := by
    rw [spliceLoop_eq]
    exact Option.map_id'
  rw [← parts]
  rfl

/-! ### what stays -/

/-- A property of the children that a connective hands down to its own children is one of all that
stays, and all that stays is solid. -/
theorem forall_of_spliceAll? {Q : PredicateExpr → Prop}
    (down : ∀ children, Q (k.join children) → ∀ p ∈ children, Q p) {ps parts : List PredicateExpr}
    (hps : ∀ p ∈ ps, Q p) (h : k.spliceAll? ps = some parts) :
    ∀ p ∈ parts, k.Solid p ∧ Q p := by
  induction ps using work_induction k generalizing parts with
  | nil =>
    cases h
    exact fun p hp => absurd hp List.not_mem_nil
  | join children qs ih =>
    obtain ⟨hj, hqs⟩ := List.forall_mem_cons.mp hps
    rw [spliceAll?_cons_join] at h
    exact ih (List.forall_mem_append.mpr ⟨down children hj, hqs⟩) h
  | neutral qs ih =>
    rw [spliceAll?_cons_neutral] at h
    exact ih (List.forall_mem_cons.mp hps).2 h
  | absorbing qs =>
    rw [spliceAll?_cons_absorbing] at h
    cases h
  | solid p qs hp ih =>
    obtain ⟨first, others⟩ := List.forall_mem_cons.mp hps
    rw [hp.spliceAll?_cons] at h
    obtain ⟨rest, hr, rfl⟩ := Option.map_eq_some_iff.mp h
    exact List.forall_mem_cons.mpr ⟨⟨hp, first⟩, ih others hr⟩

theorem solid_of_spliceAll? {ps parts : List PredicateExpr} (h : k.spliceAll? ps = some parts) :
    ∀ p ∈ parts, k.Solid p := fun p hp =>
  (forall_of_spliceAll? (Q := fun _ => True) (fun _ _ _ _ => trivial) (fun _ _ => trivial) h p hp).1

theorem spliceAll?_of_solid {ps : List PredicateExpr} (h : ∀ p ∈ ps, k.Solid p) :
    k.spliceAll? ps = some ps := by
  induction ps with
  | nil => rfl
  | cons p ps ih =>
    obtain ⟨first, others⟩ := List.forall_mem_cons.mp h
    rw [first.spliceAll?_cons, ih others]
    rfl

/-- Under a connective of its kind, a simplified connective stands for what it was made of. -/
theorem splice?_simplify (k : Connective) (ps : List PredicateExpr) :
    k.splice? (k.simplify ps) = k.spliceAll? ps := by
  rw [simplify_eq]
  cases h : k.spliceAll? ps with
  | none => exact splice?_absorbing k
  | some parts =>
    have solid := solid_of_spliceAll? h
    rcases parts with _ | ⟨p, _ | ⟨q, parts⟩⟩
    · exact splice?_neutral k
    · exact (solid p List.mem_cons_self).splice?
    · exact (splice?_join k _).trans (spliceAll?_of_solid solid)

/-- Simplification keeps a property that a connective hands down to its children, if constants and
connectives of two solid children or more have it. -/
theorem simplify_induction {Q : PredicateExpr → Prop}
    (down : ∀ children, Q (k.join children) → ∀ p ∈ children, Q p)
    (neutral : Q k.neutral) (absorbing : Q k.absorbing)
    (join : ∀ parts, 2 ≤ parts.length → (∀ p ∈ parts, k.Solid p) → (∀ p ∈ parts, Q p) →
      Q (k.join parts))
    {ps : List PredicateExpr} (h : ∀ p ∈ ps, Q p) : Q (k.simplify ps) := by
  rw [simplify_eq]
  cases hs : k.spliceAll? ps with
  | none => exact absorbing
  | some parts =>
    have stays := forall_of_spliceAll? down h hs
    rcases parts with _ | ⟨p, _ | ⟨q, parts⟩⟩
    · exact neutral
    · exact (stays p List.mem_cons_self).2
    · exact join _ (Nat.le_add_left 2 parts.length) (fun p hp => (stays p hp).1)
        fun p hp => (stays p hp).2

theorem simplify_congr {ps qs : List PredicateExpr} (h : k.spliceAll? ps = k.spliceAll? qs) :
    k.simplify ps = k.simplify qs := by
  rw [simplify_eq, simplify_eq, h]

theorem simplify_append (k : Connective) (ps qs : List PredicateExpr) :
    k.simplify (ps ++ qs) = k.simplify [k.simplify ps, k.simplify qs] := by
  refine simplify_congr ?_
  rw [spliceAll?_append, spliceAll?_cons, spliceAll?_cons, splice?_simplify, splice?_simplify]
  cases k.spliceAll? ps with
  | none => rfl
  | some front =>
    cases k.spliceAll? qs with
    | none => rfl
    | some rest => exact congrArg (fun rest => some (front ++ rest)) (List.append_nil rest).symm

/-! ### which children are met -/

/-- The predicate is among the children, or among those of a connective of the kind that is. -/
inductive Reaches (k : Connective) : List PredicateExpr → PredicateExpr → Prop
  | child {ps p} : p ∈ ps → Reaches k ps p
  | nested {ps children p} : k.join children ∈ ps → Reaches k children p → Reaches k ps p

namespace Reaches
variable {ps qs : List PredicateExpr} {p : PredicateExpr}

theorem mono (h : k.Reaches ps p) (sub : ps ⊆ qs) : k.Reaches qs p := by
  cases h with
  | child hp => exact .child (sub hp)
  | nested hj h => exact .nested (sub hj) h

theorem of_append (h : k.Reaches (ps ++ qs) p) : k.Reaches (k.join ps :: qs) p := by
  have inner {r : PredicateExpr} (hr : r ∈ ps) : r = p ∨ (∃ children, r = k.join children ∧
      k.Reaches children p) → k.Reaches (k.join ps :: qs) p := by
    rintro (rfl | ⟨children, rfl, h⟩)
    · exact .nested List.mem_cons_self (.child hr)
    · exact .nested List.mem_cons_self (.nested hr h)
  cases h with
  | child hp =>
    rcases List.mem_append.mp hp with hp | hp
    · exact inner hp (.inl rfl)
    · exact .child (List.mem_cons_of_mem _ hp)
  | nested hj h =>
    rcases List.mem_append.mp hj with hj | hj
    · exact inner hj (.inr ⟨_, rfl, h⟩)
    · exact .nested (List.mem_cons_of_mem _ hj) h

end Reaches

/-- The work ends early only if an absorbing child is met. -/
theorem reaches_of_spliceAll?_eq_none {ps : List PredicateExpr} (h : k.spliceAll? ps = none) :
    k.Reaches ps k.absorbing := by
  induction ps using work_induction k with
  | nil => cases h
  | join children qs ih =>
    rw [spliceAll?_cons_join] at h
    exact (ih h).of_append
  | neutral qs ih =>
    rw [spliceAll?_cons_neutral] at h
    exact (ih h).mono (List.subset_cons_self _ _)
  | absorbing qs => exact .child List.mem_cons_self
  | solid p qs hp ih =>
    rw [hp.spliceAll?_cons, Option.map_eq_none_iff] at h
    exact (ih h).mono (List.subset_cons_self _ _)

/-! ### evaluation -/

/-- the value that leaves a connective undecided -/
def unit : Connective → Bool
  | .conjunction => true
  | .disjunction => false

section
variable (k : Connective) (row : Row)

theorem eval_join_nil : (k.join []).eval row = .ok k.unit := by
  cases k with
  | conjunction => rw [join, PredicateExpr.eval, PredicateExpr.evalAnd, unit]
  | disjunction => rw [join, PredicateExpr.eval, PredicateExpr.evalOr, unit]

theorem eval_join_cons (p : PredicateExpr) (ps : List PredicateExpr) :
    (k.join (p :: ps)).eval row =
      p.eval row >>= fun b => if b = k.unit then (k.join ps).eval row else .ok b := by
  cases k with
  | conjunction =>
    rw [join, PredicateExpr.eval, PredicateExpr.evalAnd]
    congr 1
    funext b
    rw [join, PredicateExpr.eval]
    cases b with
    | true => rfl
    | false => rfl
  | disjunction =>
    rw [join, PredicateExpr.eval, PredicateExpr.evalOr]
    congr 1
    funext b
    rw [join, PredicateExpr.eval]
    cases b with
    | true => rfl
    | false => rfl

theorem eval_join_singleton (p : PredicateExpr) : (k.join [p]).eval row = p.eval row := by
  rw [eval_join_cons, eval_join_nil]
  cases p.eval row with
  | error e => rfl
  | ok b =>
    rw [ok_bind]
    split
    · next h => rw [h]
    · rfl

theorem eval_join_append (ps qs : List PredicateExpr) :
    (k.join (ps ++ qs)).eval row =
      (k.join ps).eval row >>= fun b => if b = k.unit then (k.join qs).eval row else .ok b := by
  induction ps with
  | nil => rw [eval_join_nil, ok_bind, if_pos rfl, List.nil_append]
  | cons p ps ih =>
    rw [List.cons_append, eval_join_cons, eval_join_cons, ih]
    cases p.eval row with
    | error e => rfl
    | ok b =>
      rw [ok_bind, ok_bind]
      by_cases h : b = k.unit
      · rw [if_pos h, if_pos h]
      · rw [if_neg h, if_neg h, ok_bind, if_neg h]

/-- A nested connective of the same kind is evaluated like its children in its place. -/
theorem eval_join_cons_join (ps qs : List PredicateExpr) :
    (k.join (k.join ps :: qs)).eval row = (k.join (ps ++ qs)).eval row := by
  rw [eval_join_cons, eval_join_append]

theorem eval_neutral : k.neutral.eval row = .ok k.unit := by
  cases k with
  | conjunction => rw [neutral, PredicateExpr.eval, unit]
  | disjunction => rw [neutral, PredicateExpr.eval, unit]

theorem eval_absorbing : k.absorbing.eval row = .ok !k.unit := by
  cases k with
  | conjunction => rw [absorbing, PredicateExpr.eval]; rfl
  | disjunction => rw [absorbing, PredicateExpr.eval]; rfl

theorem eval_join_cons_neutral (qs : List PredicateExpr) :
    (k.join (k.neutral :: qs)).eval row = (k.join qs).eval row := by
  rw [eval_join_cons, eval_neutral, ok_bind, if_pos rfl]

theorem eval_join_cons_absorbing (qs : List PredicateExpr) :
    (k.join (k.absorbing :: qs)).eval row = .ok !k.unit := by
  rw [eval_join_cons, eval_absorbing, ok_bind, if_neg (Bool.not_ne_self k.unit)]

end

variable {row : Row}

/-- What stays evaluates like the children, errors included. -/
theorem eval_of_spliceAll? {ps parts : List PredicateExpr} (h : k.spliceAll? ps = some parts) :
    (k.join parts).eval row = (k.join ps).eval row := by
  induction ps using work_induction k generalizing parts with
  | nil =>
    cases h
    rfl
  | join children qs ih =>
    rw [spliceAll?_cons_join] at h
    rw [eval_join_cons_join, ih h]
  | neutral qs ih =>
    rw [spliceAll?_cons_neutral] at h
    rw [eval_join_cons_neutral, ih h]
  | absorbing qs =>
    rw [spliceAll?_cons_absorbing] at h
    cases h
  | solid p qs hp ih =>
    rw [hp.spliceAll?_cons] at h
    obtain ⟨rest, hr, rfl⟩ := Option.map_eq_some_iff.mp h
    rw [eval_join_cons, eval_join_cons, ih hr]

/-- Where the work ends early, an evaluation can only be decided or fail. -/
theorem eq_of_spliceAll?_eq_none {ps : List PredicateExpr} {b : Bool}
    (h : k.spliceAll? ps = none) (hb : (k.join ps).eval row = .ok b) : b = !k.unit := by
  induction ps using work_induction k with
  | nil => cases h
  | join children qs ih =>
    rw [spliceAll?_cons_join] at h
    rw [eval_join_cons_join] at hb
    exact ih h hb
  | neutral qs ih =>
    rw [spliceAll?_cons_neutral] at h
    rw [eval_join_cons_neutral] at hb
    exact ih h hb
  | absorbing qs =>
    rw [eval_join_cons_absorbing] at hb
    exact (Except.ok.inj hb).symm
  | solid p qs hp ih =>
    rw [hp.spliceAll?_cons, Option.map_eq_none_iff] at h
    rw [eval_join_cons] at hb
    obtain ⟨a, -, hb⟩ := bind_eq_ok_iff.mp hb
    split at hb
    · exact ih h hb
    · next decided =>
      cases hb
      exact Bool.eq_not.mpr decided

theorem eval_simplify_of_spliceAll? {ps parts : List PredicateExpr}
    (h : k.spliceAll? ps = some parts) : (k.simplify ps).eval row = (k.join parts).eval row := by
  rw [simplify_eq, h]
  rcases parts with _ | ⟨p, _ | ⟨q, parts⟩⟩
  · exact (eval_neutral k row).trans (eval_join_nil k row).symm
  · exact (eval_join_singleton k row p).symm
  · rfl

theorem eval_simplify_of_eval {ps : List PredicateExpr} {b : Bool}
    (hb : (k.join ps).eval row = .ok b) : (k.simplify ps).eval row = .ok b := by
  cases h : k.spliceAll? ps with
  | none =>
    have absorbed : k.simplify ps = k.absorbing := by
      rw [simplify_eq, h]
    rw [absorbed, eval_absorbing, eq_of_spliceAll?_eq_none h hb]
  | some parts => rw [eval_simplify_of_spliceAll? h, eval_of_spliceAll? h, hb]

theorem eval_simplify_of_not_reaches {ps : List PredicateExpr}
    (h : ¬ k.Reaches ps k.absorbing) : (k.simplify ps).eval row = (k.join ps).eval row := by
  cases hs : k.spliceAll? ps with
  | none => exact absurd (reaches_of_spliceAll?_eq_none hs) h
  | some parts => rw [eval_simplify_of_spliceAll? hs, eval_of_spliceAll? hs]

/-! ### simplification of other children -/

/-- A change of predicates that takes each kind of child of a connective to the same kind of child
of a connective, perhaps of another one. -/
structure Maps (k k' : Connective) (g : PredicateExpr → PredicateExpr) : Prop where
  join : ∀ children, g (k.join children) = k'.join (children.map g)
  neutral : g k.neutral = k'.neutral
  absorbing : g k.absorbing = k'.absorbing
  solid : ∀ {p}, k.Solid p → k'.Solid (g p)

namespace Maps
variable {k' : Connective} {g : PredicateExpr → PredicateExpr} (maps : Maps k k' g)
include maps

theorem spliceAll?_map (ps : List PredicateExpr) :
    k'.spliceAll? (ps.map g) = (k.spliceAll? ps).map (List.map g) := by
  induction ps using work_induction k with
  | nil => rfl
  | join children qs ih =>
    rw [List.map_cons, maps.join, spliceAll?_cons_join, spliceAll?_cons_join, ← ih, List.map_append]
  | neutral qs ih =>
    rw [List.map_cons, maps.neutral, spliceAll?_cons_neutral, spliceAll?_cons_neutral, ih]
  | absorbing qs =>
    rw [List.map_cons, maps.absorbing, spliceAll?_cons_absorbing, spliceAll?_cons_absorbing]
    rfl
  | solid p qs hp ih =>
    rw [List.map_cons, (maps.solid hp).spliceAll?_cons, hp.spliceAll?_cons, ih, Option.map_map,
      Option.map_map]
    rfl

theorem simplify_map (ps : List PredicateExpr) : k'.simplify (ps.map g) = g (k.simplify ps) := by
  rw [simplify_eq, simplify_eq, maps.spliceAll?_map]
  cases k.spliceAll? ps with
  | none => exact maps.absorbing.symm
  | some parts =>
    rcases parts with _ | ⟨p, _ | ⟨q, parts⟩⟩
    · exact maps.neutral.symm
    · rfl
    · exact (maps.join (p :: q :: parts)).symm

end Maps

/-- The connective of the other kind. -/
def dual : Connective → Connective
  | .conjunction => .disjunction
  | .disjunction => .conjunction

end Connective

/-! ### duality -/

namespace PredicateExpr

mutual

/-- Conjunctions and disjunctions exchanged, and so the constants; comparisons stay. -/
def dual : PredicateExpr → PredicateExpr
  | .compare function operands => .compare function operands
  | .and children => .or (dualAll children)
  | .or children => .and (dualAll children)
  | .always => .never
  | .never => .always

def dualAll : List PredicateExpr → List PredicateExpr
  | [] => []
  | p :: ps => dual p :: dualAll ps

end

theorem dualAll_eq_map (ps : List PredicateExpr) : dualAll ps = ps.map dual := by
  induction ps with
  | nil => rfl
  | cons p ps ih => rw [dualAll, ih, List.map_cons]

end PredicateExpr

namespace Connective
variable {k : Connective}

theorem dual_join (k : Connective) (ps : List PredicateExpr) :
    (k.join ps).dual = k.dual.join (ps.map .dual) := by
  rw [← PredicateExpr.dualAll_eq_map]
  cases k with
  | conjunction => rfl
  | disjunction => rfl

theorem dual_neutral (k : Connective) : k.neutral.dual = k.dual.neutral := by
  cases k with
  | conjunction => rfl
  | disjunction => rfl

theorem dual_absorbing (k : Connective) : k.absorbing.dual = k.dual.absorbing := by
  cases k with
  | conjunction => rfl
  | disjunction => rfl

theorem Solid.dual {p : PredicateExpr} (h : k.Solid p) : k.dual.Solid p.dual := by
  cases k with
  | conjunction =>
    cases p with
    | compare function operands => exact ⟨nofun, nofun, nofun⟩
    | and children => exact absurd rfl (h.ne_join children)
    | or children => exact ⟨nofun, nofun, nofun⟩
    | always => exact absurd rfl h.ne_neutral
    | never => exact absurd rfl h.ne_absorbing
  | disjunction =>
    cases p with
    | compare function operands => exact ⟨nofun, nofun, nofun⟩
    | and children => exact ⟨nofun, nofun, nofun⟩
    | or children => exact absurd rfl (h.ne_join children)
    | always => exact absurd rfl h.ne_absorbing
    | never => exact absurd rfl h.ne_neutral

theorem maps_dual (k : Connective) : Maps k k.dual .dual where
  join := dual_join k
  neutral := dual_neutral k
  absorbing := dual_absorbing k
  solid := Solid.dual

theorem simplify_dual (k : Connective) (ps : List PredicateExpr) :
    k.dual.simplify (ps.map .dual) = (k.simplify ps).dual := (maps_dual k).simplify_map ps

/-- **Simplification respects structure, meaning and duality**, for any children.  A list may be
simplified in two pieces first.  Whatever value the connective as it stands has on a row, the
simplified one has as well, and without an absorbing child on the way also each error.  And the
connective of the other kind is simplified in the same way. -/
theorem simplify_laws (k : Connective) :
    (∀ ps qs, k.simplify (ps ++ qs) = k.simplify [k.simplify ps, k.simplify qs]) ∧
    (∀ ps row b, (k.join ps).eval row = .ok b → (k.simplify ps).eval row = .ok b) ∧
    (∀ ps, ¬ k.Reaches ps k.absorbing →
      ∀ row, (k.simplify ps).eval row = (k.join ps).eval row) ∧
    ∀ ps, k.dual.simplify (ps.map .dual) = (k.simplify ps).dual :=
  ⟨simplify_append k, fun _ _ _ => eval_simplify_of_eval,
    fun _ h _ => eval_simplify_of_not_reaches h, simplify_dual k⟩

/-- A nested disjunction that is decided before its second child fails, and a nested conjunction
whose second child fails; the absorbing child behind it stands below a disjunction. -/
theorem simplify_laws_failing :
    let failing := PredicateExpr.compare (.compare .eq) [.field 0 none, .field 1 none]
    let decided := [PredicateExpr.or [.always, failing], .always]
    let undecided := [PredicateExpr.and [.always, failing], .or [failing, .never]]
    conjunction.simplify (decided ++ undecided) =
        conjunction.simplify [conjunction.simplify decided, conjunction.simplify undecided] ∧
      (conjunction.join decided).eval [] = .ok true ∧
      (conjunction.simplify decided).eval [] = .ok true ∧
      ¬ conjunction.Reaches undecided conjunction.absorbing ∧
      (conjunction.simplify undecided).eval [] = (conjunction.join undecided).eval [] ∧
      disjunction.simplify (decided.map .dual) = (conjunction.simplify decided).dual := by
  intro failing decided undecided
  obtain ⟨append, value, errors, duality⟩ := simplify_laws conjunction
  have whole : (conjunction.join decided).eval [] = .ok true := rfl
  have clear : ¬ conjunction.Reaches undecided conjunction.absorbing := by
    rintro (met | ⟨opened, inner⟩)
    · simp [undecided, absorbing] at met
    · obtain rfl : _ = [.always, failing] := by simpa [undecided, join] using opened
      rcases inner with met | ⟨opened, -⟩
      · simp [failing, absorbing] at met
      · simp [failing, join] at opened
  exact ⟨append _ _, whole, value _ _ _ whole, clear, errors _ clear _, duality _⟩

end Connective

end ColumnPlan
