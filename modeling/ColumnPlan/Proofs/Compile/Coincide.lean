import ColumnPlan.Proofs.Join.Normal
import ColumnPlan.Proofs.Logical.Normalize
import ColumnPlan.Proofs.Logical.Reading

/-!
# Filters that are compiled to the same predicate

The children of a connective are compiled in the order of their complexity, each under the
negations above the connective.  So if children cost the same and are compiled to the same
predicates, also under a negation, then so are connectives of them.  A connective of one child is
compiled to what the child is.

* `Coincide x y`                 two results are the same if there are two;
* `Filter.under`                 a filter, or its negation;
* `outcome_connective`           a connective is compiled child by child;
* `Connective.simplify_singleton`   a connective of one predicate in normal form;
* `Filter.Coincide`              filters and negations compiled to the same;
* `Coincide.connective`, `single`, `empty`   connectives of such filters.
-/

namespace ColumnPlan

open Compile

/-! ### results -/

/-- If both computations succeed, their results are the same. -/
def Coincide {α : Type} (x y : Except Error α) : Prop := ∀ a b, x = .ok a → y = .ok b → a = b

namespace Coincide
variable {α β : Type} {x y : Except Error α}

theorem refl (x : Except Error α) : Coincide x x := fun _ _ ha hb =>
  Except.ok.inj (ha.symm.trans hb)

theorem symm (h : Coincide x y) : Coincide y x := fun a b ha hb => (h b a hb ha).symm

theorem bind {f g : α → Except Error β} (h : Coincide x y)
    (hfg : ∀ a, x = .ok a → y = .ok a → Coincide (f a) (g a)) :
    Coincide (x >>= f) (y >>= g) := by
  intro b b' hb hb'
  obtain ⟨a, ha, hb⟩ := bind_eq_ok_iff.mp hb
  obtain ⟨a', ha', hb'⟩ := bind_eq_ok_iff.mp hb'
  cases h a a' ha ha'
  exact hfg a ha ha' b b' hb hb'

theorem bind_refl {f : α → Except Error β} (h : Coincide x y) : Coincide (x >>= f) (y >>= f) :=
  h.bind fun a _ _ => .refl (f a)

theorem mapM {γ : Type} {f : α → Except Error γ} {g : β → Except Error γ} {as : List α}
    {bs : List β} (h : List.Forall₂ (fun a b => Coincide (f a) (g b)) as bs) :
    Coincide (as.mapM f) (bs.mapM g) := by
  induction h with
  | nil => exact .refl _
  | cons first _ ih =>
    rw [List.mapM_cons, List.mapM_cons]
    exact first.bind fun _ _ _ => ih.bind_refl

end Coincide

/-! ### connectives and negations -/

/-- A filter, or its negation. -/
def Filter.under (negated : Bool) (f : Filter) : Filter := if negated then .not f else f

/-- What a connective becomes below a negation. -/
def Connective.under (negated : Bool) (k : Connective) : Connective :=
  if negated then k.dual else k

/-- The children of a connective in the order in which they are tested. -/
def CompileOptions.order (o : CompileOptions) (fs : List Filter) : List Filter :=
  if o.reorder then Filter.sortByComplexity fs else fs

namespace Filter

/-- A filter, or its negation, without negations. -/
def pushed (negated : Bool) (f : Filter) : Filter := if negated then f.negate else f.pushNot

theorem pushNot_under (negated : Bool) (f : Filter) : (f.under negated).pushNot = f.pushed negated := by
  cases negated with
  | true => rw [under, if_pos rfl, pushNot, pushed, if_pos rfl]
  | false => rfl

theorem complexity_pushed (negated : Bool) (f : Filter) :
    (f.pushed negated).complexity = f.complexity := by
  cases negated with
  | true => exact f.complexity_pushNot_negate.2
  | false => exact f.complexity_pushNot_negate.1

theorem pushed_filter (negated : Bool) (k : Connective) (fs : List Filter) :
    (k.filter fs).pushed negated = (k.under negated).filter (fs.map (pushed negated)) := by
  have push : pushNotAll fs = fs.map (pushed false) := pushNotAll_eq_map fs
  have turn : negateAll fs = fs.map (pushed true) := negateAll_eq_map fs
  cases negated with
  | true => cases k <;> exact congrArg _ turn
  | false => cases k <;> exact congrArg _ push

theorem reorder_filter (k : Connective) (fs : List Filter) :
    (k.filter fs).reorder = k.filter (sortByComplexity (fs.map reorder)) := by
  rw [← reorderAll_eq_map]
  cases k <;> rw [Connective.filter, reorder]

theorem complexity_filter (k : Connective) (fs : List Filter) :
    (k.filter fs).complexity = complexityAll fs := by
  cases k <;> rw [Connective.filter, complexity]

/-- The normal form of a connective has those of its children, sorted before or after. -/
theorem normalize_under_filter (o : CompileOptions) (negated : Bool) (k : Connective)
    (fs : List Filter) :
    ((k.filter fs).under negated).normalize o.reorder =
      (k.under negated).filter ((o.order fs).map fun f => (f.under negated).normalize o.reorder) := by
  unfold normalize CompileOptions.order
  simp only [pushNot_under, pushed_filter]
  split
  · rw [reorder_filter, List.map_map]
    refine congrArg _ (List.map_mergeSort fun f _ g _ => ?_).symm
    simp only [Function.comp, complexity_reorder, complexity_pushed]
  · rfl

end Filter

section
variable (c : Setting) (s : Schema)

theorem outcome_compileNormal_filter (k : Connective) (fs : List Filter) :
    (compileNormal c s (k.filter fs)).outcome =
      (fs.mapM fun f => (compileNormal c s f).outcome) >>= fun ps => .ok (k.simplify ps) := by
  cases k with
  | conjunction => exact outcome_compileNormal_and c s fs
  | disjunction => exact outcome_compileNormal_or c s fs

/-- **A connective is compiled child by child**, below the negations above it. -/
theorem outcome_connective (negated : Bool) (k : Connective) (fs : List Filter) :
    (compileFilter c s ((k.filter fs).under negated)).outcome =
      ((c.options.order fs).mapM fun f => (compileFilter c s (f.under negated)).outcome) >>=
        fun ps => .ok ((k.under negated).simplify ps) := by
  have each : (fun f : Filter => (compileFilter c s (f.under negated)).outcome) =
      (fun f => (compileNormal c s f).outcome) ∘
        fun f : Filter => (f.under negated).normalize c.options.reorder :=
    funext fun f => outcome_compileFilter c s _
  rw [outcome_compileFilter, Filter.normalize_under_filter, outcome_compileNormal_filter, each,
    List.mapM_map]

/-- A constant is what a connective of nothing is. -/
theorem outcome_constant (negated : Bool) (k : Connective) :
    (compileFilter c s ((Filter.bool (k = .conjunction)).under negated)).outcome =
      .ok ((k.under negated).simplify []) := by
  have value (b : Bool) : ((Filter.bool b).under negated).normalize c.options.reorder =
      .bool (if negated then !b else b) := by
    rw [Filter.normalize, Filter.pushNot_under]
    cases negated <;> exact ite_self _
  rw [outcome_compileFilter, value, compileNormal, outcome_pure]
  cases negated <;> cases k <;> rfl

end

/-- Filters that cost the same are sorted alike. -/
theorem forall₂_order {T : Filter → Filter → Prop} (o : CompileOptions)
    (cost : ∀ f g, T f g → f.complexity = g.complexity) {fs gs : List Filter}
    (h : List.Forall₂ T fs gs) : List.Forall₂ T (o.order fs) (o.order gs) := by
  -- both lists are sorted as the list of pairs is
  obtain ⟨pairs, rfl, rfl, each⟩ : ∃ pairs : List (Filter × Filter), fs = pairs.map (·.1) ∧
      gs = pairs.map (·.2) ∧ ∀ pair ∈ pairs, T pair.1 pair.2 := by
    induction h with
    | nil => exact ⟨[], rfl, rfl, fun _ hp => absurd hp List.not_mem_nil⟩
    | @cons f g _ _ first _ ih =>
      obtain ⟨pairs, rfl, rfl, each⟩ := ih
      exact ⟨(f, g) :: pairs, rfl, rfl, List.forall_mem_cons.mpr ⟨first, each⟩⟩
  unfold CompileOptions.order
  split
  · let le (p q : Filter × Filter) : Bool := decide (p.1.complexity ≤ q.1.complexity)
    have left : (pairs.mergeSort le).map (·.1) = Filter.sortByComplexity (pairs.map (·.1)) :=
      List.map_mergeSort fun _ _ _ _ => rfl
    have right : (pairs.mergeSort le).map (·.2) = Filter.sortByComplexity (pairs.map (·.2)) := by
      refine List.map_mergeSort fun p hp q hq => ?_
      show decide (p.1.complexity ≤ q.1.complexity) = decide (p.2.complexity ≤ q.2.complexity)
      rw [cost _ _ (each p hp), cost _ _ (each q hq)]
    rw [← left, ← right, List.forall₂_map_left_iff, List.forall₂_map_right_iff, List.forall₂_same]
    exact fun pair hp => each pair ((List.mergeSort_perm pairs le).mem_iff.mp hp)
  · rwa [List.forall₂_map_left_iff, List.forall₂_map_right_iff, List.forall₂_same]

/-! ### connectives of few children -/

/-- A connective of one predicate in normal form is the predicate. -/
theorem Connective.simplify_singleton (k : Connective) {p : PredicateExpr} (h : p.Normal) :
    k.simplify [p] = p := by
  rw [simplify_eq]
  rcases k.solid_or p with solid | ⟨children, rfl⟩ | rfl | rfl
  · rw [solid.spliceAll?_cons]
    rfl
  · have parts : 2 ≤ children.length ∧ ∀ p ∈ children, k.Solid p := by
      cases k with
      | conjunction =>
        cases h with
        | and length solid _ => exact ⟨length, solid⟩
      | disjunction =>
        cases h with
        | or length solid _ => exact ⟨length, solid⟩
    rw [spliceAll?_cons_join, List.append_nil, spliceAll?_of_solid parts.2]
    rcases children with _ | ⟨p, _ | ⟨q, children⟩⟩
    · exact absurd parts.1 (by decide)
    · exact absurd parts.1 (by simp)
    · rfl
  · rw [spliceAll?_cons_neutral]
    rfl
  · rw [spliceAll?_cons_absorbing]

/-! ### filters -/

/-- Expressions are compiled to the same. -/
def Expr.Coincide (c : Setting) (s : Schema) (e e' : Expr) : Prop :=
  ColumnPlan.Coincide (compileExpr c s e false).outcome (compileExpr c s e' false).outcome

/-- Filters cost the same, are compiled to the same predicate, and so are their negations. -/
structure Filter.Coincide (c : Setting) (s : Schema) (f g : Filter) : Prop where
  complexity : f.complexity = g.complexity
  outcome : ∀ negated, ColumnPlan.Coincide (compileFilter c s (f.under negated)).outcome
    (compileFilter c s (g.under negated)).outcome

namespace Filter.Coincide
variable {c : Setting} {s : Schema} {f g : Filter}

theorem refl (f : Filter) : f.Coincide c s f := ⟨rfl, fun _ => .refl _⟩

theorem symm (h : f.Coincide c s g) : g.Coincide c s f :=
  ⟨h.complexity.symm, fun negated => (h.outcome negated).symm⟩

theorem not (h : f.Coincide c s g) : (Filter.not f).Coincide c s (.not g) := by
  refine ⟨h.complexity, fun negated => ?_⟩
  cases negated with
  | false => exact h.outcome true
  | true =>
    have twice (f : Filter) : (compileFilter c s (.not (.not f))).outcome =
        (compileFilter c s f).outcome := by
      rw [outcome_compileFilter, outcome_compileFilter, normalize, normalize, pushNot, negate]
    show ColumnPlan.Coincide (compileFilter c s (.not (.not f))).outcome
      (compileFilter c s (.not (.not g))).outcome
    rw [twice, twice]
    exact h.outcome false

theorem connective (k : Connective) {fs gs : List Filter}
    (h : List.Forall₂ (Filter.Coincide c s) fs gs) :
    (k.filter fs).Coincide c s (k.filter gs) := by
  refine ⟨?_, fun negated => ?_⟩
  · rw [complexity_filter, complexity_filter]
    induction h with
    | nil => rfl
    | cons first _ ih => rw [complexityAll, complexityAll, first.complexity, ih]
  · rw [outcome_connective, outcome_connective]
    refine (ColumnPlan.Coincide.mapM ?_).bind_refl
    exact (forall₂_order c.options (fun _ _ h => h.complexity) h).imp fun _ _ h => h.outcome negated

theorem empty (k : Connective) : (Filter.bool (k = .conjunction)).Coincide c s (k.filter []) := by
  refine ⟨by rw [complexity_filter]; rfl, fun negated => ?_⟩
  have none : c.options.order [] = [] := by
    unfold CompileOptions.order
    split
    · exact List.mergeSort_nil
    · rfl
  rw [outcome_constant, outcome_connective, none]
  exact .refl _

theorem compare {left right left' right' : Expr} (op : CompareOp)
    (hl : left.Coincide c s left') (hr : right.Coincide c s right') :
    (Filter.expr left op right).Coincide c s (.expr left' op right') := by
  refine ⟨rfl, fun negated => ?_⟩
  have operator (left right : Expr) :
      ((Filter.expr left op right).under negated).normalize c.options.reorder =
        .expr left (if negated then op.opposite else op) right := by
    rw [Filter.normalize, Filter.pushNot_under]
    cases negated <;> exact ite_self _
  rw [outcome_compileFilter, outcome_compileFilter, operator, operator, outcome_compileNormal_expr,
    outcome_compileNormal_expr]
  exact hl.bind fun _ _ _ => hr.bind_refl

theorem single (hands : c.functions.Hands fun _ e => e.Normal) (k k' : Connective)
    (h : f.Coincide c s g) : (k.filter [f]).Coincide c s (k'.filter [g]) := by
  have alone (negated : Bool) (k : Connective) (f : Filter) :
      (compileFilter c s ((k.filter [f]).under negated)).outcome =
        (compileFilter c s (f.under negated)).outcome := by
    have order : c.options.order [f] = [f] := by
      unfold CompileOptions.order
      split
      · exact List.mergeSort_singleton f
      · rfl
    rw [outcome_connective, order, List.mapM_cons, List.mapM_nil]
    cases hp : (compileFilter c s (f.under negated)).outcome with
    | error e => rfl
    | ok p => exact congrArg Except.ok (Connective.simplify_singleton _ (normal_of_compileFilter hands hp))
  refine ⟨?_, fun negated => ?_⟩
  · rw [complexity_filter, complexity_filter, complexityAll, complexityAll, h.complexity]
    rfl
  · rw [alone, alone]
    exact h.outcome negated

end Filter.Coincide

end ColumnPlan
