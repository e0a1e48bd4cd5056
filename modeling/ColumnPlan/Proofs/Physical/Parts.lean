import ColumnPlan.Compile.Context
import ColumnPlan.Proofs.Physical.Connective

/-!
# The parts of an expression

The parts are the nodes of a tree, each without what is below it.  Whether a tree can be evaluated
on rows of a width is said of its parts one by one, and so is which constants it shares with a pool.

* `Part`                       a node;
* `ScalarExpr.parts`, `PredicateExpr.parts`   all nodes of a tree;
* `Part.Fits width`            the node can be evaluated on rows of the width;
* `Part.constant?`             the constant that the node brings along;
* `Made width pool parts`      parts that fit, with their constants in a pool;
* `Made.simplify`              so are simplified connectives.
-/

namespace ColumnPlan

inductive Part where
  | field (index : Nat)
  | literal (value : Value)
  | call (function : ScalarFunction) (args : Nat)
  | compare (function : PredicateFunction) (operands : Nat)

/-- A number of arguments that the evaluation of the function accepts. -/
def ScalarFunction.Accepts (f : ScalarFunction) (n : Nat) : Prop := ∀ m ∈ f.arity?, n = m

namespace Part

def Fits (width : Nat) : Part → Prop
  | .field index => index < width
  | .literal _ => True
  | .call function args => function.Accepts args
  | .compare function operands => operands = function.arity

def constant? : Part → Option Value
  | .literal value => some value
  | .compare (.equalConst value) _ => some value
  | .compare (.notEqualConst value) _ => some value
  | _ => none

end Part

/-! ### the parts of trees -/

mutual

def ScalarExpr.parts : ScalarExpr → List Part
  | .field index _ => [.field index]
  | .literal value _ => [.literal value]
  | .call function args _ => .call function args.length :: ScalarExpr.listParts args
  | .rename _ child => child.parts
  | .predicate p => p.parts

def ScalarExpr.listParts : List ScalarExpr → List Part
  | [] => []
  | e :: es => e.parts ++ ScalarExpr.listParts es

def PredicateExpr.parts : PredicateExpr → List Part
  | .compare function operands =>
    .compare function operands.length :: ScalarExpr.listParts operands
  | .and children => PredicateExpr.listParts children
  | .or children => PredicateExpr.listParts children
  | .always | .never => []

def PredicateExpr.listParts : List PredicateExpr → List Part
  | [] => []
  | p :: ps => p.parts ++ PredicateExpr.listParts ps

end

/-- The expression can be evaluated on rows of a width. -/
def ScalarExpr.Fits (width : Nat) (e : ScalarExpr) : Prop := ∀ part ∈ e.parts, part.Fits width

/-- The predicate can be evaluated on rows of a width. -/
def PredicateExpr.Fits (width : Nat) (p : PredicateExpr) : Prop :=
  ∀ part ∈ p.parts, part.Fits width

theorem ScalarExpr.mem_listParts {part : Part} {es : List ScalarExpr} :
    part ∈ listParts es ↔ ∃ e ∈ es, part ∈ e.parts := by
  induction es with
  | nil => simp [listParts]
  | cons e es ih =>
    simp only [listParts, List.mem_append, ih, List.mem_cons, exists_eq_or_imp]

theorem PredicateExpr.mem_listParts {part : Part} {ps : List PredicateExpr} :
    part ∈ listParts ps ↔ ∃ p ∈ ps, part ∈ p.parts := by
  induction ps with
  | nil => simp [listParts]
  | cons p ps ih =>
    simp only [listParts, List.mem_append, ih, List.mem_cons, exists_eq_or_imp]

/-- A new name leaves the nodes of an expression as they are. -/
theorem ScalarExpr.parts_withAlias (label : String) (e : ScalarExpr) :
    (e.withAlias label).parts = e.parts := by
  cases e with
  | field index old => rfl
  | literal value old => rfl
  | call function args old => rfl
  | rename old child => rfl
  | predicate p => rfl

/-! ### connectives -/

namespace Connective

theorem parts_join (k : Connective) (ps : List PredicateExpr) :
    (k.join ps).parts = PredicateExpr.listParts ps := by
  cases k with
  | conjunction => rfl
  | disjunction => rfl

theorem parts_neutral (k : Connective) : k.neutral.parts = [] := by
  cases k with
  | conjunction => rfl
  | disjunction => rfl

theorem parts_absorbing (k : Connective) : k.absorbing.parts = [] := by
  cases k with
  | conjunction => rfl
  | disjunction => rfl

end Connective

/-! ### parts that were made for rows of a width -/

/-- Parts that fit rows of a width and whose constants are in a pool. -/
def Made (width : Nat) (pool : LiteralPool) (parts : List Part) : Prop :=
  ∀ part ∈ parts, part.Fits width ∧ ∀ v ∈ part.constant?, v ∈ pool.values

namespace Made
variable {width : Nat} {pool : LiteralPool} {parts more : List Part}

theorem nil : Made width pool [] := fun _ h => absurd h List.not_mem_nil

theorem append (h : Made width pool parts) (hm : Made width pool more) :
    Made width pool (parts ++ more) := List.forall_mem_append.mpr ⟨h, hm⟩

theorem field {i : Nat} (h : i < width) : Made width pool [.field i] :=
  List.forall_mem_singleton.mpr ⟨h, nofun⟩

theorem literal {v : Value} (h : v ∈ pool.values) : Made width pool [.literal v] := by
  refine List.forall_mem_singleton.mpr ⟨trivial, ?_⟩
  intro w hw
  cases hw
  exact h

theorem call {f : ScalarFunction} {n : Nat} (hf : f.Accepts n) (h : Made width pool parts) :
    Made width pool (.call f n :: parts) := List.forall_mem_cons.mpr ⟨⟨hf, nofun⟩, h⟩

theorem compare {f : PredicateFunction} (hv : ∀ v ∈ (Part.compare f f.arity).constant?,
    v ∈ pool.values) (h : Made width pool parts) :
    Made width pool (.compare f f.arity :: parts) := List.forall_mem_cons.mpr ⟨⟨rfl, hv⟩, h⟩

/-- A pool may grow, and rows may have more cells. -/
theorem mono {next : LiteralPool} (h : Made width pool parts) {wide : Nat} (hw : width ≤ wide)
    (hp : pool.values ⊆ next.values) : Made wide next parts := by
  intro part hm
  obtain ⟨fits, known⟩ := h part hm
  refine ⟨?_, fun v hv => hp (known v hv)⟩
  cases part with
  | field i => exact Nat.lt_of_lt_of_le fits hw
  | literal v => trivial
  | call f n => exact fits
  | compare f n => exact fits

theorem listParts {es : List ScalarExpr} (h : ∀ e ∈ es, Made width pool e.parts) :
    Made width pool (ScalarExpr.listParts es) := by
  intro part hm
  obtain ⟨e, he, hm⟩ := ScalarExpr.mem_listParts.mp hm
  exact h e he part hm

theorem listParts_iff {ps : List PredicateExpr} :
    Made width pool (PredicateExpr.listParts ps) ↔ ∀ p ∈ ps, Made width pool p.parts := by
  constructor
  · intro h p hp part hm
    exact h part (PredicateExpr.mem_listParts.mpr ⟨p, hp, hm⟩)
  · intro h part hm
    obtain ⟨p, hp, hm⟩ := PredicateExpr.mem_listParts.mp hm
    exact h p hp part hm

/-- A connective of predicates that were made for rows of a width. -/
theorem simplify {ps : List PredicateExpr} (h : ∀ p ∈ ps, Made width pool p.parts)
    (k : Connective) : Made width pool (k.simplify ps).parts := by
  refine Connective.simplify_induction (Q := fun p => Made width pool p.parts) ?_ ?_ ?_ ?_ h
  · intro children made
    rw [k.parts_join] at made
    exact listParts_iff.mp made
  · rw [k.parts_neutral]
    exact nil
  · rw [k.parts_absorbing]
    exact nil
  · intro parts _ _ made
    rw [k.parts_join]
    exact listParts_iff.mpr made

end Made

end ColumnPlan
