import ColumnPlan.Physical.Eval
import ColumnPlan.Proofs.Fallible
import ColumnPlan.Proofs.Physical.Parts

/-!
# What can go wrong on a row

An evaluation fails on account of the values in a row, if they overflow or are of the wrong type,
or on account of the tree, if it asks for a cell that is not there or gives a function the wrong
number of operands.  Trees that fit a row never fail on their own account.

* `Error.OfTree`                the error is on account of a tree;
* `Safe x`                      a step that does not fail so;
* `safe_apply`, `safe_holds`    functions on the right number of operands;
* `safe_eval`, `safe_evalPredicate`   trees on rows that they fit.
-/

namespace ColumnPlan

/-- An error that no values in a row can cause. -/
def Error.OfTree : Error → Prop
  | .evaluation (.fieldOutOfRange _ _) => True
  | .evaluation (.operandCount _ _ _) => True
  | .evaluation (.argumentCount _ _ _) => True
  | .fieldIndex _ _ | .internal _ => True
  | _ => False

/-- The step yields something, or an error that is not on account of a tree. -/
def Safe {α : Type} : Except Error α → Prop
  | .ok _ => True
  | .error e => ¬ e.OfTree

section
variable {α β : Type}

theorem safe_iff {x : Except Error α} : Safe x ↔ FailsWith (fun e => ¬ e.OfTree) x := by
  cases x <;> rfl

theorem safe_bind {x : Except Error α} {f : α → Except Error β} (hx : Safe x)
    (hf : ∀ a, x = .ok a → Safe (f a)) : Safe (x >>= f) :=
  safe_iff.mpr (failsWith_bind (safe_iff.mp hx) fun a ha => safe_iff.mp (hf a ha))

theorem safe_mapM {f : α → Except Error β} {as : List α} (h : ∀ a ∈ as, Safe (f a)) :
    Safe (as.mapM f) :=
  safe_iff.mpr (failsWith_mapM fun a ha => safe_iff.mp (h a ha))

end

/-! ### functions on values -/

theorem ArithmeticFunction.safe_onInts (f : ArithmeticFunction) (fit? : Int → Option Value)
    (least a b : Int) : Safe (f.onInts fit? least a b) := by
  unfold onInts
  split
  · trivial
  · split
    · split
      · exact id
      · trivial
    · exact id

theorem safe_arithmetic (f : ArithmeticFunction) (v w : Value) : Safe (arithmetic f v w) := by
  unfold arithmetic
  split
  · exact f.safe_onInts _ _ _ _
  · split
    · exact f.safe_onInts _ _ _ _
    · split
      · trivial
      · exact id

theorem safe_negateValue (v : Value) : Safe (negateValue v) := by
  unfold negateValue
  split
  · split
    · trivial
    · exact id
  · split
    · trivial
    · exact id
  · trivial
  · trivial
  · exact id

theorem safe_notValue (v : Value) : Safe (notValue v) := by
  unfold notValue
  split
  · trivial
  · exact id

theorem safe_extractValue (unit : TemporalUnit) (v : Value) : Safe (extractValue unit v) := by
  unfold extractValue
  split
  · refine safe_bind ?_ fun _ _ => trivial
    unfold extractUnit
    split
    · trivial
    · exact id
  · exact id

theorem safe_onValue {f : Value → Except Error Value} (hf : ∀ v, Safe (f v)) (cell : Datum) :
    Safe (onValue f cell) := by
  cases cell with
  | none => trivial
  | some v => exact safe_bind (hf v) fun _ _ => trivial

theorem safe_onValues {f : Value → Value → Except Error Datum} (hf : ∀ v w, Safe (f v w))
    (a b : Datum) : Safe (onValues f a b) := by
  unfold onValues
  split
  · exact hf _ _
  · trivial

theorem safe_apply_arithmetic (f : ArithmeticFunction) {cells : List Datum}
    (h : cells.length = 2) : Safe (f.function.apply cells) := by
  obtain ⟨a, b, rfl⟩ := List.length_eq_two.mp h
  cases f with
  | add | minus | multiply | ratio | mod => exact safe_onValues (safe_arithmetic _) a b

/-- A function on a number of cells that it accepts. -/
theorem safe_apply {f : ScalarFunction} (hf : f ≠ .caseWhen) {cells : List Datum}
    (h : f.Accepts cells.length) : Safe (f.apply cells) := by
  have one : some 1 = f.arity? → ∃ a, cells = [a] := fun ha =>
    List.length_eq_one_iff.mp (h 1 ha.symm)
  cases f with
  | add => exact safe_apply_arithmetic .add (h 2 rfl)
  | minus => exact safe_apply_arithmetic .minus (h 2 rfl)
  | multiply => exact safe_apply_arithmetic .multiply (h 2 rfl)
  | ratio => exact safe_apply_arithmetic .ratio (h 2 rfl)
  | mod => exact safe_apply_arithmetic .mod (h 2 rfl)
  | negate =>
    obtain ⟨a, rfl⟩ := one rfl
    exact safe_onValue safe_negateValue a
  | not =>
    obtain ⟨a, rfl⟩ := one rfl
    exact safe_onValue safe_notValue a
  | extract unit =>
    obtain ⟨a, rfl⟩ := one rfl
    exact safe_onValue (safe_extractValue unit) a
  | hash => trivial
  | caseWhen => exact absurd rfl hf

theorem safe_likeHolds (wanted : Bool) (text pattern : Value) :
    Safe (likeHolds wanted text pattern) := by
  unfold likeHolds
  split
  · split
    · trivial
    · exact id
  · trivial

theorem safe_comparison (c : Comparison) (v w : Value) : Safe (c.holds v w) := by
  cases c with
  | like => exact safe_likeHolds true v w
  | notLike => exact safe_likeHolds false v w
  | eq | notEq | gt | gtEq | lt | ltEq => trivial

/-- A predicate on as many values as it has operands. -/
theorem safe_holds {f : PredicateFunction} {values : List Value} (h : values.length = f.arity) :
    Safe (f.holds values) := by
  cases f with
  | compare c =>
    obtain ⟨v, w, rfl⟩ := List.length_eq_two.mp h
    exact safe_comparison c v w
  | equalConst k | notEqualConst k | likeConst p | notLikeConst p | inSet s | notInSet s =>
    obtain ⟨v, rfl⟩ := List.length_eq_one_iff.mp h
    trivial

/-! ### trees on rows -/

variable (row : Row)

/-- The parts of operands that fit a row. -/
abbrev AllFit (parts : List Part) : Prop := ∀ part ∈ parts, part.Fits row.length

theorem eval_call {f : ScalarFunction} (hf : f ≠ .caseWhen) {args : List ScalarExpr}
    (h : f.Accepts args.length) (label : Option String) :
    (ScalarExpr.call f args label).eval row = ScalarExpr.evalAll row args >>= f.apply := by
  rw [ScalarExpr.eval.eq_4 row f args label hf]
  split
  · next n ha => rw [if_pos (h n ha)]
  · rfl

/-- Another name does not change the value. -/
theorem ScalarExpr.eval_withAlias (label : String) (e : ScalarExpr) :
    (e.withAlias label).eval row = e.eval row := by
  cases e with
  | field | literal | rename | predicate => simp only [withAlias, eval]
  | call function args old => cases function <;> simp only [withAlias, eval]

theorem length_of_evalAll {args : List ScalarExpr} {cells : List Datum}
    (h : ScalarExpr.evalAll row args = .ok cells) : cells.length = args.length := by
  induction args generalizing cells with
  | nil =>
    cases h
    rfl
  | cons e es ih =>
    obtain ⟨cell, -, h⟩ := bind_eq_ok_iff.mp h
    obtain ⟨rest, hr, h⟩ := bind_eq_ok_iff.mp h
    cases h
    rw [List.length_cons, ih hr, List.length_cons]

theorem length_of_evalOperands {operands : List ScalarExpr} {values : List Value}
    (h : ScalarExpr.evalOperands row operands = .ok (some values)) :
    values.length = operands.length := by
  induction operands generalizing values with
  | nil =>
    cases h
    rfl
  | cons e es ih =>
    obtain ⟨cell, -, h⟩ := bind_eq_ok_iff.mp h
    cases cell with
    | none => cases h
    | some v =>
      obtain ⟨rest, hr, h⟩ := bind_eq_ok_iff.mp h
      cases rest with
      | none => cases h
      | some others =>
        cases h
        rw [List.length_cons, ih hr, List.length_cons]

mutual

theorem safe_eval : (e : ScalarExpr) → AllFit row e.parts → Safe (e.eval row)
  | .field i label, h => by
    have bound : i < row.length := h _ (List.mem_singleton_self _)
    rw [ScalarExpr.eval, List.getElem?_eq_getElem bound]
    trivial
  | .literal v label, _ => by
    rw [ScalarExpr.eval]
    trivial
  | .call f args label, h => by
    have accepted : f.Accepts args.length := h _ List.mem_cons_self
    have operands : AllFit row (ScalarExpr.listParts args) :=
      fun part hp => h part (List.mem_cons_of_mem _ hp)
    by_cases hf : f = .caseWhen
    · subst hf
      rw [ScalarExpr.eval]
      exact safe_evalCases args operands
    · rw [eval_call row hf accepted]
      refine safe_bind (safe_evalAll args operands) fun cells hc => ?_
      exact safe_apply hf ((length_of_evalAll row hc).symm ▸ accepted)
  | .rename label child, h => by
    rw [ScalarExpr.eval]
    exact safe_eval child h
  | .predicate p, h => by
    rw [ScalarExpr.eval]
    exact safe_bind (safe_evalPredicate p h) fun _ _ => trivial

theorem safe_evalAll : (es : List ScalarExpr) → AllFit row (ScalarExpr.listParts es) →
    Safe (ScalarExpr.evalAll row es)
  | [], _ => trivial
  | e :: es, h => by
    obtain ⟨first, rest⟩ := List.forall_mem_append.mp h
    rw [ScalarExpr.evalAll]
    exact safe_bind (safe_eval e first) fun _ _ =>
      safe_bind (safe_evalAll es rest) fun _ _ => trivial

theorem safe_evalCases : (es : List ScalarExpr) → AllFit row (ScalarExpr.listParts es) →
    Safe (ScalarExpr.evalCases row es)
  | [], _ => trivial
  | [last], h => by
    rw [ScalarExpr.evalCases]
    exact safe_eval last (List.forall_mem_append.mp h).1
  | condition :: result :: rest, h => by
    obtain ⟨first, h⟩ := List.forall_mem_append.mp h
    obtain ⟨second, others⟩ := List.forall_mem_append.mp h
    rw [ScalarExpr.evalCases]
    refine safe_bind (safe_eval condition first) fun cell _ => ?_
    split
    · exact safe_eval result second
    · exact safe_evalCases rest others

theorem safe_evalOperands : (es : List ScalarExpr) → AllFit row (ScalarExpr.listParts es) →
    Safe (ScalarExpr.evalOperands row es)
  | [], _ => trivial
  | e :: es, h => by
    obtain ⟨first, rest⟩ := List.forall_mem_append.mp h
    rw [ScalarExpr.evalOperands]
    refine safe_bind (safe_eval e first) fun cell _ => ?_
    cases cell with
    | none => trivial
    | some v => exact safe_bind (safe_evalOperands es rest) fun _ _ => trivial

theorem safe_evalPredicate : (p : PredicateExpr) → AllFit row p.parts → Safe (p.eval row)
  | .compare f operands, h => by
    have count : operands.length = f.arity := h _ List.mem_cons_self
    rw [PredicateExpr.eval, if_pos count]
    refine safe_bind (safe_evalOperands operands fun part hp =>
      h part (List.mem_cons_of_mem _ hp)) fun values hv => ?_
    cases values with
    | none => trivial
    | some vs => exact safe_holds ((length_of_evalOperands row hv).trans count)
  | .and children, h => by
    rw [PredicateExpr.eval]
    exact safe_evalAnd children h
  | .or children, h => by
    rw [PredicateExpr.eval]
    exact safe_evalOr children h
  | .always, _ => by
    rw [PredicateExpr.eval]
    trivial
  | .never, _ => by
    rw [PredicateExpr.eval]
    trivial

theorem safe_evalAnd : (ps : List PredicateExpr) → AllFit row (PredicateExpr.listParts ps) →
    Safe (PredicateExpr.evalAnd row ps)
  | [], _ => trivial
  | p :: ps, h => by
    obtain ⟨first, rest⟩ := List.forall_mem_append.mp h
    rw [PredicateExpr.evalAnd]
    refine safe_bind (safe_evalPredicate p first) fun b _ => ?_
    cases b with
    | true => exact safe_evalAnd ps rest
    | false => trivial

theorem safe_evalOr : (ps : List PredicateExpr) → AllFit row (PredicateExpr.listParts ps) →
    Safe (PredicateExpr.evalOr row ps)
  | [], _ => trivial
  | p :: ps, h => by
    obtain ⟨first, rest⟩ := List.forall_mem_append.mp h
    rw [PredicateExpr.evalOr]
    refine safe_bind (safe_evalPredicate p first) fun b _ => ?_
    cases b with
    | true => trivial
    | false => exact safe_evalOr ps rest

end

end ColumnPlan
