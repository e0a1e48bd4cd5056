import ColumnPlan.Proofs.Physical.Comparison
import ColumnPlan.Proofs.Physical.Connective

/-!
# Constants inside predicates

A predicate that has a constant of its own makes the comparison that it would make with the
constant as a second operand.  A tree in which all constants are operands has the same value on
every row, and fails where the first one fails, with the same error.

* `PredicateFunction.embedded?`     the comparison and the constant inside a predicate;
* `ScalarExpr.unfold`, `PredicateExpr.unfold`   the tree with its constants as operands;
* `holds_embedded`                  a constant is compared as an operand is;
* `unfold_simplify`                 connectives are simplified alike;
* `eval_unfold`, `evalPredicate_unfold`   both trees evaluate alike.
-/

namespace ColumnPlan

/-- The comparison that a predicate makes with a constant of its own. -/
def PredicateFunction.embedded? : PredicateFunction → Option (Comparison × Value)
  | .equalConst k => some (.eq, k)
  | .notEqualConst k => some (.notEq, k)
  | .likeConst p => some (.like, .binary p.bytes)
  | .notLikeConst p => some (.notLike, .binary p.bytes)
  | .compare _ | .inSet _ | .notInSet _ => none

/-- A predicate with its constant, if it has one, behind its one operand. -/
def PredicateFunction.unfolded (f : PredicateFunction) (operands : List ScalarExpr) :
    PredicateExpr :=
  match f.embedded?, operands with
  | some (c, k), [x] => .compare (.compare c) [x, .literal k none]
  | _, operands => .compare f operands

mutual

def ScalarExpr.unfold : ScalarExpr → ScalarExpr
  | .field index label => .field index label
  | .literal value label => .literal value label
  | .call function args label => .call function (ScalarExpr.unfoldAll args) label
  | .rename label child => .rename label child.unfold
  | .predicate p => .predicate p.unfold

def ScalarExpr.unfoldAll : List ScalarExpr → List ScalarExpr
  | [] => []
  | e :: es => e.unfold :: ScalarExpr.unfoldAll es

def PredicateExpr.unfold : PredicateExpr → PredicateExpr
  | .compare function operands => function.unfolded (ScalarExpr.unfoldAll operands)
  | .and children => .and (PredicateExpr.unfoldAll children)
  | .or children => .or (PredicateExpr.unfoldAll children)
  | .always => .always
  | .never => .never

def PredicateExpr.unfoldAll : List PredicateExpr → List PredicateExpr
  | [] => []
  | p :: ps => p.unfold :: PredicateExpr.unfoldAll ps

end

theorem ScalarExpr.unfoldAll_eq_map (es : List ScalarExpr) : unfoldAll es = es.map unfold := by
  induction es with
  | nil => rfl
  | cons e es ih => rw [unfoldAll, ih, List.map_cons]

theorem PredicateExpr.unfoldAll_eq_map (ps : List PredicateExpr) :
    unfoldAll ps = ps.map unfold := by
  induction ps with
  | nil => rfl
  | cons p ps ih => rw [unfoldAll, ih, List.map_cons]

theorem ScalarExpr.unfold_withAlias (label : String) (e : ScalarExpr) :
    (e.withAlias label).unfold = e.unfold.withAlias label := by
  cases e with
  | field | literal | call | rename | predicate => rfl

/-! ### predicates -/

namespace PredicateFunction

theorem unfolded_of_embedded {f : PredicateFunction} {c : Comparison} {k : Value}
    (h : f.embedded? = some (c, k)) (x : ScalarExpr) :
    f.unfolded [x] = .compare (.compare c) [x, .literal k none] := by
  unfold unfolded
  rw [h]

theorem unfolded_of_none {f : PredicateFunction} (h : f.embedded? = none)
    (operands : List ScalarExpr) : f.unfolded operands = .compare f operands := by
  unfold unfolded
  rw [h]

end PredicateFunction

/-- The pattern of some bytes is the one that they are read as. -/
theorem LikePattern.ofBytes?_bytes (p : LikePattern) : ofBytes? p.bytes = some p := by
  unfold ofBytes?
  split
  · next regex h => exact congrArg some (eq_of_bytes_eq rfl)
  · next none =>
    have := p.compiled
    rw [none] at this
    cases this

theorem likeHolds_of_bytes (wanted : Bool) (v : Value) (p : LikePattern) :
    likeHolds wanted v (.binary p.bytes) =
      .ok (v.bytes?.any fun bytes => p.isMatch bytes == wanted) := by
  unfold likeHolds
  cases v.bytes? with
  | none => rfl
  | some bytes =>
    simp only [Value.bytes?, p.ofBytes?_bytes]
    rfl

/-- A constant inside a predicate is compared as an operand is. -/
theorem PredicateFunction.holds_embedded {f : PredicateFunction} {c : Comparison} {k : Value}
    (h : f.embedded? = some (c, k)) (v : Value) : f.holds [v] = c.holds v k := by
  cases f with
  | compare c' | inSet set | notInSet set => cases h
  | equalConst k' | notEqualConst k' =>
    cases h
    rfl
  | likeConst p =>
    cases h
    show _ = likeHolds true v (.binary p.bytes)
    rw [likeHolds_of_bytes]
    simp only [beq_true]
    rfl
  | notLikeConst p =>
    cases h
    show _ = likeHolds false v (.binary p.bytes)
    rw [likeHolds_of_bytes]
    simp only [beq_false]
    rfl

theorem PredicateFunction.arity_of_embedded {f : PredicateFunction} {c : Comparison} {k : Value}
    (h : f.embedded? = some (c, k)) : f.arity = 1 := by
  cases f with
  | compare c' | inSet set | notInSet set => cases h
  | equalConst k' | notEqualConst k' | likeConst p | notLikeConst p => rfl

/-- Taking the constant out of a predicate changes neither its value nor its errors. -/
theorem eval_unfolded (row : Row) (f : PredicateFunction) (operands : List ScalarExpr) :
    (f.unfolded operands).eval row = (PredicateExpr.compare f operands).eval row := by
  unfold PredicateFunction.unfolded
  split
  · next c k x h =>
    have arity : [x].length = f.arity := (PredicateFunction.arity_of_embedded h).symm
    rw [PredicateExpr.eval_compare row (f := .compare c) rfl, PredicateExpr.eval_compare row arity]
    simp only [ScalarExpr.evalOperands, ScalarExpr.eval]
    cases x.eval row with
    | error e => rfl
    | ok cell =>
      cases cell with
      | none => rfl
      | some v => exact (PredicateFunction.holds_embedded h v).symm
  · rfl

/-! ### connectives -/

namespace Connective

theorem unfold_join (k : Connective) (ps : List PredicateExpr) :
    (k.join ps).unfold = k.join (ps.map PredicateExpr.unfold) := by
  cases k <;> exact congrArg _ (PredicateExpr.unfoldAll_eq_map ps)

theorem unfold_neutral (k : Connective) : k.neutral.unfold = k.neutral := by cases k <;> rfl

theorem unfold_absorbing (k : Connective) : k.absorbing.unfold = k.absorbing := by
  cases k <;> rfl

/-- A comparison is a part of its own, with its constant inside or not. -/
theorem solid_unfolded (k : Connective) (f : PredicateFunction) (operands : List ScalarExpr) :
    k.Solid (f.unfolded operands) := by
  unfold PredicateFunction.unfolded
  split
  · cases k <;> exact ⟨nofun, nofun, nofun⟩
  · cases k <;> exact ⟨nofun, nofun, nofun⟩

theorem Solid.unfold {k : Connective} {p : PredicateExpr} (h : k.Solid p) : k.Solid p.unfold := by
  cases p with
  | compare f operands =>
    rw [PredicateExpr.unfold]
    exact solid_unfolded k f _
  | and children =>
    cases k with
    | conjunction => exact absurd rfl (h.ne_join children)
    | disjunction => exact ⟨nofun, nofun, nofun⟩
  | or children =>
    cases k with
    | conjunction => exact ⟨nofun, nofun, nofun⟩
    | disjunction => exact absurd rfl (h.ne_join children)
  | always | never => exact h

theorem maps_unfold (k : Connective) : Maps k k PredicateExpr.unfold where
  join := k.unfold_join
  neutral := k.unfold_neutral
  absorbing := k.unfold_absorbing
  solid := Solid.unfold

/-- Connectives are opened up, dropped and absorbed alike. -/
theorem unfold_simplify (k : Connective) (ps : List PredicateExpr) :
    (k.simplify ps).unfold = k.simplify (ps.map PredicateExpr.unfold) :=
  (k.maps_unfold.simplify_map ps).symm

end Connective

/-! ### evaluation -/

theorem ScalarExpr.length_unfoldAll (es : List ScalarExpr) : (unfoldAll es).length = es.length := by
  rw [unfoldAll_eq_map, List.length_map]

section
variable (row : Row)

/-- A comparison evaluates alike if its operands do. -/
theorem eval_compare_congr {f : PredicateFunction} {operands others : List ScalarExpr}
    (length : others.length = operands.length)
    (same : ScalarExpr.evalOperands row others = ScalarExpr.evalOperands row operands) :
    (PredicateExpr.compare f others).eval row = (PredicateExpr.compare f operands).eval row := by
  rw [PredicateExpr.eval, PredicateExpr.eval, length, same]

/-- A call evaluates alike if its arguments do, all of them or case by case. -/
theorem eval_call_congr {f : ScalarFunction} {args others : List ScalarExpr}
    (length : others.length = args.length)
    (all : ScalarExpr.evalAll row others = ScalarExpr.evalAll row args)
    (inTurn : ScalarExpr.evalCases row others = ScalarExpr.evalCases row args)
    (label : Option String) :
    (ScalarExpr.call f others label).eval row = (ScalarExpr.call f args label).eval row := by
  by_cases lazy : f = .caseWhen
  · subst lazy
    rw [ScalarExpr.eval, ScalarExpr.eval, inTurn]
  · rw [ScalarExpr.eval.eq_4 row f others label lazy, ScalarExpr.eval.eq_4 row f args label lazy,
      length, all]

mutual

/-- **An expression evaluates alike with the constants of its conditions as operands.** -/
theorem eval_unfold : (e : ScalarExpr) → e.unfold.eval row = e.eval row
  | .field index label | .literal value label => rfl
  | .call function args label =>
    eval_call_congr row (ScalarExpr.length_unfoldAll args) (evalAll_unfold args)
      (evalCases_unfold args) label
  | .rename label child => by
    rw [ScalarExpr.unfold, ScalarExpr.eval, ScalarExpr.eval, eval_unfold child]
  | .predicate p => by
    rw [ScalarExpr.unfold, ScalarExpr.eval, ScalarExpr.eval, evalPredicate_unfold p]

theorem evalAll_unfold : (es : List ScalarExpr) →
    ScalarExpr.evalAll row (ScalarExpr.unfoldAll es) = ScalarExpr.evalAll row es
  | [] => rfl
  | e :: es => by
    rw [ScalarExpr.unfoldAll, ScalarExpr.evalAll, ScalarExpr.evalAll, eval_unfold e,
      evalAll_unfold es]

theorem evalCases_unfold : (es : List ScalarExpr) →
    ScalarExpr.evalCases row (ScalarExpr.unfoldAll es) = ScalarExpr.evalCases row es
  | [] => rfl
  | [last] => by
    rw [ScalarExpr.unfoldAll, ScalarExpr.unfoldAll, ScalarExpr.evalCases, ScalarExpr.evalCases,
      eval_unfold last]
  | condition :: result :: rest => by
    rw [ScalarExpr.unfoldAll, ScalarExpr.unfoldAll, ScalarExpr.evalCases, ScalarExpr.evalCases,
      eval_unfold condition, eval_unfold result, evalCases_unfold rest]

theorem evalOperands_unfold : (es : List ScalarExpr) →
    ScalarExpr.evalOperands row (ScalarExpr.unfoldAll es) = ScalarExpr.evalOperands row es
  | [] => rfl
  | e :: es => by
    rw [ScalarExpr.unfoldAll, ScalarExpr.evalOperands, ScalarExpr.evalOperands, eval_unfold e,
      evalOperands_unfold es]

/-- **So does a predicate.** -/
theorem evalPredicate_unfold : (p : PredicateExpr) → p.unfold.eval row = p.eval row
  | .compare function operands => by
    rw [PredicateExpr.unfold, eval_unfolded]
    exact eval_compare_congr row (ScalarExpr.length_unfoldAll operands)
      (evalOperands_unfold operands)
  | .and children => by
    rw [PredicateExpr.unfold, PredicateExpr.eval, PredicateExpr.eval, evalAnd_unfold children]
  | .or children => by
    rw [PredicateExpr.unfold, PredicateExpr.eval, PredicateExpr.eval, evalOr_unfold children]
  | .always | .never => rfl

theorem evalAnd_unfold : (ps : List PredicateExpr) →
    PredicateExpr.evalAnd row (PredicateExpr.unfoldAll ps) = PredicateExpr.evalAnd row ps
  | [] => rfl
  | p :: ps => by
    rw [PredicateExpr.unfoldAll, PredicateExpr.evalAnd, PredicateExpr.evalAnd,
      evalPredicate_unfold p, evalAnd_unfold ps]

theorem evalOr_unfold : (ps : List PredicateExpr) →
    PredicateExpr.evalOr row (PredicateExpr.unfoldAll ps) = PredicateExpr.evalOr row ps
  | [] => rfl
  | p :: ps => by
    rw [PredicateExpr.unfoldAll, PredicateExpr.evalOr, PredicateExpr.evalOr,
      evalPredicate_unfold p, evalOr_unfold ps]

end

end

end ColumnPlan
