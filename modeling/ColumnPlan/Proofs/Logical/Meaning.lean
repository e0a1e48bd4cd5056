import ColumnPlan.Logical.Normalize
import ColumnPlan.Pattern.Like
import ColumnPlan.Proofs.Logical.Truth
import ColumnPlan.Schema.Resolve
import ColumnPlan.Value.Order

/-!
# What a filter says of a row

The meaning of a filter is a truth value, found on the filter as it is written: negations are
where they are, and the leaves look at the cells of the row.  A comparison is unknown where an
operand is missing, where its operands do not compare, and where it cannot be carried out.

* `Row.value? row i`              the value of a cell, if there is one;
* `Comparison.truth`              a comparison of two values, `Comparison.between` of two cells;
* `membership`                    membership of a cell in a list of values;
* `Filter.meaning s row operand`  the meaning of a filter, if `operand` evaluates expressions;
* `meaning_pushNot`, `meaning_reorder`   normalization keeps it.
-/

namespace ColumnPlan

/-- the value of a cell; none for NULL and beyond the end of the row -/
def Row.value? (row : Row) (i : Nat) : Option Value := row[i]?.join

namespace Comparison

/-- the orders of its operands for which a comparison is true -/
def accepts : Comparison → Ordering → Bool
  | .eq, o => o = .eq
  | .notEq, o => o ≠ .eq
  | .gt, o => o = .gt
  | .gtEq, o => o ≠ .lt
  | .lt, o => o = .lt
  | .ltEq, o => o ≠ .gt
  | .like, _ | .notLike, _ => false

/-- A text matches a pattern, or does not; of a pattern without a meaning nothing is known. -/
def likeTruth (wanted : Bool) (text pattern : Value) : Truth :=
  match text.bytes?, pattern.bytes? with
  | some bytes, some p =>
    match LikePattern.ofBytes? p with
    | some regex => .ofBool (regex.isMatch bytes == wanted)
    | none => .unknown
  | _, _ => .unknown

/-- Values that do not compare leave a comparison unknown. -/
def truth (c : Comparison) (x y : Value) : Truth :=
  match c with
  | .like => likeTruth true x y
  | .notLike => likeTruth false x y
  | c => (x.compare? y).elim .unknown fun o => .ofBool (c.accepts o)

/-- A comparison with NULL is unknown. -/
def between (c : Comparison) : Option Value → Option Value → Truth
  | some x, some y => c.truth x y
  | _, _ => .unknown

theorem between_some (c : Comparison) (a : Option Value) (y : Value) :
    c.between a (some y) = a.elim .unknown (c.truth · y) := by
  cases a with
  | none => rfl
  | some x => rfl

theorem not_likeTruth (wanted : Bool) (x y : Value) :
    (likeTruth wanted x y).not = likeTruth (!wanted) x y := by
  unfold likeTruth
  split
  · split
    · next regex _ =>
      rw [Truth.not_ofBool]
      cases regex.isMatch _ <;> cases wanted <;> rfl
    · rfl
  · rfl

theorem accepts_negate {c : Comparison} (h : c.isLike = false) (o : Ordering) :
    c.negate.accepts o = !c.accepts o := by
  cases c <;> cases o <;> first | rfl | cases h

/-- the order of two values, as a comparison other than `like` sees it -/
theorem truth_eq_of_not_isLike {c : Comparison} (h : c.isLike = false) (x y : Value) :
    c.truth x y = (x.compare? y).elim .unknown fun o => .ofBool (c.accepts o) := by
  cases c <;> first | rfl | cases h

theorem not_truth (c : Comparison) (x y : Value) : (c.truth x y).not = c.negate.truth x y := by
  by_cases h : c.isLike = true
  · cases c with
    | like => exact not_likeTruth true x y
    | notLike => exact not_likeTruth false x y
    | _ => cases h
  · have hc : c.isLike = false := Bool.eq_false_iff.mpr h
    have hn : c.negate.isLike = false := by cases c <;> first | rfl | cases hc
    rw [truth_eq_of_not_isLike hc, truth_eq_of_not_isLike hn]
    cases x.compare? y with
    | none => rfl
    | some o =>
      show (Truth.ofBool (c.accepts o)).not = .ofBool (c.negate.accepts o)
      rw [Truth.not_ofBool, accepts_negate hc]

theorem not_between (c : Comparison) (a b : Option Value) :
    (c.between a b).not = c.negate.between a b := by
  cases a with
  | none => rfl
  | some x =>
    cases b with
    | none => rfl
    | some y => exact not_truth c x y

end Comparison

/-- whether a cell is among the candidates, or is not; of NULL nothing is known -/
def membership (negated : Bool) (candidates : List Value) : Option Value → Truth
  | none => .unknown
  | some v => .ofBool (candidates.contains v != negated)

theorem membership_eq_elim (negated : Bool) (candidates : List Value) (cell : Option Value) :
    membership negated candidates cell =
      cell.elim .unknown fun v => .ofBool (candidates.contains v != negated) := by
  cases cell with
  | none => rfl
  | some v => rfl

theorem not_membership (negated : Bool) (candidates : List Value) (cell : Option Value) :
    (membership negated candidates cell).not = membership (!negated) candidates cell := by
  cases cell with
  | none => rfl
  | some v =>
    show (Truth.ofBool _).not = .ofBool _
    rw [Truth.not_ofBool]
    cases candidates.contains v <;> cases negated <;> rfl

/-- the values that have the type of a column -/
def Schema.candidates (s : Schema) (values : List Value) (i : Nat) : List Value :=
  values.filter fun v => s.fields[i]?.bind (·.type.valueType?) = some v.type

namespace Filter
variable (s : Schema) (row : Row) (operand : Expr → Option Value)

/-! ### the meaning -/

mutual

/-- A leaf that speaks of several columns is the disjunction over them, or the conjunction if its
operator asks for all. -/
def meaning : Filter → Truth
  | .value pattern op v =>
    op.quantifier.over ((s.columns pattern).map fun i => op.base.between (row.value? i) (some v))
  | .path left op right =>
    match s.columns left, s.columns right with
    | [i], [j] => op.base.between (row.value? i) (row.value? j)
    | _, _ => .unknown
  | .key op n =>
    match s.keyIndices with
    | [i] => op.base.between (row.value? i) (some (.long n))
    | _ => .unknown
  | .expr left op right => op.base.between (operand left) (operand right)
  | .member pattern op values =>
    op.quantifier.over ((s.columns pattern).map fun i =>
      membership op.negated (s.candidates values i) (row.value? i))
  | .bool b => .ofBool b
  | .and children => .all (meanings children)
  | .or children => .any (meanings children)
  | .not child => (meaning child).not

def meanings : List Filter → List Truth
  | [] => []
  | f :: fs => meaning f :: meanings fs

end

theorem meanings_eq_map (fs : List Filter) :
    meanings s row operand fs = fs.map (meaning s row operand) := by
  induction fs with
  | nil => rw [meanings, List.map_nil]
  | cons f fs ih => rw [meanings, ih, List.map_cons]

theorem meaning_and (fs : List Filter) :
    (Filter.and fs).meaning s row operand = .all (fs.map (meaning s row operand)) := by
  rw [meaning, meanings_eq_map]

theorem meaning_or (fs : List Filter) :
    (Filter.or fs).meaning s row operand = .any (fs.map (meaning s row operand)) := by
  rw [meaning, meanings_eq_map]

/-! ### negations at the leaves -/

-- The induction runs over both halves of the pass at once, since each calls the other.
mutual

theorem meaning_pushNot : (f : Filter) → f.pushNot.meaning s row operand = f.meaning s row operand
  | .and fs => by rw [pushNot, meaning, meaning, meanings_pushNotAll fs]
  | .or fs => by rw [pushNot, meaning, meaning, meanings_pushNotAll fs]
  | .not f => by rw [pushNot, meaning, meaning_negate f]
  | .value _ _ _ | .path _ _ _ | .key _ _ | .expr _ _ _ | .member _ _ _ | .bool _ => by
    rw [pushNot]

theorem meaning_negate : (f : Filter) →
    f.negate.meaning s row operand = (f.meaning s row operand).not
  | .and fs => by rw [negate, meaning, meaning, meanings_negateAll fs, Truth.not_all]
  | .or fs => by rw [negate, meaning, meaning, meanings_negateAll fs, Truth.not_any]
  | .not f => by rw [negate, meaning, Truth.not_not, meaning_pushNot f]
  | .value pattern op v => by
    rw [negate, meaning, meaning, Quantifier.not_over, List.map_map]
    congr 2
    funext i
    exact (Comparison.not_between op.base _ _).symm
  | .path left op right => by
    rw [negate, meaning, meaning]
    split
    · exact (Comparison.not_between op.base _ _).symm
    · rfl
  | .key op n => by
    rw [negate, meaning, meaning]
    split
    · exact (Comparison.not_between op.base _ _).symm
    · rfl
  | .expr left op right => by
    rw [negate, meaning, meaning]
    exact (Comparison.not_between op.base _ _).symm
  | .member pattern op values => by
    rw [negate, meaning, meaning, Quantifier.not_over, List.map_map]
    congr 2
    funext i
    exact (not_membership op.negated _ _).symm
  | .bool b => by rw [negate, meaning, meaning, Truth.not_ofBool]

theorem meanings_pushNotAll : (fs : List Filter) →
    meanings s row operand (pushNotAll fs) = meanings s row operand fs
  | [] => by rw [pushNotAll]
  | f :: fs => by rw [pushNotAll, meanings, meanings, meaning_pushNot f, meanings_pushNotAll fs]

theorem meanings_negateAll : (fs : List Filter) →
    meanings s row operand (negateAll fs) = (meanings s row operand fs).map Truth.not
  | [] => by rw [negateAll, meanings, List.map_nil]
  | f :: fs => by
    rw [negateAll, meanings, meanings, List.map_cons, meaning_negate f, meanings_negateAll fs]

end

/-! ### cheap parts first -/

theorem meanings_sortByComplexity (fs : List Filter) :
    (meanings s row operand (sortByComplexity fs)).Perm (meanings s row operand fs) := by
  rw [meanings_eq_map, meanings_eq_map]
  exact (perm_sortByComplexity fs).map _

mutual

theorem meaning_reorder : (f : Filter) → f.reorder.meaning s row operand = f.meaning s row operand
  | .and fs => by
    rw [reorder, meaning, meaning, Truth.all_perm (meanings_sortByComplexity s row operand _),
      meanings_reorderAll fs]
  | .or fs => by
    rw [reorder, meaning, meaning, Truth.any_perm (meanings_sortByComplexity s row operand _),
      meanings_reorderAll fs]
  | .not f => by rw [reorder, meaning, meaning, meaning_reorder f]
  | .value _ _ _ | .path _ _ _ | .key _ _ | .expr _ _ _ | .member _ _ _ | .bool _ => by
    rw [reorder]

theorem meanings_reorderAll : (fs : List Filter) →
    meanings s row operand (reorderAll fs) = meanings s row operand fs
  | [] => by rw [reorderAll]
  | f :: fs => by rw [reorderAll, meanings, meanings, meaning_reorder f, meanings_reorderAll fs]

end

theorem meaning_normalize (reordering : Bool) (f : Filter) :
    (f.normalize reordering).meaning s row operand = f.meaning s row operand := by
  unfold normalize
  split
  · rw [meaning_reorder, meaning_pushNot]
  · exact meaning_pushNot s row operand f

end Filter

end ColumnPlan
