import ColumnPlan.Value.Basic

/-!
# Two orders of values, and sets of values

* `Value.compare?`    the order that comparisons see: numbers by their size across types, and no
                      order between values of unlike kinds or with NaN;
* `Value.order`       a total order that agrees with equality, for listing;
* `ValueSet`          a finite set, listed in that order.
-/

namespace ColumnPlan

namespace Value

/-- The order of two values as a comparison sees it.  Integers compare exactly; a float on
either side makes both of them 64-bit floats. -/
def compare? : Value → Value → Option Ordering
  | .boolean a, .boolean b => some (compare a b)
  | .binary a, .binary b => some (compare a b)
  | a, b =>
    match a.toInt?, b.toInt? with
    | some m, some n => some (compare m n)
    | _, _ =>
      match a.toDouble?, b.toDouble? with
      | some x, some y => x.toModel.compare y.toModel
      | _, _ => none

/-- Types in the order of their ranks; within a type integers by size, floats by their bits,
bytes from left to right. -/
def order : Value → Value → Ordering
  | .boolean a, .boolean b => compare a b
  | .integer a, .integer b => compare a.toInt b.toInt
  | .long a, .long b => compare a.toInt b.toInt
  | .float a, .float b => compare a.toBits.toNat b.toBits.toNat
  | .double a, .double b => compare a.toBits.toNat b.toBits.toNat
  | .binary a, .binary b => compare a b
  | a, b => compare a.type.rank b.type.rank

end Value

/-- A set of values, listed in `Value.order` without repetition. -/
structure ValueSet where
  values : List Value
  deriving DecidableEq

namespace ValueSet

/-- Adds a value to an ordered list unless it is there. -/
def insertOrdered (v : Value) : List Value → List Value
  | [] => [v]
  | w :: ws =>
    if v = w then w :: ws
    else
      match v.order w with
      | .lt => v :: w :: ws
      | _ => w :: insertOrdered v ws

def empty : ValueSet := ⟨[]⟩

def insert (s : ValueSet) (v : Value) : ValueSet := ⟨insertOrdered v s.values⟩

def ofList (vs : List Value) : ValueSet := vs.foldl insert empty

def size (s : ValueSet) : Nat := s.values.length

def contains (s : ValueSet) (v : Value) : Bool := s.values.contains v

/-! ### membership -/

theorem mem_insertOrdered (v x : Value) (ws : List Value) :
    x ∈ insertOrdered v ws ↔ x = v ∨ x ∈ ws := by
  induction ws with
  | nil => simp [insertOrdered]
  | cons w ws ih =>
    unfold insertOrdered
    split
    · next h => subst h; simp
    · split
      · simp
      · simp only [List.mem_cons, ih]
        constructor
        · rintro (h | h | h) <;> simp [h]
        · rintro (h | h | h) <;> simp [h]

theorem contains_insert (s : ValueSet) (v x : Value) :
    (s.insert v).contains x = (x == v || s.contains x) := by
  rw [Bool.eq_iff_iff]
  simp [contains, insert, mem_insertOrdered]

theorem contains_ofList (vs : List Value) (x : Value) :
    (ofList vs).contains x = vs.contains x := by
  suffices h : ∀ s : ValueSet, (vs.foldl insert s).contains x = (vs.contains x || s.contains x) by
    simpa [ofList, empty, contains] using h empty
  induction vs with
  | nil => intro s; simp
  | cons v vs ih =>
    intro s
    rw [List.foldl_cons, ih, contains_insert, List.contains_cons]
    cases vs.contains x <;> cases (x == v) <;> cases s.contains x <;> rfl

end ValueSet

end ColumnPlan
