import ColumnPlan.Error
import ColumnPlan.Function.Registry

/-!
# The context of a compilation

All plans of a context share their constants: a pool holds each value once.

* `LiteralPool`              values without repetition;
* `LiteralPool.intern`       the instance of a value in the pool, put there if it is missing;
* `LiteralPool.intern_fst`   the instance is the value itself;
* `CompileOptions`           what a compilation may do to filters;
* `Setting`                  the options and the functions of a compilation;
* `Compile`                  a computation that can fail and fills a pool of literals; what is in
                             the pool stays there after a failure;
* `literal`                  a value as the pool holds it from now on.
-/

namespace ColumnPlan

/-! ### pools of literals -/

structure LiteralPool where
  values : List Value
  nodup : values.Nodup

namespace LiteralPool

def empty : LiteralPool := ⟨[], List.nodup_nil⟩

def size (p : LiteralPool) : Nat := p.values.length

def intern (p : LiteralPool) (v : Value) : Value × LiteralPool :=
  match h : p.values.find? (· = v) with
  | some pooled => (pooled, p)
  | none =>
    have absent : v ∉ p.values := fun hv =>
      absurd (decide_eq_true rfl) (List.find?_eq_none.mp h v hv)
    (v, ⟨v :: p.values, List.nodup_cons.mpr ⟨absent, p.nodup⟩⟩)

theorem eq_of_find? {values : List Value} {v pooled : Value}
    (h : values.find? (· = v) = some pooled) : pooled = v := by
  have found := List.find?_some h
  exact of_decide_eq_true found

/-- Values are equal only if they are the same, floats bit by bit. -/
theorem intern_fst (p : LiteralPool) (v : Value) : (p.intern v).1 = v := by
  unfold intern
  split
  · next h => exact eq_of_find? h
  · rfl

theorem mem_intern (p : LiteralPool) (v x : Value) :
    x ∈ (p.intern v).2.values ↔ x = v ∨ x ∈ p.values := by
  unfold intern
  split
  · next h =>
    have known : v ∈ p.values := eq_of_find? h ▸ List.mem_of_find?_eq_some h
    constructor
    · exact Or.inr
    · rintro (rfl | hx)
      · exact known
      · exact hx
  · exact List.mem_cons

end LiteralPool

/-! ### options and functions -/

structure CompileOptions where
  /-- Test cheap conditions before expensive ones. -/
  reorder : Bool
  /-- Make constants part of the predicates that compare with them. -/
  fold : Bool
  deriving DecidableEq, Repr

def CompileOptions.default : CompileOptions := ⟨true, true⟩

structure Setting where
  functions : Registry
  options : CompileOptions

abbrev Compile := ExceptT Error (StateM LiteralPool)

def literal (v : Value) : Compile Value := modifyGet (·.intern v)

end ColumnPlan
