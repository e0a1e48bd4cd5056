/-!
# Dictionaries that are listed in the order of their keys

* `Dictionary κ ν`                     entries in ascending order of keys;
* `get?`, `set`, `erase`               one entry; `set` replaces an earlier value;
* `get?_set`                           what an entry that is set says of the others.
-/

namespace ColumnPlan

structure Dictionary (κ ν : Type) where
  entries : List (κ × ν)
  deriving DecidableEq

namespace Dictionary

variable {κ ν : Type} [DecidableEq κ]

def empty : Dictionary κ ν := ⟨[]⟩

def size (d : Dictionary κ ν) : Nat := d.entries.length

def keys (d : Dictionary κ ν) : List κ := d.entries.map (·.1)

def find? (key : κ) : List (κ × ν) → Option ν
  | [] => none
  | (k, v) :: rest => if key = k then some v else find? key rest

def get? (d : Dictionary κ ν) (key : κ) : Option ν := find? key d.entries

/-- Puts an entry before the first one with a greater key, or in place of one with the same. -/
def setEntry [Ord κ] (key : κ) (value : ν) : List (κ × ν) → List (κ × ν)
  | [] => [(key, value)]
  | (k, v) :: rest =>
    if key = k then (key, value) :: rest
    else if (compare key k).isLT then (key, value) :: (k, v) :: rest
    else (k, v) :: setEntry key value rest

def set [Ord κ] (d : Dictionary κ ν) (key : κ) (value : ν) : Dictionary κ ν :=
  ⟨setEntry key value d.entries⟩

def erase (d : Dictionary κ ν) (key : κ) : Dictionary κ ν :=
  ⟨d.entries.filter fun entry => entry.1 ≠ key⟩

theorem find?_setEntry [Ord κ] (key k : κ) (value : ν) (entries : List (κ × ν)) :
    find? k (setEntry key value entries) = if k = key then some value else find? k entries := by
  induction entries with
  | nil => simp [setEntry, find?]
  | cons entry rest ih =>
    obtain ⟨k', v'⟩ := entry
    unfold setEntry
    split
    · next h => subst h; by_cases hk : k = key <;> simp [find?, hk]
    · next h =>
      split
      · simp [find?]
      · by_cases hk : k = k'
        · subst hk; simp [find?, Ne.symm h]
        · simp [find?, hk, ih]

theorem get?_set [Ord κ] (d : Dictionary κ ν) (key k : κ) (value : ν) :
    (d.set key value).get? k = if k = key then some value else d.get? k :=
  find?_setEntry key k value d.entries

end Dictionary

end ColumnPlan
