import ColumnPlan.Pattern.Regex
import ColumnPlan.Text.Utf8

/-!
# Matching patterns in bytes

A pattern is matched for a whole set of places at once: from the places where a match may begin
to the places where it may end.  Sets of places are lists without repetition, and a repetition
goes on only from places that are new, so the work stays within the length of the text times the
size of the pattern, however many ways there are to match.

* `Place.holds text p i`     whether an assertion holds at place `i`;
* `Regex.Spans text r i j`   the pattern matches the bytes from `i` to `j`;
* `Regex.ends text r s`      the places where a match begun in `s` ends;
* `Regex.isMatch r bytes`    whether the pattern matches somewhere in the bytes.
-/

namespace ColumnPlan.Pattern

abbrev Text := Array UInt8

/-! ### characters at a place -/

/-- The character that begins at a place, with the number of its bytes. -/
def charAt? (text : Text) (i : Nat) : Option (Nat × Nat) :=
  match text[i]? with
  | none => none
  | some b =>
    if b < 0x80 then some (b.toNat, 1)
    else (Utf8.decodeHead (text.extract i (i + 4)).toList).map fun (c, n) => (c.toNat, n)

/-- The character that begins last before a place, at most four bytes back. -/
def charBefore? (text : Text) (i : Nat) : Option Nat :=
  let isStart (k : Nat) := ((text.getD k 0) &&& 0xC0) ≠ 0x80
  let start :=
    if isStart (i - 1) || i < 2 then i - 1
    else if isStart (i - 2) || i < 3 then i - 2
    else if isStart (i - 3) || i < 4 then i - 3
    else i - 4
  (Utf8.decodeHead (text.extract start i).toList).map (·.1.toNat)

def isWordByte (b : UInt8) : Bool := (asciiSet .word).mem b.toNat

/-- Whether a word character stands before a place, and none if no character ends there. -/
def wordBefore? (unicode : Bool) (text : Text) (i : Nat) : Option Bool :=
  if i = 0 then some false
  else if unicode then (charBefore? text i).map Unicode.isWord
  else some (isWordByte (text.getD (i - 1) 0))

/-- Whether a word character stands after a place, and none if no character begins there. -/
def wordAfter? (unicode : Bool) (text : Text) (i : Nat) : Option Bool :=
  if text.size ≤ i then some false
  else if unicode then (charAt? text i).map fun (c, _) => Unicode.isWord c
  else some (isWordByte (text.getD i 0))

/-- That no word character stands on a side does not hold next to ill-formed bytes. -/
def WordPlace.holds (before after : Option Bool) : WordPlace → Bool
  | .boundary => before.getD false != after.getD false
  | .noBoundary =>
    match before, after with
    | some b, some a => b == a
    | _, _ => false
  | .start => !before.getD false && after.getD false
  | .finish => before.getD false && !after.getD false
  | .startHalf => !before.getD true
  | .finishHalf => !after.getD true

def Place.holds (text : Text) (i : Nat) : Place → Bool
  | .textStart => i = 0
  | .textEnd => i = text.size
  | .lineStart crlf =>
    i = 0 || text[i - 1]? = some 0x0A ||
      (crlf && text[i - 1]? = some 0x0D && text[i]? ≠ some 0x0A)
  | .lineEnd crlf =>
    i = text.size ||
      if crlf then
        text[i]? = some 0x0D || (text[i]? = some 0x0A && (i = 0 || text[i - 1]? ≠ some 0x0D))
      else text[i]? = some 0x0A
  | .word unicode place => place.holds (wordBefore? unicode text i) (wordAfter? unicode text i)

/-! ### what a match is -/

/-- The end of a match of a single character. -/
def scalarEnd? (text : Text) (set : CharSet) (i : Nat) : Option Nat :=
  match charAt? text i with
  | some (c, n) => if set.mem c then some (i + n) else none
  | none => none

/-- The end of a match of a single byte. -/
def byteEnd? (text : Text) (set : CharSet) (i : Nat) : Option Nat :=
  match text[i]? with
  | some b => if set.mem b.toNat then some (i + 1) else none
  | none => none

namespace Regex

mutual

/-- The pattern matches the bytes from one place to another. -/
inductive Spans (text : Text) : Regex → Nat → Nat → Prop
  | empty (i : Nat) : Spans text .empty i i
  | scalar {set : CharSet} {i j : Nat} (h : scalarEnd? text set i = some j) :
    Spans text (.scalar set) i j
  | byte {set : CharSet} {i j : Nat} (h : byteEnd? text set i = some j) :
    Spans text (.byte set) i j
  | place {p : Place} {i : Nat} (h : p.holds text i = true) : Spans text (.place p) i i
  | seq {a b : Regex} {i j k : Nat} (first : Spans text a i j) (second : Spans text b j k) :
    Spans text (.seq a b) i k
  | left {a b : Regex} {i j : Nat} (h : Spans text a i j) : Spans text (.alt a b) i j
  | right {a b : Regex} {i j : Nat} (h : Spans text b i j) : Spans text (.alt a b) i j
  | loop {a : Regex} {min : Nat} {more : Option Nat} {n i j : Nat} (h : Times text a n i j)
    (atLeast : min ≤ n) (atMost : ∀ m ∈ more, n ≤ min + m) : Spans text (.loop a min more) i j

/-- The pattern matches a number of times in a row. -/
inductive Times (text : Text) : Regex → Nat → Nat → Nat → Prop
  | zero {a : Regex} (i : Nat) : Times text a 0 i i
  | succ {a : Regex} {n i j k : Nat} (first : Spans text a i j) (rest : Times text a n j k) :
    Times text a (n + 1) i k

end

end Regex

/-! ### sets of places -/

abbrev Places := List Nat

def Places.union (s t : Places) : Places := s ++ t.filter (!s.contains ·)

/-- A step taken a number of times; no place is left once there is none. -/
def iterate (step : Places → Places) : Nat → Places → Places
  | 0, s => s
  | n + 1, s => if s.isEmpty then [] else iterate step n (step s)

/-- The places reached by at most so many steps.  `new` are those reached last. -/
def reach (step : Places → Places) : Nat → Places → Places → Places
  | 0, seen, _ => seen
  | n + 1, seen, new =>
    let next := (step new).filter (!seen.contains ·)
    if next.isEmpty then seen else reach step n (seen ++ next) next

namespace Regex

def ends (text : Text) : Regex → Places → Places
  | .empty, s => s
  | .scalar set, s => s.filterMap (scalarEnd? text set)
  | .byte set, s => s.filterMap (byteEnd? text set)
  | .place p, s => s.filter (p.holds text ·)
  | .seq a b, s => b.ends text (a.ends text s)
  | .alt a b, s => (a.ends text s).union (b.ends text s)
  | .loop a min more, s =>
    let first := iterate (a.ends text) min s
    reach (a.ends text) (more.getD (text.size + 1)) first first

/-- Whether the pattern matches a part of the bytes. -/
def isMatch (r : Regex) (bytes : List UInt8) : Bool :=
  let text := bytes.toArray
  !(r.ends text (List.range (text.size + 1))).isEmpty

end Regex

end ColumnPlan.Pattern
