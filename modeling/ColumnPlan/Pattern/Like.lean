import ColumnPlan.Pattern.Matcher

/-!
# LIKE patterns

A LIKE pattern is a regular expression that has to match a whole value.  It is read between an
anchor at either end, inside a group of its own.

* `wholeText cs`            the pattern with its anchors;
* `likeRegex? bytes`        the meaning of a LIKE pattern;
* `LikePattern`             a LIKE pattern that has a meaning;
* `LikePattern.isMatch`     whether a value is matched.
-/

namespace ColumnPlan

open Pattern

/-- The pattern in a group between the two anchors. -/
def wholeText (cs : Chars) : Chars := '^' :: '(' :: '?' :: ':' :: cs ++ [')', '$']

/-- The regular expression of a LIKE pattern; none for ill-formed text or syntax. -/
def likeRegex? (bytes : List UInt8) : Option Regex := do
  let cs ← (Utf8.scan bytes).mapM id
  regexOf? (wholeText cs)

structure LikePattern where
  bytes : List UInt8
  regex : Regex
  compiled : likeRegex? bytes = some regex

namespace LikePattern

/-- A pattern is known by its bytes. -/
theorem eq_of_bytes_eq {p q : LikePattern} (h : p.bytes = q.bytes) : p = q := by
  obtain ⟨b, r, hr⟩ := p
  obtain ⟨b', r', hr'⟩ := q
  obtain rfl : b = b' := h
  obtain rfl : r = r' := Option.some.inj (hr.symm.trans hr')
  rfl

instance : DecidableEq LikePattern := fun p q =>
  if h : p.bytes = q.bytes then isTrue (eq_of_bytes_eq h)
  else isFalse fun e => h (e ▸ rfl)

def ofBytes? (bytes : List UInt8) : Option LikePattern :=
  match h : likeRegex? bytes with
  | some regex => some ⟨bytes, regex, h⟩
  | none => none

def isMatch (p : LikePattern) (value : List UInt8) : Bool := p.regex.isMatch value

end LikePattern

end ColumnPlan
