import ColumnPlan.Proofs.Pattern.Matcher
import ColumnPlan.Proofs.Text.Utf8

/-!
# Patterns that read characters

In the bytes of a text a character begins at the places between its characters.  From such a place a
set of characters spans the next character, if it is in the set, and ends at such a place again.  So a
text is read character by character, as if it were a list of them.

* `place pre`                the place behind the characters `pre`;
* `charAt?_place`            the character that begins at a place;
* `spans_scalar_place_iff`   a set of characters spans one of its members;
* `spans_any_place_iff`      any number of any characters;
* `spans_end_place_iff`      the end of the text.
-/

namespace ColumnPlan.Pattern

/-- The place behind some characters. -/
def place (pre : Chars) : Nat := (Utf8.encodeChars pre).length

theorem place_concat (pre : Chars) (c : Char) : place (pre ++ [c]) = place pre + c.utf8Size := by
  unfold place
  rw [Utf8.encodeChars_append, List.length_append, Utf8.encodeChars_cons, List.length_append,
    String.length_utf8EncodeChar]
  rfl

/-- A byte of ASCII is read like any other encoding. -/
theorem charAt?_eq (text : Text) (i : Nat) :
    charAt? text i =
      (Utf8.decodeHead ((text.toList.drop i).take 4)).map fun (c, n) => (c.toNat, n) := by
  have window : (text.extract i (i + 4)).toList = (text.toList.drop i).take 4 := by
    rw [Array.toList_extract, List.extract_eq_take_drop, Nat.add_sub_cancel_left]
  unfold charAt?
  split
  · next none =>
    have past : text.size ≤ i := Array.getElem?_eq_none_iff.mp none
    rw [List.drop_of_length_le (Array.length_toList ▸ past)]
    rfl
  · next b hb =>
    split
    · next ascii =>
      have lead : Utf8.tailRanges b = some [] := if_pos ascii
      have bits : Utf8.headBits b = b.toNat := if_pos ascii
      have char : (Char.ofNat b.toNat).toNat = b.toNat :=
        Utf8.toNat_charOfNat (Nat.lt_trans b.toNat_lt (by decide))
      obtain ⟨inside, rfl⟩ := Array.getElem?_eq_some_iff.mp hb
      rw [List.drop_eq_getElem_cons (Array.length_toList ▸ inside), List.take_succ_cons,
        Array.getElem_toList, Utf8.decodeHead_cons lead (congrArg some bits)]
      exact congrArg (fun c => some (c, 1)) char.symm
    · rw [window]

section
variable {whole pre rest : Chars} (h : whole = pre ++ rest)
include h

theorem charAt?_place : charAt? (Utf8.encodeChars whole).toArray (place pre) =
    rest.head?.map fun c => (c.toNat, c.utf8Size) := by
  rw [charAt?_eq, h, Utf8.encodeChars_append, place, List.drop_left]
  cases rest with
  | nil => rfl
  | cons c rest =>
    rw [Utf8.encodeChars_cons, Utf8.decodeHead_take]
    rfl

theorem spans_scalar_place_iff {set : CharSet} {j : Nat} :
    Regex.Spans (Utf8.encodeChars whole).toArray (.scalar set) (place pre) j ↔
      ∃ c later, rest = c :: later ∧ set.mem c.toNat = true ∧ j = place (pre ++ [c]) := by
  rw [Regex.spans_scalar_iff, scalarEnd?, charAt?_place h]
  cases rest with
  | nil =>
    constructor
    · rintro ⟨⟩
    · rintro ⟨c, later, ⟨⟩, -⟩
  | cons c rest =>
    show (if set.mem c.toNat = true then some (place pre + c.utf8Size) else none) = some j ↔ _
    rw [← place_concat]
    constructor
    · intro found
      split at found
      · next member =>
        exact ⟨c, rest, rfl, member, (Option.some.inj found).symm⟩
      · cases found
    · rintro ⟨_, _, ⟨⟩, member, rfl⟩
      rw [if_pos member]

/-- A set of all characters spans any of them, any number of times. -/
theorem walk_any_place_iff {set : CharSet} (all : ∀ c : Char, set.mem c.toNat = true) {n j : Nat} :
    Walk (Regex.Spans (Utf8.encodeChars whole).toArray (.scalar set)) n (place pre) j ↔
      ∃ part later, rest = part ++ later ∧ part.length = n ∧ j = place (pre ++ part) := by
  induction n generalizing pre rest with
  | zero =>
    constructor
    · rintro same
      have same : place pre = j := same
      exact ⟨[], rest, rfl, rfl, by rw [List.append_nil, same]⟩
    · rintro ⟨part, later, -, none, rfl⟩
      rw [List.length_eq_zero_iff.mp none, List.append_nil]
      rfl
  | succ n ih =>
    constructor
    · rintro ⟨k, first, others⟩
      obtain ⟨c, later, rfl, -, rfl⟩ := (spans_scalar_place_iff h).mp first
      obtain ⟨part, later, rfl, length, rfl⟩ := (ih (by simpa using h)).mp others
      exact ⟨c :: part, later, rfl, congrArg (· + 1) length, by rw [List.append_assoc]; rfl⟩
    · rintro ⟨part, later, rfl, length, rfl⟩
      rcases part with _ | ⟨c, part⟩
      · cases length
      · refine ⟨place (pre ++ [c]), (spans_scalar_place_iff h).mpr ⟨c, _, rfl, all c, rfl⟩, ?_⟩
        refine (ih (by simpa using h)).mpr ⟨part, later, rfl, Nat.succ.inj length, ?_⟩
        rw [List.append_assoc]
        rfl

theorem spans_any_place_iff {set : CharSet} (all : ∀ c : Char, set.mem c.toNat = true) {j : Nat} :
    Regex.Spans (Utf8.encodeChars whole).toArray (.loop (.scalar set) 0 none) (place pre) j ↔
      ∃ part later, rest = part ++ later ∧ j = place (pre ++ part) := by
  rw [Regex.spans_loop_iff]
  constructor
  · rintro ⟨k, same, n, -, walk⟩
    have same : place pre = k := same
    obtain ⟨part, later, cut, -, stop⟩ := (walk_any_place_iff h all).mp (same ▸ walk)
    exact ⟨part, later, cut, stop⟩
  · rintro ⟨part, later, cut, stop⟩
    exact ⟨place pre, rfl, part.length, nofun,
      (walk_any_place_iff h all).mpr ⟨part, later, cut, rfl, stop⟩⟩

/-- The text ends behind its last character. -/
theorem spans_end_place_iff {j : Nat} :
    Regex.Spans (Utf8.encodeChars whole).toArray (.place .textEnd) (place pre) j ↔
      place pre = j ∧ rest = [] := by
  rw [Regex.spans_place_iff, ← Utf8.encodeChars_eq_nil_iff, ← List.length_eq_zero_iff]
  refine and_congr_right fun _ => ?_
  rw [Place.holds, decide_eq_true_iff, List.size_toArray, h, Utf8.encodeChars_append,
    List.length_append, place]
  omega

end

end ColumnPlan.Pattern
