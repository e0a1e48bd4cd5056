import Mathlib.Data.List.Infix

/-!
# What a glob matches

A name is matched by following the rests of it that the glob read so far can leave.  These are ends
of one another, the longest first.  So after a star the ends of the first rest are all there are, and
no rest is lost.

* `Glob.Matches`              what a glob matches;
* `Glob.accepts`              the same as a computation;
* `nested_step`               the rests stay ends of one another;
* `exists_matches_step_iff`   one character of a glob, then the others;
* `accepts_iff_matches`       a glob accepts a name iff it matches it;
* `accepts_self`              every glob accepts its own text;
* `accepts_iff_of_starless`   and without a star nothing else.
-/

namespace ColumnPlan.Glob

/-- A list and all lists that remain of it, the longest first. -/
def ends : List Char → List (List Char)
  | [] => [[]]
  | c :: cs => (c :: cs) :: ends cs

/-- What follows a character at the front. -/
def after? (p : Char) : List Char → Option (List Char)
  | [] => none
  | c :: cs => if p = c then some cs else none

/-- The rests after one more character.  Every rest is an end of the longest, so after a star
the ends of the longest are all there are. -/
def step (rests : List (List Char)) (p : Char) : List (List Char) :=
  if p = '*' then rests.head?.elim [] ends else rests.filterMap (after? p)

def accepts (glob name : String) : Bool := (glob.toList.foldl step [name.toList]).contains []

/-- The name is the glob with each star replaced by some characters. -/
inductive Matches : List Char → List Char → Prop
  | nil : Matches [] []
  | star (skipped : List Char) {glob name : List Char} (rest : Matches glob name) :
    Matches ('*' :: glob) (skipped ++ name)
  | char {c : Char} {glob name : List Char} (notStar : c ≠ '*') (rest : Matches glob name) :
    Matches (c :: glob) (c :: name)

section
variable {glob name : List Char}

theorem matches_star_iff :
    Matches ('*' :: glob) name ↔ ∃ part rest, name = part ++ rest ∧ Matches glob rest := by
  constructor
  · rintro (_ | ⟨part, rest⟩ | ⟨notStar, _⟩)
    · exact ⟨part, _, rfl, rest⟩
    · exact absurd rfl notStar
  · rintro ⟨part, rest, rfl, h⟩
    exact .star part h

theorem matches_char_iff {c : Char} (notStar : c ≠ '*') :
    Matches (c :: glob) name ↔ ∃ rest, name = c :: rest ∧ Matches glob rest := by
  constructor
  · rintro (_ | _ | ⟨_, rest⟩)
    · exact absurd rfl notStar
    · exact ⟨_, rfl, rest⟩
  · rintro ⟨rest, rfl, h⟩
    exact .char notStar h

/-- A star takes what the star behind it would take. -/
theorem matches_star_star_iff : Matches ('*' :: '*' :: glob) name ↔ Matches ('*' :: glob) name := by
  rw [matches_star_iff, matches_star_iff]
  constructor
  · rintro ⟨part, rest, rfl, behind⟩
    obtain ⟨more, last, rfl, h⟩ := matches_star_iff.mp behind
    exact ⟨part ++ more, last, (List.append_assoc ..).symm, h⟩
  · rintro ⟨part, rest, rfl, h⟩
    exact ⟨part, rest, rfl, .star [] h⟩

end

theorem mem_ends {l r : List Char} : r ∈ ends l ↔ r <:+ l := by
  induction l with
  | nil => rw [ends, List.mem_singleton, List.suffix_nil]
  | cons c cs ih => rw [ends, List.mem_cons, List.suffix_cons_iff, ih]

/-- Each of the later lists is an end of the earlier ones. -/
def Nested (rests : List (List Char)) : Prop := rests.Pairwise fun longer rest => rest <:+ longer

theorem nested_ends (l : List Char) : Nested (ends l) := by
  induction l with
  | nil => exact List.pairwise_singleton _ _
  | cons c cs ih =>
    refine List.pairwise_cons.mpr ⟨fun r hr => ?_, ih⟩
    exact (mem_ends.mp hr).trans (List.suffix_cons c cs)

theorem after?_eq_some_iff {p : Char} {l r : List Char} : after? p l = some r ↔ l = p :: r := by
  cases l with
  | nil =>
    constructor
    · intro h; cases h
    · intro h; cases h
  | cons c cs =>
    rw [after?]
    split
    · next same =>
      cases same
      rw [Option.some.injEq, List.cons.injEq, and_iff_right rfl]
    · next apart =>
      constructor
      · intro h; cases h
      · intro h
        cases h
        exact absurd rfl apart

theorem nested_step {rests : List (List Char)} (h : Nested rests) (p : Char) :
    Nested (step rests p) := by
  unfold step
  split
  · cases rests with
    | nil => exact List.Pairwise.nil
    | cons longest _ => exact nested_ends longest
  · refine List.Pairwise.filterMap _ ?_ h
    intro longer rest hend l hl r hr
    rw [after?_eq_some_iff] at hl hr
    subst hl hr
    rcases List.suffix_cons_iff.mp hend with same | hend
    · cases same
      exact List.suffix_rfl
    · exact (List.suffix_cons p r).trans hend

/-- A character of the glob is read from some rest. -/
theorem exists_matches_step_iff {rests : List (List Char)} (h : Nested rests) (p : Char)
    (glob : List Char) :
    (∃ r ∈ step rests p, Matches glob r) ↔ ∃ r ∈ rests, Matches (p :: glob) r := by
  unfold step
  split
  · next star =>
    subst star
    constructor
    · rintro ⟨r, hr, hm⟩
      cases rests with
      | nil => exact absurd hr List.not_mem_nil
      | cons longest _ =>
        obtain ⟨skipped, rfl⟩ := mem_ends.mp hr
        exact ⟨skipped ++ r, List.mem_cons_self, .star skipped hm⟩
    · rintro ⟨r, hr, hm⟩
      cases hm with
      | @star skipped _ name hm =>
        cases rests with
        | nil => exact absurd hr List.not_mem_nil
        | cons longest others =>
          have read : skipped ++ name <:+ longest := by
            rcases List.mem_cons.mp hr with same | hr
            · exact same ▸ List.suffix_rfl
            · exact (List.pairwise_cons.mp h).1 _ hr
          exact ⟨name, mem_ends.mpr ((List.suffix_append skipped name).trans read), hm⟩
      | char notStar _ => exact absurd rfl notStar
  · next notStar =>
    constructor
    · rintro ⟨r, hr, hm⟩
      obtain ⟨l, hl, ha⟩ := List.mem_filterMap.mp hr
      rw [after?_eq_some_iff] at ha
      exact ⟨p :: r, ha ▸ hl, .char notStar hm⟩
    · rintro ⟨l, hl, hm⟩
      cases hm with
      | star _ _ => exact absurd rfl notStar
      | @char _ _ r _ hm =>
        exact ⟨r, List.mem_filterMap.mpr ⟨p :: r, hl, after?_eq_some_iff.mpr rfl⟩, hm⟩

theorem nil_mem_foldl_step_iff (glob : List Char) {rests : List (List Char)}
    (h : Nested rests) : [] ∈ glob.foldl step rests ↔ ∃ r ∈ rests, Matches glob r := by
  induction glob generalizing rests with
  | nil =>
    constructor
    · intro hr; exact ⟨[], hr, .nil⟩
    · rintro ⟨r, hr, hm⟩
      cases hm
      exact hr
  | cons p glob ih => rw [List.foldl_cons, ih (nested_step h p), exists_matches_step_iff h]

theorem accepts_iff_matches (glob name : String) :
    accepts glob name = true ↔ Matches glob.toList name.toList := by
  unfold accepts
  rw [List.contains_iff_mem, nil_mem_foldl_step_iff _ (List.pairwise_singleton _ _)]
  constructor
  · rintro ⟨r, hr, hm⟩
    exact List.mem_singleton.mp hr ▸ hm
  · intro hm; exact ⟨_, List.mem_singleton_self _, hm⟩

theorem matches_self (glob : List Char) : Matches glob glob := by
  induction glob with
  | nil => exact .nil
  | cons p glob ih =>
    by_cases star : p = '*'
    · subst star
      exact .star ['*'] ih
    · exact .char star ih

theorem accepts_self (glob : String) : accepts glob glob = true :=
  (accepts_iff_matches glob glob).mpr (matches_self glob.toList)

/-- Without a star there is one name to match. -/
theorem eq_of_matches {glob name : List Char} (h : Matches glob name) (starless : '*' ∉ glob) :
    name = glob := by
  induction h with
  | nil => rfl
  | star skipped rest ih => exact absurd List.mem_cons_self starless
  | char notStar rest ih => rw [ih fun star => starless (List.mem_cons_of_mem _ star)]

theorem accepts_iff_of_starless {glob name : String} (h : '*' ∉ glob.toList) :
    accepts glob name = true ↔ name = glob := by
  constructor
  · intro ha
    exact String.toList_inj.mp (eq_of_matches ((accepts_iff_matches glob name).mp ha) h)
  · rintro rfl
    exact accepts_self name

end ColumnPlan.Glob
