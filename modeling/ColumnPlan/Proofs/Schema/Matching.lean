import Mathlib.Data.List.Forall2
import Mathlib.Data.List.SplitBy
import ColumnPlan.Proofs.Schema.Resolve

/-!
# The columns that a glob finds

A glob is cut into its maximal runs of stars and its other characters, one by one.  It finds a name
if the name can be cut into as many parts, any characters for a run of stars and the character
itself for every other one.  How many stars are in a run makes no difference.

* `Glob.runs`                the parts of a glob, each run of stars in one;
* `Glob.Fills`               a name that a glob becomes when its runs of stars are replaced;
* `matches_flatten_iff`      a name is matched part by part;
* `accepts_iff_fills`        these are the names that are accepted;
* `fills_star`, `fills_iff_of_starless`   the star alone, and globs without stars;
* `mem_matching`             the columns of a schema that are found;
* `matching_fills`           these columns, in their order.
-/

namespace ColumnPlan

namespace Glob

/-- The maximal runs of stars, and each other character by itself. -/
def runs (glob : String) : List (List Char) := glob.toList.splitBy fun a b => a == '*' && b == '*'

/-- Some stars stand for any characters, any other character for itself. -/
def StandsFor (run part : List Char) : Prop := '*' ∈ run ∨ part = run

/-- The name is the glob with each maximal run of stars replaced by some characters. -/
def Fills (glob name : String) : Prop :=
  ∃ parts, List.Forall₂ StandsFor (runs glob) parts ∧ name.toList = parts.flatten

/-! ### runs -/

/-- One star or more, or a character that is none. -/
def IsRun (run : List Char) : Prop :=
  (∃ n, run = List.replicate (n + 1) '*') ∨ ∃ c, c ≠ '*' ∧ run = [c]

/-- What is not cut has a star on either side of each place where it might be. -/
theorem eq_star_of_isChain {a : Char} {l : List Char}
    (h : (a :: l).IsChain fun a b => (a == '*' && b == '*') = true) :
    l = [] ∨ ∀ c ∈ a :: l, c = '*' := by
  induction l generalizing a with
  | nil => exact .inl rfl
  | cons b l ih =>
    rw [List.isChain_cons_cons, Bool.and_eq_true, beq_iff_eq, beq_iff_eq] at h
    obtain ⟨⟨ha, hb⟩, chain⟩ := h
    have others : ∀ c ∈ b :: l, c = '*' := by
      rcases ih chain with rfl | others
      · exact List.forall_mem_singleton.mpr hb
      · exact others
    exact .inr (List.forall_mem_cons.mpr ⟨ha, others⟩)

theorem isRun_of_mem_runs {glob : String} {run : List Char} (h : run ∈ runs glob) : IsRun run := by
  have chain := List.isChain_of_mem_splitBy h
  cases run with
  | nil => exact absurd h (List.nil_notMem_splitBy _ _)
  | cons a l =>
    by_cases star : a = '*'
    · refine .inl ⟨l.length, ?_⟩
      rcases eq_star_of_isChain chain with rfl | stars
      · rw [star]
        rfl
      · exact List.eq_replicate_of_mem stars
    · rcases eq_star_of_isChain chain with rfl | stars
      · exact .inr ⟨a, star, rfl⟩
      · exact absurd (stars a List.mem_cons_self) star

theorem matches_stars_iff (n : Nat) (glob name : List Char) :
    Matches (List.replicate (n + 1) '*' ++ glob) name ↔
      ∃ part rest, name = part ++ rest ∧ Matches glob rest := by
  induction n generalizing name with
  | zero => exact matches_star_iff
  | succ n ih =>
    rw [List.replicate_succ, List.cons_append, List.replicate_succ, List.cons_append,
      matches_star_star_iff]
    exact ih name

theorem matches_run_iff {run : List Char} (h : IsRun run) (glob name : List Char) :
    Matches (run ++ glob) name ↔
      ∃ part rest, StandsFor run part ∧ name = part ++ rest ∧ Matches glob rest := by
  rcases h with ⟨n, rfl⟩ | ⟨c, notStar, rfl⟩
  · have star : '*' ∈ List.replicate (n + 1) '*' := List.mem_cons_self
    rw [matches_stars_iff]
    constructor
    · rintro ⟨part, rest, same, h⟩
      exact ⟨part, rest, .inl star, same, h⟩
    · rintro ⟨part, rest, -, same, h⟩
      exact ⟨part, rest, same, h⟩
  · rw [List.singleton_append, matches_char_iff notStar]
    constructor
    · rintro ⟨rest, rfl, h⟩
      exact ⟨[c], rest, .inr rfl, rfl, h⟩
    · rintro ⟨part, rest, star | rfl, rfl, h⟩
      · exact absurd (List.mem_singleton.mp star).symm notStar
      · exact ⟨rest, rfl, h⟩

theorem matches_flatten_iff {runs : List (List Char)} (h : ∀ run ∈ runs, IsRun run)
    (name : List Char) :
    Matches runs.flatten name ↔
      ∃ parts, List.Forall₂ StandsFor runs parts ∧ name = parts.flatten := by
  induction runs generalizing name with
  | nil =>
    constructor
    · rintro ⟨⟩
      exact ⟨[], .nil, rfl⟩
    · rintro ⟨parts, each, rfl⟩
      cases each
      exact .nil
  | cons run runs ih =>
    obtain ⟨first, others⟩ := List.forall_mem_cons.mp h
    rw [List.flatten_cons, matches_run_iff first]
    constructor
    · rintro ⟨part, rest, stands, rfl, h⟩
      obtain ⟨parts, each, rfl⟩ := (ih others rest).mp h
      exact ⟨part :: parts, .cons stands each, rfl⟩
    · rintro ⟨parts, each, rfl⟩
      cases each with
      | cons stands each => exact ⟨_, _, stands, rfl, (ih others _).mpr ⟨_, each, rfl⟩⟩

theorem accepts_iff_fills (glob name : String) : accepts glob name = true ↔ Fills glob name := by
  have whole : (runs glob).flatten = glob.toList := List.flatten_splitBy _ _
  rw [accepts_iff_matches, ← whole, matches_flatten_iff fun _ => isRun_of_mem_runs]
  exact Iff.rfl

theorem fills_star (name : String) : Fills "*" name :=
  ⟨[name.toList], .cons (.inl List.mem_cons_self) .nil, List.flatten_singleton.symm⟩

theorem fills_iff_of_starless {glob name : String} (h : '*' ∉ glob.toList) :
    Fills glob name ↔ name = glob := by
  rw [← accepts_iff_fills, accepts_iff_of_starless h]

end Glob

namespace Schema

open Pattern

theorem mem_matching {s : Schema} {pattern : String} {withKey : Bool} {i : Nat} :
    i ∈ s.matching pattern withKey ↔
      ∃ f, s.fields[i]? = some f ∧ (withKey = true ∨ f.isKey = false) ∧
        Glob.Fills pattern f.name := by
  rw [matching_eq, mem_indicesWhere]
  refine exists_congr fun f => and_congr_right fun _ => ?_
  rw [Bool.and_eq_true, Bool.or_eq_true, Bool.not_eq_true', Glob.accepts_iff_fills]

/-- **A path is a glob.**  It finds the columns, keys left out or not, whose names it becomes when
its runs of stars are replaced by some characters, whichever these are, and it finds them in their
order and each of them once.  The star alone becomes any name, a path without stars only its own
text.  An engine with limits finds the same columns, or none if it refuses the expression. -/
theorem matching_fills (s : Schema) (pattern : String) (withKey : Bool) :
    (s.matching pattern withKey).Pairwise (· < ·) ∧
    (∀ i, i ∈ s.matching pattern withKey ↔
      ∃ f, s.fields[i]? = some f ∧ (withKey = true ∨ f.isKey = false) ∧
        Glob.Fills pattern f.name) ∧
    (∀ name, Glob.Fills "*" name) ∧
    ('*' ∉ pattern.toList → ∀ name, Glob.Fills pattern name ↔ name = pattern) ∧
    (∀ compile : Chars → Option Regex, (∀ cs r, compile cs = some r → regexOf? cs = some r) →
      s.matchingWith compile pattern withKey =
        if pattern ≠ "*" ∧ '*' ∈ pattern.toList ∧ compile (Glob.source pattern.toList) = none then []
        else s.matching pattern withKey) := by
  refine ⟨?_, fun _ => mem_matching, Glob.fills_star,
    fun starless _ => Glob.fills_iff_of_starless starless,
    fun compile agrees => matchingWith_eq agrees s pattern withKey⟩
  rw [matching_eq]
  exact s.pairwise_indicesWhere _

/-- A full stop is no wildcard, and a star in a name is a character of it; a run of stars takes line
breaks and characters of two bytes.  An engine that takes fewer than ten characters refuses the glob
with stars. -/
theorem matching_fills_text :
    let s : Schema := ⟨[⟨"a.b", .int64, true, some "true"⟩, ⟨"a.b", .int64, true, none⟩,
      ⟨"a*b", .int64, true, none⟩, ⟨"a\néb", .int64, true, none⟩, ⟨"a.b.c", .int64, true, none⟩]⟩
    let small : Chars → Option Regex := fun cs => if cs.length < 10 then regexOf? cs else none
    '*' ∉ "a.b".toList ∧ s.matching "a.b" false = [1] ∧ s.matching "a**b" true = [0, 1, 2, 3] ∧
      Glob.Fills "a.b" "a.b" ∧ ¬ Glob.Fills "a.b" "a*b" ∧
      (∀ cs r, small cs = some r → regexOf? cs = some r) ∧
      s.matchingWith small "a.b" false = [1] ∧ s.matchingWith small "a**b" true = [] := by
  intro s small
  have starless : '*' ∉ "a.b".toList := by decide
  have found : s.matching "a.b" false = [1] := by decide +kernel
  have stars : s.matching "a**b" true = [0, 1, 2, 3] := by decide +kernel
  have agrees : ∀ cs r, small cs = some r → regexOf? cs = some r := fun cs r h =>
    (Option.ite_none_right_eq_some.mp h).2
  obtain ⟨-, -, -, text, limited⟩ := matching_fills s "a.b" false
  obtain ⟨-, -, -, -, refused⟩ := matching_fills s "a**b" true
  refine ⟨starless, found, stars, (text starless _).mpr rfl, mt (text starless _).mp (by decide),
    agrees, ?_, ?_⟩
  · rw [limited small agrees, if_neg fun h => starless h.2.1, found]
  · rw [refused small agrees, if_pos ⟨by decide, by decide, rfl⟩]

end Schema

end ColumnPlan
