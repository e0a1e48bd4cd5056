import ColumnPlan.Pattern.Matcher
import Mathlib.Data.List.Basic

/-!
# The places that a match reaches

A pattern is matched for sets of places.  The sets are right: the places found are those where the
pattern, begun at one of the given places, can end.  For a repetition this is a search that goes on
from new places only.  It never runs out of rounds, since each round finds a place that was missing
and there are no more places than the text has.

* `Walk E n i j`        `n` steps of a relation;
* `mem_iterate_iff`     exactly so many steps;
* `mem_reach_iff`       at most so many steps;
* `mem_reach_iff_of_missing`   any number of steps, if there are as many rounds as places missing;
* `mem_ends_iff`        the places where a match ends;
* `isMatch_iff`         a text is matched iff the pattern spans a part of it.
-/

namespace ColumnPlan.Pattern

/-! ### steps -/

/-- A number of steps from one place to another. -/
def Walk (E : Nat → Nat → Prop) : Nat → Nat → Nat → Prop
  | 0, i, j => i = j
  | n + 1, i, k => ∃ j, E i j ∧ Walk E n j k

theorem walk_add {E : Nat → Nat → Prop} (m n : Nat) {i j : Nat} :
    Walk E (m + n) i j ↔ ∃ k, Walk E m i k ∧ Walk E n k j := by
  induction m generalizing i with
  | zero =>
    rw [Nat.zero_add]
    constructor
    · intro h
      exact ⟨i, rfl, h⟩
    · rintro ⟨k, same, h⟩
      have same : i = k := same
      exact same ▸ h
  | succ m ih =>
    rw [Nat.add_right_comm m 1 n]
    constructor
    · rintro ⟨l, first, rest⟩
      obtain ⟨k, hk, last⟩ := ih.mp rest
      exact ⟨k, ⟨l, first, hk⟩, last⟩
    · rintro ⟨k, ⟨l, first, hk⟩, last⟩
      exact ⟨l, first, ih.mpr ⟨k, hk, last⟩⟩

/-- Places of a text. -/
def Within (size : Nat) (s : Places) : Prop := ∀ i ∈ s, i ≤ size

/-- A step on sets of places does what a relation says of single places, and stays in the text. -/
structure StepOf (size : Nat) (step : Places → Places) (E : Nat → Nat → Prop) : Prop where
  mem : ∀ s, Within size s → ∀ j, j ∈ step s ↔ ∃ i ∈ s, E i j
  bound : ∀ i j, E i j → i ≤ size → j ≤ size

section
variable {size : Nat} {step : Places → Places} {E : Nat → Nat → Prop}

theorem walk_le (h : StepOf size step E) {n i j : Nat} (hw : Walk E n i j) (hi : i ≤ size) :
    j ≤ size := by
  induction n generalizing i with
  | zero =>
    have same : i = j := hw
    omega
  | succ n ih =>
    obtain ⟨k, hk, rest⟩ := hw
    exact ih rest (h.bound i k hk hi)

theorem StepOf.within (h : StepOf size step E) {s : Places} (hs : Within size s) :
    Within size (step s) := by
  intro j hj
  obtain ⟨i, hi, he⟩ := (h.mem s hs j).mp hj
  exact h.bound i j he (hs i hi)

theorem mem_iterate_iff (h : StepOf size step E) (n : Nat) {s : Places} (hs : Within size s)
    (j : Nat) : j ∈ iterate step n s ↔ ∃ i ∈ s, Walk E n i j := by
  induction n generalizing s with
  | zero =>
    show j ∈ s ↔ ∃ i ∈ s, i = j
    simp
  | succ n ih =>
    rw [iterate]
    split
    · next none =>
      rw [List.isEmpty_iff.mp none]
      simp
    · rw [ih (h.within hs)]
      constructor
      · rintro ⟨k, hk, rest⟩
        obtain ⟨i, hi, he⟩ := (h.mem s hs k).mp hk
        exact ⟨i, hi, k, he, rest⟩
      · rintro ⟨i, hi, k, he, rest⟩
        exact ⟨k, (h.mem s hs k).mpr ⟨i, hi, he⟩, rest⟩

/-! ### a search over new places -/

/-- Only from the new places a step may lead to a place that has not been seen. -/
structure Frontier (E : Nat → Nat → Prop) (seen new : Places) : Prop where
  sub : ∀ i ∈ new, i ∈ seen
  closed : ∀ i ∈ seen, i ∈ new ∨ ∀ j, E i j → j ∈ seen

/-- The places that the next round finds. -/
def nextPlaces (step : Places → Places) (seen new : Places) : Places :=
  (step new).filter (!seen.contains ·)

theorem mem_nextPlaces {seen new : Places} {j : Nat} :
    j ∈ nextPlaces step seen new ↔ j ∈ step new ∧ j ∉ seen := by
  unfold nextPlaces
  rw [List.mem_filter, Bool.not_eq_true', ← Bool.not_eq_true, List.contains_iff_mem]

variable {seen new : Places}

theorem reach_succ (n : Nat) : reach step (n + 1) seen new =
    if (nextPlaces step seen new).isEmpty then seen
    else reach step n (seen ++ nextPlaces step seen new) (nextPlaces step seen new) := rfl

/-- A step from a place that was seen leads to such a place or to one that is found next. -/
theorem Frontier.step_cases (hf : Frontier E seen new) (h : StepOf size step E)
    (hs : Within size seen) {i j : Nat} (hi : i ∈ seen) (he : E i j) :
    j ∈ seen ∨ j ∈ nextPlaces step seen new := by
  by_cases known : j ∈ seen
  · exact .inl known
  · rcases hf.closed i hi with fresh | closed
    · have new_within : Within size new := fun k hk => hs k (hf.sub k hk)
      have reached : j ∈ step new := (h.mem new new_within j).mpr ⟨i, fresh, he⟩
      exact .inr (mem_nextPlaces.mpr ⟨reached, known⟩)
    · exact .inl (closed j he)

theorem Frontier.next (hf : Frontier E seen new) (h : StepOf size step E)
    (hs : Within size seen) :
    Frontier E (seen ++ nextPlaces step seen new) (nextPlaces step seen new) where
  sub := fun _ hi => List.mem_append_right _ hi
  closed := by
    intro i hi
    rcases List.mem_append.mp hi with old | fresh
    · exact .inr fun j he => List.mem_append.mpr (hf.step_cases h hs old he)
    · exact .inl fresh

theorem within_next (h : StepOf size step E) (hf : Frontier E seen new)
    (hs : Within size seen) : Within size (seen ++ nextPlaces step seen new) := by
  intro j hj
  rcases List.mem_append.mp hj with old | fresh
  · exact hs j old
  · have new_within : Within size new := fun k hk => hs k (hf.sub k hk)
    exact h.within new_within j (mem_nextPlaces.mp fresh).1

/-- A walk from what was seen stays there, or it goes on from a place that is found next. -/
theorem Frontier.walk_cases (hf : Frontier E seen new) (h : StepOf size step E)
    (hs : Within size seen) {n i j : Nat} (hi : i ∈ seen) (hw : Walk E n i j) :
    j ∈ seen ∨ ∃ k ∈ nextPlaces step seen new, ∃ m < n, Walk E m k j := by
  induction n generalizing i with
  | zero =>
    have same : i = j := hw
    exact .inl (same ▸ hi)
  | succ n ih =>
    obtain ⟨k, he, rest⟩ := hw
    rcases hf.step_cases h hs hi he with old | fresh
    · rcases ih old rest with stays | ⟨l, hl, m, hm, walk⟩
      · exact .inl stays
      · exact .inr ⟨l, hl, m, by omega, walk⟩
    · exact .inr ⟨k, fresh, n, by omega, rest⟩

/-- A place found next is one step away. -/
theorem exists_walk_of_mem_nextPlaces (h : StepOf size step E) (hf : Frontier E seen new)
    (hs : Within size seen) {m k j : Nat} (hk : k ∈ nextPlaces step seen new)
    (hw : Walk E m k j) : ∃ i ∈ seen, Walk E (m + 1) i j := by
  have new_within : Within size new := fun i hi => hs i (hf.sub i hi)
  obtain ⟨i, hi, he⟩ := (h.mem new new_within k).mp (mem_nextPlaces.mp hk).1
  exact ⟨i, hf.sub i hi, k, he, hw⟩

theorem mem_reach_iff (h : StepOf size step E) (n : Nat) (hf : Frontier E seen new)
    (hs : Within size seen) (j : Nat) :
    j ∈ reach step n seen new ↔ ∃ i ∈ seen, ∃ m ≤ n, Walk E m i j := by
  induction n generalizing seen new with
  | zero =>
    show j ∈ seen ↔ _
    constructor
    · intro hj
      exact ⟨j, hj, 0, Nat.le_refl 0, rfl⟩
    · rintro ⟨i, hi, m, hm, walk⟩
      obtain rfl : m = 0 := by omega
      have same : i = j := walk
      exact same ▸ hi
  | succ n ih =>
    rw [reach_succ]
    split
    · next none =>
      constructor
      · intro hj
        exact ⟨j, hj, 0, Nat.zero_le _, rfl⟩
      · rintro ⟨i, hi, m, -, walk⟩
        rcases hf.walk_cases h hs hi walk with stays | ⟨k, hk, -⟩
        · exact stays
        · rw [List.isEmpty_iff.mp none] at hk
          exact absurd hk List.not_mem_nil
    · rw [ih (hf.next h hs) (within_next h hf hs)]
      constructor
      · rintro ⟨i, hi, m, hm, walk⟩
        rcases List.mem_append.mp hi with old | fresh
        · exact ⟨i, old, m, by omega, walk⟩
        · obtain ⟨k, hk, longer⟩ := exists_walk_of_mem_nextPlaces h hf hs fresh walk
          exact ⟨k, hk, m + 1, by omega, longer⟩
      · rintro ⟨i, hi, m, hm, walk⟩
        rcases hf.walk_cases h hs hi walk with stays | ⟨k, hk, l, hl, rest⟩
        · exact ⟨j, List.mem_append_left _ stays, 0, Nat.zero_le _, rfl⟩
        · exact ⟨k, List.mem_append_right _ hk, l, by omega, rest⟩

/-- The places of a text that have not been seen. -/
def missing (size : Nat) (seen : Places) : Places :=
  (List.range (size + 1)).filter (!seen.contains ·)

theorem mem_missing {j : Nat} : j ∈ missing size seen ↔ j ≤ size ∧ j ∉ seen := by
  unfold missing
  rw [List.mem_filter, List.mem_range, Bool.not_eq_true', ← Bool.not_eq_true,
    List.contains_iff_mem, Nat.lt_succ_iff]

theorem length_missing_append_lt {more : Places} {j : Nat} (hj : j ∈ more) (hn : j ∉ seen)
    (hb : j ≤ size) : (missing size (seen ++ more)).length < (missing size seen).length := by
  have fewer : missing size (seen ++ more) = (missing size seen).filter (!more.contains ·) := by
    unfold missing
    rw [List.filter_filter]
    refine List.filter_congr fun i _ => ?_
    rw [Bool.eq_iff_iff]
    simp only [Bool.not_eq_true', Bool.and_eq_true, ← Bool.not_eq_true, List.contains_iff_mem,
      List.mem_append]
    tauto
  rw [fewer]
  refine List.length_filter_lt_length_iff_exists.mpr ⟨j, mem_missing.mpr ⟨hb, hn⟩, ?_⟩
  simpa using hj

theorem mem_reach_of_missing (h : StepOf size step E) {n : Nat} (hf : Frontier E seen new)
    (hs : Within size seen) (hn : (missing size seen).length ≤ n) {m i j : Nat}
    (hi : i ∈ seen) (hw : Walk E m i j) : j ∈ reach step n seen new := by
  induction n generalizing seen new i m with
  | zero =>
    by_contra hj
    have bound : j ≤ size := walk_le h hw (hs i hi)
    have place : j ∈ missing size seen := mem_missing.mpr ⟨bound, hj⟩
    have none : missing size seen = [] := List.length_eq_zero_iff.mp (by omega)
    rw [none] at place
    exact absurd place List.not_mem_nil
  | succ n ih =>
    rw [reach_succ]
    split
    · next none =>
      rcases hf.walk_cases h hs hi hw with stays | ⟨k, hk, -⟩
      · exact stays
      · rw [List.isEmpty_iff.mp none] at hk
        exact absurd hk List.not_mem_nil
    · next some =>
      obtain ⟨k, hk⟩ := List.exists_mem_of_ne_nil _ fun none =>
        some (List.isEmpty_iff.mpr none)
      have all := within_next h hf hs
      have fewer : (missing size (seen ++ nextPlaces step seen new)).length <
          (missing size seen).length :=
        length_missing_append_lt hk (mem_nextPlaces.mp hk).2
          (all k (List.mem_append_right _ hk))
      exact ih (hf.next h hs) all (by omega) (List.mem_append_left _ hi) hw

/-- There are never more rounds than places. -/
theorem mem_reach_iff_of_missing (h : StepOf size step E) {n : Nat} (hf : Frontier E seen new)
    (hs : Within size seen) (hn : (missing size seen).length ≤ n) (j : Nat) :
    j ∈ reach step n seen new ↔ ∃ i ∈ seen, ∃ m, Walk E m i j := by
  constructor
  · intro hj
    obtain ⟨i, hi, m, -, walk⟩ := (mem_reach_iff h n hf hs j).mp hj
    exact ⟨i, hi, m, walk⟩
  · rintro ⟨i, hi, m, walk⟩
    exact mem_reach_of_missing h hf hs hn hi walk

theorem length_missing_le (size : Nat) (seen : Places) :
    (missing size seen).length ≤ size + 1 := by
  have fewer := List.length_filter_le (!seen.contains ·) (List.range (size + 1))
  rw [List.length_range] at fewer
  exact fewer

/-- The start of a search: every place is new. -/
theorem frontier_start (s : Places) : Frontier E s s := ⟨fun _ hi => hi, fun _ hi => .inl hi⟩

end

/-! ### single characters -/

theorem length_le_of_takeTail {rs : List Utf8.ByteRange} {bs : List UInt8} {bits code : Nat}
    (h : Utf8.takeTail bits rs bs = some code) : rs.length ≤ bs.length := by
  induction rs generalizing bs bits with
  | nil => exact Nat.zero_le _
  | cons r rs ih =>
    cases bs with
    | nil => cases h
    | cons b bs =>
      rw [Utf8.takeTail] at h
      split at h
      · have rest := ih h
        simp only [List.length_cons]
        omega
      · cases h

theorem le_length_of_decodeHead {bs : List UInt8} {c : Char} {n : Nat}
    (h : Utf8.decodeHead bs = some (c, n)) : n ≤ bs.length := by
  cases bs with
  | nil => cases h
  | cons b bs =>
    rw [Utf8.decodeHead] at h
    obtain ⟨ranges, -, h⟩ := Option.bind_eq_some_iff.mp h
    obtain ⟨bits, ht, h⟩ := Option.bind_eq_some_iff.mp h
    cases h
    have rest := length_le_of_takeTail ht
    simp only [List.length_cons]
    omega

theorem le_size_of_charAt? {text : Text} {i c n : Nat} (h : charAt? text i = some (c, n)) :
    i + n ≤ text.size := by
  unfold charAt? at h
  split at h
  · cases h
  · next b hb =>
    have inside : i < text.size := (Array.getElem?_eq_some_iff.mp hb).1
    split at h
    · cases h
      omega
    · obtain ⟨⟨d, m⟩, hd, h⟩ := Option.map_eq_some_iff.mp h
      cases h
      have front := le_length_of_decodeHead hd
      simp only [Array.length_toList, Array.size_extract] at front
      omega

theorem le_size_of_scalarEnd? {text : Text} {set : CharSet} {i j : Nat}
    (h : scalarEnd? text set i = some j) : j ≤ text.size := by
  unfold scalarEnd? at h
  split at h
  · next c n hc =>
    split at h
    · cases h
      exact le_size_of_charAt? hc
    · cases h
  · cases h

theorem le_size_of_byteEnd? {text : Text} {set : CharSet} {i j : Nat}
    (h : byteEnd? text set i = some j) : j ≤ text.size := by
  unfold byteEnd? at h
  split at h
  · next b hb =>
    have inside : i < text.size := (Array.getElem?_eq_some_iff.mp hb).1
    split at h
    · cases h
      omega
    · cases h
  · cases h

namespace Regex

/-! ### what a pattern spans, case by case -/

section
variable {text : Text} {i j : Nat}

theorem spans_empty_iff : Spans text .empty i j ↔ i = j := by
  constructor
  · rintro ⟨⟩
    rfl
  · rintro rfl
    exact .empty i

theorem spans_scalar_iff {set : CharSet} :
    Spans text (.scalar set) i j ↔ scalarEnd? text set i = some j := by
  constructor
  · rintro ⟨⟩
    assumption
  · exact .scalar

theorem spans_byte_iff {set : CharSet} :
    Spans text (.byte set) i j ↔ byteEnd? text set i = some j := by
  constructor
  · rintro ⟨⟩
    assumption
  · exact .byte

theorem spans_place_iff {p : Place} :
    Spans text (.place p) i j ↔ i = j ∧ p.holds text i = true := by
  constructor
  · rintro ⟨⟩
    exact ⟨rfl, by assumption⟩
  · rintro ⟨rfl, h⟩
    exact .place h

theorem spans_seq_iff {a b : Regex} :
    Spans text (.seq a b) i j ↔ ∃ k, Spans text a i k ∧ Spans text b k j := by
  constructor
  · rintro ⟨⟩
    exact ⟨_, by assumption, by assumption⟩
  · rintro ⟨k, first, second⟩
    exact .seq first second

theorem spans_alt_iff {a b : Regex} :
    Spans text (.alt a b) i j ↔ Spans text a i j ∨ Spans text b i j := by
  constructor
  · rintro ⟨⟩
    · exact .inl (by assumption)
    · exact .inr (by assumption)
  · rintro (h | h)
    · exact .left h
    · exact .right h

theorem times_iff_walk {a : Regex} {n : Nat} :
    Times text a n i j ↔ Walk (Spans text a) n i j := by
  induction n generalizing i with
  | zero =>
    constructor
    · rintro ⟨⟩
      exact rfl
    · intro h
      have same : i = j := h
      exact same ▸ .zero i
  | succ n ih =>
    constructor
    · rintro ⟨⟩
      exact ⟨_, by assumption, ih.mp (by assumption)⟩
    · rintro ⟨k, first, rest⟩
      exact .succ first (ih.mpr rest)

/-- A repetition: its least number of rounds, and then some more. -/
theorem spans_loop_iff {a : Regex} {min : Nat} {more : Option Nat} :
    Spans text (.loop a min more) i j ↔
      ∃ k, Walk (Spans text a) min i k ∧
        ∃ n, (∀ m ∈ more, n ≤ m) ∧ Walk (Spans text a) n k j := by
  constructor
  · rintro ⟨⟩
    next n atLeast atMost h =>
    have walk := times_iff_walk.mp h
    obtain ⟨extra, rfl⟩ := Nat.exists_eq_add_of_le atLeast
    obtain ⟨k, first, rest⟩ := (walk_add min extra).mp walk
    refine ⟨k, first, extra, ?_, rest⟩
    intro m hm
    have := atMost m hm
    omega
  · rintro ⟨k, first, n, atMost, rest⟩
    have walk := (walk_add min n).mpr ⟨k, first, rest⟩
    refine .loop (times_iff_walk.mpr walk) (Nat.le_add_right min n) fun m hm => ?_
    have := atMost m hm
    omega

end

/-! ### the places where a match ends -/

theorem ends_stepOf (text : Text) (r : Regex) :
    StepOf text.size (r.ends text) (Spans text r) := by
  induction r with
  | empty =>
    refine ⟨fun s _ j => ?_, fun i j h hi => ?_⟩
    · simp only [ends, spans_empty_iff, exists_eq_right]
    · exact spans_empty_iff.mp h ▸ hi
  | scalar set =>
    refine ⟨fun s _ j => ?_, fun i j h _ => le_size_of_scalarEnd? (spans_scalar_iff.mp h)⟩
    simp only [ends, spans_scalar_iff, List.mem_filterMap]
  | byte set =>
    refine ⟨fun s _ j => ?_, fun i j h _ => le_size_of_byteEnd? (spans_byte_iff.mp h)⟩
    simp only [ends, spans_byte_iff, List.mem_filterMap]
  | place p =>
    refine ⟨fun s _ j => ?_, fun i j h hi => (spans_place_iff.mp h).1 ▸ hi⟩
    simp only [ends, spans_place_iff, List.mem_filter]
    constructor
    · rintro ⟨hj, holds⟩
      exact ⟨j, hj, rfl, holds⟩
    · rintro ⟨i, hi, rfl, holds⟩
      exact ⟨hi, holds⟩
  | seq a b iha ihb =>
    refine ⟨fun s hs j => ?_, fun i j h hi => ?_⟩
    · simp only [ends, spans_seq_iff]
      rw [ihb.mem _ (iha.within hs)]
      constructor
      · rintro ⟨k, hk, second⟩
        obtain ⟨i, hi, first⟩ := (iha.mem s hs k).mp hk
        exact ⟨i, hi, k, first, second⟩
      · rintro ⟨i, hi, k, first, second⟩
        exact ⟨k, (iha.mem s hs k).mpr ⟨i, hi, first⟩, second⟩
    · obtain ⟨k, first, second⟩ := spans_seq_iff.mp h
      exact ihb.bound k j second (iha.bound i k first hi)
  | alt a b iha ihb =>
    refine ⟨fun s hs j => ?_, fun i j h hi => ?_⟩
    · have union : j ∈ (a.ends text s).union (b.ends text s) ↔
          j ∈ a.ends text s ∨ j ∈ b.ends text s := by
        unfold Places.union
        rw [List.mem_append, List.mem_filter]
        by_cases known : j ∈ a.ends text s <;> simp [known]
      simp only [ends, spans_alt_iff]
      rw [union, iha.mem s hs, ihb.mem s hs]
      simp only [and_or_left, exists_or]
    · rcases spans_alt_iff.mp h with left | right
      · exact iha.bound i j left hi
      · exact ihb.bound i j right hi
  | loop a min more ih =>
    refine ⟨fun s hs j => ?_, fun i j h hi => ?_⟩
    · have first : Within text.size (iterate (a.ends text) min s) := by
        intro k hk
        obtain ⟨i, hi, walk⟩ := (mem_iterate_iff ih min hs k).mp hk
        exact walk_le ih walk (hs i hi)
      have found : j ∈ (Regex.loop a min more).ends text s ↔
          ∃ k ∈ iterate (a.ends text) min s,
            ∃ n, (∀ m ∈ more, n ≤ m) ∧ Walk (Spans text a) n k j := by
        rw [ends]
        cases more with
        | none =>
          have rounds := length_missing_le text.size (iterate (a.ends text) min s)
          refine (mem_reach_iff_of_missing ih (frontier_start _) first rounds j).trans ?_
          simp
        | some m =>
          refine (mem_reach_iff ih m (frontier_start _) first j).trans ?_
          simp
      rw [found]
      constructor
      · rintro ⟨k, hk, rest⟩
        obtain ⟨i, hi, walk⟩ := (mem_iterate_iff ih min hs k).mp hk
        exact ⟨i, hi, spans_loop_iff.mpr ⟨k, walk, rest⟩⟩
      · rintro ⟨i, hi, h⟩
        obtain ⟨k, walk, rest⟩ := spans_loop_iff.mp h
        exact ⟨k, (mem_iterate_iff ih min hs k).mpr ⟨i, hi, walk⟩, rest⟩
    · obtain ⟨k, walk, n, -, rest⟩ := spans_loop_iff.mp h
      exact walk_le ih rest (walk_le ih walk hi)

/-- The places found are those where the pattern, begun at one of the given places, can end. -/
theorem mem_ends_iff {text : Text} (r : Regex) {s : Places} (hs : Within text.size s) (j : Nat) :
    j ∈ r.ends text s ↔ ∃ i ∈ s, Spans text r i j := (ends_stepOf text r).mem s hs j

theorem isMatch_iff (r : Regex) (bytes : List UInt8) :
    r.isMatch bytes = true ↔ ∃ i ≤ bytes.length, ∃ j, Spans bytes.toArray r i j := by
  have all : Within bytes.toArray.size (List.range (bytes.toArray.size + 1)) := by
    intro i hi
    have := List.mem_range.mp hi
    omega
  unfold isMatch
  rw [Bool.not_eq_true', List.isEmpty_eq_false_iff_exists_mem]
  constructor
  · rintro ⟨j, hj⟩
    obtain ⟨i, hi, h⟩ := (mem_ends_iff r all j).mp hj
    exact ⟨i, all i hi, j, h⟩
  · rintro ⟨i, hi, j, h⟩
    refine ⟨j, (mem_ends_iff r all j).mpr ⟨i, ?_, h⟩⟩
    exact List.mem_range.mpr (Nat.lt_succ_of_le hi)

end Regex

end ColumnPlan.Pattern
