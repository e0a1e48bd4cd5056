import ColumnPlan.Proofs.Pattern.Items

/-!
# Patterns with a closing parenthesis behind

A pattern is read part by part, and a closing parenthesis behind it comes to one of three ends:

* `Reaches`      the pattern ends before it, and it closes a group around the pattern;
* `Swallows`     it belongs to a comment or to a part that is not complete, and the groups around
                 the pattern stay open;
* `Unopened`     the pattern itself closes a group that it did not open.

`reading_cases` says so.  The groups around take no part in the reading before, so the pattern is
read the same in all of them (`item_inside`).
-/

namespace ColumnPlan.Pattern

namespace State

/-- The same state inside more groups. -/
def inside (base : List OpenGroup) (s : State) : State := { s with groups := s.groups ++ base }

variable {base : List OpenGroup} {s : State}

@[simp]
theorem inside_free : (s.inside base).free = s.free := rfl

@[simp]
theorem inside_names : (s.inside base).names = s.names := rfl

@[simp]
theorem inside_groups : (s.inside base).groups = s.groups ++ base := rfl

@[simp]
theorem inside_parts : (s.inside base).parts = s.parts := rfl

theorem inside_nil : s.inside [] = s := by
  show State.mk s.free s.names (s.groups ++ []) s.branches s.parts = s
  rw [List.append_nil]

theorem enter?_inside (head : GroupHead) :
    (s.inside base).enter? head = (s.enter? head).map (inside base) := by
  cases head with
  | settings settings => rfl
  | plain => rfl
  | named name =>
    by_cases used : s.names.contains name = true
    · simp only [enter?, inside_names, used, if_true, Option.map_none]
    · simp only [enter?, inside_names, used]
      rfl
  | flagged settings => rfl

theorem repeat?_inside (min : Nat) (max : Option Nat) :
    (s.inside base).repeat? min max = (s.repeat? min max).map (inside base) := by
  simp only [repeat?, inside_parts]
  cases s.parts with
  | nil => rfl
  | cons part parts =>
    simp only
    split
    · rfl
    · rfl

theorem closeGroup?_inside (h : s.groups ≠ []) :
    (s.inside base).closeGroup? = s.closeGroup?.map (inside base) := by
  simp only [closeGroup?, inside_groups]
  cases hg : s.groups with
  | nil => exact absurd hg h
  | cons g groups => rfl

theorem closeGroup?_eq_none (h : s.groups = []) : s.closeGroup? = none := by
  unfold closeGroup?
  rw [h]

theorem finish?_eq_none (h : s.groups ≠ []) : s.finish? = none := by
  unfold finish?
  rw [if_neg]
  simpa using h

theorem finish?_eq_some (h : s.groups = []) : s.finish? = some s.body := by
  unfold finish?
  rw [h]
  rfl

end State

section
variable {base : List OpenGroup}

/-- The same parts of a pattern, read inside more groups. -/
def resultInside (base : List OpenGroup) (r : Option (State × Chars)) : Option (State × Chars) :=
  r.map fun (s, rest) => (s.inside base, rest)

theorem check_inside {o o' : Option State} (h : o' = o.map (·.inside base)) (rest : Chars) :
    (do pure (← o', rest)) = resultInside base (do pure (← o, rest)) := by
  rw [h]
  cases o with
  | none => rfl
  | some s => rfl

theorem bind_inside {α : Type} (r : Option (α × Chars))
    {next next' : α × Chars → Option (State × Chars)}
    (h : ∀ a rest, next' (a, rest) = resultInside base (next (a, rest))) :
    r >>= next' = resultInside base (r >>= next) := by
  cases r with
  | none => rfl
  | some result => exact h result.1 result.2

/-- What a part does to the state does not depend on the groups around, unless it closes one. -/
theorem item_inside (s : State) {cs : Chars} (h : cs.head? = some ')' → s.groups ≠ []) :
    item (s.inside base) cs = resultInside base (item s cs) := by
  unfold item
  split
  · exact bind_inside _ fun head rest => check_inside (State.enter?_inside head) rest
  · exact check_inside (State.closeGroup?_inside (h rfl)) _
  · rfl
  · exact bind_inside _ fun part rest => rfl
  · exact check_inside (State.repeat?_inside 0 (some 1)) _
  · exact check_inside (State.repeat?_inside 0 none) _
  · exact check_inside (State.repeat?_inside 1 none) _
  · exact bind_inside _ fun (min, max) rest =>
      check_inside (State.repeat?_inside min max) (dropLazy rest)
  · exact bind_inside _ fun p rest => rfl

/-! ### a pattern, part by part -/

theorem parseFrom_end {s : State} {cs : Chars} (h : skipSpace s.free cs = []) :
    parseFrom s cs = s.finish?.map (·, []) := by
  have unfolded : parseFrom s cs = skipped s.free (parseRound s) cs >>= proceed _ :=
    rounds_eq advances_parseRound s cs
  rw [unfolded, skipped, h, parseRound]
  cases s.finish? with
  | none => rfl
  | some ast => rfl

theorem parseFrom_item {s : State} {c : Char} {cs part : Chars}
    (h : skipSpace s.free cs = c :: part) :
    parseFrom s cs = item s (c :: part) >>= fun (s, rest) => parseFrom s rest := by
  have unfolded : parseFrom s cs = skipped s.free (parseRound s) cs >>= proceed _ :=
    rounds_eq advances_parseRound s cs
  rw [unfolded, skipped, h, parseRound]
  · cases item s (c :: part) with
    | none => rfl
    | some result => rfl
  · exact nofun

theorem parseFrom_skipSpace (s : State) (cs : Chars) :
    parseFrom s (skipSpace s.free cs) = parseFrom s cs := by
  have idem := skipSpace_idem s.free cs
  cases hs : skipSpace s.free cs with
  | nil =>
    rw [hs] at idem
    rw [parseFrom_end idem, parseFrom_end hs]
  | cons c part =>
    rw [hs] at idem
    rw [parseFrom_item idem, parseFrom_item hs]

/-! ### a pattern with a closing parenthesis behind -/

/-- The characters are read up to their end, which leaves the state `s'`.  A closing parenthesis
behind is read from there, in whatever groups. -/
structure Reaches (s : State) (cs : Chars) (s' : State) : Prop where
  alone : parseFrom s cs = s'.finish?.map (·, [])
  closed : ∀ base post,
    parseFrom (s.inside base) (cs ++ ')' :: post) = parseFrom (s'.inside base) (')' :: post)

/-- All that is left comes after the parenthesis, and the groups around are still open. -/
def Past (base : List OpenGroup) (post : Chars) (r : Option (Ast × Chars)) : Prop :=
  r = none ∨ ∃ s rest, base <:+ s.groups ∧ rest <:+ post ∧ r = parseFrom s rest

/-- The parenthesis is read as something else than the end of a group. -/
structure Swallows (s : State) (cs : Chars) : Prop where
  same : parseFrom s cs ≠ none → parseFrom s (cs ++ [')']) = parseFrom s cs
  past : ∀ base post, Past base post (parseFrom (s.inside base) (cs ++ ')' :: post))

/-- A parenthesis of the characters themselves closes a group that was not opened. -/
def Unopened (s : State) (cs : Chars) : Prop :=
  ∃ pre post s', cs = pre ++ ')' :: post ∧ Reaches s pre s' ∧ s'.groups = []

theorem past_none {post : Chars} : Past base post none := .inl rfl

/-- A pattern that goes on after the parenthesis. -/
theorem past_bind {post : Chars} {r : Option (State × Chars)} (h : Leaves post r) :
    Past base post (resultInside base r >>= fun (s, rest) => parseFrom s rest) := by
  cases r with
  | none => exact past_none
  | some result =>
    obtain ⟨s, rest⟩ := result
    exact .inr ⟨s.inside base, rest, List.suffix_append _ _, h s rest rfl, rfl⟩

/-- A part that is not the end of a group around it, inside more groups. -/
theorem parseFrom_item_inside {s : State} {c : Char} {cs part : Chars}
    (h : skipSpace s.free cs = c :: part) (hc : c = ')' → s.groups ≠ []) :
    parseFrom (s.inside base) cs =
      resultInside base (item s (c :: part)) >>= fun (s, rest) => parseFrom s rest := by
  rw [parseFrom_item (s := s.inside base) h, item_inside]
  intro head
  exact hc (Option.some.inj head)

section
variable {s s' t : State} {c : Char} {cs part rest : Chars}

/-- A part that ends before the parenthesis is read off the front. -/
theorem parseFrom_closed (h : skipSpace s.free cs = c :: part) (hc : c = ')' → s.groups ≠ [])
    (closed : ∀ post, item s (c :: part ++ ')' :: post) = some (t, rest ++ ')' :: post))
    (base : List OpenGroup) (post : Chars) :
    parseFrom (s.inside base) (cs ++ ')' :: post) =
      parseFrom (t.inside base) (rest ++ ')' :: post) := by
  have read : item s (c :: (part ++ ')' :: post)) = some (t, rest ++ ')' :: post) := closed post
  rw [parseFrom_item_inside (skipSpace_closed_part h post) hc, read]
  rfl

theorem Reaches.step (h : skipSpace s.free cs = c :: part) (hc : c = ')' → s.groups ≠ [])
    (alone : item s (c :: part) = some (t, rest))
    (closed : ∀ post, item s (c :: part ++ ')' :: post) = some (t, rest ++ ')' :: post))
    (hr : Reaches t rest s') : Reaches s cs s' where
  alone := by
    rw [parseFrom_item h, alone]
    exact hr.alone
  closed := by
    intro base post
    rw [parseFrom_closed h hc closed]
    exact hr.closed base post

theorem Swallows.step (h : skipSpace s.free cs = c :: part) (hc : c = ')' → s.groups ≠ [])
    (alone : item s (c :: part) = some (t, rest))
    (closed : ∀ post, item s (c :: part ++ ')' :: post) = some (t, rest ++ ')' :: post))
    (hr : Swallows t rest) : Swallows s cs where
  same := by
    have read := parseFrom_closed h hc closed [] []
    rw [State.inside_nil, State.inside_nil] at read
    rw [parseFrom_item h, alone, read]
    exact hr.same
  past := by
    intro base post
    rw [parseFrom_closed h hc closed]
    exact hr.past base post

/-- A part that the parenthesis belongs to. -/
theorem swallows_of_strays (h : skipSpace s.free cs = c :: part) (hc : c = ')' → s.groups ≠ [])
    (hs : Strays (item s (c :: part)) fun post => item s (c :: part ++ ')' :: post)) :
    Swallows s cs where
  same := by
    rw [parseFrom_item h, parseFrom_item (skipSpace_closed_part h [])]
    intro some
    have first : item s (c :: part) ≠ none := by
      intro none
      rw [none] at some
      exact some rfl
    have read : item s (c :: (part ++ [')'])) = item s (c :: part) := hs.same first
    rw [read]
  past := by
    intro base post
    rw [parseFrom_item_inside (skipSpace_closed_part h post) hc]
    exact past_bind (hs.past post)

/-- A comment that the parenthesis belongs to. -/
theorem swallows_of_skipSpace (h : skipSpace s.free cs = [])
    (past : ∀ post, skipSpace s.free (cs ++ ')' :: post) <:+ post) : Swallows s cs where
  same := by
    intro _
    have none_left : skipSpace s.free (cs ++ [')']) = [] := List.suffix_nil.mp (past [])
    rw [parseFrom_end h, parseFrom_end none_left]
  past := by
    intro base post
    exact .inr ⟨s.inside base, _, List.suffix_append _ _, past post,
      (parseFrom_skipSpace (s.inside base) _).symm⟩

/-! ### a word boundary before counts -/

/-- The state after a word boundary. -/
def State.pushBoundary (s : State) : State := s.push (.primitive (.assertion (.word .boundary)))

/-- Behind the brace the boundary is read, or else the name of a kind of boundary, and the
parenthesis with it. -/
theorem wordBoundary_dangling {free : Bool} {inner post : Chars} (h : skipSpace free inner = [])
    {p : Primitive} (hp : wordBoundary free ('\x7b' :: inner ++ ')' :: post) = some (p, rest)) :
    rest <:+ post ∨ p = .assertion (.word .boundary) ∧ rest = '\x7b' :: inner ++ ')' :: post := by
  simp only [List.cons_append, wordBoundary] at hp
  split at hp
  · cases hp
  · next c name eq =>
    split at hp
    · next letter =>
      have after := leaves_boundaryName free (c :: name) p rest hp
      rcases skipSpace_closed free inner with stays | ⟨-, past⟩
      · rw [stays, h] at eq
        cases eq
        exact absurd letter (by decide)
      · rw [← eq] at after
        exact .inl (after.trans (past post))
    · cases hp
      exact .inr ⟨rfl, rfl⟩

theorem item_boundary (s : State) (cs : Chars) :
    item s ('\\' :: 'b' :: cs) =
      (wordBoundary s.free cs).map fun (p, rest) => (s.push (.primitive p), rest) := by
  show (do
    let (p, rest) ← wordBoundary s.free cs
    pure (s.push (.primitive p), rest)) = _
  cases wordBoundary s.free cs with
  | none => rfl
  | some result => rfl

theorem counts_dangling {free : Bool} {inner : Chars} (h : skipSpace free inner = []) :
    counts free inner = none := by
  show count free (skipSpace free inner) >>= _ = none
  rw [h]
  cases free with
  | false => rfl
  | true => rfl

/-- The counts that the brace opens have no end. -/
theorem item_counts_dangling (s : State) {inner : Chars} (h : skipSpace s.free inner = []) :
    item s ('\x7b' :: inner) = none := by
  show counts s.free inner >>= _ = none
  rw [counts_dangling h]
  rfl

theorem leaves_counts_dangling (s : State) {inner : Chars} (h : skipSpace s.free inner = [])
    (post : Chars) : Leaves post (item s ('\x7b' :: inner ++ ')' :: post)) := by
  have no_boundary : ¬ Dangles s.free ('\x7b' :: inner) := by
    rintro ⟨_, eq, -⟩
    cases eq
  rcases reads_item s ('\x7b' :: inner) no_boundary with ⟨t, rest, alone, -⟩ | strays
  · rw [item_counts_dangling s h] at alone
    cases alone
  · exact strays.past post

theorem skipSpace_brace (free : Bool) (cs : Chars) :
    skipSpace free ('\x7b' :: cs) = '\x7b' :: cs := by
  have space : isSpace '\x7b' = false := by decide +kernel
  cases free with
  | false => rfl
  | true => simp [skipSpace, dropSpace, space]

theorem item_dangling (s : State) {cs : Chars} (h : Dangles s.free cs) : item s cs = none := by
  obtain ⟨inner, rfl, none_left⟩ := h
  rw [item_boundary]
  simp [wordBoundary, none_left]

theorem item_dangling_closed {post : Chars} (h : Dangles s.free cs)
    (ht : item s (cs ++ ')' :: post) = some (t, rest)) :
    rest <:+ post ∨ ∃ inner, skipSpace s.free inner = [] ∧ t = s.pushBoundary ∧
      rest = '\x7b' :: inner ++ ')' :: post := by
  obtain ⟨inner, rfl, none_left⟩ := h
  simp only [List.cons_append, item_boundary] at ht
  obtain ⟨⟨p, last⟩, hp, ht⟩ := Option.map_eq_some_iff.mp ht
  cases ht
  rcases wordBoundary_dangling none_left hp with past | ⟨rfl, rfl⟩
  · exact .inl past
  · exact .inr ⟨inner, none_left, rfl, rfl⟩

theorem swallows_of_dangles (h : skipSpace s.free cs = c :: part)
    (hd : Dangles s.free (c :: part)) : Swallows s cs where
  same := by
    intro some
    rw [parseFrom_item h, item_dangling s hd] at some
    exact absurd rfl some
  past := by
    intro base post
    have hc : c = ')' → s.groups ≠ [] := by
      rintro rfl
      obtain ⟨_, eq, -⟩ := hd
      cases eq
    rw [parseFrom_item_inside (skipSpace_closed_part h post) hc]
    cases ht : item s (c :: (part ++ ')' :: post)) with
    | none => exact past_none
    | some result =>
      obtain ⟨t, rest⟩ := result
      rcases item_dangling_closed hd ht with past | ⟨inner, none_left, rfl, rfl⟩
      · exact .inr ⟨t.inside base, rest, List.suffix_append _ _, past, rfl⟩
      · show Past base post (parseFrom (s.pushBoundary.inside base) _)
        rw [List.cons_append, parseFrom_item_inside (skipSpace_brace _ _) nofun]
        exact past_bind (leaves_counts_dangling s.pushBoundary none_left post)

/-! ### how a pattern is read with a closing parenthesis behind -/

theorem Unopened.step (h : skipSpace s.free cs = c :: part) (hc : c = ')' → s.groups ≠ [])
    (alone : item s (c :: part) = some (t, rest)) (hu : Unopened t rest) : Unopened s cs := by
  obtain ⟨pre, post, s', rfl, reach, none_open⟩ := hu
  obtain ⟨first, rfl⟩ := leaves_item s (c :: part) t _ alone
  obtain ⟨space, rfl, same⟩ := exists_of_skipSpace h
  refine ⟨space ++ c :: (first ++ pre), post, s', by simp, ?_, none_open⟩
  have hs : skipSpace s.free (space ++ c :: (first ++ pre)) = c :: (first ++ pre) := same _
  have read : item s (c :: (first ++ pre) ++ ')' :: post) = some (t, pre ++ ')' :: post) := by
    simpa using alone
  -- The part ends before the parenthesis, so it is the same part without it.
  have shorter : ¬ pre ++ ')' :: post <:+ post := by
    intro suffix
    have := suffix.length_le
    simp only [List.length_append, List.length_cons] at this
    omega
  by_cases hd : Dangles s.free (c :: (first ++ pre))
  · rcases item_dangling_closed hd read with past | ⟨inner, none_left, rfl, eq⟩
    · exact absurd past shorter
    · obtain rfl : pre = '\x7b' :: inner := List.append_cancel_right eq
      have reached := reach.alone
      rw [parseFrom_item (skipSpace_brace _ _), item_counts_dangling s.pushBoundary none_left,
        State.finish?_eq_some none_open] at reached
      cases reached
  · rcases reads_item s (c :: (first ++ pre)) hd with ⟨t', rest, ha, closed⟩ | strays
    · have eq : some (t', rest ++ ')' :: post) = some (t, pre ++ ')' :: post) :=
        (closed post).symm.trans read
      obtain ⟨rfl, same_rest⟩ := Prod.mk.inj (Option.some.inj eq)
      obtain rfl : rest = pre := List.append_cancel_right same_rest
      exact Reaches.step hs hc ha closed reach
    · exact absurd (strays.past post t _ read) shorter

/-- A closing parenthesis while no group is open. -/
theorem unopened_of_skipSpace (h : skipSpace s.free cs = ')' :: part) (none_open : s.groups = []) :
    Unopened s cs := by
  obtain ⟨space, rfl, same⟩ := exists_of_skipSpace h
  have spaces : skipSpace s.free space = [] := by
    rcases skipSpace_closed s.free space with stays | ⟨none_left, -⟩
    · have eq : skipSpace s.free space ++ [')'] = [] ++ [')'] := (stays []).symm.trans (same [])
      exact List.append_cancel_right eq
    · exact none_left
  refine ⟨space, part, s, rfl, ⟨parseFrom_end spaces, fun base post => ?_⟩, none_open⟩
  rw [← parseFrom_skipSpace, State.inside_free, same post]

theorem reading_cases (s : State) (cs : Chars) :
    (∃ s', Reaches s cs s') ∨ Swallows s cs ∨ Unopened s cs := by
  induction hn : cs.length using Nat.strongRecOn generalizing s cs with
  | ind n ih =>
    cases hs : skipSpace s.free cs with
    | nil =>
      rcases skipSpace_closed s.free cs with stays | ⟨-, past⟩
      · refine .inl ⟨s, parseFrom_end hs, fun base post => ?_⟩
        rw [← parseFrom_skipSpace, State.inside_free, stays post, hs, List.nil_append]
      · exact .inr (.inl (swallows_of_skipSpace hs past))
    | cons c part =>
      by_cases unopened : c = ')' ∧ s.groups = []
      · obtain ⟨rfl, none_open⟩ := unopened
        exact .inr (.inr (unopened_of_skipSpace hs none_open))
      · have hc : c = ')' → s.groups ≠ [] := fun close none_open => unopened ⟨close, none_open⟩
        by_cases hd : Dangles s.free (c :: part)
        · exact .inr (.inl (swallows_of_dangles hs hd))
        · rcases reads_item s (c :: part) hd with ⟨t, rest, alone, closed⟩ | strays
          · have fewer : rest.length < cs.length := by
              have front := (skipSpace_suffix s.free cs).length_le
              have after := (leaves_item s (c :: part) t rest alone).length_le
              rw [hs] at front
              simp only [List.length_cons, List.tail_cons] at front after
              omega
            rcases ih rest.length (by omega) t rest rfl with ⟨s', reach⟩ | swallows | unopened
            · exact .inl ⟨s', reach.step hs hc alone closed⟩
            · exact .inr (.inl (swallows.step hs hc alone closed))
            · exact .inr (.inr (unopened.step hs hc alone))
          · exact .inr (.inl (swallows_of_strays hs hc strays))

end

end

end ColumnPlan.Pattern
