import ColumnPlan.Pattern.Like
import ColumnPlan.Proofs.Pattern.Groups
import ColumnPlan.Proofs.Pattern.Matcher

/-!
# LIKE patterns match whole values

A LIKE pattern is a text that is a pattern by itself, and it matches the values all of which the
pattern spans.  A parenthesis can break this in two ways, since the text is read between others:

* `ClosesUnopened`       the text closes a group that it did not open, so it closes the one around;
* `HidesClose`           the text ends in a comment, so the group around it is not closed.

* `regexOf?_wholeText`   a standalone pattern means the same between its anchors;
* `isMatch_iff_spans`    values are matched as a whole;
* `whole_value`          the two together, where no parenthesis is out of place.
-/

namespace ColumnPlan

open Pattern

namespace Pattern

/-- A pattern with which all groups are closed: no pattern once a closing parenthesis follows. -/
def Standalone (cs : Chars) : Prop := (parse? cs).isSome = true ∧ parse? (cs ++ [')']) = none

instance (cs : Chars) : Decidable (Standalone cs) := inferInstanceAs (Decidable (_ ∧ _))

/-- A parenthesis closes a group that was not opened. -/
def ClosesUnopened (cs : Chars) : Prop := ∃ pre post, cs = pre ++ ')' :: post ∧ Standalone pre

theorem closesUnopened_iff (cs : Chars) :
    ClosesUnopened cs ↔
      ∃ i ∈ List.range cs.length, cs[i]? = some ')' ∧ Standalone (cs.take i) := by
  constructor
  · rintro ⟨pre, post, rfl, standalone⟩
    refine ⟨pre.length, ?_, ?_, ?_⟩
    · rw [List.mem_range, List.length_append, List.length_cons]
      omega
    · simp
    · rwa [List.take_left]
  · rintro ⟨i, hi, close, standalone⟩
    obtain ⟨inside, here⟩ := List.getElem?_eq_some_iff.mp close
    refine ⟨cs.take i, cs.drop (i + 1), ?_, standalone⟩
    rw [← here, ← List.drop_eq_getElem_cons inside, List.take_append_drop]

instance (cs : Chars) : Decidable (ClosesUnopened cs) := decidable_of_iff' _ (closesUnopened_iff cs)

/-- A pattern to whose end a parenthesis would belong: it ends in a comment. -/
def HidesClose (cs : Chars) : Prop :=
  (parse? cs).isSome = true ∧ (parse? (cs ++ [')'])).isSome = true

instance (cs : Chars) : Decidable (HidesClose cs) := inferInstanceAs (Decidable (_ ∧ _))

/-- The group that is open where a pattern begins between its anchors. -/
def anchorGroup : OpenGroup := ⟨[], false, [], [.primitive (.assertion .lineStart)]⟩

/-- A pattern in a group between the two anchors. -/
def anchored (ast : Ast) : Ast :=
  .concat [.primitive (.assertion .lineStart), .group [] ast, .primitive (.assertion .lineEnd)]

theorem parse?_wholeText (cs : Chars) :
    parse? (wholeText cs) =
      (parseFrom (State.initial.inside [anchorGroup]) (cs ++ [')', '$'])).map (·.1) := by
  have start : wholeText cs = '^' :: ('(' :: '?' :: ':' :: cs ++ [')', '$']) := rfl
  have anchor : parseFrom .initial (wholeText cs) =
      parseFrom (State.initial.push (.primitive (.assertion .lineStart)))
        ('(' :: '?' :: ':' :: cs ++ [')', '$']) := by
    rw [start, parseFrom_item rfl]
    rfl
  have opened : parseFrom (State.initial.push (.primitive (.assertion .lineStart)))
        ('(' :: '?' :: ':' :: cs ++ [')', '$']) =
      parseFrom (State.initial.inside [anchorGroup]) (cs ++ [')', '$']) := by
    rw [List.cons_append, parseFrom_item rfl]
    rfl
  show (parseFrom .initial (wholeText cs)).map (·.1) = _
  rw [anchor, opened]

/-- After the parenthesis there is no way to close the groups that are open still. -/
theorem parseFrom_eq_none {s : State} {rest : Chars} (h : s.groups ≠ []) (hr : rest <:+ ['$']) :
    parseFrom s rest = none := by
  have dollar (free : Bool) : skipSpace free ['$'] = ['$'] := by
    cases free with
    | false => rfl
    | true => decide
  have nothing (s : State) (h : s.groups ≠ []) : parseFrom s [] = none := by
    have spaces : skipSpace s.free [] = [] := by cases s.free <;> rfl
    rw [parseFrom_end spaces, State.finish?_eq_none h]
    rfl
  rcases List.suffix_cons_iff.mp hr with rfl | hr
  · rw [parseFrom_item (dollar s.free)]
    exact nothing (s.push (.primitive (.assertion .lineEnd))) h
  · rw [List.suffix_nil.mp hr]
    exact nothing s h

theorem eq_none_of_past {base : List OpenGroup} {r : Option (Ast × Chars)} (hb : base ≠ [])
    (h : Past base ['$'] r) : r = none := by
  rcases h with none | ⟨s, rest, groups, left, rfl⟩
  · exact none
  · refine parseFrom_eq_none (fun none_open => hb ?_) left
    rw [none_open] at groups
    exact List.suffix_nil.mp groups

/-- The state between the parenthesis and the anchor at the end. -/
def State.closed (s : State) : State :=
  ⟨false, s.names, [], [], [.group [] s.body, .primitive (.assertion .lineStart)]⟩

theorem closeGroup?_inside_anchorGroup {s : State} (h : s.groups = []) :
    (s.inside [anchorGroup]).closeGroup? = some s.closed := by
  simp only [State.closeGroup?, State.inside_groups, h]
  rfl

section
variable {cs : Chars} {s : State}

/-- Where all groups are closed a closing parenthesis is refused. -/
theorem parse?_close_eq_none (h : Reaches .initial cs s) (none_open : s.groups = [])
    (post : Chars) : parse? (cs ++ ')' :: post) = none := by
  have refused : item s (')' :: post) = none := by
    show (do pure (← s.closeGroup?, post)) = none
    rw [State.closeGroup?_eq_none none_open]
    rfl
  have closed := h.closed [] post
  rw [State.inside_nil, State.inside_nil, parseFrom_item (skipSpace_close _ _), refused] at closed
  show (parseFrom .initial (cs ++ ')' :: post)).map (·.1) = none
  rw [closed]
  rfl

theorem parse?_of_reaches (h : Reaches .initial cs s) (none_open : s.groups = []) :
    parse? cs = some s.body := by
  show (parseFrom .initial cs).map (·.1) = _
  rw [h.alone, State.finish?_eq_some none_open]
  rfl

theorem parse?_eq_none_of_reaches (h : Reaches .initial cs s) (still_open : s.groups ≠ []) :
    parse? cs = none := by
  show (parseFrom .initial cs).map (·.1) = _
  rw [h.alone, State.finish?_eq_none still_open]
  rfl

/-- The parenthesis closes the group around the pattern, and the anchor ends the whole. -/
theorem parse?_wholeText_of_reaches (h : Reaches .initial cs s) (none_open : s.groups = []) :
    parse? (wholeText cs) = some (anchored s.body) := by
  have closed : item (s.inside [anchorGroup]) [')', '$'] = some (s.closed, ['$']) := by
    show (do pure (← (s.inside [anchorGroup]).closeGroup?, ['$'])) = _
    rw [closeGroup?_inside_anchorGroup none_open]
    rfl
  have anchor : parseFrom s.closed ['$'] = some (anchored s.body, []) := by
    rw [parseFrom_item rfl]
    show parseFrom (s.closed.push (.primitive (.assertion .lineEnd))) [] = _
    rw [parseFrom_end rfl]
    rfl
  rw [parse?_wholeText, h.closed, parseFrom_item (skipSpace_close _ _), closed]
  show (parseFrom s.closed ['$']).map (·.1) = _
  rw [anchor]
  rfl

/-- The parenthesis closes a group of the pattern, and the group around it stays open. -/
theorem parse?_wholeText_of_open (h : Reaches .initial cs s) (still_open : s.groups ≠ []) :
    parse? (wholeText cs) = none := by
  have past : Past [anchorGroup] ['$'] _ := past_bind (leaves_item s [')', '$'])
  rw [parse?_wholeText, h.closed, parseFrom_item_inside (skipSpace_close _ _) fun _ => still_open,
    eq_none_of_past (List.cons_ne_nil _ _) past]
  rfl

theorem parse?_wholeText_of_swallows (h : Swallows .initial cs) :
    parse? (wholeText cs) = none := by
  rw [parse?_wholeText, eq_none_of_past (List.cons_ne_nil _ _) (h.past [anchorGroup] ['$'])]
  rfl

theorem standalone_of_reaches (h : Reaches .initial cs s) (none_open : s.groups = []) :
    Standalone cs := by
  refine ⟨?_, parse?_close_eq_none h none_open []⟩
  rw [parse?_of_reaches h none_open]
  rfl

theorem not_standalone_of_swallows (h : Swallows .initial cs) : ¬ Standalone cs := by
  rintro ⟨alone, closed⟩
  have same : parse? (cs ++ [')']) = parse? cs := by
    show (parseFrom .initial (cs ++ [')'])).map (·.1) = (parseFrom .initial cs).map (·.1)
    rw [h.same]
    intro none
    have no_pattern : parse? cs = Option.none := by
      show (parseFrom .initial cs).map (·.1) = _
      rw [none]
      rfl
    rw [no_pattern] at alone
    cases alone
  rw [← same, closed] at alone
  cases alone

theorem closesUnopened_of_unopened (h : Unopened .initial cs) : ClosesUnopened cs := by
  obtain ⟨pre, post, s, rfl, reach, none_open⟩ := h
  exact ⟨pre, post, rfl, standalone_of_reaches reach none_open⟩

theorem not_standalone_of_unopened (h : Unopened .initial cs) : ¬ Standalone cs := by
  obtain ⟨pre, post, s, rfl, reach, none_open⟩ := h
  rintro ⟨alone, -⟩
  rw [parse?_close_eq_none reach none_open post] at alone
  cases alone

/-- A standalone pattern is read up to its end, outside of all groups. -/
theorem reaches_of_standalone (h : Standalone cs) :
    ∃ s, Reaches .initial cs s ∧ s.groups = [] := by
  rcases reading_cases .initial cs with ⟨s, reach⟩ | swallows | unopened
  · by_cases none_open : s.groups = []
    · exact ⟨s, reach, none_open⟩
    · have alone := h.1
      rw [parse?_eq_none_of_reaches reach none_open] at alone
      cases alone
  · exact absurd h (not_standalone_of_swallows swallows)
  · exact absurd h (not_standalone_of_unopened unopened)

/-- A text that closes a group it did not open is no pattern. -/
theorem parse?_of_closesUnopened (h : ClosesUnopened cs) : parse? cs = none := by
  obtain ⟨pre, post, rfl, standalone⟩ := h
  obtain ⟨s, reach, none_open⟩ := reaches_of_standalone standalone
  exact parse?_close_eq_none reach none_open post

/-- Between the anchors a pattern is read as it is read alone. -/
theorem exists_of_standalone (h : Standalone cs) :
    ∃ ast, parse? cs = some ast ∧ parse? (wholeText cs) = some (anchored ast) := by
  obtain ⟨s, reach, none_open⟩ := reaches_of_standalone h
  exact ⟨s.body, parse?_of_reaches reach none_open, parse?_wholeText_of_reaches reach none_open⟩

/-- What is no pattern alone is none between the anchors either. -/
theorem parse?_wholeText_eq_none (hc : ¬ ClosesUnopened cs) (h : ¬ Standalone cs) :
    parse? (wholeText cs) = none := by
  rcases reading_cases .initial cs with ⟨s, reach⟩ | swallows | unopened
  · by_cases none_open : s.groups = []
    · exact absurd (standalone_of_reaches reach none_open) h
    · exact parse?_wholeText_of_open reach none_open
  · exact parse?_wholeText_of_swallows swallows
  · exact absurd (closesUnopened_of_unopened unopened) hc

end

/-! ### what the anchors mean -/

/-- A regular expression between the start and the end of a text. -/
def Regex.anchored (r : Regex) : Regex :=
  .seq (.place .textStart) (.seq r (.seq (.place .textEnd) .empty))

/-- Flags that are set in the pattern do not reach the anchors. -/
theorem regex?_anchored (ast : Ast) : (anchored ast).regex? = ast.regex?.map Regex.anchored := by
  have flags : Flags.initial.setAll [] = .initial := rfl
  simp only [anchored, Ast.regex?, Ast.regexWith?, Ast.sequence?, Primitive.regex?, flags,
    Option.bind_eq_bind, Option.bind_some, Option.pure_def]
  cases ast.regexWith? .initial with
  | none => rfl
  | some result => rfl

theorem isMatch_anchored (r : Regex) (bytes : List UInt8) :
    r.anchored.isMatch bytes = true ↔ Regex.Spans bytes.toArray r 0 bytes.length := by
  have start (i : Nat) : Place.holds bytes.toArray i .textStart = true ↔ i = 0 := by
    simp [Place.holds]
  have finish (i : Nat) : Place.holds bytes.toArray i .textEnd = true ↔ i = bytes.length := by
    simp [Place.holds]
  rw [Regex.isMatch_iff]
  simp only [Regex.anchored, Regex.spans_seq_iff, Regex.spans_place_iff, Regex.spans_empty_iff,
    start, finish]
  constructor
  · rintro ⟨i, -, j, _, ⟨rfl, rfl⟩, k, h, _, ⟨rfl, rfl⟩, rfl⟩
    exact h
  · intro h
    exact ⟨0, Nat.zero_le _, bytes.length, 0, ⟨rfl, rfl⟩, bytes.length, h, bytes.length,
      ⟨rfl, rfl⟩, rfl⟩

theorem exists_of_regexOf? {cs : Chars} {r : Regex} (h : regexOf? cs = some r) :
    ∃ ast, parse? cs = some ast ∧ ast.regex? = some r := Option.bind_eq_some_iff.mp h

/-- Between its anchors a standalone pattern means what it means alone. -/
theorem regexOf?_wholeText {cs : Chars} (h : Standalone cs) :
    regexOf? (wholeText cs) = (regexOf? cs).map Regex.anchored := by
  obtain ⟨ast, alone, whole⟩ := exists_of_standalone h
  unfold regexOf?
  rw [alone, whole]
  exact regex?_anchored ast

theorem not_standalone_of_hidesClose {cs : Chars} (h : HidesClose cs) : ¬ Standalone cs := by
  rintro ⟨-, none⟩
  obtain ⟨-, closed⟩ := h
  rw [none] at closed
  cases closed

theorem not_closesUnopened_of_hidesClose {cs : Chars} (h : HidesClose cs) :
    ¬ ClosesUnopened cs := by
  intro unopened
  obtain ⟨alone, -⟩ := h
  rw [parse?_of_closesUnopened unopened] at alone
  cases alone

theorem regexOf?_wholeText_eq_none {cs : Chars} (hc : ¬ ClosesUnopened cs) (h : ¬ Standalone cs) :
    regexOf? (wholeText cs) = none := by
  unfold regexOf?
  rw [parse?_wholeText_eq_none hc h]
  rfl

theorem standalone_or_hidesClose {cs : Chars} {r : Regex} (h : regexOf? cs = some r) :
    Standalone cs ∨ HidesClose cs := by
  obtain ⟨ast, alone, -⟩ := exists_of_regexOf? h
  have pattern : (parse? cs).isSome = true := by
    rw [alone]
    rfl
  cases closed : parse? (cs ++ [')']) with
  | none => exact .inl ⟨pattern, closed⟩
  | some _ => exact .inr ⟨pattern, by rw [closed]; rfl⟩

end Pattern

/-! ### patterns given by their bytes -/

/-- The characters that bytes encode, if they are well formed. -/
def textOf? (bytes : List UInt8) : Option Chars := (Utf8.scan bytes).mapM id

namespace LikePattern

variable {bytes : List UInt8} {cs : Chars}

theorem likeRegex?_eq (h : textOf? bytes = some cs) :
    likeRegex? bytes = regexOf? (wholeText cs) := by
  show ((textOf? bytes).bind fun cs => regexOf? (wholeText cs)) = _
  rw [h]
  rfl

theorem exists_of_ofBytes? {p : LikePattern} (h : ofBytes? bytes = some p) :
    ∃ cs, textOf? bytes = some cs ∧ regexOf? (wholeText cs) = some p.regex := by
  unfold ofBytes? at h
  split at h
  · next regex compiled =>
    cases h
    exact Option.bind_eq_some_iff.mp compiled
  · cases h

theorem isSome_ofBytes?_iff :
    (ofBytes? bytes).isSome = true ↔
      ∃ cs, textOf? bytes = some cs ∧ (regexOf? (wholeText cs)).isSome = true := by
  constructor
  · intro h
    obtain ⟨p, hp⟩ := Option.isSome_iff_exists.mp h
    obtain ⟨cs, text, regex⟩ := exists_of_ofBytes? hp
    exact ⟨cs, text, by rw [regex]; rfl⟩
  · rintro ⟨cs, text, h⟩
    obtain ⟨regex, hr⟩ := Option.isSome_iff_exists.mp h
    have compiled : likeRegex? bytes = some regex := (likeRegex?_eq text).trans hr
    unfold ofBytes?
    split
    · rfl
    · next none =>
      rw [compiled] at none
      cases none

/-- A text that ends in a comment is no LIKE pattern, although it may be a pattern. -/
theorem ofBytes?_of_hidesClose (text : textOf? bytes = some cs) (h : HidesClose cs) :
    ofBytes? bytes = none := by
  have no_regex : regexOf? (wholeText cs) = none :=
    regexOf?_wholeText_eq_none (not_closesUnopened_of_hidesClose h) (not_standalone_of_hidesClose h)
  cases hp : ofBytes? bytes with
  | none => rfl
  | some p =>
    obtain ⟨cs', text', regex⟩ := exists_of_ofBytes? hp
    obtain rfl : cs = cs' := Option.some.inj (text.symm.trans text')
    rw [no_regex] at regex
    cases regex

example : HidesClose "(?x)a#c".toList := by decide +kernel

/-- A LIKE pattern that is a pattern by itself matches the values all of which it spans. -/
theorem isMatch_iff_spans {p : LikePattern} {r : Regex} (hp : ofBytes? bytes = some p)
    (text : textOf? bytes = some cs) (hr : regexOf? cs = some r) (value : List UInt8) :
    p.isMatch value = true ↔ Regex.Spans value.toArray r 0 value.length := by
  rcases standalone_or_hidesClose hr with standalone | hides
  · obtain ⟨cs', text', regex⟩ := exists_of_ofBytes? hp
    obtain rfl : cs = cs' := Option.some.inj (text.symm.trans text')
    rw [regexOf?_wholeText standalone, hr] at regex
    have anchored : p.regex = r.anchored := (Option.some.inj regex).symm
    unfold isMatch
    rw [anchored]
    exact isMatch_anchored r value
  · rw [ofBytes?_of_hidesClose text hides] at hp
    cases hp

/-- Between its anchors a text in which no parenthesis is out of place has a meaning iff it has one
by itself. -/
theorem isSome_regexOf?_wholeText (unopened : ¬ ClosesUnopened cs) (hides : ¬ HidesClose cs) :
    (regexOf? (wholeText cs)).isSome = true ↔ (regexOf? cs).isSome = true := by
  by_cases standalone : Standalone cs
  · rw [regexOf?_wholeText standalone, Option.isSome_map]
  · rw [regexOf?_wholeText_eq_none unopened standalone]
    constructor
    · intro none
      cases none
    · intro h
      obtain ⟨r, hr⟩ := Option.isSome_iff_exists.mp h
      rcases standalone_or_hidesClose hr with alone | hidden
      · exact absurd alone standalone
      · exact absurd hidden hides

/-- If no parenthesis is out of place, a LIKE pattern is a text that is a pattern by itself, and
it matches the values all of which the pattern spans. -/
theorem whole_value
    (clear : ∀ cs, textOf? bytes = some cs → ¬ ClosesUnopened cs ∧ ¬ HidesClose cs) :
    ((ofBytes? bytes).isSome = true ↔
        ∃ cs, textOf? bytes = some cs ∧ (regexOf? cs).isSome = true) ∧
      ∀ p, ofBytes? bytes = some p →
        ∃ cs r, textOf? bytes = some cs ∧ regexOf? cs = some r ∧
          ∀ value, p.isMatch value = true ↔ Regex.Spans value.toArray r 0 value.length := by
  have valid : (ofBytes? bytes).isSome = true ↔
      ∃ cs, textOf? bytes = some cs ∧ (regexOf? cs).isSome = true := by
    rw [isSome_ofBytes?_iff]
    refine exists_congr fun cs => and_congr_right fun text => ?_
    obtain ⟨unopened, hides⟩ := clear cs text
    exact isSome_regexOf?_wholeText unopened hides
  refine ⟨valid, fun p hp => ?_⟩
  obtain ⟨cs, text, some⟩ := valid.mp (by rw [hp]; rfl)
  obtain ⟨r, hr⟩ := Option.isSome_iff_exists.mp some
  exact ⟨cs, r, text, hr, isMatch_iff_spans hp text hr⟩

/-- `(.*t)h` is a pattern in which no parenthesis is out of place. -/
theorem whole_value_group :
    ((ofBytes? [0x28, 0x2E, 0x2A, 0x74, 0x29, 0x68]).isSome = true ↔
        ∃ cs, textOf? [0x28, 0x2E, 0x2A, 0x74, 0x29, 0x68] = some cs ∧
          (regexOf? cs).isSome = true) ∧
      ∀ p, ofBytes? [0x28, 0x2E, 0x2A, 0x74, 0x29, 0x68] = some p →
        ∃ cs r, textOf? [0x28, 0x2E, 0x2A, 0x74, 0x29, 0x68] = some cs ∧ regexOf? cs = some r ∧
          ∀ value, p.isMatch value = true ↔ Regex.Spans value.toArray r 0 value.length := by
  have text : textOf? [0x28, 0x2E, 0x2A, 0x74, 0x29, 0x68] = some "(.*t)h".toList := by
    decide +kernel
  refine whole_value fun cs h => ?_
  obtain rfl : "(.*t)h".toList = cs := Option.some.inj (text.symm.trans h)
  exact ⟨by decide +kernel, by decide +kernel⟩

/-- `a)|(?:b` closes a group that it did not open.  It is no pattern by itself, but it is a LIKE
pattern, and `ax` is matched. -/
theorem not_whole_value_unopened :
    ¬ ((ofBytes? [0x61, 0x29, 0x7C, 0x28, 0x3F, 0x3A, 0x62]).isSome = true ↔
        ∃ cs, textOf? [0x61, 0x29, 0x7C, 0x28, 0x3F, 0x3A, 0x62] = some cs ∧
          (regexOf? cs).isSome = true) ∧
      (ofBytes? [0x61, 0x29, 0x7C, 0x28, 0x3F, 0x3A, 0x62]).any (·.isMatch [0x61, 0x78]) =
        true := by
  have text : textOf? [0x61, 0x29, 0x7C, 0x28, 0x3F, 0x3A, 0x62] = some "a)|(?:b".toList := by
    decide +kernel
  have no_pattern : (regexOf? "a)|(?:b".toList).isSome = false := by decide +kernel
  have pattern : (ofBytes? [0x61, 0x29, 0x7C, 0x28, 0x3F, 0x3A, 0x62]).isSome = true := by
    decide +kernel
  refine ⟨fun valid => ?_, by decide +kernel⟩
  obtain ⟨cs, h, some⟩ := valid.mp pattern
  obtain rfl : "a)|(?:b".toList = cs := Option.some.inj (text.symm.trans h)
  rw [no_pattern] at some
  cases some

end LikePattern

end ColumnPlan
