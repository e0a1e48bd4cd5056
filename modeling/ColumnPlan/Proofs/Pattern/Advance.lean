import ColumnPlan.Pattern.Parser
import Mathlib.Data.List.TakeDrop

/-!
# Reading goes forward

What a reader leaves is an end of what it was given.  A round that goes on leaves less, so that
rounds can be unfolded one by one and the number they count down from does not matter.

* `Leaves cs r`        what the result `r` leaves is an end of `cs`;
* `rounds_eq`          rounds, unfolded once;
* `leaves_item`        the next part of a pattern, read;
* `length_lt_of_item`  it has at least one character.
-/

namespace ColumnPlan.Pattern

section
variable {σ α β : Type} {cs : Chars}

/-- What is left of the characters is an end of them. -/
def Leaves (cs : Chars) (r : Option (α × Chars)) : Prop :=
  ∀ a rest, r = some (a, rest) → rest <:+ cs

theorem leaves_none : Leaves cs (none : Option (α × Chars)) := by
  intro a rest h
  cases h

theorem leaves_some {a : α} {rest : Chars} (h : rest <:+ cs) : Leaves cs (some (a, rest)) := by
  intro b last hb
  cases hb
  exact h

theorem leaves_rest {a : α} : Leaves cs (some (a, cs)) := leaves_some (List.suffix_refl cs)

theorem Leaves.mono {part : Chars} {r : Option (α × Chars)} (hr : Leaves part r)
    (h : part <:+ cs) : Leaves cs r := by
  intro a rest ha
  exact (hr a rest ha).trans h

theorem Leaves.tail {c : Char} {r : Option (α × Chars)} (hr : Leaves cs r) :
    Leaves (c :: cs) r := hr.mono (List.suffix_cons c cs)

theorem leaves_bind {r : Option (α × Chars)} {next : α × Chars → Option (β × Chars)}
    (hr : Leaves cs r) (h : ∀ a rest, rest <:+ cs → Leaves cs (next (a, rest))) :
    Leaves cs (r >>= next) := by
  intro b last hb
  obtain ⟨⟨a, rest⟩, ha, hb⟩ := Option.bind_eq_some_iff.mp hb
  exact h a rest (hr a rest ha) b last hb

theorem leaves_map {r : Option (α × Chars)} {f : α → β} (hr : Leaves cs r) :
    Leaves cs (r.map fun (a, rest) => (f a, rest)) := by
  intro b last hb
  obtain ⟨⟨a, rest⟩, ha, hb⟩ := Option.map_eq_some_iff.mp hb
  cases hb
  exact hr a _ ha

/-- A condition that reads nothing. -/
theorem leaves_check {o : Option α} {next : α → Option (β × Chars)}
    (h : ∀ a, Leaves cs (next a)) : Leaves cs (o >>= next) := by
  intro b last hb
  obtain ⟨a, -, hb⟩ := Option.bind_eq_some_iff.mp hb
  exact h a b last hb

/-! ### white space -/

theorem dropSpace_suffix (inComment : Bool) (cs : Chars) : dropSpace inComment cs <:+ cs := by
  induction cs generalizing inComment with
  | nil => exact List.suffix_refl []
  | cons c cs ih =>
    rw [dropSpace]
    split
    · exact (ih _).trans (List.suffix_cons c cs)
    · split
      · exact (ih _).trans (List.suffix_cons c cs)
      · split
        · exact (ih _).trans (List.suffix_cons c cs)
        · exact List.suffix_refl _

theorem skipSpace_suffix (free : Bool) (cs : Chars) : skipSpace free cs <:+ cs := by
  unfold skipSpace
  split
  · exact dropSpace_suffix false cs
  · exact List.suffix_refl cs

theorem dropSpace_idem (inComment : Bool) (cs : Chars) :
    dropSpace false (dropSpace inComment cs) = dropSpace inComment cs := by
  induction cs generalizing inComment with
  | nil => rfl
  | cons c cs ih =>
    rw [dropSpace]
    split
    · exact ih _
    · split
      · exact ih _
      · next white =>
        split
        · exact ih _
        · next mark => rw [dropSpace, if_neg Bool.false_ne_true, if_neg white, if_neg mark]

theorem skipSpace_idem (free : Bool) (cs : Chars) :
    skipSpace free (skipSpace free cs) = skipSpace free cs := by
  cases free with
  | false => rfl
  | true => exact dropSpace_idem false cs

theorem leaves_skipped {free : Bool} {read : Reader α} (h : ∀ cs, Leaves cs (read cs)) :
    Leaves cs (skipped free read cs) := (h _).mono (skipSpace_suffix free cs)

/-! ### rounds -/

/-- What a round leaves is an end of the characters, and a shorter one if it goes on. -/
def Eats (cs : Chars) (r : Option (Round σ α × Chars)) : Prop :=
  Leaves cs r ∧ ∀ s rest, r = some (.more s, rest) → rest.length < cs.length

theorem eats_none : Eats cs (none : Option (Round σ α × Chars)) :=
  ⟨leaves_none, fun _ _ h => nomatch h⟩

theorem eats_done {a : α} {rest : Chars} (h : rest <:+ cs) :
    Eats cs (some ((.done a : Round σ α), rest)) :=
  ⟨leaves_some h, fun _ _ h => nomatch h⟩

/-- A round that leaves an end of what follows the first character. -/
theorem eats_of_leaves {c : Char} {r : Option (Round σ α × Chars)} (h : Leaves cs r) :
    Eats (c :: cs) r := by
  refine ⟨h.tail, fun s rest hr => ?_⟩
  exact Nat.lt_succ_of_le (h _ rest hr).length_le

theorem eats_skipped {free : Bool} {read : Reader (Round σ α)} (h : ∀ cs, Eats cs (read cs)) :
    Eats cs (skipped free read cs) := by
  have rest := skipSpace_suffix free cs
  refine ⟨(h _).1.mono rest, fun s last hl => ?_⟩
  exact Nat.lt_of_lt_of_le ((h _).2 s last hl) rest.length_le

def Advances (round : σ → Reader (Round σ α)) : Prop := ∀ s cs, Eats cs (round s cs)

variable {round : σ → Reader (Round σ α)}

theorem roundsWith_congr (h : Advances round) {m n : Nat} {s : σ} (hm : cs.length < m)
    (hn : cs.length < n) : roundsWith round m s cs = roundsWith round n s cs := by
  induction m generalizing n s cs with
  | zero => omega
  | succ m ih =>
    cases n with
    | zero => omega
    | succ n =>
      rw [roundsWith, roundsWith]
      cases hr : round s cs with
      | none => rfl
      | some result =>
        obtain ⟨next | a, rest⟩ := result
        · have fewer := (h s cs).2 next rest hr
          exact ih (by omega) (by omega)
        · rfl

/-- Goes on after a round, or ends. -/
def proceed (round : σ → Reader (Round σ α)) : Round σ α × Chars → Option (α × Chars)
  | (.more s, rest) => rounds round s rest
  | (.done a, rest) => some (a, rest)

theorem rounds_eq (h : Advances round) (s : σ) (cs : Chars) :
    rounds round s cs = round s cs >>= proceed round := by
  unfold rounds
  rw [roundsWith]
  cases hr : round s cs with
  | none => rfl
  | some result =>
    obtain ⟨next | a, rest⟩ := result
    · have fewer := (h s cs).2 next rest hr
      exact roundsWith_congr h fewer (Nat.lt_succ_self _)
    · rfl

theorem leaves_rounds (h : Advances round) (s : σ) (cs : Chars) :
    Leaves cs (rounds round s cs) := by
  induction hn : cs.length using Nat.strongRecOn generalizing s cs with
  | ind n ih =>
    rw [rounds_eq h]
    intro a last ha
    obtain ⟨⟨next | b, rest⟩, hr, ha⟩ := Option.bind_eq_some_iff.mp ha
    · have fewer := (h s cs).2 next rest hr
      have left := ih rest.length (by omega) next rest rfl a last ha
      exact left.trans ((h s cs).1 _ rest hr)
    · cases ha
      exact (h s cs).1 _ last hr

theorem advances_takeRound (kind : Char → Bool) (free : Bool) :
    Advances (takeRound kind free) := by
  intro taken cs
  cases cs with
  | nil => exact eats_done (List.suffix_refl [])
  | cons c cs =>
    rw [takeRound]
    split
    · exact eats_of_leaves (leaves_some (skipSpace_suffix free cs))
    · exact eats_done (List.suffix_refl _)

theorem leaves_takeKind (kind : Char → Bool) (free : Bool) (cs : Chars) :
    Leaves cs (takeKind kind free cs) := leaves_rounds (advances_takeRound kind free) [] cs

/-! ### escapes -/

theorem leaves_fixedHex (free : Bool) (count code : Nat) (cs : Chars) :
    Leaves cs (fixedHex free count code cs) := by
  induction count generalizing code cs with
  | zero =>
    cases cs with
    | nil => exact leaves_rest
    | cons c cs => exact leaves_rest
  | succ count ih =>
    cases cs with
    | nil => exact leaves_none
    | cons c cs =>
      refine leaves_check fun digit => ?_
      exact ((ih _ _).mono (skipSpace_suffix free cs)).tail

theorem advances_bracedHexRound (free : Bool) : Advances (bracedHexRound free) := by
  intro code cs
  cases cs with
  | nil => exact eats_none
  | cons c cs =>
    have rest := skipSpace_suffix free cs
    rw [bracedHexRound]
    split
    · refine eats_of_leaves ?_
      cases code with
      | none => exact leaves_none
      | some code => exact leaves_some rest
    · exact eats_of_leaves (leaves_check fun digit => leaves_some rest)

theorem leaves_bracedLiteral (free : Bool) (cs : Chars) : Leaves cs (bracedLiteral free cs) := by
  have digits := leaves_rounds (advances_bracedHexRound free) none
  refine leaves_bind (leaves_skipped digits) fun code rest h => ?_
  exact leaves_check fun _ => leaves_some h

theorem leaves_fixedLiteral (free : Bool) (digits : Nat) (isByte : Bool) (cs : Chars) :
    Leaves cs (fixedLiteral free digits isByte cs) := by
  refine leaves_bind (leaves_fixedHex free digits 0 cs) fun code rest h => ?_
  exact leaves_check fun _ => leaves_some h

theorem leaves_hexLiteral (free : Bool) (digits : Nat) (isByte : Bool) (cs : Chars) :
    Leaves cs (hexLiteral free digits isByte cs) := by
  unfold hexLiteral
  split
  · exact (leaves_bracedLiteral free _).tail
  · exact leaves_fixedLiteral free digits isByte _

theorem advances_nameRound (free : Bool) : Advances (nameRound free) := by
  intro name cs
  cases cs with
  | nil => exact eats_none
  | cons c cs =>
    rw [nameRound]
    split
    · exact eats_of_leaves leaves_rest
    · exact eats_of_leaves (leaves_some (skipSpace_suffix free cs))

theorem leaves_bracedQuery (free negated : Bool) (cs : Chars) :
    Leaves cs (bracedQuery free negated cs) := by
  have name := leaves_rounds (advances_nameRound free) []
  exact leaves_bind (leaves_skipped name) fun text rest h => leaves_some h

theorem leaves_propertyQuery (free negated : Bool) (cs : Chars) :
    Leaves cs (propertyQuery free negated cs) := by
  unfold propertyQuery
  split
  · exact leaves_none
  · exact (leaves_bracedQuery free negated _).tail
  · split
    · exact leaves_none
    · exact (leaves_some (skipSpace_suffix free _)).tail

theorem leaves_boundaryName (free : Bool) (cs : Chars) : Leaves cs (boundaryName free cs) := by
  refine leaves_bind (leaves_takeKind isBoundaryNameChar free cs) fun name rest h => ?_
  dsimp only
  split
  · exact leaves_check fun _ => leaves_some ((List.suffix_cons _ _).trans h)
  · exact leaves_none

theorem leaves_wordBoundary (free : Bool) (cs : Chars) : Leaves cs (wordBoundary free cs) := by
  unfold wordBoundary
  split
  · next inner =>
    have rest := skipSpace_suffix free inner
    split
    · exact leaves_none
    · next c name eq =>
      rw [eq] at rest
      split
      · exact ((leaves_boundaryName free _).mono rest).tail
      · exact leaves_rest
  · exact leaves_rest

theorem leaves_escape (free : Bool) (c : Char) (cs : Chars) :
    Leaves cs (escape free (c :: cs)) := by
  have literal (char : Char) :
      Leaves cs (some (Primitive.literal ⟨char, false⟩, cs)) := leaves_rest
  have hex (digits : Nat) (isByte : Bool) : Leaves cs
      ((skipped free (hexLiteral free digits isByte) cs).map
        fun found => (Primitive.literal found.1, found.2)) :=
    leaves_map (leaves_skipped (leaves_hexLiteral free digits isByte))
  unfold escape
  dsimp only
  split
  · exact leaves_none
  · split
    · exact literal c
    · split
      all_goals first
        | exact hex _ _
        | exact leaves_skipped (leaves_propertyQuery free _)
        | exact leaves_wordBoundary free cs
        | exact leaves_rest
        | exact leaves_none

theorem leaves_primitive (free : Bool) (cs : Chars) : Leaves cs.tail (primitive free cs) := by
  unfold primitive
  split
  · exact leaves_none
  · next cs =>
    cases cs with
    | nil => exact leaves_none
    | cons c cs => exact (leaves_escape free c cs).tail
  · exact leaves_rest
  · exact leaves_rest
  · exact leaves_rest
  · exact leaves_rest

/-! ### classes in brackets -/

theorem leaves_classPrimitive (free : Bool) (cs : Chars) :
    Leaves cs.tail (classPrimitive free cs) := by
  unfold classPrimitive
  split
  · exact leaves_none
  · next cs =>
    cases cs with
    | nil => exact leaves_none
    | cons c cs => exact (leaves_escape free c cs).tail
  · exact leaves_rest

theorem leaves_asciiName (negated : Bool) (cs : Chars) : Leaves cs (asciiName negated cs) := by
  unfold asciiName
  rw [List.span_eq_takeWhile_dropWhile]
  have last := List.dropWhile_suffix (l := cs) (· ≠ ':')
  split
  · next name rest eq =>
    rw [(Prod.mk.inj eq).2] at last
    refine leaves_check fun kind => leaves_some ?_
    exact (List.suffix_append [':', ']'] rest).trans last
  · exact leaves_none

theorem leaves_asciiClass (cs : Chars) : Leaves cs (asciiClass cs) := by
  unfold asciiClass
  split
  · exact (leaves_asciiName true _).tail.tail
  · exact (leaves_asciiName false _).tail
  · exact leaves_none

theorem leaves_rangeEnd (free : Bool) (first : Primitive) (cs : Chars) :
    Leaves cs (rangeEnd free first cs) := by
  have last := (leaves_classPrimitive free cs).mono (List.tail_suffix cs)
  exact leaves_bind last fun last rest h => leaves_check fun item => leaves_some h

theorem leaves_rangeAfter (free : Bool) (first : Primitive) (cs : Chars) :
    Leaves cs (rangeAfter free first cs) := by
  unfold rangeAfter
  split
  · split
    · exact leaves_check fun item => leaves_rest
    · exact (leaves_skipped (leaves_rangeEnd free first)).tail
  · exact leaves_check fun item => leaves_rest

theorem leaves_classRange (free : Bool) (cs : Chars) :
    Leaves cs.tail (classRange free cs) := by
  refine leaves_bind (leaves_classPrimitive free cs) fun first rest h => ?_
  exact (leaves_skipped (leaves_rangeAfter free first)).mono h

theorem advances_hyphenRound (free : Bool) : Advances (hyphenRound free) := by
  intro c cs
  unfold hyphenRound
  split
  · next cs => exact eats_of_leaves (leaves_some (skipSpace_suffix free cs))
  · exact eats_done (List.suffix_refl cs)

theorem leaves_firstBracket (free : Bool) (c : OpenClass) (cs : Chars) :
    Leaves cs (firstBracket free c cs) := by
  unfold firstBracket
  split
  · split
    · exact (leaves_some (skipSpace_suffix free _)).tail
    · exact leaves_rest
  · exact leaves_rest

theorem leaves_classStart (free negated : Bool) (cs : Chars) :
    Leaves cs (classStart free negated cs) := by
  refine leaves_bind (leaves_rounds (advances_hyphenRound free) _ cs) fun c rest h => ?_
  exact (leaves_firstBracket free c rest).mono h

theorem leaves_openClass (free : Bool) (cs : Chars) : Leaves cs (openClass free cs) := by
  unfold openClass
  split
  · exact (leaves_skipped (leaves_classStart free true)).tail
  · exact leaves_classStart free false _

theorem leaves_innerClass (free : Bool) (c : OpenClasses) (cs : Chars) :
    Leaves cs (innerClass free c cs) := by
  unfold innerClass
  split
  · next item rest eq => exact leaves_some (leaves_asciiClass cs item rest eq)
  · exact leaves_bind (leaves_skipped (leaves_openClass free)) fun inner rest h => leaves_some h

theorem leaves_classItem (free : Bool) (c : OpenClasses) (cs : Chars) :
    Leaves cs.tail (classItem free c cs) :=
  leaves_bind (leaves_classRange free cs) fun _ _ h => leaves_some h

theorem eats_classRound (free : Bool) (c : OpenClasses) (cs : Chars) :
    Eats cs (classRound free c cs) := by
  unfold classRound
  split
  · exact eats_none
  · exact eats_of_leaves (leaves_innerClass free c _)
  · exact eats_of_leaves leaves_rest
  · exact eats_of_leaves (leaves_some (List.suffix_cons _ _))
  · exact eats_of_leaves (leaves_some (List.suffix_cons _ _))
  · exact eats_of_leaves (leaves_some (List.suffix_cons _ _))
  · cases cs with
    | nil => exact eats_none
    | cons d cs =>
      exact eats_of_leaves (leaves_classItem free c (d :: cs))

theorem advances_classRound (free : Bool) :
    Advances fun c => skipped free (classRound free c) :=
  fun c _ => eats_skipped (eats_classRound free c)

theorem leaves_bracketClass (free : Bool) (cs : Chars) : Leaves cs (bracketClass free cs) := by
  refine leaves_bind (leaves_skipped (leaves_openClass free)) fun c rest h => ?_
  have classes := leaves_rounds (advances_classRound free) ⟨[], c⟩ rest
  exact leaves_bind (classes.mono h) fun c rest h => leaves_some h

/-! ### repetitions -/

theorem leaves_count (free : Bool) (cs : Chars) : Leaves cs (count free cs) := by
  have digits := leaves_takeKind Char.isDigit free (cs.dropWhile isSpace)
  refine leaves_bind (digits.mono (List.dropWhile_suffix _)) fun digits rest h => ?_
  refine leaves_check fun n => leaves_some ?_
  exact (skipSpace_suffix free _).trans ((List.dropWhile_suffix isSpace).trans h)

theorem leaves_countAfterComma (free : Bool) (min : Option Nat) (cs : Chars) :
    Leaves cs (countAfterComma free min cs) := by
  unfold countAfterComma
  split
  · exact leaves_check fun least => leaves_rest
  · refine leaves_bind (leaves_count free _) fun max rest h => ?_
    exact leaves_check fun least => leaves_check fun most => leaves_some h

theorem leaves_countAfter (free : Bool) (min : Option Nat) (cs : Chars) :
    Leaves cs (countAfter free min cs) := by
  unfold countAfter
  split
  · exact (leaves_skipped (leaves_countAfterComma free min)).tail
  · exact leaves_check fun least => leaves_check fun most => leaves_rest

theorem leaves_closeCounts (free : Bool) (bounds : Nat × Option Nat) (cs : Chars) :
    Leaves cs (closeCounts free bounds cs) := by
  unfold closeCounts
  split
  · split
    · exact (leaves_some (skipSpace_suffix free _)).tail
    · exact leaves_none
  · exact leaves_none

theorem leaves_counts (free : Bool) (cs : Chars) : Leaves cs (counts free cs) := by
  refine leaves_bind (leaves_skipped (leaves_count free)) fun min rest h => ?_
  refine leaves_bind ((leaves_countAfter free min rest).mono h) fun bounds rest h => ?_
  exact (leaves_closeCounts free bounds rest).mono h

theorem dropLazy_suffix (cs : Chars) : dropLazy cs <:+ cs := by
  unfold dropLazy
  split
  · exact List.suffix_cons _ _
  · exact List.suffix_refl _

/-! ### groups -/

theorem leaves_flagRound (f : OpenFlags) (c : Char) (cs : Chars) :
    Leaves cs (flagRound f (c :: cs)) := by
  have same {r : Round OpenFlags GroupHead} : Leaves cs (some (r, cs)) :=
    leaves_rest
  rw [flagRound]
  split
  · split
    · exact leaves_none
    · exact same
  · split
    · split
      · exact leaves_none
      · exact same
    · split
      · split
        · exact leaves_none
        · exact same
      · refine leaves_check fun flag => ?_
        split
        · exact leaves_none
        · exact same

theorem advances_flagRound : Advances flagRound := by
  intro f cs
  cases cs with
  | nil => exact eats_none
  | cons c cs => exact eats_of_leaves (leaves_flagRound f c cs)

theorem leaves_groupName (cs : Chars) : Leaves cs (groupName cs) := by
  unfold groupName
  rw [List.span_eq_takeWhile_dropWhile]
  have last := List.dropWhile_suffix (l := cs) (· ≠ '>')
  split
  · next c more rest eq =>
    rw [(Prod.mk.inj eq).2] at last
    split
    · exact leaves_some ((List.suffix_cons _ _).trans last)
    · exact leaves_none
  · exact leaves_none

theorem leaves_groupKind (cs : Chars) : Leaves cs (groupKind cs) := by
  unfold groupKind
  split
  · exact (leaves_map (leaves_groupName _)).tail.tail
  · exact (leaves_map (leaves_groupName _)).tail
  · exact leaves_rounds advances_flagRound _ _

theorem leaves_groupHead (cs : Chars) : Leaves cs (groupHead cs) := by
  unfold groupHead
  split
  · exact (leaves_groupKind _).tail
  · exact leaves_rest

/-! ### the parts of a pattern -/

theorem leaves_unit (s : State) (cs : Chars) : Leaves cs.tail (unit s cs) :=
  leaves_bind (leaves_primitive s.free cs) fun _ _ h => leaves_some h

theorem leaves_item (s : State) (cs : Chars) : Leaves cs.tail (item s cs) := by
  unfold item
  split
  · refine leaves_bind (leaves_skipped leaves_groupHead) fun head rest h => ?_
    exact leaves_check fun s => leaves_some h
  · exact leaves_check fun s => leaves_rest
  · exact leaves_rest
  · exact leaves_bind (leaves_bracketClass s.free _) fun part rest h => leaves_some h
  · exact leaves_check fun s => leaves_some (dropLazy_suffix _)
  · exact leaves_check fun s => leaves_some (dropLazy_suffix _)
  · exact leaves_check fun s => leaves_some (dropLazy_suffix _)
  · refine leaves_bind (leaves_counts s.free _) fun bounds rest h => ?_
    exact leaves_check fun s => leaves_some ((dropLazy_suffix rest).trans h)
  · exact leaves_unit s _

theorem eats_parseRound (s : State) (cs : Chars) : Eats cs (parseRound s cs) := by
  unfold parseRound
  split
  · cases s.finish? with
    | none => exact eats_none
    | some ast => exact eats_done (List.suffix_refl [])
  · cases cs with
    | nil => exact eats_none
    | cons c cs =>
      exact eats_of_leaves (leaves_bind (leaves_item s _) fun s rest h => leaves_some h)

theorem advances_parseRound : Advances fun s => skipped s.free (parseRound s) :=
  fun s _ => eats_skipped (eats_parseRound s)

end

end ColumnPlan.Pattern
