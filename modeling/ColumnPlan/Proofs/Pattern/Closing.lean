import ColumnPlan.Proofs.Pattern.Advance

/-!
# Reading with a closing parenthesis behind

A text is read alone, and once more with a closing parenthesis and any other characters behind.
Up to the parenthesis the two are the same.  They differ only where the text itself ends too early
for what is read, or in a comment: then nothing is left of it alone, and otherwise the reading goes
on past the parenthesis.  One of the two holds for every reader, and it holds in sequence.

There is a single exception.  After a word boundary an opening brace is looked at, to see whether
a name follows, but not read: see `Dangles`.

* `Stays`, `Strays`      the two ways in which the results may compare;
* `Reads`                they compare in one of these ways;
* `reads_bind`           sequence;
* `reads_rounds`         repetition;
* `reads_escape`         escapes, and with them all units of a pattern.
-/

namespace ColumnPlan.Pattern

section
variable {σ α β : Type} {cs rest : Chars} {alone : Option (α × Chars)}
  {closed : Chars → Option (α × Chars)}

/-- Read alone and with a closing parenthesis and more behind, the same value is found, and the
parenthesis is left. -/
def Stays (alone : Option (α × Chars)) (closed : Chars → Option (α × Chars)) : Prop :=
  ∃ a rest, alone = some (a, rest) ∧ ∀ post, closed post = some (a, rest ++ ')' :: post)

/-- Read alone nothing is left, and with more behind the parenthesis is not left either.  With
only the parenthesis behind the same value is found, if there is one alone. -/
structure Strays (alone : Option (α × Chars)) (closed : Chars → Option (α × Chars)) : Prop where
  none_left : Leaves [] alone
  past : ∀ post, Leaves post (closed post)
  same : alone ≠ none → closed [] = alone

def Reads (alone : Option (α × Chars)) (closed : Chars → Option (α × Chars)) : Prop :=
  Stays alone closed ∨ Strays alone closed

theorem reads_some {a : α} (rest : Chars) :
    Reads (some (a, rest)) fun post => some (a, rest ++ ')' :: post) :=
  .inl ⟨a, rest, rfl, fun _ => rfl⟩

theorem reads_past (h : ∀ post, Leaves post (closed post)) : Reads none closed :=
  .inr ⟨leaves_none, h, fun some => absurd rfl some⟩

theorem reads_none : Reads (none : Option (α × Chars)) fun _ => none :=
  reads_past fun _ => leaves_none

theorem reads_bind {next : α × Chars → Option (β × Chars)} (hr : Reads alone closed)
    (hl : ∀ a cs, Leaves cs (next (a, cs)))
    (h : ∀ a rest, alone = some (a, rest) →
      Reads (next (a, rest)) fun post => next (a, rest ++ ')' :: post)) :
    Reads (alone >>= next) fun post => closed post >>= next := by
  rcases hr with ⟨a, rest, ha, hc⟩ | strays
  · have goes := h a rest ha
    simp only [ha, hc]
    exact goes
  · right
    constructor
    · exact leaves_bind strays.none_left fun a rest hs => (hl a rest).mono hs
    · intro post
      exact leaves_bind (strays.past post) fun a rest hs => (hl a rest).mono hs
    · intro some
      have first : alone ≠ none := by
        intro none
        rw [none] at some
        exact some rfl
      rw [strays.same first]

theorem reads_map {f : α → β} (hr : Reads alone closed) :
    Reads (alone.map fun (a, rest) => (f a, rest))
      fun post => (closed post).map fun (a, rest) => (f a, rest) := by
  rcases hr with ⟨a, rest, ha, hc⟩ | strays
  · refine .inl ⟨f a, rest, ?_, fun post => ?_⟩
    · rw [ha]
      rfl
    · simp only [hc]
      rfl
  · refine .inr ⟨leaves_map strays.none_left, fun post => leaves_map (strays.past post), ?_⟩
    intro some
    rw [strays.same fun none => some (by rw [none]; rfl)]

/-- A condition that reads nothing. -/
theorem reads_check {o : Option α} {f : α → β} (rest : Chars) :
    Reads (do pure (f (← o), rest)) (fun post => do pure (f (← o), rest ++ ')' :: post)) := by
  cases o with
  | none => exact reads_none
  | some a => exact reads_some rest

/-! ### white space -/

theorem isSpace_close : isSpace ')' = false := by decide +kernel

theorem dropSpace_closed (inComment : Bool) (cs : Chars) :
    (∀ post, dropSpace inComment (cs ++ ')' :: post) = dropSpace inComment cs ++ ')' :: post) ∨
      dropSpace inComment cs = [] ∧
        ∀ post, dropSpace inComment (cs ++ ')' :: post) <:+ post := by
  induction cs generalizing inComment with
  | nil =>
    cases inComment with
    | false =>
      refine .inl fun post => ?_
      simp [dropSpace, isSpace_close]
    | true =>
      refine .inr ⟨rfl, fun post => ?_⟩
      exact dropSpace_suffix _ post
  | cons c cs ih =>
    simp only [List.cons_append, dropSpace]
    split
    · exact ih _
    · split
      · exact ih _
      · split
        · exact ih _
        · exact .inl fun post => rfl

theorem skipSpace_closed (free : Bool) (cs : Chars) :
    (∀ post, skipSpace free (cs ++ ')' :: post) = skipSpace free cs ++ ')' :: post) ∨
      skipSpace free cs = [] ∧ ∀ post, skipSpace free (cs ++ ')' :: post) <:+ post := by
  cases free with
  | false => exact .inl fun post => rfl
  | true => exact dropSpace_closed false cs

theorem skipSpace_close (free : Bool) (post : Chars) :
    skipSpace free (')' :: post) = ')' :: post := by
  cases free with
  | false => rfl
  | true => simp [skipSpace, dropSpace, isSpace_close]

/-- White space before a part is the same whatever the part goes on with. -/
theorem exists_of_dropSpace {inComment : Bool} {cs part : Chars} {c : Char}
    (h : dropSpace inComment cs = c :: part) :
    ∃ space, cs = space ++ c :: part ∧
      ∀ more, dropSpace inComment (space ++ c :: more) = c :: more := by
  induction cs generalizing inComment with
  | nil => cases h
  | cons d cs ih =>
    rw [dropSpace] at h
    split at h
    · next comment =>
      obtain ⟨space, rfl, same⟩ := ih h
      exact ⟨d :: space, rfl, fun more => by rw [List.cons_append, dropSpace, if_pos comment, same]⟩
    · next comment =>
      split at h
      · next white =>
        obtain ⟨space, rfl, same⟩ := ih h
        exact ⟨d :: space, rfl, fun more => by
          rw [List.cons_append, dropSpace, if_neg comment, if_pos white, same]⟩
      · next white =>
        split at h
        · next mark =>
          obtain ⟨space, rfl, same⟩ := ih h
          exact ⟨d :: space, rfl, fun more => by
            rw [List.cons_append, dropSpace, if_neg comment, if_neg white, if_pos mark, same]⟩
        · next mark =>
          cases h
          exact ⟨[], rfl, fun more => by
            rw [List.nil_append, dropSpace, if_neg comment, if_neg white, if_neg mark]⟩

theorem exists_of_skipSpace {free : Bool} {cs part : Chars} {c : Char}
    (h : skipSpace free cs = c :: part) :
    ∃ space, cs = space ++ c :: part ∧
      ∀ more, skipSpace free (space ++ c :: more) = c :: more := by
  cases free with
  | false => exact ⟨[], h, fun _ => rfl⟩
  | true => exact exists_of_dropSpace h

theorem skipSpace_closed_part {free : Bool} {cs part : Chars} {c : Char}
    (h : skipSpace free cs = c :: part) (post : Chars) :
    skipSpace free (cs ++ ')' :: post) = c :: (part ++ ')' :: post) := by
  obtain ⟨space, rfl, same⟩ := exists_of_skipSpace h
  rw [List.append_assoc, List.cons_append, same]

theorem reads_skipped {free : Bool} {read : Reader α} (hl : ∀ cs, Leaves cs (read cs))
    (h : ∀ cs, Reads (read cs) fun post => read (cs ++ ')' :: post)) :
    Reads (skipped free read cs) fun post => skipped free read (cs ++ ')' :: post) := by
  unfold skipped
  rcases skipSpace_closed free cs with stays | ⟨none, past⟩
  · simp only [stays]
    exact h _
  · refine .inr ⟨?_, fun post => (hl _).mono (past post), fun _ => ?_⟩
    · rw [none]
      exact hl []
    · rw [none, List.suffix_nil.mp (past [])]

/-- White space after what has been read. -/
theorem reads_trailing (a : α) (free : Bool) (cs : Chars) :
    Reads (some (a, skipSpace free cs))
      fun post => some (a, skipSpace free (cs ++ ')' :: post)) :=
  have leaves (cs : Chars) : Leaves cs (some (a, cs)) := leaves_rest
  reads_skipped leaves reads_some

/-! ### rounds -/

variable {round : σ → Reader (Round σ α)}

theorem leaves_proceed (h : Advances round) (x : Round σ α) (cs : Chars) :
    Leaves cs (proceed round (x, cs)) := by
  cases x with
  | more s => exact leaves_rounds h s cs
  | done a => exact leaves_rest

theorem reads_rounds (h : Advances round)
    (hr : ∀ s cs, Reads (round s cs) fun post => round s (cs ++ ')' :: post)) (s : σ)
    (cs : Chars) :
    Reads (rounds round s cs) fun post => rounds round s (cs ++ ')' :: post) := by
  induction hn : cs.length using Nat.strongRecOn generalizing s cs with
  | ind n ih =>
    simp only [rounds_eq h]
    refine reads_bind (hr s cs) (leaves_proceed h) fun x rest hx => ?_
    cases x with
    | more next =>
      have fewer := (h s cs).2 next rest hx
      exact ih rest.length (by omega) next rest rfl
    | done a => exact reads_some _

theorem reads_takeKind {kind : Char → Bool} (hk : kind ')' = false) (free : Bool) (cs : Chars) :
    Reads (takeKind kind free cs) fun post => takeKind kind free (cs ++ ')' :: post) := by
  refine reads_rounds (advances_takeRound kind free) (fun taken cs => ?_) [] cs
  cases cs with
  | nil =>
    simp only [List.nil_append, takeRound, hk, Bool.false_eq_true, if_false]
    exact reads_some _
  | cons c cs =>
    simp only [List.cons_append, takeRound]
    split
    · exact reads_trailing _ free cs
    · exact reads_some _

/-! ### escapes -/

theorem reads_fixedHex (free : Bool) (count code : Nat) (cs : Chars) :
    Reads (fixedHex free count code cs)
      fun post => fixedHex free count code (cs ++ ')' :: post) := by
  induction count generalizing code cs with
  | zero =>
    cases cs with
    | nil => exact reads_some _
    | cons c cs => exact reads_some _
  | succ count ih =>
    cases cs with
    | nil => exact reads_none
    | cons c cs =>
      simp only [List.cons_append, fixedHex]
      cases hexDigit? c with
      | none => exact reads_none
      | some digit => exact reads_skipped (leaves_fixedHex free count _) (ih _)

theorem reads_bracedHex (free : Bool) (code : Option Nat) (cs : Chars) :
    Reads (rounds (bracedHexRound free) code cs)
      fun post => rounds (bracedHexRound free) code (cs ++ ')' :: post) := by
  refine reads_rounds (advances_bracedHexRound free) (fun code cs => ?_) code cs
  cases cs with
  | nil => exact reads_none
  | cons c cs =>
    simp only [List.cons_append, bracedHexRound]
    split
    · cases code with
      | none => exact reads_none
      | some code => exact reads_trailing _ free cs
    · cases hexDigit? c with
      | none => exact reads_none
      | some digit => exact reads_trailing _ free cs

theorem reads_bracedLiteral (free : Bool) (cs : Chars) :
    Reads (bracedLiteral free cs) fun post => bracedLiteral free (cs ++ ')' :: post) := by
  have digits := leaves_rounds (advances_bracedHexRound free) none
  refine reads_bind (reads_skipped digits (reads_bracedHex free none)) (fun code cs => ?_)
    fun code rest _ => reads_check _
  exact leaves_check fun _ => leaves_rest

theorem reads_fixedLiteral (free : Bool) (digits : Nat) (isByte : Bool) (cs : Chars) :
    Reads (fixedLiteral free digits isByte cs)
      fun post => fixedLiteral free digits isByte (cs ++ ')' :: post) := by
  refine reads_bind (reads_fixedHex free digits 0 cs) (fun code cs => ?_)
    fun code rest _ => reads_check _
  exact leaves_check fun _ => leaves_rest

theorem reads_hexLiteral (free : Bool) (digits : Nat) (isByte : Bool) (cs : Chars) :
    Reads (hexLiteral free digits isByte cs)
      fun post => hexLiteral free digits isByte (cs ++ ')' :: post) := by
  cases cs with
  | nil => exact reads_fixedLiteral free digits isByte []
  | cons c cs =>
    by_cases brace : c = '\x7b'
    · subst brace
      exact reads_bracedLiteral free cs
    · simpa [hexLiteral, brace] using reads_fixedLiteral free digits isByte (c :: cs)

theorem reads_bracedQuery (free negated : Bool) (cs : Chars) :
    Reads (bracedQuery free negated cs)
      fun post => bracedQuery free negated (cs ++ ')' :: post) := by
  have name := leaves_rounds (advances_nameRound free) []
  have reads (cs : Chars) : Reads (rounds (nameRound free) [] cs)
      fun post => rounds (nameRound free) [] (cs ++ ')' :: post) := by
    refine reads_rounds (advances_nameRound free) (fun name cs => ?_) [] cs
    cases cs with
    | nil => exact reads_past fun post => leaves_some (skipSpace_suffix free post)
    | cons c cs =>
      simp only [List.cons_append, nameRound]
      split
      · exact reads_some _
      · exact reads_trailing _ free cs
  exact reads_bind (reads_skipped name reads) (fun text cs => leaves_rest)
    fun text rest _ => reads_some _

theorem reads_propertyQuery (free negated : Bool) (cs : Chars) :
    Reads (propertyQuery free negated cs)
      fun post => propertyQuery free negated (cs ++ ')' :: post) := by
  cases cs with
  | nil => exact reads_past fun post => leaves_some (skipSpace_suffix free post)
  | cons c cs =>
    by_cases brace : c = '\x7b'
    · subst brace
      exact reads_bracedQuery free negated cs
    · simp only [List.cons_append, propertyQuery]
      split
      · exact reads_none
      · exact reads_trailing _ free cs

theorem reads_boundaryName (free : Bool) (cs : Chars) :
    Reads (boundaryName free cs) fun post => boundaryName free (cs ++ ')' :: post) := by
  refine reads_bind (reads_takeKind rfl free cs) (fun name cs => ?_) fun name rest _ => ?_
  · dsimp only
    split
    · exact leaves_check fun _ => leaves_some (List.suffix_cons _ _)
    · exact leaves_none
  · cases rest with
    | nil => exact reads_none
    | cons c rest =>
      by_cases brace : c = '\x7d'
      · subst brace
        exact reads_check _
      · simpa [brace] using reads_none

/-- A word boundary, an opening brace and nothing more.  What follows the brace decides whether
it opens the name of a kind of boundary or the counts of a repetition. -/
def Dangles (free : Bool) (cs : Chars) : Prop :=
  ∃ inner, cs = '\\' :: 'b' :: '\x7b' :: inner ∧ skipSpace free inner = []

theorem reads_wordBoundary (free : Bool) (cs : Chars) (h : ¬ Dangles free ('\\' :: 'b' :: cs)) :
    Reads (wordBoundary free cs) fun post => wordBoundary free (cs ++ ')' :: post) := by
  cases cs with
  | nil => exact reads_some _
  | cons c inner =>
    by_cases brace : c = '\x7b'
    · subst brace
      rcases skipSpace_closed free inner with stays | ⟨none, -⟩
      · simp only [List.cons_append, wordBoundary, stays]
        cases hs : skipSpace free inner with
        | nil => exact absurd ⟨inner, rfl, hs⟩ h
        | cons d name =>
          simp only [List.cons_append]
          split
          · exact reads_boundaryName free (d :: name)
          · exact reads_some _
      · exact absurd ⟨inner, rfl, none⟩ h
    · simpa [wordBoundary, brace] using reads_some (c :: inner)

theorem reads_escape (free : Bool) (cs : Chars) (h : ¬ Dangles free ('\\' :: cs)) :
    Reads (escape free cs) fun post => escape free (cs ++ ')' :: post) := by
  cases cs with
  | nil => exact reads_past (leaves_escape free ')')
  | cons c cs =>
    have hex (digits : Nat) (isByte : Bool) :
        Reads ((skipped free (hexLiteral free digits isByte) cs).map
            fun found => (Primitive.literal found.1, found.2))
          fun post => (skipped free (hexLiteral free digits isByte) (cs ++ ')' :: post)).map
            fun found => (Primitive.literal found.1, found.2) :=
      reads_map (reads_skipped (leaves_hexLiteral free digits isByte)
        (reads_hexLiteral free digits isByte))
    have property (negated : Bool) :
        Reads (skipped free (propertyQuery free negated) cs)
          fun post => skipped free (propertyQuery free negated) (cs ++ ')' :: post) :=
      reads_skipped (leaves_propertyQuery free negated) (reads_propertyQuery free negated)
    simp only [List.cons_append, escape]
    split
    · exact reads_none
    · split
      · exact reads_some _
      · split
        all_goals first
          | exact hex _ _
          | exact property _
          | exact reads_wordBoundary free cs h
          | exact reads_some _
          | exact reads_none

/-- Any other character is a unit by itself. -/
theorem exists_primitive {c : Char} (h : c ≠ '\\') (free : Bool) :
    ∃ p, ∀ cs, primitive free (c :: cs) = some (p, cs) := by
  by_cases dot : c = '.'
  · subst dot
    exact ⟨.dot, fun _ => rfl⟩
  · by_cases caret : c = '^'
    · subst caret
      exact ⟨.assertion .lineStart, fun _ => rfl⟩
    · by_cases dollar : c = '$'
      · subst dollar
        exact ⟨.assertion .lineEnd, fun _ => rfl⟩
      · exact ⟨.literal ⟨c, false⟩, fun _ => by simp [primitive]⟩

theorem reads_primitive (free : Bool) (cs : Chars) (h : ¬ Dangles free cs) :
    Reads (primitive free cs) fun post => primitive free (cs ++ ')' :: post) := by
  cases cs with
  | nil => exact reads_past fun post => leaves_primitive free (')' :: post)
  | cons c cs =>
    by_cases slash : c = '\\'
    · subst slash
      exact reads_escape free cs h
    · obtain ⟨p, hp⟩ := exists_primitive slash free
      simp only [List.cons_append, hp]
      exact reads_some _

end

end ColumnPlan.Pattern
