import ColumnPlan.Proofs.Pattern.Closing

/-!
# Classes with a closing parenthesis behind

What stands in brackets is read the same with a closing parenthesis behind, or it is not complete
and the parenthesis becomes a part of it.

* `reads_classRange`     an item of a class, or a range;
* `asciiClass_closed`    the name of a class: no name holds a parenthesis;
* `reads_bracketClass`   a whole class.
-/

namespace ColumnPlan.Pattern

section
variable {rest : Chars}

theorem reads_classPrimitive (free : Bool) (cs : Chars) (h : ¬ Dangles free cs) :
    Reads (classPrimitive free cs) fun post => classPrimitive free (cs ++ ')' :: post) := by
  cases cs with
  | nil => exact reads_past fun post => leaves_classPrimitive free (')' :: post)
  | cons c cs =>
    by_cases slash : c = '\\'
    · subst slash
      exact reads_escape free cs h
    · simpa [classPrimitive, slash] using reads_some cs

theorem boundaryName_eq {free : Bool} {cs : Chars} {p : Primitive}
    (h : boundaryName free cs = some (p, rest)) : ∃ place, p = .assertion (.word place) := by
  obtain ⟨⟨name, last⟩, -, h⟩ := Option.bind_eq_some_iff.mp h
  dsimp only at h
  split at h
  · obtain ⟨place, -, h⟩ := Option.bind_eq_some_iff.mp h
    cases h
    exact ⟨place, rfl⟩
  · cases h

theorem wordBoundary_eq {free : Bool} {cs : Chars} {p : Primitive}
    (h : wordBoundary free cs = some (p, rest)) : ∃ place, p = .assertion (.word place) := by
  unfold wordBoundary at h
  split at h
  · split at h
    · cases h
    · split at h
      · exact boundaryName_eq h
      · cases h
        exact ⟨.boundary, rfl⟩
  · cases h
    exact ⟨.boundary, rfl⟩

/-- A word boundary is no part of a class. -/
theorem rangeEnd_boundary (free : Bool) (first : Primitive) (cs : Chars) :
    rangeEnd free first ('\\' :: 'b' :: cs) = none := by
  refine Option.bind_eq_none_iff.mpr fun (p, rest) h => ?_
  have boundary : wordBoundary free cs = some (p, rest) := h
  obtain ⟨place, rfl⟩ := wordBoundary_eq boundary
  have no_range : first.range? (.assertion (.word place)) = none := by
    unfold Primitive.range?
    cases first.toLiteral? <;> rfl
  simp [no_range]

theorem classRange_boundary (free : Bool) (cs : Chars) :
    classRange free ('\\' :: 'b' :: cs) = none := by
  refine Option.bind_eq_none_iff.mpr fun (p, rest) h => ?_
  have boundary : wordBoundary free cs = some (p, rest) := h
  obtain ⟨place, rfl⟩ := wordBoundary_eq boundary
  have no_range (last : Primitive) : Primitive.range? (.assertion (.word place)) last = none := rfl
  show rangeAfter free (.assertion (.word place)) (skipSpace free rest) = none
  unfold rangeAfter
  split
  · split
    · rfl
    · exact Option.bind_eq_none_iff.mpr fun (last, rest) _ => by simp [no_range]
  · rfl

theorem reads_rangeEnd (free : Bool) (first : Primitive) (cs : Chars) :
    Reads (rangeEnd free first cs) fun post => rangeEnd free first (cs ++ ')' :: post) := by
  by_cases h : Dangles free cs
  · obtain ⟨inner, rfl, -⟩ := h
    simp only [List.cons_append, rangeEnd_boundary]
    exact reads_none
  · refine reads_bind (reads_classPrimitive free cs h) (fun last cs => ?_)
      fun last rest _ => reads_check _
    exact leaves_check fun item => leaves_rest

theorem peekSpaced_closed (inComment : Bool) (cs post : Chars) :
    peekSpaced inComment (cs ++ ')' :: post) = (peekSpaced inComment cs).or (some ')') := by
  induction cs generalizing inComment with
  | nil => simp [peekSpaced, isSpace_close]
  | cons c cs ih =>
    simp only [List.cons_append, peekSpaced]
    split
    · exact ih _
    · split
      · exact ih _
      · rfl

/-- White space and the first mark of a comment decide nothing. -/
theorem peekSpaced_head {cs : Chars} (h : peekSpaced false cs = none) {c : Char}
    (hc : isSpace c = false) (mark : c ≠ '#') : cs.head? ≠ some c := by
  cases cs with
  | nil => exact nofun
  | cons d cs =>
    intro same
    cases same
    simp [peekSpaced, hc, mark] at h

/-- The parenthesis does not decide that a hyphen stands for itself. -/
theorem peek_closed (free : Bool) (cs post : Chars) {c : Char} (hc : c = ']' ∨ c = '-') :
    peek free (cs ++ ')' :: post) = some c ↔ peek free cs = some c := by
  have other : c ≠ ')' ∧ c ≠ '#' ∧ isSpace c = false := by
    rcases hc with rfl | rfl
    · exact ⟨by decide, by decide, by decide +kernel⟩
    · exact ⟨by decide, by decide, by decide +kernel⟩
  obtain ⟨close, mark, space⟩ := other
  cases free with
  | false =>
    cases cs with
    | nil => simp [peek, Ne.symm close]
    | cons d cs => rfl
  | true =>
    simp only [peek, if_true, peekSpaced_closed]
    cases hp : peekSpaced false cs with
    | none => simpa [Ne.symm close] using peekSpaced_head hp space mark
    | some d => simp

theorem reads_rangeAfter (free : Bool) (first : Primitive) (cs : Chars) :
    Reads (rangeAfter free first cs) fun post => rangeAfter free first (cs ++ ')' :: post) := by
  cases cs with
  | nil => exact reads_check _
  | cons c cs =>
    by_cases hyphen : c = '-'
    · subst hyphen
      simp only [List.cons_append, rangeAfter, peek_closed free cs _ (.inl rfl),
        peek_closed free cs _ (.inr rfl)]
      split
      · exact reads_check ('-' :: cs)
      · exact reads_skipped (leaves_rangeEnd free first) (reads_rangeEnd free first)
    · simpa [rangeAfter, hyphen] using reads_check (c :: cs)

theorem reads_classRange (free : Bool) (cs : Chars) :
    Reads (classRange free cs) fun post => classRange free (cs ++ ')' :: post) := by
  by_cases h : Dangles free cs
  · obtain ⟨inner, rfl, -⟩ := h
    simp only [List.cons_append, classRange_boundary]
    exact reads_none
  · refine reads_bind (reads_classPrimitive free cs h) (fun first cs => ?_) fun first rest _ => ?_
    · exact leaves_skipped (leaves_rangeAfter free first)
    · exact reads_skipped (leaves_rangeAfter free first) (reads_rangeAfter free first)

theorem reads_hyphens (free : Bool) (c : OpenClass) (cs : Chars) :
    Reads (rounds (hyphenRound free) c cs)
      fun post => rounds (hyphenRound free) c (cs ++ ')' :: post) := by
  refine reads_rounds (advances_hyphenRound free) (fun c cs => ?_) c cs
  cases cs with
  | nil => exact reads_some _
  | cons d cs =>
    by_cases hyphen : d = '-'
    · subst hyphen
      exact reads_trailing _ free cs
    · simpa [hyphenRound, hyphen] using reads_some (d :: cs)

theorem reads_firstBracket (free : Bool) (c : OpenClass) (cs : Chars) :
    Reads (firstBracket free c cs) fun post => firstBracket free c (cs ++ ')' :: post) := by
  cases cs with
  | nil => exact reads_some _
  | cons d cs =>
    by_cases bracket : d = ']'
    · subst bracket
      simp only [List.cons_append, firstBracket]
      split
      · exact reads_trailing _ free cs
      · exact reads_some _
    · simpa [firstBracket, bracket] using reads_some (d :: cs)

theorem reads_classStart (free negated : Bool) (cs : Chars) :
    Reads (classStart free negated cs)
      fun post => classStart free negated (cs ++ ')' :: post) :=
  reads_bind (reads_hyphens free _ cs) (leaves_firstBracket free)
    fun c rest _ => reads_firstBracket free c rest

theorem reads_openClass (free : Bool) (cs : Chars) :
    Reads (openClass free cs) fun post => openClass free (cs ++ ')' :: post) := by
  cases cs with
  | nil => exact reads_classStart free false []
  | cons c cs =>
    by_cases caret : c = '^'
    · subst caret
      exact reads_skipped (leaves_classStart free true) (reads_classStart free true)
    · simpa [openClass, caret] using reads_classStart free false (c :: cs)

/-- Up to a mark, the same is taken; without one, the parenthesis is taken too. -/
theorem span_closed (mark : Char) (h : mark ≠ ')') (cs : Chars) :
    (∃ name rest, cs.span (· ≠ mark) = (name, mark :: rest) ∧
        ∀ post, (cs ++ ')' :: post).span (· ≠ mark) = (name, mark :: (rest ++ ')' :: post))) ∨
      ∃ name, cs.span (· ≠ mark) = (name, []) ∧ ∀ post, ∃ more last,
        (cs ++ ')' :: post).span (· ≠ mark) = (more, last) ∧ ')' ∈ more := by
  simp only [List.span_eq_takeWhile_dropWhile]
  induction cs with
  | nil =>
    refine .inr ⟨[], rfl, fun post => ⟨_, _, rfl, ?_⟩⟩
    simp [Ne.symm h]
  | cons c cs ih =>
    by_cases at_mark : c = mark
    · subst at_mark
      refine .inl ⟨[], cs, ?_, fun post => ?_⟩
      · simp
      · simp
    · rcases ih with ⟨name, rest, alone, closed⟩ | ⟨name, alone, closed⟩
      · refine .inl ⟨c :: name, rest, ?_, fun post => ?_⟩
        · simpa [at_mark] using alone
        · simpa [at_mark] using closed post
      · refine .inr ⟨c :: name, ?_, fun post => ?_⟩
        · simpa [at_mark] using alone
        · obtain ⟨more, last, taken, mem⟩ := closed post
          refine ⟨c :: more, last, ?_, List.mem_cons_of_mem c mem⟩
          simpa [at_mark] using taken

theorem asciiClassOfName?_closed {name : Chars} (h : ')' ∈ name) :
    asciiClassOfName? name = none := by
  unfold asciiClassOfName?
  split
  all_goals first
    | rfl
    | next eq =>
      have letters := congrArg String.toList eq
      rw [String.toList_ofList] at letters
      rw [letters] at h
      exact absurd h (by decide)

/-- No name of a class holds a parenthesis. -/
theorem asciiName_closed (negated : Bool) (cs post : Chars) :
    asciiName negated (cs ++ ')' :: post) =
      (asciiName negated cs).map fun (item, rest) => (item, rest ++ ')' :: post) := by
  unfold asciiName
  rcases span_closed ':' (by decide) cs with ⟨name, rest, alone, closed⟩ |
    ⟨name, alone, closed⟩
  · rw [alone, closed post]
    cases rest with
    | nil => rfl
    | cons c rest =>
      by_cases bracket : c = ']'
      · subst bracket
        simp only [List.cons_append]
        cases asciiClassOfName? name <;> rfl
      · simp [bracket]
  · obtain ⟨more, last, taken, mem⟩ := closed post
    rw [alone, taken]
    split
    · next eq =>
      cases eq
      rw [asciiClassOfName?_closed mem]
      rfl
    · rfl

theorem asciiClass_closed (cs post : Chars) :
    asciiClass (cs ++ ')' :: post) =
      (asciiClass cs).map fun (item, rest) => (item, rest ++ ')' :: post) := by
  cases cs with
  | nil => rfl
  | cons c cs =>
    by_cases colon : c = ':'
    · subst colon
      cases cs with
      | nil => exact asciiName_closed false [] post
      | cons d cs =>
        by_cases caret : d = '^'
        · subst caret
          exact asciiName_closed true cs post
        · simpa [asciiClass, caret] using asciiName_closed false (d :: cs) post
    · simp [asciiClass, colon]

theorem reads_innerClass (free : Bool) (c : OpenClasses) (cs : Chars) :
    Reads (innerClass free c cs) fun post => innerClass free c (cs ++ ')' :: post) := by
  unfold innerClass
  simp only [asciiClass_closed]
  cases asciiClass cs with
  | some result => exact reads_some _
  | none =>
    refine reads_bind (reads_skipped (leaves_openClass free) (reads_openClass free))
      (fun inner cs => leaves_rest) fun inner rest _ => reads_some _

theorem reads_classItem (free : Bool) (c : OpenClasses) (cs : Chars) :
    Reads (classItem free c cs) fun post => classItem free c (cs ++ ')' :: post) :=
  reads_bind (reads_classRange free cs) (fun _ _ => leaves_rest)
    fun _ _ _ => reads_some _

/-- What is neither a bracket nor an operator begins an item. -/
theorem classRound_eq_classItem (free : Bool) (c : OpenClasses) {d : Char} {cs : Chars}
    (ho : d ≠ '[') (hc : d ≠ ']') (twice : ¬ (d ∈ ['&', '-', '~'] ∧ cs.head? = some d)) :
    classRound free c (d :: cs) = classItem free c (d :: cs) := by
  unfold classRound
  split
  all_goals first
    | rfl
    | next eq => simp_all

theorem head?_closed {c : Char} (h : c ≠ ')') (cs post : Chars) :
    (cs ++ ')' :: post).head? = some c ↔ cs.head? = some c := by
  cases cs with
  | nil => simpa using Ne.symm h
  | cons d cs => rfl

theorem reads_classRound (free : Bool) (c : OpenClasses) (cs : Chars) :
    Reads (classRound free c cs) fun post => classRound free c (cs ++ ')' :: post) := by
  cases cs with
  | nil =>
    exact reads_past fun post => leaves_classItem free c (')' :: post)
  | cons d cs =>
    by_cases opening : d = '['
    · subst opening
      exact reads_innerClass free c cs
    · by_cases closing : d = ']'
      · subst closing
        exact reads_some _
      · by_cases twice : d ∈ ['&', '-', '~'] ∧ cs.head? = some d
        · obtain ⟨operator, head⟩ := twice
          obtain ⟨cs, rfl⟩ := List.head?_eq_some_iff.mp head
          simp only [List.mem_cons, List.not_mem_nil, or_false] at operator
          rcases operator with rfl | rfl | rfl
          · exact reads_some _
          · exact reads_some _
          · exact reads_some _
        · have item : classRound free c (d :: cs) = classItem free c (d :: cs) :=
            classRound_eq_classItem free c opening closing twice
          have closed (post : Chars) : classRound free c (d :: cs ++ ')' :: post) =
              classItem free c (d :: cs ++ ')' :: post) := by
            refine classRound_eq_classItem free c opening closing fun ⟨operator, head⟩ => ?_
            have other : d ≠ ')' := by
              rintro rfl
              exact absurd operator (by decide)
            exact twice ⟨operator, (head?_closed other cs post).mp head⟩
          simp only [item, closed]
          exact reads_classItem free c (d :: cs)

theorem reads_bracketClass (free : Bool) (cs : Chars) :
    Reads (bracketClass free cs) fun post => bracketClass free (cs ++ ')' :: post) := by
  have classes (c : OpenClasses) (cs : Chars) :=
    reads_rounds (advances_classRound free)
      (fun c _ => reads_skipped (fun cs => (eats_classRound free c cs).1) (reads_classRound free c))
      c cs
  refine reads_bind (reads_skipped (leaves_openClass free) (reads_openClass free))
    (fun c cs => ?_) fun c rest _ => ?_
  · exact leaves_bind (leaves_rounds (advances_classRound free) _ cs) fun c rest h => leaves_some h
  · exact reads_bind (classes _ rest) (fun c cs => leaves_rest)
      fun c rest _ => reads_some _

end

end ColumnPlan.Pattern
