import ColumnPlan.Proofs.Pattern.Classes

/-!
# The parts of a pattern with a closing parenthesis behind

* `reads_counts`         the counts of a repetition;
* `reads_groupHead`      what follows an opening parenthesis;
* `reads_item`           every part of a pattern, in any state.
-/

namespace ColumnPlan.Pattern

/-! ### repetitions -/

theorem dropWhile_space_closed (cs post : Chars) :
    (cs ++ ')' :: post).dropWhile isSpace = cs.dropWhile isSpace ++ ')' :: post := by
  induction cs with
  | nil => simp [isSpace_close]
  | cons c cs ih =>
    simp only [List.cons_append, List.dropWhile_cons]
    split
    · exact ih
    · rfl

theorem reads_count (free : Bool) (cs : Chars) :
    Reads (count free cs) fun post => count free (cs ++ ')' :: post) := by
  unfold count
  simp only [dropWhile_space_closed]
  refine reads_bind (reads_takeKind rfl free _) (fun digits cs => ?_) fun digits rest _ => ?_
  · refine leaves_check fun n => leaves_some ?_
    exact (skipSpace_suffix free _).trans (List.dropWhile_suffix isSpace)
  · simp only [dropWhile_space_closed]
    cases countOf? digits with
    | none => exact reads_none
    | some n => exact reads_trailing n free _

theorem reads_countAfterComma (free : Bool) (min : Option Nat) (cs : Chars) :
    Reads (countAfterComma free min cs)
      fun post => countAfterComma free min (cs ++ ')' :: post) := by
  have greatest (cs : Chars) :
      Reads (do
          let found ← count free cs
          pure ((← min, some (← found.1)), found.2))
        (fun post => do
          let found ← count free (cs ++ ')' :: post)
          pure ((← min, some (← found.1)), found.2)) := by
    refine reads_bind (reads_count free cs) (fun max cs => ?_) fun max rest _ => ?_
    · exact leaves_check fun least => leaves_check fun most => leaves_rest
    · cases min with
      | none => exact reads_none
      | some least => exact reads_check _
  cases cs with
  | nil => exact greatest []
  | cons c cs =>
    by_cases brace : c = '\x7d'
    · subst brace
      exact reads_check ('\x7d' :: cs)
    · simpa [countAfterComma, brace] using greatest (c :: cs)

theorem reads_countAfter (free : Bool) (min : Option Nat) (cs : Chars) :
    Reads (countAfter free min cs) fun post => countAfter free min (cs ++ ')' :: post) := by
  cases cs with
  | nil =>
    cases min with
    | none => exact reads_none
    | some least => exact reads_some _
  | cons c cs =>
    by_cases comma : c = ','
    · subst comma
      exact reads_skipped (leaves_countAfterComma free min) (reads_countAfterComma free min)
    · cases min with
      | none => simpa [countAfter, comma] using reads_none
      | some least => simpa [countAfter, comma] using reads_some (c :: cs)

theorem reads_closeCounts (free : Bool) (bounds : Nat × Option Nat) (cs : Chars) :
    Reads (closeCounts free bounds cs)
      fun post => closeCounts free bounds (cs ++ ')' :: post) := by
  cases cs with
  | nil => exact reads_none
  | cons c cs =>
    by_cases brace : c = '\x7d'
    · subst brace
      simp only [List.cons_append, closeCounts]
      split
      · exact reads_trailing bounds free cs
      · exact reads_none
    · simpa [closeCounts, brace] using reads_none

theorem reads_counts (free : Bool) (cs : Chars) :
    Reads (counts free cs) fun post => counts free (cs ++ ')' :: post) := by
  refine reads_bind (reads_skipped (leaves_count free) (reads_count free))
    (fun min cs => ?_) fun min rest _ => ?_
  · refine leaves_bind (leaves_countAfter free min cs) fun bounds rest h => ?_
    exact (leaves_closeCounts free bounds rest).mono h
  · exact reads_bind (reads_countAfter free min rest) (leaves_closeCounts free)
      fun bounds rest _ => reads_closeCounts free bounds rest

/-! ### groups -/

theorem reads_flagRound (f : OpenFlags) (cs : Chars) :
    Reads (flagRound f cs) fun post => flagRound f (cs ++ ')' :: post) := by
  cases cs with
  | nil => exact reads_past (leaves_flagRound f ')')
  | cons c cs =>
    simp only [List.cons_append, flagRound]
    split
    · split
      · exact reads_none
      · exact reads_some _
    · split
      · split
        · exact reads_none
        · exact reads_some _
      · split
        · split
          · exact reads_none
          · exact reads_some _
        · cases flagOfLetter? c with
          | none => exact reads_none
          | some flag =>
            simp only [Option.bind_eq_bind, Option.bind_some]
            split
            · exact reads_none
            · exact reads_some _

theorem isNameChar_close (first : Bool) : isNameChar first ')' = false := by
  cases first <;> decide +kernel

/-- No name of a group holds a parenthesis. -/
theorem reads_groupName (cs : Chars) :
    Reads (groupName cs) fun post => groupName (cs ++ ')' :: post) := by
  unfold groupName
  rcases span_closed '>' (by decide) cs with ⟨name, rest, alone, closed⟩ |
    ⟨name, alone, closed⟩
  · simp only [alone, closed]
    cases name with
    | nil => exact reads_none
    | cons c more =>
      simp only
      split
      · exact reads_some _
      · exact reads_none
  · simp only [alone]
    refine reads_past fun post => ?_
    obtain ⟨more, last, taken, mem⟩ := closed post
    rw [taken]
    split
    · next c more rest eq =>
      cases eq
      have refused : (isNameChar true c && more.all (isNameChar false)) = false := by
        rcases List.mem_cons.mp mem with rfl | mem
        · rw [isNameChar_close, Bool.false_and]
        · have not_all : more.all (isNameChar false) = false :=
            List.all_eq_false.mpr ⟨')', mem, by rw [isNameChar_close]; exact Bool.false_ne_true⟩
          rw [not_all, Bool.and_false]
      rw [refused]
      exact leaves_none
    · exact leaves_none

theorem reads_groupKind (cs : Chars) :
    Reads (groupKind cs) fun post => groupKind (cs ++ ')' :: post) := by
  have flags := reads_rounds advances_flagRound reads_flagRound ⟨false, false, []⟩
  have name (cs : Chars) := reads_map (f := GroupHead.named) (reads_groupName cs)
  cases cs with
  | nil => exact flags []
  | cons c cs =>
    by_cases angle : c = '<'
    · subst angle
      exact name cs
    · by_cases letter : c = 'P'
      · subst letter
        cases cs with
        | nil => exact flags ['P']
        | cons d cs =>
          by_cases angle : d = '<'
          · subst angle
            exact name cs
          · simpa [groupKind, angle] using flags ('P' :: d :: cs)
      · simpa [groupKind, angle, letter] using flags (c :: cs)

theorem reads_groupHead (cs : Chars) :
    Reads (groupHead cs) fun post => groupHead (cs ++ ')' :: post) := by
  cases cs with
  | nil => exact reads_some _
  | cons c cs =>
    by_cases mark : c = '?'
    · subst mark
      exact reads_groupKind cs
    · simpa [groupHead, mark] using reads_some (c :: cs)

/-! ### the parts of a pattern -/

theorem dropLazy_closed (cs post : Chars) :
    dropLazy (cs ++ ')' :: post) = dropLazy cs ++ ')' :: post := by
  cases cs with
  | nil => rfl
  | cons c cs =>
    by_cases mark : c = '?'
    · subst mark
      rfl
    · simp [dropLazy, mark]

theorem reads_repeated (o : Option State) (cs : Chars) :
    Reads (do pure (← o, dropLazy cs))
      (fun post => do pure (← o, dropLazy (cs ++ ')' :: post))) := by
  simp only [dropLazy_closed]
  exact reads_check (f := id) _

theorem reads_unit (s : State) (cs : Chars) (h : ¬ Dangles s.free cs) :
    Reads (unit s cs) fun post => unit s (cs ++ ')' :: post) :=
  reads_bind (reads_primitive s.free cs h) (fun _ _ => leaves_rest)
    fun _ _ _ => reads_some _

/-- The characters that are no unit by themselves. -/
def isItemMark (c : Char) : Bool := ['(', ')', '|', '[', '?', '*', '+', '\x7b'].contains c

theorem item_eq_unit (s : State) {c : Char} (h : isItemMark c = false) (cs : Chars) :
    item s (c :: cs) = unit s (c :: cs) := by
  unfold item
  split
  all_goals first
    | rfl
    | next eq =>
      cases eq
      exact absurd h (by decide)

theorem reads_item (s : State) (cs : Chars) (h : ¬ Dangles s.free cs) :
    Reads (item s cs) fun post => item s (cs ++ ')' :: post) := by
  cases cs with
  | nil => exact reads_past fun post => leaves_item s (')' :: post)
  | cons c cs =>
    cases hm : isItemMark c with
    | false =>
      simp only [List.cons_append, item_eq_unit s hm]
      exact reads_unit s (c :: cs) h
    | true =>
      simp only [isItemMark, List.contains_iff_mem, List.mem_cons, List.not_mem_nil, or_false] at hm
      rcases hm with rfl | rfl | rfl | rfl | rfl | rfl | rfl | rfl
      · refine reads_bind (reads_skipped leaves_groupHead reads_groupHead) (fun head cs => ?_)
          fun head rest _ => reads_check (f := id) _
        exact leaves_check fun s => leaves_rest
      · exact reads_check (f := id) _
      · exact reads_some _
      · exact reads_bind (reads_bracketClass s.free cs)
          (fun _ cs => leaves_rest) fun _ _ _ => reads_some _
      · exact reads_repeated _ cs
      · exact reads_repeated _ cs
      · exact reads_repeated _ cs
      · refine reads_bind (reads_counts s.free cs) (fun bounds cs => ?_)
          fun bounds rest _ => reads_repeated _ rest
        exact leaves_check fun s => leaves_some (dropLazy_suffix cs)

end ColumnPlan.Pattern
