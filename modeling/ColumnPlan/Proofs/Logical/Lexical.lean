import ColumnPlan.Proofs.Logical.Pieces

/-!
# Pieces are known from their characters

A word ends where the next delimiter stands outside of quotes, no joint begins another one, and
every other piece is known from how it begins.  A word can look like the mark of a call; but then
operators stand where the call has operands, and where the bracket ends one of the two is missing.
So the characters of some pieces can be cut in one way only.

* `isWord w`             the characters are one word, and no word with a meaning of its own;
* `word_append_inj`      a word ends at the first delimiter;
* `Joint.append_inj`     joints are a prefix code;
* `Piece.Lexed`          words are words, and each is followed by a joint or a bracket;
* `not_shifted`          operands and operators do not stand in each other's place;
* `listChars_inj`        the pieces are known from their characters.
-/

namespace ColumnPlan

/-! ### words -/

def isDelimiter (c : Char) : Bool := c = ' ' || c = ',' || c = '(' || c = ')'

/-- All quotes are closed, and no delimiter stands outside of them. -/
def isSolid (quoted : Bool) : List Char → Bool
  | [] => !quoted
  | c :: cs =>
    if c = '\'' then isSolid (!quoted) cs else (quoted || !isDelimiter c) && isSolid quoted cs

/-- One word that does not look like a sign or a case expression. -/
def isWord (w : List Char) : Bool :=
  w.head?.any (fun c => c ≠ '+' && c ≠ '-') && isSolid false w && w ≠ "CASE".toList

/-- The text ends here or goes on with a delimiter. -/
def Ends (cs : List Char) : Prop := ∀ c ∈ cs.head?, isDelimiter c = true

/-- A word ends at the first delimiter outside of quotes. -/
theorem word_append_inj {quoted : Bool} {v w r r' : List Char} (hv : isSolid quoted v = true)
    (hw : isSolid quoted w = true) (hr : Ends r) (hr' : Ends r') (h : v ++ r = w ++ r') :
    v = w ∧ r = r' := by
  -- outside of quotes the other word cannot go on with what ends this one
  have stuck : ∀ {quoted : Bool} {c : Char} {cs r r' : List Char}, isSolid quoted [] = true →
      isSolid quoted (c :: cs) = true → Ends r → r ≠ c :: (cs ++ r') := by
    rintro quoted c cs r r' done solid ends rfl
    have delimits : isDelimiter c = true := ends c rfl
    cases quoted with
    | true => cases done
    | false =>
      unfold isSolid at solid
      split at solid
      · next quote =>
        subst quote
        cases delimits
      · rw [delimits] at solid
        cases solid
  induction v generalizing quoted w with
  | nil =>
    cases w with
    | nil => exact ⟨rfl, h⟩
    | cons c w => exact absurd h (stuck hv hw hr)
  | cons c v ih =>
    cases w with
    | nil => exact absurd h.symm (stuck hw hv hr')
    | cons d w =>
      obtain ⟨rfl, rest⟩ := List.cons.inj h
      unfold isSolid at hv hw
      split at hv
      · next quote =>
        rw [if_pos quote] at hw
        obtain ⟨rfl, same⟩ := ih hv hw rest
        exact ⟨rfl, same⟩
      · next other =>
        rw [if_neg other] at hw
        obtain ⟨rfl, same⟩ := ih (Bool.and_eq_true_iff.mp hv).2 (Bool.and_eq_true_iff.mp hw).2 rest
        exact ⟨rfl, same⟩

section
variable {w : List Char}

theorem isSolid_of_isWord (h : isWord w = true) : isSolid false w = true := by
  unfold isWord at h
  simp only [Bool.and_eq_true] at h
  exact h.1.2

theorem ne_of_isWord (h : isWord w = true) : w ≠ "CASE".toList := by
  unfold isWord at h
  simp only [Bool.and_eq_true, decide_eq_true_iff] at h
  exact h.2

theorem exists_head_of_isWord (h : isWord w = true) :
    ∃ c cs, w = c :: cs ∧ c ≠ '+' ∧ c ≠ '-' ∧ isDelimiter c = false := by
  have solid := isSolid_of_isWord h
  unfold isWord at h
  cases w with
  | nil => cases h
  | cons c cs =>
    simp only [List.head?_cons, Option.any_some, Bool.and_eq_true, decide_eq_true_iff] at h
    refine ⟨c, cs, rfl, h.1.1.1, h.1.1.2, ?_⟩
    unfold isSolid at solid
    split at solid
    · next quote =>
      subst quote
      rfl
    · rw [Bool.false_or, Bool.and_eq_true, Bool.not_eq_true'] at solid
      exact solid.1

end

/-! ### joints -/

namespace Joint

def all : List Joint :=
  let ops := [ArithmeticOp.plus, .minus, .star, .div, .mod]
  let comparisons := [Comparison.eq, .notEq, .gt, .gtEq, .lt, .ltEq, .like, .notLike]
  ops.map .arith ++
    [Quantifier.any, .all].flatMap (fun q => comparisons.map fun c => .compare ⟨c, q⟩) ++
    [Quantifier.any, .all].flatMap (fun q => [true, false].map fun b => .member ⟨b, q⟩) ++
    [.connective .conjunction, .connective .disjunction, .condition, .result, .otherwise, .comma]

theorem mem_all (j : Joint) : j ∈ all := by
  cases j with
  | arith op => cases op <;> decide
  | compare op =>
    obtain ⟨c, q⟩ := op
    cases c <;> cases q <;> decide
  | member op =>
    obtain ⟨b, q⟩ := op
    cases b <;> cases q <;> decide
  | connective k => cases k <;> decide
  | condition | result | otherwise | comma => decide

theorem eq_of_isPrefixOf {j j' : Joint} (h : j.text.toList.isPrefixOf j'.text.toList = true) :
    j = j' := by
  have free : ∀ j ∈ all, ∀ j' ∈ all, j.text.toList.isPrefixOf j'.text.toList = true → j = j' := by
    decide +kernel
  exact free j j.mem_all j' j'.mem_all h

/-- No joint begins another one. -/
theorem append_inj {j j' : Joint} {r r' : List Char}
    (h : j.text.toList ++ r = j'.text.toList ++ r') : j = j' ∧ r = r' := by
  have same : j = j' := by
    have first : j.text.toList <+: j'.text.toList ++ r' := h ▸ List.prefix_append _ r
    rcases List.prefix_or_prefix_of_prefix first (List.prefix_append _ r') with shorter | longer
    · exact eq_of_isPrefixOf (List.isPrefixOf_iff_prefix.mpr shorter)
    · exact (eq_of_isPrefixOf (List.isPrefixOf_iff_prefix.mpr longer)).symm
  subst same
  exact ⟨rfl, List.append_cancel_left h⟩

end Joint

/-! ### pieces -/

namespace Piece

def IsWord : Piece → Prop
  | .word _ => True
  | _ => False

/-- No piece follows, or a joint or a bracket does. -/
def Delimited : List Piece → Prop
  | [] | .joint _ :: _ | .group _ _ :: _ => True
  | _ => False

mutual

/-- An operand begins here.  Further ones stand behind operators and commas. -/
def AtOperand : List Piece → Prop
  | .word _ :: ps | .group _ _ :: ps | .cases _ :: ps => AtOperator ps
  | .sign _ :: ps => AtOperand ps
  | _ => False

/-- An operand ends here. -/
def AtOperator : List Piece → Prop
  | [] => True
  | .joint (.arith _) :: ps | .joint .comma :: ps => AtOperand ps
  | .group _ _ :: ps => AtOperator ps
  | _ => False

end

mutual

/-- Words are words, signs are those that an operand can have, and a mark stands in front of
operands. -/
def Lexed : Piece → Prop
  | .word w => isWord w = true
  | .sign op => op = .plus ∨ op = .minus
  | .joint _ => True
  | .group marked ps => (marked = true → ps = [] ∨ AtOperand ps) ∧ ListLexed ps
  | .cases ps => Delimited ps ∧ ListLexed ps

/-- Besides, nothing follows a word that could be taken for its end. -/
def ListLexed : List Piece → Prop
  | [] => True
  | p :: ps => p.Lexed ∧ (p.IsWord → Delimited ps) ∧ ListLexed ps

end

/-- How a piece begins. -/
inductive Shape where
  | word
  | sign
  | joint
  | group

def shape : Piece → Shape
  | .word _ | .cases _ => .word
  | .sign _ => .sign
  | .joint _ => .joint
  | .group _ _ => .group

/-- The shape of the piece that begins here; none does where a bracket or a case expression ends. -/
def shape? : List Char → Option Shape
  | [] => none
  | ')' :: _ => none
  | '(' :: _ => some .group
  | '+' :: _ => some .sign
  | '-' :: _ => some .sign
  | ',' :: _ => some .joint
  | ' ' :: 'E' :: 'N' :: _ => none
  | ' ' :: _ => some .joint
  | _ :: _ => some .word

/-- No piece begins here. -/
def Stops (cs : List Char) : Prop := shape? cs = none ∧ Ends cs

theorem shape?_word {w : List Char} (h : isWord w = true) (r : List Char) :
    shape? (w ++ r) = some .word := by
  obtain ⟨c, cs, rfl, plus, minus, inner⟩ := exists_head_of_isWord h
  unfold isDelimiter at inner
  simp only [Bool.or_eq_false_iff, decide_eq_false_iff_not] at inner
  obtain ⟨⟨⟨blank, comma⟩, opening⟩, closing⟩ := inner
  rw [List.cons_append]
  unfold shape?
  split <;> simp_all

theorem shape?_chars {p : Piece} (h : p.Lexed) (r : List Char) :
    shape? (p.chars ++ r) = some p.shape := by
  cases p with
  | word w => exact shape?_word h r
  | sign op => rcases h with rfl | rfl <;> rfl
  | joint j =>
    cases j with
    | arith op => cases op <;> rfl
    | compare op =>
      obtain ⟨c, q⟩ := op
      cases c <;> cases q <;> rfl
    | member op =>
      obtain ⟨b, q⟩ := op
      cases b <;> cases q <;> rfl
    | connective k => cases k <;> rfl
    | condition | result | otherwise | comma => rfl
  | group marked ps => cases marked <;> rfl
  | cases ps => rfl

theorem ends_of_delimited {ps : List Piece} (h : Delimited ps) {r : List Char} (hr : Ends r) :
    Ends (listChars ps ++ r) := by
  cases ps with
  | nil => exact hr
  | cons p ps =>
    cases p with
    | joint j =>
      intro c hc
      cases j with
      | arith op => cases op <;> cases hc <;> rfl
      | compare op =>
        obtain ⟨c, q⟩ := op
        cases c <;> cases q <;> cases hc <;> rfl
      | member op =>
        obtain ⟨b, q⟩ := op
        cases b <;> cases q <;> cases hc <;> rfl
      | connective k => cases k <;> cases hc <;> rfl
      | condition | result | otherwise | comma =>
        cases hc
        rfl
    | group marked qs =>
      intro c hc
      cases marked <;> cases hc <;> rfl
    | word | sign | cases => exact h.elim

/-- A bracket that closes stops the pieces inside. -/
theorem stops_group (r : List Char) : Stops (")".toList ++ r) := by
  refine ⟨rfl, fun c hc => ?_⟩
  cases hc
  rfl

theorem stops_cases (r : List Char) : Stops (" END".toList ++ r) := by
  refine ⟨rfl, fun c hc => ?_⟩
  cases hc
  rfl

theorem stops_nil : Stops [] := ⟨rfl, nofun⟩

theorem word_ne_cases {w r r' : List Char} (hw : isWord w = true) (hr : Ends r) {ps : List Piece}
    (hp : Delimited ps) : w ++ r ≠ (cases ps).chars ++ r' := by
  rw [chars_cases, List.append_assoc, List.append_assoc]
  exact fun h => ne_of_isWord hw (word_append_inj (isSolid_of_isWord hw) rfl hr
    (ends_of_delimited hp (stops_cases r').2) h).1

/-! ### operands and operators -/

theorem ends_blank (r : List Char) : Ends (' ' :: r) := by
  intro c hc
  cases hc
  rfl

/-- A sign, or a word that does not look like the beginning of a case expression. -/
def IsToken (v : List Char) : Prop :=
  v = ['+'] ∨ v = ['-'] ∨ isWord v = true ∧ v.head? ≠ some 'C'

instance (v : List Char) : Decidable (IsToken v) :=
  inferInstanceAs (Decidable (v = ['+'] ∨ v = ['-'] ∨ isWord v = true ∧ v.head? ≠ some 'C'))

theorem isToken_arith (op : ArithmeticOp) : IsToken op.text.toList := by
  cases op <;> decide

/-- Every other joint is a token between blanks, or two words. -/
theorem exists_token {j : Joint} (h : j ≠ .comma) :
    ∃ v more, j.text.toList = ' ' :: (v ++ ' ' :: more) ∧ IsToken v ∧
      more.head?.all Char.isAlpha = true := by
  have checked : ∀ j ∈ Joint.all, j ≠ .comma →
      let v := (j.text.toList.drop 1).takeWhile (· ≠ ' ')
      let more := j.text.toList.drop (v.length + 2)
      j.text.toList = ' ' :: (v ++ ' ' :: more) ∧ IsToken v ∧
        more.head?.all Char.isAlpha = true := by
    decide +kernel
  exact ⟨_, _, checked j j.mem_all h⟩

section
variable {ps qs : List Piece} {r r' t : List Char}

theorem exists_piece {shape : Shape} (lexed : ListLexed ps) (begins : shape? t = some shape)
    (h : listChars ps ++ ')' :: r = t) :
    ∃ p rest, ps = p :: rest ∧ p.shape = shape ∧ p.chars ++ (listChars rest ++ ')' :: r) = t := by
  cases ps with
  | nil =>
    subst h
    cases begins
  | cons p rest =>
    rw [listChars_cons, List.append_assoc] at h
    have same := (shape?_chars lexed.1 _).symm.trans ((congrArg shape? h).trans begins)
    exact ⟨p, rest, rfl, Option.some.inj same, h⟩

/-- Where a token stands, a word or a sign is the first piece. -/
theorem exists_of_token {v : List Char} (lexed : ListLexed ps) (token : IsToken v) (ends : Ends t)
    (h : listChars ps ++ ')' :: r = v ++ t) :
    ∃ p rest, ps = p :: rest ∧ (p = .word v ∨ ∃ op, p = .sign op) ∧
      listChars rest ++ ')' :: r = t := by
  have sign {c : Char} (begins : shape? (c :: t) = some .sign)
      (h : listChars ps ++ ')' :: r = c :: t) :
      ∃ p rest, ps = p :: rest ∧ (p = .word v ∨ ∃ op, p = .sign op) ∧
        listChars rest ++ ')' :: r = t := by
    obtain ⟨p, rest, rfl, shape, chars⟩ := exists_piece lexed begins h
    cases p with
    | sign op =>
      refine ⟨_, rest, rfl, .inr ⟨op, rfl⟩, ?_⟩
      rcases lexed.1 with rfl | rfl <;> exact (List.cons.inj chars).2
    | word | joint | group | cases => cases shape
  rcases token with rfl | rfl | ⟨word, other⟩
  · exact sign rfl h
  · exact sign rfl h
  · obtain ⟨p, rest, rfl, shape, chars⟩ := exists_piece lexed (shape?_word word t) h
    cases p with
    | word w =>
      obtain ⟨rfl, same⟩ := word_append_inj (isSolid_of_isWord lexed.1) (isSolid_of_isWord word)
        (ends_of_delimited (lexed.2.1 trivial) (stops_group r).2) ends chars
      exact ⟨_, rest, rfl, .inl rfl, same⟩
    | cases inner =>
      obtain ⟨c, cs, rfl, -⟩ := exists_head_of_isWord word
      exact absurd (congrArg List.head? chars).symm other
    | sign | joint | group => cases shape

/-- Where a blank stands, a joint is the first piece. -/
theorem exists_of_blank (lexed : ListLexed ps) (h : listChars ps ++ ')' :: r = ' ' :: t) :
    ∃ j rest, ps = .joint j :: rest ∧ j.text.toList ++ (listChars rest ++ ')' :: r) = ' ' :: t := by
  have shape (s : Shape) (hs : shape? (' ' :: t) = some s) : s = .joint := by
    unfold shape? at hs
    split at hs <;> grind
  cases ps with
  | nil => cases (List.cons.inj h).1
  | cons p rest =>
    rw [listChars_cons, List.append_assoc] at h
    have begins := shape _ ((congrArg shape? h).symm.trans (shape?_chars lexed.1 _))
    cases p with
    | joint j => exact ⟨j, rest, rfl, h⟩
    | word | sign | group | cases => cases begins

/-- Neither the end of a bracket nor an operand begins with a blank. -/
theorem operand_ne_blank (lexed : ListLexed ps) (operand : ps = [] ∨ AtOperand ps) :
    listChars ps ++ ')' :: r ≠ ' ' :: t := by
  intro h
  obtain ⟨j, rest, rfl, -⟩ := exists_of_blank lexed h
  rcases operand with none | operand
  · cases none
  · exact operand.elim

/-- Behind an operand, a blank begins an operator. -/
theorem exists_of_operator (lexed : ListLexed ps) (operator : AtOperator ps)
    (h : listChars ps ++ ')' :: r = ' ' :: t) :
    ∃ op rest, ps = .joint (.arith op) :: rest ∧ AtOperand rest ∧
      op.text.toList ++ ' ' :: (listChars rest ++ ')' :: r) = t := by
  obtain ⟨j, rest, rfl, chars⟩ := exists_of_blank lexed h
  cases j with
  | arith op =>
    refine ⟨op, rest, rfl, operator, ?_⟩
    have text : (Joint.arith op).text.toList = ' ' :: (op.text.toList ++ [' ']) := by
      cases op <;> rfl
    rw [text, List.cons_append, List.append_assoc] at chars
    exact (List.cons.inj chars).2
  | comma => cases (List.cons.inj chars).1
  | compare | member | connective | condition | result | otherwise => exact operator.elim

/-- **Operands and operators do not stand in each other's place.**  With a blank in front of the one
or of the other text, what is an operand there is an operator here, up to the end of the bracket,
where one of the texts ends behind an operator. -/
theorem not_shifted (hp : ListLexed ps) (hq : ListLexed qs) :
    (qs = [] ∨ AtOperand qs →
      listChars ps ++ ')' :: r ≠ ' ' :: (listChars qs ++ ')' :: r')) ∧
    (AtOperator qs → listChars qs ++ ')' :: r' ≠ ' ' :: (listChars ps ++ ')' :: r)) := by
  -- each half leads to the other one, for what is behind the first pieces
  induction ps generalizing qs with
  | nil =>
    refine ⟨fun _ h => ?_, fun operator h => ?_⟩
    · cases (List.cons.inj h).1
    · obtain ⟨op, rest, -, -, same⟩ := exists_of_operator hq operator h
      cases op <;> cases (List.cons.inj same).1
  | cons p ps ih =>
    refine ⟨fun operand h => ?_, fun operator h => ?_⟩
    · obtain ⟨j, rest, same, chars⟩ := exists_of_blank hp h
      cases same
      have other : j ≠ .comma := by
        rintro rfl
        cases (List.cons.inj chars).1
      obtain ⟨v, more, text, token, letters⟩ := exists_token other
      rw [text, List.cons_append, List.append_assoc] at chars
      obtain ⟨q, rest, rfl, kind, behind⟩ :=
        exists_of_token hq token (ends_blank _) (List.cons.inj chars).2.symm
      have operand : AtOperand (q :: rest) := operand.resolve_left (List.cons_ne_nil _ _)
      rcases kind with rfl | ⟨op, rfl⟩
      · cases more with
        | nil => exact (ih hp.2.2 hq.2.2).2 operand behind
        | cons c more =>
          obtain ⟨op, _, -, -, same⟩ := exists_of_operator hq.2.2 operand behind
          cases op <;> cases (List.cons.inj same).1 <;> cases letters
      · exact operand_ne_blank hq.2.2 (.inr operand) behind
    · obtain ⟨op, rest, rfl, operand, same⟩ := exists_of_operator hq operator h
      obtain ⟨_, _, first, -, behind⟩ :=
        exists_of_token hp (isToken_arith op) (ends_blank _) same.symm
      cases first
      exact (ih hp.2.2 hq.2.2).1 (.inr operand) behind

/-- A bracket shows whether it has a mark. -/
theorem opening_inj {marked marked' : Bool} (hp : (group marked ps).Lexed)
    (hq : (group marked' qs).Lexed)
    (h : (group marked ps).chars ++ r = (group marked' qs).chars ++ r') :
    marked = marked' ∧ listChars ps ++ (")".toList ++ r) = listChars qs ++ (")".toList ++ r') := by
  have apart {ps qs : List Piece} {r r' : List Char} (hp : (group false ps).Lexed)
      (hq : (group true qs).Lexed) : (group false ps).chars ++ r ≠ (group true qs).chars ++ r' := by
    intro h
    have mark : IsToken "distinct".toList := .inr (.inr ⟨rfl, by decide⟩)
    have marked : opening true = '(' :: ("distinct".toList ++ [' ']) := rfl
    have unmarked : opening false = ['('] := rfl
    rw [chars_group, chars_group, marked, unmarked] at h
    simp only [List.append_assoc, List.cons_append] at h
    obtain ⟨p, rest, rfl, -, behind⟩ := exists_of_token hp.2 mark (ends_blank _) (List.cons.inj h).2
    exact (not_shifted hp.2.2.2 hq.2).1 (hq.1 rfl) behind
  have same : marked = marked' := by
    cases marked with
    | false =>
      cases marked' with
      | false => rfl
      | true => exact absurd h (apart hp hq)
    | true =>
      cases marked' with
      | false => exact absurd h.symm (apart hq hp)
      | true => rfl
  rw [← same, chars_group, chars_group] at h
  simp only [List.append_assoc] at h
  exact ⟨same, List.append_cancel_left h⟩

end

-- Pieces of different shapes begin differently.  Of one shape are words and what begins with a
-- reserved word, so these are compared with each other.
mutual

theorem chars_inj {r r' : List Char} : (p q : Piece) → p.Lexed → q.Lexed →
    (p.IsWord → Ends r) → (q.IsWord → Ends r') → p.chars ++ r = q.chars ++ r' → p = q ∧ r = r'
  | .word w, q, hp, hq, er, er', h => by
    have shape := (shape?_chars hp r).symm.trans ((congrArg shape? h).trans (shape?_chars hq r'))
    cases q with
    | word v =>
      obtain ⟨rfl, rest⟩ := word_append_inj (isSolid_of_isWord hp) (isSolid_of_isWord hq)
        (er trivial) (er' trivial) h
      exact ⟨rfl, rest⟩
    | cases qs => exact absurd h (word_ne_cases hp (er trivial) hq.1)
    | sign | joint | group => cases shape
  | .cases ps, q, hp, hq, er, er', h => by
    have shape := (shape?_chars hp r).symm.trans ((congrArg shape? h).trans (shape?_chars hq r'))
    cases q with
    | word v => exact absurd h.symm (word_ne_cases hq (er' trivial) hp.1)
    | cases qs =>
      rw [chars_cases, chars_cases] at h
      simp only [List.append_assoc] at h
      obtain ⟨rfl, rest⟩ := listChars_inj ps qs hp.2 hq.2 (stops_cases r) (stops_cases r')
        (List.append_cancel_left h)
      exact ⟨rfl, List.append_cancel_left rest⟩
    | sign | joint | group => cases shape
  | .sign op, q, hp, hq, er, er', h => by
    have shape := (shape?_chars hp r).symm.trans ((congrArg shape? h).trans (shape?_chars hq r'))
    cases q with
    | sign op' =>
      rcases hp with rfl | rfl <;> rcases hq with rfl | rfl
      · exact ⟨rfl, List.append_cancel_left h⟩
      · cases (List.cons.inj h).1
      · cases (List.cons.inj h).1
      · exact ⟨rfl, List.append_cancel_left h⟩
    | word | cases | joint | group => cases shape
  | .joint j, q, hp, hq, er, er', h => by
    have shape := (shape?_chars hp r).symm.trans ((congrArg shape? h).trans (shape?_chars hq r'))
    cases q with
    | joint j' =>
      obtain ⟨rfl, rest⟩ := Joint.append_inj h
      exact ⟨rfl, rest⟩
    | word | cases | sign | group => cases shape
  | .group marked ps, q, hp, hq, er, er', h => by
    have shape := (shape?_chars hp r).symm.trans ((congrArg shape? h).trans (shape?_chars hq r'))
    cases q with
    | group marked' qs =>
      obtain ⟨rfl, inside⟩ := opening_inj hp hq h
      obtain ⟨rfl, rest⟩ := listChars_inj ps qs hp.2 hq.2 (stops_group r) (stops_group r') inside
      exact ⟨rfl, List.append_cancel_left rest⟩
    | word | cases | sign | joint => cases shape

/-- **Pieces are known from their characters**, and so is where the last one ends. -/
theorem listChars_inj {r r' : List Char} : (ps qs : List Piece) → ListLexed ps → ListLexed qs →
    Stops r → Stops r' → listChars ps ++ r = listChars qs ++ r' → ps = qs ∧ r = r'
  | [], [], _, _, _, _, h => ⟨rfl, h⟩
  | [], q :: qs, _, hq, hr, _, h => by
    rw [listChars_cons, List.append_assoc] at h
    have begun := (congrArg shape? h).trans (shape?_chars hq.1 _)
    cases hr.1.symm.trans begun
  | p :: ps, [], hp, _, _, hr', h => by
    rw [listChars_cons, List.append_assoc] at h
    have begun := (congrArg shape? h.symm).trans (shape?_chars hp.1 _)
    cases hr'.1.symm.trans begun
  | p :: ps, q :: qs, hp, hq, hr, hr', h => by
    rw [listChars_cons, listChars_cons, List.append_assoc, List.append_assoc] at h
    obtain ⟨rfl, rest⟩ := chars_inj p q hp.1 hq.1
      (fun word => ends_of_delimited (hp.2.1 word) hr.2)
      (fun word => ends_of_delimited (hq.2.1 word) hr'.2) h
    obtain ⟨same, stop⟩ := listChars_inj ps qs hp.2.2 hq.2.2 hr hr' rest
    exact ⟨congrArg (p :: ·) same, stop⟩

end

end Piece

end ColumnPlan
