import ColumnPlan.Proofs.Compile.Chain
import ColumnPlan.Proofs.Logical.Lexical

/-!
# Legible expressions

An expression is legible if its text shows how it is built.  Each word stands for one thing, a
bracket shows what is inside of it, and operators that are not in brackets bind as usual: a sign
before a product, a product before a sum, each from left to right.  Only chains have more than three
terms.

* `Expr.rank`                    how loosely the text of an expression holds together;
* `Expr.spread`, `Expr.factors`  the terms of a sum, and the factors of a product;
* `Expr.Stands V`                a word stands for the expression;
* `Expr.Legible V`, `Filter.Legible V`   legible expressions and filters;
* `atOperand_pieces`             a legible expression begins with an operand and ends with one;
* `pieces_spread`, `pieces_factors`   the pieces of sums and products are those of their parts;
* `within_spread`, `within_factors`   the parts are legible, and no larger;
* `lexed_pieces`                 legible expressions are cut into well-formed pieces.
-/

namespace ColumnPlan

/-! ### sums and products -/

def ArithmeticOp.isSum (op : ArithmeticOp) : Bool := op = .plus || op = .minus

namespace Expr

/-- An operand, a product or a sum. -/
def rank : Expr → Nat
  | .binary op _ _ => if op.isSum then 2 else 1
  | .chain _ _ => 2
  | _ => 0

/-- The first term of a sum and the other ones behind their operators.  A sign in front of the
chain is part of the first term. -/
def spread : Expr → Expr × List (ArithmeticOp × Expr)
  | .binary op left right =>
    if op.isSum then (left.spread.1, left.spread.2 ++ [(op, right)])
    else (.binary op left right, [])
  | .chain (term :: terms) (op :: ops) =>
    (if op = .minus then .unary .minus term else term, ops.zip terms)
  | e => (e, [])

/-- The first factor of a product and the other ones behind their operators. -/
def factors : Expr → Expr × List (ArithmeticOp × Expr)
  | .binary op left right =>
    if op.isSum then (.binary op left right, [])
    else (left.factors.1, left.factors.2 ++ [(op, right)])
  | e => (e, [])

/-- The expression without the chain around it that is written like it. -/
def bare : Expr → Expr
  | .chain [term] [.plus] => term
  | e => e

/-- An expression that is written as one word. -/
def IsAtom : Expr → Prop
  | .path _ | .key | .const _ | .bracket _ (some _) => True
  | _ => False

/-! ### legible expressions -/

section
variable (V : String → Option Expr)

/-- The text is one word, or a number below zero, and stands for this expression. -/
def Stands (e : Expr) : Prop := Piece.ListLexed e.pieces ∧ V e.text = some e

/-- The expression can be given a sign: it holds together, and the sign does not make another word
of it, such as a number below zero. -/
def Signable (op : ArithmeticOp) (e : Expr) : Prop :=
  (op = .plus ∨ op = .minus) ∧ e.rank = 0 ∧ (e.IsAtom → V (op.text ++ e.text) = none)

/-- The operands of an operator are no looser than it is, and on the right they hold together more
closely.  A sum has up to three terms. -/
def Nests (op : ArithmeticOp) (left right : Expr) : Prop :=
  if op.isSum then left.spread.2.length ≤ 1 ∧ right.rank ≤ 1 else left.rank ≤ 1 ∧ right.rank = 0

/-- The terms of a chain are products, and a minus in front is a sign. -/
def Chains (terms : List Expr) (ops : List ArithmeticOp) : Prop :=
  checkChain terms.length ops = .ok () ∧ (∀ term ∈ terms, term.rank ≤ 1) ∧
    ∀ term ∈ terms.head?, ops.head? = some .minus → term.Signable V .minus

end

end Expr

/-- Two operands that a filter compares as paths or as a path and a value. -/
def Filter.Simple : Expr → Expr → Prop
  | .path _, .path _ | .path _, .const _ | .key, .const _ => True
  | _, _ => False

section
variable (V : String → Option Expr)

mutual

/-- **Legible expressions.**  The words are read by `V`. -/
def Expr.Legible : Expr → Prop
  | .path pattern => (Expr.path pattern).Stands V
  | .key => Expr.key.Stands V
  | .const value => (Expr.const value).Stands V
  | .binary op left right => left.Legible ∧ right.Legible ∧ Expr.Nests op left right
  | .unary op operand => operand.Legible ∧ operand.Signable V op
  | .bracket inner none => inner.Legible
  | .bracket inner (some label) => (Expr.bracket inner (some label)).Stands V
  | .caseWhen conditions results otherwise =>
    Filter.ListLegible conditions ∧ Expr.ListLegible results ∧ Expr.OptionLegible otherwise
  | .call name args params _ =>
    isWord name.toList = true ∧ Expr.ListLegible args ∧ ∀ part ∈ params.pieces, Piece.ListLexed part
  | .chain terms ops => Expr.ListLegible terms ∧ Expr.Chains V terms ops

def Expr.ListLegible : List Expr → Prop
  | [] => True
  | e :: es => e.Legible ∧ Expr.ListLegible es

def Expr.OptionLegible : Option Expr → Prop
  | none => True
  | some e => e.Legible

/-- **Legible filters.**  Words that are compared with each other are not taken for operands. -/
def Filter.Legible : Filter → Prop
  | .value path _ value => (Expr.path path).Stands V ∧ (Expr.const value).Stands V
  | .path left _ right => (Expr.path left).Stands V ∧ (Expr.path right).Stands V
  | .key _ value => Expr.key.Stands V ∧ (Expr.const (.long value)).Stands V
  | .expr left _ right => left.Legible ∧ right.Legible ∧ ¬ Filter.Simple left.bare right.bare
  | .member path _ values =>
    (Expr.path path).Stands V ∧ ∀ v ∈ values, (Expr.const v).Stands V
  | .bool _ => True
  | .and children => Filter.ListLegible children
  | .or children => Filter.ListLegible children
  | .not child => child.Legible

def Filter.ListLegible : List Filter → Prop
  | [] => True
  | f :: fs => f.Legible ∧ Filter.ListLegible fs

end

end

variable {V : String → Option Expr}

theorem Expr.listLegible_iff {es : List Expr} :
    Expr.ListLegible V es ↔ ∀ e ∈ es, e.Legible V := by
  induction es with
  | nil => exact iff_of_true trivial fun _ h => absurd h List.not_mem_nil
  | cons e es ih => rw [Expr.ListLegible, ih, List.forall_mem_cons]

theorem Filter.listLegible_iff {fs : List Filter} :
    Filter.ListLegible V fs ↔ ∀ f ∈ fs, f.Legible V := by
  induction fs with
  | nil => exact iff_of_true trivial fun _ h => absurd h List.not_mem_nil
  | cons f fs ih => rw [Filter.ListLegible, ih, List.forall_mem_cons]

theorem Expr.listPieces_eq_map (es : List Expr) : Expr.listPieces es = es.map (·.pieces) := by
  induction es with
  | nil => rfl
  | cons e es ih => rw [Expr.listPieces, ih, List.map_cons]

theorem Filter.listPieces_eq_map (fs : List Filter) : Filter.listPieces fs = fs.map (·.pieces) := by
  induction fs with
  | nil => rfl
  | cons f fs ih => rw [Filter.listPieces, ih, List.map_cons]

/-- A chain that is accepted has a first term, and a plus or a minus for each term. -/
theorem exists_of_checkChain {terms : List Expr} {ops : List ArithmeticOp}
    (h : checkChain terms.length ops = .ok ()) :
    ∃ term rest op more, terms = term :: rest ∧ ops = op :: more ∧ more.length = rest.length ∧
      (op = .plus ∨ op = .minus) ∧ ∀ o ∈ more, o = .plus ∨ o = .minus := by
  obtain ⟨some, length, signs⟩ := checkChain_eq_ok_iff.mp h
  rcases terms with _ | ⟨term, rest⟩
  · exact absurd rfl some
  · rcases ops with _ | ⟨op, more⟩
    · cases length
    · rw [List.forall_mem_cons] at signs
      exact ⟨term, rest, op, more, rfl, rfl, (Nat.succ.inj length).symm, signs⟩

/-! ### pieces are well formed -/

namespace Piece

theorem Delimited.append {ps qs : List Piece} (hp : Delimited ps) (hq : Delimited qs) :
    Delimited (ps ++ qs) := by
  cases ps with
  | nil => exact hq
  | cons p ps => cases p <;> exact hp

theorem ListLexed.append {ps qs : List Piece} (hp : ListLexed ps) (hq : ListLexed qs)
    (delimited : Delimited qs) : ListLexed (ps ++ qs) := by
  induction ps with
  | nil => exact hq
  | cons p ps ih => exact ⟨hp.1, fun word => (hp.2.1 word).append delimited, ih hp.2.2⟩

theorem ListLexed.jointed {ps qs : List Piece} (hp : ListLexed ps) (j : Joint)
    (hq : ListLexed qs) : ListLexed (ps ++ .joint j :: qs) :=
  hp.append ⟨trivial, nofun, hq⟩ trivial

/-- A part behind a joint. -/
def Attached (part : Piece × List Piece) : Prop := (∃ j, part.1 = .joint j) ∧ ListLexed part.2

theorem listLexed_flatMap {rest : List (Piece × List Piece)} (h : ∀ part ∈ rest, Attached part) :
    ListLexed (rest.flatMap fun part => part.1 :: part.2) ∧
      Delimited (rest.flatMap fun part => part.1 :: part.2) := by
  induction rest with
  | nil => exact ⟨trivial, trivial⟩
  | cons part rest ih =>
    obtain ⟨⟨⟨j, hj⟩, inner⟩, others⟩ := List.forall_mem_cons.mp h
    obtain ⟨lexed, delimited⟩ := ih others
    rw [List.flatMap_cons, hj]
    exact ⟨⟨trivial, nofun, inner.append lexed delimited⟩, trivial⟩

theorem listLexed_joined {first : List Piece} {rest : List (Piece × List Piece)}
    (hf : ListLexed first) (hr : ∀ part ∈ rest, Attached part) : ListLexed (joined first rest) :=
  hf.append (listLexed_flatMap hr).1 (listLexed_flatMap hr).2

theorem listLexed_separated {j : Joint} {parts : List (List Piece)}
    (h : ∀ part ∈ parts, ListLexed part) : ListLexed (separated (.joint j) parts) := by
  cases parts with
  | nil => trivial
  | cons first rest =>
    obtain ⟨hf, hr⟩ := List.forall_mem_cons.mp h
    refine listLexed_joined hf fun part hp => ?_
    obtain ⟨inner, hi, rfl⟩ := List.mem_map.mp hp
    exact ⟨⟨j, rfl⟩, hr inner hi⟩

end Piece

open Piece

/-! ### operands stand where they are expected -/

theorem atOperand_value (v : Value) {rest : List Piece} (h : AtOperator rest) :
    AtOperand (v.pieces ++ rest) := by
  unfold Value.pieces
  split
  · exact h
  · exact h

mutual

/-- What can follow an operand can follow an expression. -/
theorem Expr.atOperand_pieces : (e : Expr) → e.Legible V → (rest : List Piece) →
    AtOperator rest → AtOperand (e.pieces ++ rest)
  | .path _, _, _, h | .key, _, _, h | .bracket _ none, _, _, h | .bracket _ (some _), _, _, h
  | .caseWhen _ _ _, _, _, h | .call _ _ _ _, _, _, h => h
  | .const value, _, _, h => atOperand_value value h
  | .binary op left right, legible, rest, h => by
    rw [Expr.pieces, List.append_assoc]
    exact left.atOperand_pieces legible.1 _ (right.atOperand_pieces legible.2.1 rest h)
  | .unary _ operand, legible, rest, h => operand.atOperand_pieces legible.1 rest h
  | .chain [] _, legible, _, _ => absurd rfl (checkChain_eq_ok_iff.mp legible.2.1).1
  | .chain (term :: terms) ops, legible, rest, h => by
    have behind := Expr.atOperator_chainPieces terms legible.1.2 ops.tail rest h
    have first := term.atOperand_pieces legible.1.1 _ behind
    rw [Expr.pieces, List.append_assoc, List.append_assoc]
    split
    · exact first
    · exact first

theorem Expr.atOperator_chainPieces : (es : List Expr) → Expr.ListLegible V es →
    (ops : List ArithmeticOp) → (rest : List Piece) → AtOperator rest →
      AtOperator (chainPieces (Expr.listPieces es) ops ++ rest)
  | [], _, _, _, h => h
  | e :: es, legible, ops, rest, h => by
    rw [Expr.listPieces, chainPieces, List.cons_append, List.append_assoc]
    exact e.atOperand_pieces legible.1 _
      (Expr.atOperator_chainPieces es legible.2 ops.tail rest h)

end

theorem atOperator_flatMap {parts : List (List Piece)}
    (h : ∀ part ∈ parts, ∀ rest, AtOperator rest → AtOperand (part ++ rest)) :
    AtOperator ((parts.map (Piece.joint .comma, ·)).flatMap fun part => part.1 :: part.2) := by
  induction parts with
  | nil => trivial
  | cons part parts ih =>
    obtain ⟨first, others⟩ := List.forall_mem_cons.mp h
    rw [List.map_cons, List.flatMap_cons]
    exact first _ (ih others)

/-- The brackets of a call are empty, or begin with an operand. -/
theorem atOperand_arguments {args : List Expr} (h : Expr.ListLegible V args) (params : Params) :
    argumentPieces (Expr.listPieces args) params = [] ∨
      AtOperand (argumentPieces (Expr.listPieces args) params) := by
  have parts : ∀ part ∈ Expr.listPieces args ++ params.pieces,
      ∀ rest, AtOperator rest → AtOperand (part ++ rest) := by
    rw [Expr.listPieces_eq_map]
    unfold Params.pieces
    refine List.forall_mem_append.mpr ⟨fun part hp rest => ?_, List.forall_mem_append.mpr
      ⟨fun part hp rest => ?_, fun part hp rest => ?_⟩⟩
    · obtain ⟨e, he, rfl⟩ := List.mem_map.mp hp
      exact e.atOperand_pieces (Expr.listLegible_iff.mp h e he) rest
    · obtain ⟨v, -, rfl⟩ := List.mem_map.mp hp
      exact atOperand_value v
    · obtain ⟨entry, -, rfl⟩ := List.mem_map.mp hp
      exact id
  unfold argumentPieces
  cases hl : Expr.listPieces args ++ params.pieces with
  | nil => exact .inl rfl
  | cons first rest =>
    rw [hl, List.forall_mem_cons] at parts
    exact .inr (parts.1 _ (atOperator_flatMap parts.2))

/-- An operand behind its operator. -/
def operandPieces (operand : ArithmeticOp × Expr) : Piece × List Piece :=
  (.joint (.arith operand.1), operand.2.pieces)

theorem joined_append {α : Type} (first : List α) (rest : List (α × List α)) (part : α × List α) :
    joined first (rest ++ [part]) = joined first rest ++ part.1 :: part.2 := by
  unfold joined
  rw [List.flatMap_append, List.flatMap_singleton, List.append_assoc]

theorem chainPieces_eq {terms : List Expr} {ops : List ArithmeticOp}
    (h : ops.length = terms.length) :
    chainPieces (Expr.listPieces terms) ops = joined [] ((ops.zip terms).map operandPieces) := by
  induction terms generalizing ops with
  | nil =>
    cases List.eq_nil_of_length_eq_zero h
    rfl
  | cons term terms ih =>
    rcases ops with _ | ⟨op, ops⟩
    · cases h
    · have rest := ih (Nat.succ.inj h)
      rw [Expr.listPieces, chainPieces, List.tail_cons, rest, List.zip_cons_cons, List.map_cons,
        joined_cons]
      rfl

/-- **The text of a sum is that of its terms**, with operators between them. -/
theorem pieces_spread : (e : Expr) → e.Legible V →
    e.pieces = joined e.spread.1.pieces (e.spread.2.map operandPieces)
  | .binary op left right, h => by
    have same := pieces_spread left h.1
    unfold Expr.spread
    split
    · rw [List.map_append, List.map_singleton, joined_append, ← same]
      rfl
    · exact (List.append_nil _).symm
  | .chain terms ops, h => by
    obtain ⟨-, checked, -⟩ := h
    obtain ⟨term, rest, op, more, rfl, rfl, length, sign, -⟩ := exists_of_checkChain checked
    rw [Expr.spread, Expr.pieces, List.head?_cons, Option.getD_some, List.tail_cons,
      chainPieces_eq length]
    rcases sign with rfl | rfl
    · rfl
    · rfl
  | .path _, _ | .key, _ | .const _, _ | .unary _ _, _ | .bracket _ _, _ | .caseWhen _ _ _, _
  | .call _ _ _ _, _ => (List.append_nil _).symm

/-- **The text of a product is that of its factors**, with operators between them. -/
theorem pieces_factors : (e : Expr) →
    e.pieces = joined e.factors.1.pieces (e.factors.2.map operandPieces)
  | .binary op left right => by
    have same := pieces_factors left
    unfold Expr.factors
    split
    · exact (List.append_nil _).symm
    · rw [List.map_append, List.map_singleton, joined_append, ← same]
      rfl
  | .path _ | .key | .const _ | .unary _ _ | .bracket _ _ | .caseWhen _ _ _ | .call _ _ _ _
  | .chain _ _ => (List.append_nil _).symm

/-! ### the parts of an expression -/

/-- A part of a legible expression, of some rank at most. -/
structure Expr.Within (V : String → Option Expr) (e : Expr) (rank : Nat) (part : Expr) : Prop where
  legible : part.Legible V
  rank_le : part.rank ≤ rank
  size_le : part.size ≤ e.size

theorem Expr.Within.trans {e part inner : Expr} {rank wide : Nat} (h : e.Within V wide part)
    (hi : part.Within V rank inner) : e.Within V rank inner :=
  ⟨hi.legible, hi.rank_le, hi.size_le.trans h.size_le⟩

theorem Expr.rank_le (e : Expr) : e.rank ≤ 2 := by
  cases e with
  | binary op left right =>
    simp only [Expr.rank]
    split
    · exact Nat.le_refl 2
    · exact Nat.le_succ 1
  | chain terms ops => exact Nat.le_refl 2
  | path | key | const | unary | bracket | caseWhen | call => exact Nat.zero_le 2

theorem Expr.size_le_listSize {e : Expr} {es : List Expr} (h : e ∈ es) :
    e.size ≤ Expr.listSize es := by
  induction h with
  | head es =>
    rw [Expr.listSize]
    omega
  | tail first _ ih =>
    rw [Expr.listSize]
    omega

/-- The terms of a sum are products. -/
theorem within_spread : (e : Expr) → e.Legible V →
    e.Within V 1 e.spread.1 ∧ ∀ t ∈ e.spread.2, t.1.isSum = true ∧ e.Within V 1 t.2
  | .binary op left right, h => by
    have ⟨hl, hr, nests⟩ := h
    unfold Expr.Nests at nests
    unfold Expr.spread
    split
    · next sum =>
      rw [if_pos sum] at nests
      obtain ⟨first, rest⟩ := within_spread left hl
      have inLeft : (Expr.binary op left right).Within V 2 left :=
        ⟨hl, left.rank_le, by rw [Expr.size]; omega⟩
      refine ⟨inLeft.trans first, fun t ht => ?_⟩
      rcases List.mem_append.mp ht with ht | ht
      · exact ⟨(rest t ht).1, inLeft.trans (rest t ht).2⟩
      · rw [List.mem_singleton.mp ht]
        exact ⟨sum, hr, nests.2, Nat.le_add_left _ _⟩
    · next product =>
      refine ⟨⟨h, ?_, Nat.le_refl _⟩, fun t ht => absurd ht List.not_mem_nil⟩
      rw [Expr.rank, if_neg product]
  | .chain terms ops, h => by
    obtain ⟨each, checked, products, signable⟩ := h
    obtain ⟨term, rest, op, more, rfl, rfl, -, sign, signs⟩ := exists_of_checkChain checked
    rw [Expr.listLegible_iff] at each
    have small : ∀ t ∈ term :: rest, 1 + t.size ≤ (Expr.chain (term :: rest) (op :: more)).size := by
      intro t ht
      have := Expr.size_le_listSize ht
      rw [Expr.size]
      omega
    refine ⟨?_, fun t ht => ?_⟩
    · rw [Expr.spread]
      split
      · next minus =>
        exact ⟨⟨each term List.mem_cons_self, signable term rfl (congrArg some minus)⟩,
          Nat.zero_le 1, small term List.mem_cons_self⟩
      · exact ⟨each term List.mem_cons_self, products term List.mem_cons_self,
          (Nat.le_add_left _ 1).trans (small term List.mem_cons_self)⟩
    · obtain ⟨ho, ht⟩ := List.of_mem_zip ht
      have member := List.mem_cons_of_mem term ht
      refine ⟨?_, each _ member, products _ member, (Nat.le_add_left _ 1).trans (small _ member)⟩
      rcases signs _ ho with plus | minus
      · rw [plus]
        rfl
      · rw [minus]
        rfl
  | .path _, h | .key, h | .const _, h | .unary _ _, h | .bracket _ _, h | .caseWhen _ _ _, h
  | .call _ _ _ _, h =>
    ⟨⟨h, Nat.zero_le 1, Nat.le_refl _⟩, fun _ ht => absurd ht List.not_mem_nil⟩

/-- The factors of a product hold together. -/
theorem within_factors : (e : Expr) → e.Legible V → e.rank ≤ 1 →
    e.Within V 0 e.factors.1 ∧ ∀ t ∈ e.factors.2, t.1.isSum = false ∧ e.Within V 0 t.2
  | .binary op left right, h, narrow => by
    obtain ⟨hl, hr, nests⟩ := h
    unfold Expr.Nests at nests
    unfold Expr.factors
    split
    · next sum =>
      rw [Expr.rank, if_pos sum] at narrow
      omega
    · next product =>
      rw [if_neg product] at nests
      obtain ⟨first, rest⟩ := within_factors left hl nests.1
      have inLeft : (Expr.binary op left right).Within V 1 left :=
        ⟨hl, nests.1, by rw [Expr.size]; omega⟩
      refine ⟨inLeft.trans first, fun t ht => ?_⟩
      rcases List.mem_append.mp ht with ht | ht
      · exact ⟨(rest t ht).1, inLeft.trans (rest t ht).2⟩
      · rw [List.mem_singleton.mp ht]
        exact ⟨Bool.eq_false_iff.mpr product, hr, nests.2.le, Nat.le_add_left _ _⟩
  | .chain terms ops, _, narrow => by
    rw [Expr.rank] at narrow
    omega
  | .path _, h, _ | .key, h, _ | .const _, h, _ | .unary _ _, h, _ | .bracket _ _, h, _
  | .caseWhen _ _ _, h, _ | .call _ _ _ _, h, _ =>
    ⟨⟨h, Nat.le_refl 0, Nat.le_refl _⟩, fun _ ht => absurd ht List.not_mem_nil⟩

/-! ### what is legible is cut into well-formed pieces -/

theorem attached_branchPieces {cs rs : List (List Piece)} (hc : ∀ part ∈ cs, ListLexed part)
    (hr : ∀ part ∈ rs, ListLexed part) : ∀ part ∈ branchPieces cs rs, Attached part := by
  induction cs generalizing rs with
  | nil => exact fun _ h => absurd h List.not_mem_nil
  | cons c cs ih =>
    cases rs with
    | nil => exact fun _ h => absurd h List.not_mem_nil
    | cons r rs =>
      rw [List.forall_mem_cons] at hc hr
      exact List.forall_mem_cons.mpr ⟨⟨⟨_, rfl⟩, hc.1⟩,
        List.forall_mem_cons.mpr ⟨⟨⟨_, rfl⟩, hr.1⟩, ih hc.2 hr.2⟩⟩

theorem lexed_connectivePieces (k : Connective) {parts : List (List Piece)}
    (h : ∀ part ∈ parts, ListLexed part) : ListLexed (connectivePieces k parts) := by
  cases parts with
  | nil => cases k <;> exact ⟨rfl, fun _ => trivial, trivial⟩
  | cons first rest => exact ⟨⟨nofun, listLexed_separated h⟩, nofun, trivial⟩

mutual

/-- **A legible expression is cut into well-formed pieces.** -/
theorem Expr.lexed_pieces : (e : Expr) → e.Legible V → ListLexed e.pieces
  | .path _, h | .key, h | .const _, h | .bracket _ (some _), h => h.1
  | .binary op left right, h =>
    (left.lexed_pieces h.1).jointed (.arith op) (right.lexed_pieces h.2.1)
  | .unary _ operand, h => ⟨h.2.1, nofun, operand.lexed_pieces h.1⟩
  | .bracket inner none, h => ⟨⟨nofun, inner.lexed_pieces h⟩, nofun, trivial⟩
  | .caseWhen conditions results otherwise, h => by
    have branches := attached_branchPieces (Filter.lexed_listPieces conditions h.1)
      (Expr.lexed_listPieces results h.2.1)
    have attached := List.forall_mem_append.mpr
      ⟨branches, Expr.attached_optionPieces otherwise h.2.2⟩
    exact ⟨⟨(listLexed_flatMap attached).2, (listLexed_flatMap attached).1⟩, nofun, trivial⟩
  | .call name args params once, h => by
    have parts : ∀ part ∈ Expr.listPieces args ++ params.pieces, ListLexed part :=
      List.forall_mem_append.mpr ⟨Expr.lexed_listPieces args h.2.1, h.2.2⟩
    have operand := atOperand_arguments h.2.1 params
    exact ⟨h.1, fun _ => trivial, ⟨fun _ => operand, listLexed_separated parts⟩, nofun, trivial⟩
  | .chain terms ops, h => by
    have whole := pieces_spread _ h
    obtain ⟨each, checked, -, signable⟩ := h
    have lexed := Expr.lexed_listPieces terms each
    obtain ⟨term, rest, op, more, rfl, rfl, -, -, -⟩ := exists_of_checkChain checked
    rw [Expr.listPieces, List.forall_mem_cons, Expr.listPieces_eq_map] at lexed
    rw [whole]
    refine listLexed_joined ?_ fun part hp => ?_
    · rw [Expr.spread]
      split
      · next minus => exact ⟨.inr rfl, nofun, lexed.1⟩
      · exact lexed.1
    · obtain ⟨⟨o, t⟩, ht, rfl⟩ := List.mem_map.mp hp
      exact ⟨⟨_, rfl⟩, lexed.2 _ (List.mem_map_of_mem (List.of_mem_zip ht).2)⟩

theorem Expr.lexed_listPieces : (es : List Expr) → Expr.ListLegible V es →
    ∀ part ∈ Expr.listPieces es, ListLexed part
  | [], _ => fun _ h => absurd h List.not_mem_nil
  | e :: es, h => List.forall_mem_cons.mpr ⟨e.lexed_pieces h.1, Expr.lexed_listPieces es h.2⟩

theorem Expr.attached_optionPieces : (otherwise : Option Expr) → Expr.OptionLegible V otherwise →
    ∀ part ∈ Expr.optionPieces otherwise, Attached part
  | none, _ => fun _ h => absurd h List.not_mem_nil
  | some e, h => List.forall_mem_singleton.mpr ⟨⟨_, rfl⟩, e.lexed_pieces h⟩

theorem Filter.lexed_pieces : (f : Filter) → f.Legible V → ListLexed f.pieces
  | .value _ op _, h | .path _ op _, h | .key op _, h =>
    (ListLexed.jointed h.1.1 (.compare op) h.2.1 :)
  | .expr left op right, h =>
    (left.lexed_pieces h.1).jointed (.compare op) (right.lexed_pieces h.2.1)
  | .member path op values, h => by
    have inside : ∀ part ∈ values.map (·.pieces), ListLexed part := by
      intro part hp
      obtain ⟨v, hv, rfl⟩ := List.mem_map.mp hp
      exact (h.2 v hv).1
    have group : ListLexed [.group false (separated (.joint .comma) (values.map (·.pieces)))] :=
      ⟨⟨nofun, listLexed_separated inside⟩, nofun, trivial⟩
    have whole := ListLexed.jointed h.1.1 (.member op) group
    exact whole
  | .bool value, _ => by cases value <;> exact ⟨rfl, fun _ => trivial, trivial⟩
  | .and children, h => lexed_connectivePieces .conjunction (Filter.lexed_listPieces children h)
  | .or children, h => lexed_connectivePieces .disjunction (Filter.lexed_listPieces children h)
  | .not child, h => ⟨rfl, fun _ => trivial, ⟨nofun, child.lexed_pieces h⟩, nofun, trivial⟩

theorem Filter.lexed_listPieces : (fs : List Filter) → Filter.ListLegible V fs →
    ∀ part ∈ Filter.listPieces fs, ListLexed part
  | [], _ => fun _ h => absurd h List.not_mem_nil
  | f :: fs, h => List.forall_mem_cons.mpr ⟨f.lexed_pieces h.1, Filter.lexed_listPieces fs h.2⟩

end

end ColumnPlan
