import ColumnPlan.Proofs.Logical.Legible

/-!
# Parts are known from their joints

A joint inside of an operand binds more closely than the joint next to the operand, and what stands
in brackets does not count.  So the pieces of an expression can be cut into those of its parts.

* `Joint.rank`, `Piece.rank`     how loosely a joint holds its sides together;
* `rank_pieces_le`               the joints in an expression are no looser than it is;
* `Cut P`                        the pieces are cut where `P` holds;
* `joined_inj`, `separated_inj`  then the parts are known;
* `spread_inj`, `factors_inj`    the parts of sums and products;
* `argumentPieces_inj`, `branchPieces_inj`   those of calls and of case expressions.
-/

namespace ColumnPlan

open Piece

variable {V : String → Option Expr}

/-! ### joints -/

/-- How loosely a joint holds its sides together. -/
def Joint.rank : Joint → Nat
  | .arith op => if op.isSum then 2 else 1
  | .compare _ | .member _ => 3
  | .connective _ => 4
  | .condition | .result | .otherwise => 5
  | .comma => 6

def Piece.rank : Piece → Nat
  | .joint j => j.rank
  | _ => 0

theorem forall_mem_joined {α : Type} {P : α → Prop} {first : List α} {rest : List (α × List α)} :
    (∀ a ∈ joined first rest, P a) ↔
      (∀ a ∈ first, P a) ∧ ∀ part ∈ rest, P part.1 ∧ ∀ a ∈ part.2, P a := by
  unfold joined
  rw [List.forall_mem_append, List.forall_mem_flatMap]
  simp only [List.forall_mem_cons]

theorem rank_value_pieces (v : Value) : ∀ p ∈ v.pieces, p.rank = 0 := by
  unfold Value.pieces
  split
  · rintro p (_ | ⟨_, _ | ⟨_, ⟨⟩⟩⟩) <;> rfl
  · rintro p (_ | ⟨_, ⟨⟩⟩)
    rfl

theorem rank_arith (op : ArithmeticOp) :
    (Piece.joint (.arith op)).rank = if op.isSum then 2 else 1 := rfl

-- The joints inside of brackets are not among the pieces, so nothing below a bracket is looked at.
mutual

/-- **No joint in the text of an expression is looser than the expression.** -/
theorem rank_pieces_le : (e : Expr) → e.Legible V → ∀ p ∈ e.pieces, p.rank ≤ e.rank
  | .binary op left right, h => by
    obtain ⟨hl, hr, nests⟩ := h
    have inLeft := rank_pieces_le left hl
    have inRight := rank_pieces_le right hr
    have wide := left.rank_le
    unfold Expr.Nests at nests
    rw [Expr.pieces, List.forall_mem_append, List.forall_mem_cons, rank_arith, Expr.rank]
    split at nests
    · next sum =>
      rw [if_pos sum]
      exact ⟨fun p hp => (inLeft p hp).trans wide, Nat.le_refl 2, fun p hp => by
        have := inRight p hp
        omega⟩
    · next product =>
      rw [if_neg product]
      exact ⟨fun p hp => (inLeft p hp).trans nests.1, Nat.le_refl 1, fun p hp => by
        have := inRight p hp
        omega⟩
  | .chain terms ops, h => by
    have whole := pieces_spread _ h
    obtain ⟨each, checked, products, -⟩ := h
    obtain ⟨term, rest, op, more, rfl, rfl, -, -, signs⟩ := exists_of_checkChain checked
    have inTerms := rank_listPieces_le (term :: rest) each
    have inTerm : ∀ t ∈ term :: rest, ∀ p ∈ t.pieces, p.rank ≤ 2 := fun t ht p hp =>
      ((inTerms t ht p hp).trans (products t ht)).trans (Nat.le_succ 1)
    rw [whole, forall_mem_joined, Expr.rank]
    refine ⟨fun p hp => ?_, fun part hpart => ?_⟩
    · unfold Expr.spread at hp
      split at hp
      · rcases List.mem_cons.mp hp with rfl | hp
        · exact Nat.zero_le 2
        · exact inTerm term List.mem_cons_self p hp
      · exact inTerm term List.mem_cons_self p hp
    · obtain ⟨⟨o, t⟩, ht, rfl⟩ := List.mem_map.mp hpart
      obtain ⟨-, ht⟩ := List.of_mem_zip ht
      refine ⟨?_, inTerm t (List.mem_cons_of_mem term ht)⟩
      show (Piece.joint (.arith o)).rank ≤ 2
      rw [rank_arith]
      split <;> omega
  | .unary op operand, h => by
    have inside := rank_pieces_le operand h.1
    rw [h.2.2.1] at inside
    exact List.forall_mem_cons.mpr ⟨Nat.le_refl 0, inside⟩
  | .path _, _ | .key, _ | .bracket _ none, _ | .bracket _ (some _), _ | .caseWhen _ _ _, _ =>
    List.forall_mem_singleton.mpr (Nat.le_refl 0)
  | .const v, _ => fun p hp => (rank_value_pieces v p hp).le
  | .call _ _ _ _, _ =>
    List.forall_mem_cons.mpr ⟨Nat.le_refl 0, List.forall_mem_singleton.mpr (Nat.le_refl 0)⟩

theorem rank_listPieces_le : (es : List Expr) → Expr.ListLegible V es →
    ∀ e ∈ es, ∀ p ∈ e.pieces, p.rank ≤ e.rank
  | [], _ => fun _ h => absurd h List.not_mem_nil
  | e :: es, h =>
    List.forall_mem_cons.mpr ⟨rank_pieces_le e h.1, rank_listPieces_le es h.2⟩

end


theorem rank_word_le (w : List Char) {n : Nat} : ∀ p ∈ [word w], p.rank ≤ n :=
  List.forall_mem_singleton.mpr (Nat.zero_le n)

/-- No joint in the text of a filter is looser than a comparison. -/
theorem rank_filter_le (f : Filter) (h : f.Legible V) : ∀ p ∈ f.pieces, p.rank ≤ 3 := by
  have comparison {left right : List Piece} (op : CompareOp) (hl : ∀ p ∈ left, p.rank ≤ 2)
      (hr : ∀ p ∈ right, p.rank ≤ 2) : ∀ p ∈ left ++ joint (.compare op) :: right, p.rank ≤ 3 :=
    List.forall_mem_append.mpr ⟨fun p hp => (hl p hp).trans (Nat.le_succ 2),
      List.forall_mem_cons.mpr ⟨Nat.le_refl 3, fun p hp => (hr p hp).trans (Nat.le_succ 2)⟩⟩
  have closed (k : Connective) (parts : List (List Piece)) :
      ∀ p ∈ connectivePieces k parts, p.rank ≤ 3 := by
    cases parts with
    | nil => exact rank_word_le _
    | cons first rest => exact List.forall_mem_singleton.mpr (Nat.zero_le 3)
  have value (v : Value) : ∀ p ∈ v.pieces, p.rank ≤ 2 := fun p hp =>
    (rank_value_pieces v p hp).le.trans (Nat.zero_le 2)
  cases f with
  | value path op v => exact comparison op (rank_word_le _) (value v)
  | path left op right => exact comparison op (rank_word_le _) (rank_word_le _)
  | key op n => exact comparison op (rank_word_le _) (value _)
  | expr left op right =>
    exact comparison op (fun p hp => (rank_pieces_le left h.1 p hp).trans left.rank_le)
      fun p hp => (rank_pieces_le right h.2.1 p hp).trans right.rank_le
  | member path op values =>
    exact List.forall_mem_cons.mpr ⟨Nat.zero_le 3, List.forall_mem_cons.mpr
      ⟨Nat.le_refl 3, List.forall_mem_singleton.mpr (Nat.zero_le 3)⟩⟩
  | bool b => exact rank_word_le _
  | and children => exact closed .conjunction _
  | or children => exact closed .disjunction _
  | not child =>
    exact List.forall_mem_cons.mpr
      ⟨Nat.zero_le 3, List.forall_mem_singleton.mpr (Nat.zero_le 3)⟩

/-! ### cuts -/

section
variable {α : Type} {P : α → Prop}

/-- The first place where `P` holds. -/
theorem append_cons_inj {l l' r r' : List α} {a a' : α} (hl : ∀ x ∈ l, ¬ P x)
    (hl' : ∀ x ∈ l', ¬ P x) (ha : P a) (ha' : P a') (h : l ++ a :: r = l' ++ a' :: r') :
    l = l' ∧ a = a' ∧ r = r' := by
  induction l generalizing l' with
  | nil =>
    cases l' with
    | nil => exact ⟨rfl, List.cons.inj h⟩
    | cons b l' =>
      obtain ⟨rfl, -⟩ := List.cons.inj h
      exact absurd ha (hl' a List.mem_cons_self)
  | cons b l ih =>
    cases l' with
    | nil =>
      obtain ⟨rfl, -⟩ := List.cons.inj h
      exact absurd ha' (hl b List.mem_cons_self)
    | cons b' l' =>
      obtain ⟨rfl, rest⟩ := List.cons.inj h
      obtain ⟨rfl, same⟩ := ih (fun x hx => hl x (List.mem_cons_of_mem b hx))
        (fun x hx => hl' x (List.mem_cons_of_mem b hx)) rest
      exact ⟨rfl, same⟩

/-- `P` holds of what stands between the parts, and nowhere inside of them. -/
structure Cut (P : α → Prop) (first : List α) (rest : List (α × List α)) : Prop where
  first : ∀ a ∈ first, ¬ P a
  rest : ∀ part ∈ rest, P part.1 ∧ ∀ a ∈ part.2, ¬ P a

theorem Cut.tail {first : List α} {part : α × List α} {rest : List (α × List α)}
    (h : Cut P first (part :: rest)) : P part.1 ∧ Cut P part.2 rest :=
  have ⟨head, others⟩ := List.forall_mem_cons.mp h.rest
  ⟨head.1, head.2, others⟩

/-- **Parts are known where they are cut.** -/
theorem joined_inj {first first' : List α} {rest rest' : List (α × List α)}
    (h : Cut P first rest) (h' : Cut P first' rest') (same : joined first rest = joined first' rest') :
    first = first' ∧ rest = rest' := by
  have alone (l : List α) : joined l [] = l := List.append_nil l
  induction rest generalizing first first' rest' with
  | nil =>
    cases rest' with
    | nil =>
      rw [alone, alone] at same
      exact ⟨same, rfl⟩
    | cons part' rest' =>
      rw [alone, joined_cons] at same
      have inside : part'.1 ∈ first := by
        rw [same]
        exact List.mem_append_right _ List.mem_cons_self
      exact absurd h'.tail.1 (h.first _ inside)
  | cons part rest ih =>
    cases rest' with
    | nil =>
      rw [alone, joined_cons] at same
      have inside : part.1 ∈ first' := by
        rw [← same]
        exact List.mem_append_right _ List.mem_cons_self
      exact absurd h.tail.1 (h'.first _ inside)
    | cons part' rest' =>
      rw [joined_cons, joined_cons] at same
      obtain ⟨rfl, joints, behind⟩ := append_cons_inj h.first h'.first h.tail.1 h'.tail.1 same
      obtain ⟨parts, rfl⟩ := ih h.tail.2 h'.tail.2 behind
      exact ⟨rfl, congrArg (· :: rest) (Prod.ext joints parts)⟩

/-- Parts that are not empty are known, and so is what separates two of them. -/
theorem separated_inj {a a' : α} {parts parts' : List (List α)} (ha : P a) (ha' : P a')
    (h : ∀ part ∈ parts, part ≠ [] ∧ ∀ x ∈ part, ¬ P x)
    (h' : ∀ part ∈ parts', part ≠ [] ∧ ∀ x ∈ part, ¬ P x)
    (same : separated a parts = separated a' parts') :
    parts = parts' ∧ (a = a' ∨ parts.length ≤ 1) := by
  have cut {a : α} {first : List α} {rest : List (List α)} (ha : P a)
      (h : ∀ part ∈ first :: rest, part ≠ [] ∧ ∀ x ∈ part, ¬ P x) :
      Cut P first (rest.map (a, ·)) := by
    refine ⟨(h first List.mem_cons_self).2, fun part hp => ?_⟩
    obtain ⟨inner, hi, rfl⟩ := List.mem_map.mp hp
    exact ⟨ha, (h inner (List.mem_cons_of_mem first hi)).2⟩
  rcases parts with _ | ⟨first, rest⟩ <;> rcases parts' with _ | ⟨first', rest'⟩
  · exact ⟨rfl, .inr (Nat.zero_le 1)⟩
  · have empty := (List.append_eq_nil_iff.mp same.symm).1
    exact absurd empty (h' first' List.mem_cons_self).1
  · have empty := (List.append_eq_nil_iff.mp same).1
    exact absurd empty (h first List.mem_cons_self).1
  · obtain ⟨rfl, others⟩ := joined_inj (cut ha h) (cut ha' h') same
    rcases rest with _ | ⟨second, rest⟩
    · rw [List.map_nil, eq_comm, List.map_eq_nil_iff] at others
      rw [others]
      exact ⟨rfl, .inr (Nat.le_refl 1)⟩
    · rcases rest' with _ | ⟨second', rest'⟩
      · cases others
      · have sep : a = a' := congrArg Prod.fst (List.cons.inj others).1
        subst sep
        have inner := List.map_injective_iff.mpr (fun _ _ h => (Prod.mk.inj h).2) others
        exact ⟨congrArg (first :: ·) inner, .inl rfl⟩

end

/-! ### the parts of sums and products -/

theorem cut_operands {rank : Nat} {first : Expr} {rest : List (ArithmeticOp × Expr)}
    (hf : ∀ p ∈ first.pieces, p.rank < rank)
    (hr : ∀ t ∈ rest, (Piece.joint (.arith t.1)).rank = rank ∧ ∀ p ∈ t.2.pieces, p.rank < rank) :
    Cut (fun p : Piece => p.rank = rank) first.pieces (rest.map operandPieces) := by
  refine ⟨fun p hp => (hf p hp).ne, fun part hpart => ?_⟩
  obtain ⟨t, ht, rfl⟩ := List.mem_map.mp hpart
  exact ⟨(hr t ht).1, fun p hp => ((hr t ht).2 p hp).ne⟩

theorem Expr.Within.rank_lt {e part : Expr} {rank : Nat} (h : e.Within V rank part) :
    ∀ p ∈ part.pieces, p.rank < rank + 1 := fun p hp =>
  Nat.lt_succ_of_le ((rank_pieces_le part h.legible p hp).trans h.rank_le)

theorem cut_spread {e : Expr} (h : e.Legible V) :
    Cut (fun p : Piece => p.rank = 2) e.spread.1.pieces (e.spread.2.map operandPieces) := by
  obtain ⟨first, rest⟩ := within_spread e h
  refine cut_operands first.rank_lt fun t ht => ⟨?_, (rest t ht).2.rank_lt⟩
  rw [rank_arith, if_pos (rest t ht).1]

theorem cut_factors {e : Expr} (h : e.Legible V) (narrow : e.rank ≤ 1) :
    Cut (fun p : Piece => p.rank = 1) e.factors.1.pieces (e.factors.2.map operandPieces) := by
  obtain ⟨first, rest⟩ := within_factors e h narrow
  refine cut_operands first.rank_lt fun t ht => ⟨?_, (rest t ht).2.rank_lt⟩
  rw [rank_arith, if_neg (Bool.eq_false_iff.mp (rest t ht).1)]

theorem operandPieces_inj {t t' : ArithmeticOp × Expr} (h : operandPieces t = operandPieces t') :
    t.1 = t'.1 ∧ t.2.pieces = t'.2.pieces :=
  have ⟨joints, inner⟩ := Prod.mk.inj h
  ⟨Joint.arith.inj (Piece.joint.inj joints), inner⟩

theorem spread_inj {e e' : Expr} (h : e.Legible V) (h' : e'.Legible V) (same : e.pieces = e'.pieces) :
    e.spread.1.pieces = e'.spread.1.pieces ∧
      e.spread.2.map operandPieces = e'.spread.2.map operandPieces := by
  rw [pieces_spread e h, pieces_spread e' h'] at same
  exact joined_inj (cut_spread h) (cut_spread h') same

theorem factors_inj {e e' : Expr} (h : e.Legible V) (h' : e'.Legible V) (narrow : e.rank ≤ 1)
    (narrow' : e'.rank ≤ 1) (same : e.pieces = e'.pieces) :
    e.factors.1.pieces = e'.factors.1.pieces ∧
      e.factors.2.map operandPieces = e'.factors.2.map operandPieces := by
  rw [pieces_factors e, pieces_factors e'] at same
  exact joined_inj (cut_factors h narrow) (cut_factors h' narrow') same

/-! ### the parts of calls and case expressions -/

theorem value_pieces_ne_nil (v : Value) : v.pieces ≠ [] := by
  unfold Value.pieces
  split
  · exact List.cons_ne_nil _ _
  · exact List.cons_ne_nil _ _

theorem pieces_ne_nil : (e : Expr) → e.Legible V → e.pieces ≠ []
  | .binary _ _ _, _ => List.append_ne_nil_of_right_ne_nil _ (List.cons_ne_nil _ _)
  | .chain [] _, h => absurd rfl (checkChain_eq_ok_iff.mp h.2.1).1
  | .chain (term :: _) _, h =>
    List.append_ne_nil_of_left_ne_nil
      (List.append_ne_nil_of_right_ne_nil _ (pieces_ne_nil term h.1.1)) _
  | .const v, _ => value_pieces_ne_nil v
  | .path _, _ | .key, _ | .unary _ _, _ | .bracket _ none, _ | .bracket _ (some _), _
  | .caseWhen _ _ _, _ | .call _ _ _ _, _ => List.cons_ne_nil _ _
termination_by e => e.size
decreasing_by
  simp only [Expr.size, Expr.listSize]
  omega

theorem filter_pieces_ne_nil (f : Filter) : f.pieces ≠ [] := by
  have connective (k : Connective) (parts : List (List Piece)) : connectivePieces k parts ≠ [] := by
    cases parts with
    | nil => exact List.cons_ne_nil _ _
    | cons first rest => exact List.cons_ne_nil _ _
  cases f with
  | expr left op right => exact List.append_ne_nil_of_right_ne_nil _ (List.cons_ne_nil _ _)
  | and children => exact connective .conjunction _
  | or children => exact connective .disjunction _
  | value | path | key | member | bool | not => exact List.cons_ne_nil _ _

/-- The arguments of a call and the values behind them are no looser than a sum. -/
theorem argument_parts {args : List Expr} (h : Expr.ListLegible V args) (params : Params) :
    ∀ part ∈ Expr.listPieces args ++ params.pieces, part ≠ [] ∧ ∀ p ∈ part, p.rank ≤ 2 := by
  unfold Params.pieces
  rw [Expr.listPieces_eq_map]
  refine List.forall_mem_append.mpr ⟨fun part hp => ?_, List.forall_mem_append.mpr
    ⟨fun part hp => ?_, fun part hp => ?_⟩⟩
  · obtain ⟨e, he, rfl⟩ := List.mem_map.mp hp
    have legible := Expr.listLegible_iff.mp h e he
    exact ⟨pieces_ne_nil e legible, fun p hp => (rank_pieces_le e legible p hp).trans e.rank_le⟩
  · obtain ⟨v, -, rfl⟩ := List.mem_map.mp hp
    exact ⟨value_pieces_ne_nil v, fun p hp => (rank_value_pieces v p hp).le.trans (Nat.zero_le 2)⟩
  · obtain ⟨entry, -, rfl⟩ := List.mem_map.mp hp
    exact ⟨List.cons_ne_nil _ _, rank_word_le _⟩

/-- The arguments of a call are known. -/
theorem argumentPieces_inj {args args' : List Expr} {params params' : Params}
    (h : Expr.ListLegible V args) (h' : Expr.ListLegible V args')
    (same : argumentPieces (Expr.listPieces args) params =
      argumentPieces (Expr.listPieces args') params') :
    Expr.listPieces args ++ params.pieces = Expr.listPieces args' ++ params'.pieces := by
  have tight {args : List Expr} (h : Expr.ListLegible V args) (params : Params) :
      ∀ part ∈ Expr.listPieces args ++ params.pieces, part ≠ [] ∧ ∀ p ∈ part, ¬ p.rank = 6 :=
    fun part hp => ⟨(argument_parts h params part hp).1, fun p hm => by
      have := (argument_parts h params part hp).2 p hm
      omega⟩
  exact (separated_inj (P := fun p : Piece => p.rank = 6) rfl rfl (tight h params) (tight h' params')
    same).1

/-- If each condition has its result, the branches are known, and the last result is. -/
theorem branchPieces_inj {cs rs cs' rs' : List (List Piece)} {otherwise otherwise' : Option Expr}
    (h : cs.length = rs.length) (h' : cs'.length = rs'.length)
    (same : branchPieces cs rs ++ Expr.optionPieces otherwise =
      branchPieces cs' rs' ++ Expr.optionPieces otherwise') :
    cs = cs' ∧ rs = rs' ∧ Expr.optionPieces otherwise = Expr.optionPieces otherwise' := by
  -- a last result is no branch
  have apart {otherwise : Option Expr} {c : List Piece} {rest : List (Piece × List Piece)} :
      Expr.optionPieces otherwise ≠ (.joint .condition, c) :: rest := by
    cases otherwise with
    | none => exact (List.cons_ne_nil _ _).symm
    | some e =>
      intro same
      cases (Prod.mk.inj (List.cons.inj same).1).1
  induction cs generalizing rs cs' rs' with
  | nil =>
    cases List.eq_nil_of_length_eq_zero h.symm
    cases cs' with
    | nil =>
      cases List.eq_nil_of_length_eq_zero h'.symm
      exact ⟨rfl, rfl, same⟩
    | cons c' cs' =>
      obtain ⟨r', rs', rfl⟩ := List.exists_cons_of_length_eq_add_one h'.symm
      exact absurd same apart
  | cons c cs ih =>
    obtain ⟨r, rs, rfl⟩ := List.exists_cons_of_length_eq_add_one h.symm
    cases cs' with
    | nil =>
      cases List.eq_nil_of_length_eq_zero h'.symm
      exact absurd same.symm apart
    | cons c' cs' =>
      obtain ⟨r', rs', rfl⟩ := List.exists_cons_of_length_eq_add_one h'.symm
      obtain ⟨condition, behind⟩ := List.cons.inj same
      obtain ⟨result, rest⟩ := List.cons.inj behind
      obtain ⟨rfl, rfl, last⟩ := ih (Nat.succ.inj h) (Nat.succ.inj h') rest
      rw [(Prod.mk.inj condition).2, (Prod.mk.inj result).2]
      exact ⟨rfl, rfl, last⟩

/-- The parts of a case expression. -/
theorem cut_cases {conditions : List Filter} {results : List Expr} {otherwise : Option Expr}
    (hc : Filter.ListLegible V conditions) (hr : Expr.ListLegible V results)
    (ho : Expr.OptionLegible V otherwise) :
    Cut (fun p : Piece => p.rank = 5) []
      (branchPieces (Filter.listPieces conditions) (Expr.listPieces results) ++
        Expr.optionPieces otherwise) := by
  have expression {e : Expr} (h : e.Legible V) : ∀ p ∈ e.pieces, ¬ p.rank = 5 := fun p hp => by
    have := rank_pieces_le e h p hp
    have := e.rank_le
    omega
  have condition {f : Filter} (h : f.Legible V) : ∀ p ∈ f.pieces, ¬ p.rank = 5 := fun p hp => by
    have := rank_filter_le f h p hp
    omega
  refine ⟨fun _ hp => absurd hp List.not_mem_nil, List.forall_mem_append.mpr ⟨?_, ?_⟩⟩
  · induction conditions generalizing results with
    | nil => exact fun _ hp => absurd hp List.not_mem_nil
    | cons f fs ih =>
      cases results with
      | nil => exact fun _ hp => absurd hp List.not_mem_nil
      | cons e es =>
        exact List.forall_mem_cons.mpr ⟨⟨rfl, condition hc.1⟩,
          List.forall_mem_cons.mpr ⟨⟨rfl, expression hr.1⟩, ih hc.2 hr.2⟩⟩
  · cases otherwise with
    | none => exact fun _ hp => absurd hp List.not_mem_nil
    | some e => exact List.forall_mem_singleton.mpr ⟨rfl, expression ho⟩

end ColumnPlan
