import ColumnPlan.Proofs.Logical.Joints
import ColumnPlan.Proofs.Logical.Leaves

/-!
# What legible expressions of one text have in common

Expressions that are written in the same pieces are built of the same words in the same way, but for
what a text does not show: a sum can be a chain or nested additions, a chain of one term is the term,
and a connective of fewer than two filters does not show which one it is.

* `Operand`, `operand_pieces`    the pieces of an expression that holds together;
* `atom_eq`, `bare_eq`           a word stands for one expression;
* `Reading V R S`                relations that do not tell apart what a text does not show;
* `Filter.Plain`, `Enclosed`     a filter compares words or expressions, or is no comparison;
* `Reading.of_pieces`, `Reading.of_text`   the relations hold of all that is written alike.
-/

namespace ColumnPlan

open Piece

variable {V : String → Option Expr}

/-! ### operands -/

theorem value_pieces_cases (v : Value) :
    (∃ w, v.pieces = [.word w]) ∨ ∃ w, v.pieces = [.sign .minus, .word w] := by
  unfold Value.pieces
  split
  · exact .inr ⟨_, rfl⟩
  · exact .inl ⟨_, rfl⟩

/-- The pieces of an expression that holds together. -/
inductive Operand : Expr → List Piece → Prop
  | atom {e : Expr} {w : List Char} : e.IsAtom → e.pieces = [.word w] → Operand e [.word w]
  | number {e : Expr} {w : List Char} :
    e.IsAtom → e.pieces = [.sign .minus, .word w] → Operand e [.sign .minus, .word w]
  | signed {op : ArithmeticOp} {inner : Expr} {ps : List Piece} :
    inner.pieces = ps → Operand (.unary op inner) (.sign op :: ps)
  | bracket {inner : Expr} {ps : List Piece} :
    inner.pieces = ps → Operand (.bracket inner none) [.group false ps]
  | caseWhen {conditions : List Filter} {results : List Expr} {otherwise : Option Expr}
    {ps : List Piece} :
    joined [] (branchPieces (Filter.listPieces conditions) (Expr.listPieces results) ++
      Expr.optionPieces otherwise) = ps →
    Operand (.caseWhen conditions results otherwise) [.cases ps]
  | call {name : String} {args : List Expr} {params : Params} {once : Bool} {w : List Char}
    {ps : List Piece} :
    name.toList = w → argumentPieces (Expr.listPieces args) params = ps →
    Operand (.call name args params once) [.word w, .group once ps]

theorem operand_pieces {e : Expr} (narrow : e.rank = 0) : Operand e e.pieces := by
  cases e with
  | path | key => exact .atom trivial rfl
  | const v =>
    rcases value_pieces_cases v with ⟨w, same⟩ | ⟨w, same⟩
    · rw [Expr.pieces, same]
      exact .atom trivial same
    · rw [Expr.pieces, same]
      exact .number trivial same
  | binary op left right =>
    rw [Expr.rank] at narrow
    split at narrow
    · cases narrow
    · cases narrow
  | unary op inner => exact .signed rfl
  | bracket inner label =>
    cases label with
    | none => exact .bracket rfl
    | some label => exact .atom trivial rfl
  | caseWhen conditions results otherwise => exact .caseWhen rfl
  | call name args params once => exact .call rfl rfl
  | chain terms ops => cases narrow

theorem rank_arith_ne_zero (op : ArithmeticOp) : (Piece.joint (.arith op)).rank ≠ 0 := by
  rw [rank_arith]
  split <;> decide

theorem rank_eq_zero {e : Expr} (narrow : e.rank ≤ 1) (plain : ∀ p ∈ e.pieces, p.rank = 0) :
    e.rank = 0 := by
  cases e with
  | binary op left right =>
    exact absurd (plain _ (List.mem_append_right _ List.mem_cons_self)) (rank_arith_ne_zero op)
  | chain terms ops =>
    rw [Expr.rank] at narrow
    omega
  | path | key | const | unary | bracket | caseWhen | call => rfl

/-! ### words -/

theorem text_eq_of_pieces {e e' : Expr} (same : e.pieces = e'.pieces) : e.text = e'.text := by
  rw [← String.toList_inj, ← e.chars_pieces, ← e'.chars_pieces, same]

section
variable {e e' : Expr} (atom : e.IsAtom) (h : e.Legible V)
include atom h

theorem stands_of_isAtom : e.Stands V := by
  cases e with
  | path | key | const => exact h
  | bracket inner label =>
    cases label with
    | none => exact atom.elim
    | some label => exact h
  | binary | unary | caseWhen | call | chain => exact atom.elim

theorem rank_of_isAtom : e.rank = 0 := by
  cases e with
  | path | key | const | bracket => rfl
  | binary | unary | caseWhen | call | chain => exact atom.elim

/-- A number below zero is no sign in front of a word. -/
theorem pieces_ne_signed {op : ArithmeticOp} {inner : Expr} (hi : (Expr.unary op inner).Legible V) :
    e.pieces ≠ (Expr.unary op inner).pieces := by
  intro same
  have text : e.text = op.text ++ inner.text := text_eq_of_pieces same
  have stands := (stands_of_isAtom atom h).2
  obtain ⟨-, -, narrow, unread⟩ := hi
  have shape := operand_pieces (rank_of_isAtom atom h)
  have inside := operand_pieces narrow
  have word : inner.IsAtom := by
    rw [same, Expr.pieces] at shape
    generalize inner.pieces = ps at shape inside
    cases shape with
    | number =>
      cases inside with
      | atom atom => exact atom
    | signed => exact atom.elim
  rw [text, unread word] at stands
  cases stands

/-- **A word stands for one expression.** -/
theorem atom_eq (h' : e'.Legible V) (narrow : e'.rank = 0) (same : e.pieces = e'.pieces) :
    e = e' := by
  have shape := operand_pieces (rank_of_isAtom atom h)
  have shape' := operand_pieces narrow
  have atom' : e'.IsAtom := by
    rw [← same] at shape'
    generalize e.pieces = ps at shape shape'
    cases shape with
    | atom =>
      cases shape' with
      | atom atom' => exact atom'
    | number =>
      cases shape' with
      | number atom' => exact atom'
      | signed => exact absurd same (pieces_ne_signed atom h h')
    | signed | bracket | caseWhen | call => exact atom.elim
  have left := (stands_of_isAtom atom h).2
  have right := (stands_of_isAtom atom' h').2
  rw [text_eq_of_pieces same, right] at left
  exact (Option.some_inj.mp left).symm

/-- So does a chain of nothing but the word. -/
theorem bare_eq (h' : e'.Legible V) (same : e.pieces = e'.pieces) : e'.bare = e := by
  have plain : ∀ p ∈ e'.pieces, p.rank = 0 := by
    intro p hp
    have low := rank_pieces_le e h p (same ▸ hp)
    rwa [rank_of_isAtom atom h, Nat.le_zero] at low
  cases e' with
  | binary op left right =>
    exact absurd (plain _ (List.mem_append_right _ List.mem_cons_self)) (rank_arith_ne_zero op)
  | chain terms ops =>
    have whole := pieces_spread _ h'
    obtain ⟨each, checked, products, signable⟩ := h'
    obtain ⟨term, rest, op, more, rfl, rfl, length, sign, -⟩ := exists_of_checkChain checked
    rcases rest with _ | ⟨next, rest⟩
    · cases List.eq_nil_of_length_eq_zero length
      rcases sign with rfl | rfl
      · have alone : (Expr.chain [term] [.plus]).pieces = term.pieces :=
          whole.trans (List.append_nil _)
        rw [alone] at same plain
        have narrow := rank_eq_zero (products term List.mem_cons_self) plain
        exact (atom_eq atom h each.1 narrow same).symm
      · have alone : (Expr.chain [term] [.minus]).pieces = (Expr.unary .minus term).pieces :=
          whole.trans (List.append_nil _)
        exact absurd (same.trans alone)
          (pieces_ne_signed atom h ⟨each.1, signable term rfl rfl⟩)
    · obtain ⟨o, more, rfl⟩ := List.exists_cons_of_length_eq_add_one length
      rw [whole, forall_mem_joined] at plain
      exact absurd (plain.2 _ List.mem_cons_self).1 (rank_arith_ne_zero o)
  | path | key | const | unary | bracket | caseWhen | call => exact (atom_eq atom h h' rfl same).symm

end

/-! ### relations that do not tell apart what a text does not show -/

/-- The connective of some filters. -/
def Connective.filter : Connective → List Filter → Filter
  | .conjunction => .and
  | .disjunction => .or

theorem Connective.legible_filter (k : Connective) {fs : List Filter} :
    (k.filter fs).Legible V ↔ ∀ f ∈ fs, f.Legible V := by
  rw [← Filter.listLegible_iff]
  cases k <;> rfl

theorem Connective.size_filter (k : Connective) (fs : List Filter) :
    (k.filter fs).size = 1 + Filter.listSize fs := by
  cases k <;> rw [Connective.filter, Filter.size]

/-- A relation of expressions and one of filters, which hold of what is put together alike from
parts of which they hold. -/
structure Reading (V : String → Option Expr) (R : Expr → Expr → Prop) (S : Filter → Filter → Prop) :
    Prop where
  atom : ∀ {e}, e.IsAtom → R e e
  sum : ∀ {e e'}, e.Legible V → e'.Legible V → R e.spread.1 e'.spread.1 →
    List.Forall₂ (fun t t' => t.1 = t'.1 ∧ R t.2 t'.2) e.spread.2 e'.spread.2 → R e e'
  product : ∀ {e e'}, R e.factors.1 e'.factors.1 →
    List.Forall₂ (fun t t' => t.1 = t'.1 ∧ R t.2 t'.2) e.factors.2 e'.factors.2 → R e e'
  unary : ∀ {op e e'}, R e e' → R (.unary op e) (.unary op e')
  bracket : ∀ {e e'}, R e e' → R (.bracket e none) (.bracket e' none)
  /-- If each condition has its result. -/
  caseWhen : ∀ {cs rs o cs' rs' o'},
    (cs.length = rs.length → cs'.length = rs'.length →
      List.Forall₂ S cs cs' ∧ List.Forall₂ R rs rs' ∧ Option.Rel R o o') →
    R (.caseWhen cs rs o) (.caseWhen cs' rs' o')
  /-- If each of the calls has one argument. -/
  call : ∀ {name args params args' params' once},
    (Expr.call name args params once).text = (Expr.call name args' params' once).text →
    (∀ a a', args = [a] → args' = [a'] → R a a' ∧ params.pieces = params'.pieces) →
    R (.call name args params once) (.call name args' params' once)
  leaf : ∀ {f}, f.isLeaf = true → S f f
  compare : ∀ {l l' r r' op}, R l l' → R r r' → S (.expr l op r) (.expr l' op r')
  connective : ∀ {k : Connective} {fs fs'}, List.Forall₂ S fs fs' → S (k.filter fs) (k.filter fs')
  single : ∀ {k k' : Connective} {f f'}, S f f' → S (k.filter [f]) (k'.filter [f'])
  empty : ∀ k : Connective, S (.bool (k = .conjunction)) (k.filter [])
  not : ∀ {f f'}, S f f' → S (.not f) (.not f')
  symm : ∀ {f f'}, S f f' → S f' f

namespace Reading
variable {R : Expr → Expr → Prop} {S : Filter → Filter → Prop} (reading : Reading V R S) {n : Nat}

/-- What is written alike is related, up to a size. -/
def Holds (V : String → Option Expr) (R : Expr → Expr → Prop) (n : Nat) : Prop :=
  ∀ e e', e.size ≤ n → e.Legible V → e'.Legible V → e.pieces = e'.pieces → R e e'

def FilterHolds (V : String → Option Expr) (S : Filter → Filter → Prop) (n : Nat) : Prop :=
  ∀ f f', f.size ≤ n → f.Legible V → f'.Legible V → f.pieces = f'.pieces → S f f'

theorem forall₂_of_map_eq {α β : Type} {f : α → β} {T : α → α → Prop} {as bs : List α}
    (same : as.map f = bs.map f) (h : ∀ a ∈ as, ∀ b ∈ bs, f a = f b → T a b) :
    List.Forall₂ T as bs := by
  induction as generalizing bs with
  | nil =>
    rw [List.map_nil, eq_comm, List.map_eq_nil_iff] at same
    rw [same]
    exact .nil
  | cons a as ih =>
    obtain ⟨b, bs, rfl, first, rest⟩ := List.map_eq_cons_iff.mp same.symm
    rw [List.forall_mem_cons] at h
    exact .cons (h.1 b List.mem_cons_self first.symm) <|
      ih rest.symm fun a ha b hb => h.2 a ha b (List.mem_cons_of_mem _ hb)

include reading

theorem of_caseWhen (below : Holds V R n) (conditions : FilterHolds V S n) {cs cs' : List Filter}
    {rs rs' : List Expr} {o o' : Option Expr} (small : (Expr.caseWhen cs rs o).size ≤ n + 1)
    (h : (Expr.caseWhen cs rs o).Legible V) (h' : (Expr.caseWhen cs' rs' o').Legible V)
    (same : joined [] (branchPieces (Filter.listPieces cs) (Expr.listPieces rs) ++
        Expr.optionPieces o) =
      joined [] (branchPieces (Filter.listPieces cs') (Expr.listPieces rs') ++
        Expr.optionPieces o')) :
    R (.caseWhen cs rs o) (.caseWhen cs' rs' o') := by
  rw [Expr.size] at small
  refine reading.caseWhen fun length length' => ?_
  obtain ⟨hc, hr, ho⟩ := h
  obtain ⟨hc', hr', ho'⟩ := h'
  obtain ⟨-, parts⟩ := joined_inj (cut_cases hc hr ho) (cut_cases hc' hr' ho') same
  rw [Filter.listPieces_eq_map, Expr.listPieces_eq_map, Filter.listPieces_eq_map,
    Expr.listPieces_eq_map] at parts
  rw [← List.length_map (fun f : Filter => f.pieces), ← List.length_map (fun e : Expr => e.pieces)]
    at length length'
  obtain ⟨sameC, sameR, last⟩ := branchPieces_inj length length' parts
  rw [Filter.listLegible_iff] at hc hc'
  rw [Expr.listLegible_iff] at hr hr'
  have alikeC : List.Forall₂ S cs cs' := forall₂_of_map_eq sameC fun f hf f' hf' => by
    have := Filter.size_le_listSize hf
    exact conditions f f' (by omega) (hc f hf) (hc' f' hf')
  have alikeR : List.Forall₂ R rs rs' := forall₂_of_map_eq sameR fun e he e' he' => by
    have := Expr.size_le_listSize he
    exact below e e' (by omega) (hr e he) (hr' e' he')
  refine ⟨alikeC, alikeR, ?_⟩
  cases o with
  | none =>
    cases o' with
    | none => exact .none
    | some e' => cases last
  | some e =>
    rw [Expr.optionSize] at small
    cases o' with
    | none => cases last
    | some e' =>
      exact .some (below e e' (by omega) ho ho' (Prod.mk.inj (List.cons.inj last).1).2)

theorem of_operands (below : Holds V R n) (conditions : FilterHolds V S n) {e e' : Expr}
    (small : e.size ≤ n + 1) (h : e.Legible V) (h' : e'.Legible V) (narrow : e.rank = 0)
    (narrow' : e'.rank = 0) (same : e.pieces = e'.pieces) : R e e' := by
  have shape := operand_pieces narrow
  have shape' := operand_pieces narrow'
  rw [← same] at shape'
  generalize e.pieces = ps at shape shape'
  cases shape with
  | atom atom | number atom =>
    cases atom_eq atom h h' narrow' same
    exact reading.atom atom
  | @signed op inner ps inside =>
    rw [Expr.size] at small
    cases shape' with
    | number atom => exact absurd same.symm (pieces_ne_signed atom h' h)
    | signed inside' =>
      exact reading.unary (below _ _ (by omega) h.1 h'.1 (inside.trans inside'.symm))
  | @bracket inner ps inside =>
    rw [Expr.size] at small
    cases shape' with
    | bracket inside' =>
      exact reading.bracket (below _ _ (by omega) h h' (inside.trans inside'.symm))
  | caseWhen inside =>
    cases shape' with
    | caseWhen inside' =>
      exact reading.of_caseWhen below conditions small h h' (inside.trans inside'.symm)
  | @call name args params once w ps word inside =>
    rw [Expr.size] at small
    cases shape' with
    | @call name' args' params' _ _ _ word' inside' =>
      have text := text_eq_of_pieces same
      obtain ⟨-, ha, -⟩ := h
      obtain ⟨-, ha', -⟩ := h'
      have parts := argumentPieces_inj ha ha' (inside.trans inside'.symm)
      obtain rfl := String.toList_inj.mp (word.trans word'.symm)
      refine reading.call text fun a a' first first' => ?_
      subst first
      subst first'
      obtain ⟨front, behind⟩ := List.cons.inj parts
      rw [Expr.listSize] at small
      exact ⟨below a a' (by omega) ha.1 ha'.1 front, behind⟩

theorem of_products (below : Holds V R n) (conditions : FilterHolds V S n) {e e' : Expr}
    (small : e.size ≤ n + 1) (h : e.Legible V) (h' : e'.Legible V) (narrow : e.rank ≤ 1)
    (narrow' : e'.rank ≤ 1) (same : e.pieces = e'.pieces) : R e e' := by
  obtain ⟨first, rest⟩ := factors_inj h h' narrow narrow' same
  obtain ⟨hf, hr⟩ := within_factors e h narrow
  obtain ⟨hf', hr'⟩ := within_factors e' h' narrow'
  have part {t t' : Expr} (ht : e.Within V 0 t) (ht' : e'.Within V 0 t')
      (alike : t.pieces = t'.pieces) : R t t' :=
    reading.of_operands below conditions (ht.size_le.trans small) ht.legible ht'.legible
      (Nat.le_zero.mp ht.rank_le) (Nat.le_zero.mp ht'.rank_le) alike
  refine reading.product (part hf hf' first) (forall₂_of_map_eq rest fun t ht t' ht' alike => ?_)
  obtain ⟨op, inner⟩ := operandPieces_inj alike
  exact ⟨op, part (hr t ht).2 (hr' t' ht').2 inner⟩

theorem holds_succ (below : Holds V R n) (conditions : FilterHolds V S n) : Holds V R (n + 1) := by
  intro e e' small h h' same
  obtain ⟨first, rest⟩ := spread_inj h h' same
  obtain ⟨hf, hr⟩ := within_spread e h
  obtain ⟨hf', hr'⟩ := within_spread e' h'
  have part {t t' : Expr} (ht : e.Within V 1 t) (ht' : e'.Within V 1 t')
      (alike : t.pieces = t'.pieces) : R t t' :=
    reading.of_products below conditions (ht.size_le.trans small) ht.legible ht'.legible ht.rank_le
      ht'.rank_le alike
  refine reading.sum h h' (part hf hf' first) (forall₂_of_map_eq rest fun t ht t' ht' alike => ?_)
  obtain ⟨op, inner⟩ := operandPieces_inj alike
  exact ⟨op, part (hr t ht).2 (hr' t' ht').2 inner⟩

end Reading

/-! ### the shapes of filters -/

/-- A filter that compares two words, and its sides. -/
inductive Filter.Plain : Filter → Expr → CompareOp → Expr → Prop
  | value (p : String) (op : CompareOp) (v : Value) :
    Filter.Plain (.value p op v) (.path p) op (.const v)
  | path (p : String) (op : CompareOp) (q : String) :
    Filter.Plain (.path p op q) (.path p) op (.path q)
  | key (op : CompareOp) (n : Int64) : Filter.Plain (.key op n) .key op (.const (.long n))

/-- The pieces of a filter that is no comparison. -/
inductive Enclosed : Filter → List Piece → Prop
  | member {p : String} {op : MemberOp} {values : List Value} {w : List Char} {ps : List Piece} :
    p.toList = w → separated (.joint .comma) (values.map (·.pieces)) = ps →
    Enclosed (.member p op values) [.word w, .joint (.member op), .group false ps]
  | bool {b : Bool} {w : List Char} :
    (if b then "true" else "false").toList = w → Enclosed (.bool b) [.word w]
  | empty {k : Connective} {w : List Char} :
    (if k = .conjunction then "true" else "false").toList = w → Enclosed (k.filter []) [.word w]
  | connective {k : Connective} {f : Filter} {fs : List Filter} {ps : List Piece} :
    separated (.joint (.connective k)) (Filter.listPieces (f :: fs)) = ps →
    Enclosed (k.filter (f :: fs)) [.group false ps]
  | not {child : Filter} {ps : List Piece} :
    child.pieces = ps → Enclosed (.not child) [.word ['!'], .group false ps]

theorem filter_cases (f : Filter) : (∃ left op right, f.Plain left op right) ∨
    (∃ left op right, f = .expr left op right) ∨ Enclosed f f.pieces := by
  cases f with
  | value p op v => exact .inl ⟨_, _, _, .value p op v⟩
  | path p op q => exact .inl ⟨_, _, _, .path p op q⟩
  | key op n => exact .inl ⟨_, _, _, .key op n⟩
  | expr left op right => exact .inr (.inl ⟨left, op, right, rfl⟩)
  | member p op values => exact .inr (.inr (.member rfl rfl))
  | bool b => exact .inr (.inr (.bool rfl))
  | and children =>
    cases children with
    | nil => exact .inr (.inr (.empty (k := .conjunction) rfl))
    | cons f fs => exact .inr (.inr (.connective (k := .conjunction) rfl))
  | or children =>
    cases children with
    | nil => exact .inr (.inr (.empty (k := .disjunction) rfl))
    | cons f fs => exact .inr (.inr (.connective (k := .disjunction) rfl))
  | not child => exact .inr (.inr (.not rfl))

theorem Enclosed.no_comparison {f : Filter} {ps : List Piece} (h : Enclosed f ps) (op : CompareOp) :
    Piece.joint (.compare op) ∉ ps := by
  intro hm
  cases h with
  | member | not =>
    simp only [List.mem_cons, List.not_mem_nil, or_false, reduceCtorEq, Piece.joint.injEq] at hm
  | bool | empty | connective => cases List.mem_singleton.mp hm

theorem constant_inj {p q : Prop} [Decidable p] [Decidable q]
    (same : (if p then "true" else "false").toList = (if q then "true" else "false").toList) :
    p ↔ q := by
  split at same
  · next hp =>
    split at same
    · next hq => exact iff_of_true hp hq
    · cases same
  · next hp =>
    split at same
    · cases same
    · next hq => exact iff_of_false hp hq

namespace Filter.Plain
variable {f g : Filter} {left right : Expr} {op : CompareOp} (plain : f.Plain left op right)
include plain

theorem pieces_eq : f.pieces = left.pieces ++ .joint (.compare op) :: right.pieces := by
  cases plain <;> rfl

theorem isLeaf : f.isLeaf = true := by
  cases plain <;> rfl

theorem simple : left.IsAtom ∧ right.IsAtom ∧ Filter.Simple left right := by
  cases plain <;> exact ⟨trivial, trivial, trivial⟩

theorem legible (h : f.Legible V) : left.Legible V ∧ right.Legible V := by
  cases plain <;> exact h

theorem eq (other : g.Plain left op right) : f = g := by
  cases plain <;> cases other <;> rfl

end Filter.Plain

/-- The sides of comparisons that are written alike. -/
theorem comparison_inj {left right left' right' : Expr} {op op' : CompareOp} (hl : left.Legible V)
    (hl' : left'.Legible V)
    (same : left.pieces ++ .joint (.compare op) :: right.pieces =
      left'.pieces ++ .joint (.compare op') :: right'.pieces) :
    left.pieces = left'.pieces ∧ op = op' ∧ right.pieces = right'.pieces := by
  have low {e : Expr} (h : e.Legible V) : ∀ p ∈ e.pieces, ¬ p.rank = 3 := fun p hp => by
    have := rank_pieces_le e h p hp
    have := e.rank_le
    omega
  obtain ⟨left, joints, right⟩ :=
    append_cons_inj (P := fun p : Piece => p.rank = 3) (low hl) (low hl') rfl rfl same
  exact ⟨left, Joint.compare.inj (Piece.joint.inj joints), right⟩

/-- A comparison of words is not written like one of expressions. -/
theorem Filter.Plain.ne_expr {f : Filter} {left right left' right' : Expr} {op op' : CompareOp}
    (plain : f.Plain left op right) (h : f.Legible V)
    (h' : (Filter.expr left' op' right').Legible V) :
    f.pieces ≠ (Filter.expr left' op' right').pieces := by
  intro same
  obtain ⟨hl, hr⟩ := plain.legible h
  obtain ⟨hl', hr', other⟩ := h'
  obtain ⟨atomL, atomR, simple⟩ := plain.simple
  rw [plain.pieces_eq] at same
  obtain ⟨sameL, -, sameR⟩ := comparison_inj hl hl' same
  rw [bare_eq atomL hl hl' sameL, bare_eq atomR hr hr' sameR] at other
  exact other simple

namespace Reading
variable {R : Expr → Expr → Prop} {S : Filter → Filter → Prop} (reading : Reading V R S) {n : Nat}
include reading

theorem of_plain {f f' : Filter} {left right left' right' : Expr} {op op' : CompareOp}
    (plain : f.Plain left op right) (plain' : f'.Plain left' op' right') (h : f.Legible V)
    (h' : f'.Legible V) (same : f.pieces = f'.pieces) : S f f' := by
  obtain ⟨hl, hr⟩ := plain.legible h
  obtain ⟨hl', hr'⟩ := plain'.legible h'
  obtain ⟨atomL, atomR, -⟩ := plain.simple
  obtain ⟨atomL', atomR', -⟩ := plain'.simple
  rw [plain.pieces_eq, plain'.pieces_eq] at same
  obtain ⟨sameL, rfl, sameR⟩ := comparison_inj hl hl' same
  cases atom_eq atomL hl hl' (rank_of_isAtom atomL' hl') sameL
  cases atom_eq atomR hr hr' (rank_of_isAtom atomR' hr') sameR
  rw [plain.eq plain']
  exact reading.leaf plain'.isLeaf

theorem of_bool {b : Bool} {k : Connective} (h : b = true ↔ k = .conjunction) :
    S (.bool b) (k.filter []) := by
  have same : b = decide (k = .conjunction) := Bool.eq_iff_iff.mpr (h.trans decide_eq_true_iff.symm)
  rw [same]
  exact reading.empty k

theorem of_connectives (conditions : FilterHolds V S n) {k k' : Connective} {f f' : Filter}
    {fs fs' : List Filter} (small : Filter.listSize (f :: fs) ≤ n)
    (h : ∀ g ∈ f :: fs, g.Legible V) (h' : ∀ g ∈ f' :: fs', g.Legible V)
    (same : separated (.joint (.connective k)) (Filter.listPieces (f :: fs)) =
      separated (.joint (.connective k')) (Filter.listPieces (f' :: fs'))) :
    S (k.filter (f :: fs)) (k'.filter (f' :: fs')) := by
  have tight {fs : List Filter} (h : ∀ g ∈ fs, g.Legible V) :
      ∀ part ∈ fs.map (·.pieces), part ≠ [] ∧ ∀ p ∈ part, ¬ p.rank = 4 := by
    intro part hp
    obtain ⟨g, hg, rfl⟩ := List.mem_map.mp hp
    refine ⟨filter_pieces_ne_nil g, fun p hp => ?_⟩
    have := rank_filter_le g (h g hg) p hp
    omega
  rw [Filter.listPieces_eq_map, Filter.listPieces_eq_map] at same
  obtain ⟨parts, alike⟩ :=
    separated_inj (P := fun p : Piece => p.rank = 4) rfl rfl (tight h) (tight h') same
  have each : List.Forall₂ S (f :: fs) (f' :: fs') := forall₂_of_map_eq parts fun g hg g' hg' =>
    conditions g g' ((Filter.size_le_listSize hg).trans small) (h g hg) (h' g' hg')
  rcases alike with joints | single
  · cases joints
    exact reading.connective each
  · rw [List.length_map, List.length_cons] at single
    cases List.eq_nil_of_length_eq_zero (by omega : fs.length = 0)
    obtain ⟨first, rest⟩ := List.forall₂_cons.mp each
    cases rest
    exact reading.single first

theorem of_enclosed (conditions : FilterHolds V S n) {f f' : Filter} {ps : List Piece}
    (small : f.size ≤ n + 1) (h : f.Legible V) (h' : f'.Legible V) (shape : Enclosed f ps)
    (shape' : Enclosed f' ps) : S f f' := by
  cases shape with
  | @member p op values w ps word inside =>
    cases shape' with
    | @member p' _ values' _ _ word' inside' =>
      obtain rfl := String.toList_inj.mp (word.trans word'.symm)
      have tight (values : List Value) :
          ∀ part ∈ values.map (·.pieces), part ≠ [] ∧ ∀ p ∈ part, ¬ p.rank = 6 := by
        intro part hp
        obtain ⟨v, -, rfl⟩ := List.mem_map.mp hp
        refine ⟨value_pieces_ne_nil v, fun p hp => ?_⟩
        rw [rank_value_pieces v p hp]
        decide
      obtain ⟨parts, -⟩ := separated_inj (P := fun p : Piece => p.rank = 6) rfl rfl (tight values)
        (tight values') (inside.trans inside'.symm)
      have each : List.Forall₂ Eq values values' := by
        refine forall₂_of_map_eq parts fun v hv v' hv' same => ?_
        have equal : Expr.const v = .const v' := atom_eq trivial (h.2 v hv) (h'.2 v' hv') rfl same
        exact Expr.const.inj equal
      rw [List.forall₂_eq_eq_eq] at each
      cases each
      exact reading.leaf rfl
  | bool word =>
    cases shape' with
    | bool word' =>
      cases Bool.eq_iff_iff.mpr (constant_inj (word.trans word'.symm))
      exact reading.leaf rfl
    | empty word' => exact reading.of_bool (constant_inj (word.trans word'.symm))
  | @empty k w word =>
    cases shape' with
    | bool word' => exact reading.symm (reading.of_bool (constant_inj (word'.trans word.symm)))
    | @empty k' _ word' =>
      have alike := constant_inj (word.trans word'.symm)
      have kinds : k = k' := by
        cases k with
        | conjunction => exact (alike.mp rfl).symm
        | disjunction =>
          cases k' with
          | conjunction => exact alike.mpr rfl
          | disjunction => rfl
      rw [kinds]
      exact reading.connective .nil
  | @connective k g gs ps inside =>
    rw [k.size_filter] at small
    cases shape' with
    | @connective k' g' gs' _ inside' =>
      exact reading.of_connectives conditions (by omega) (k.legible_filter.mp h)
        (k'.legible_filter.mp h') (inside.trans inside'.symm)
  | not inside =>
    rw [Filter.size] at small
    cases shape' with
    | not inside' =>
      exact reading.not (conditions _ _ (by omega) h h' (inside.trans inside'.symm))

theorem filterHolds_succ (below : Holds V R n) (conditions : FilterHolds V S n) :
    FilterHolds V S (n + 1) := by
  intro f f' small h h' same
  rcases filter_cases f with ⟨left, op, right, plain⟩ | ⟨left, op, right, rfl⟩ | shape
  · rcases filter_cases f' with ⟨left', op', right', plain'⟩ | ⟨left', op', right', rfl⟩ | shape'
    · exact reading.of_plain plain plain' h h' same
    · exact absurd same (plain.ne_expr h h')
    · rw [← same, plain.pieces_eq] at shape'
      exact absurd (List.mem_append_right _ List.mem_cons_self) (shape'.no_comparison op)
  · rcases filter_cases f' with ⟨left', op', right', plain'⟩ | ⟨left', op', right', rfl⟩ | shape'
    · exact absurd same.symm (plain'.ne_expr h' h)
    · obtain ⟨sameL, rfl, sameR⟩ := comparison_inj h.1 h'.1 same
      rw [Filter.size] at small
      exact reading.compare (below _ _ (by omega) h.1 h'.1 sameL)
        (below _ _ (by omega) h.2.1 h'.2.1 sameR)
    · rw [← same] at shape'
      exact absurd (List.mem_append_right _ List.mem_cons_self) (shape'.no_comparison op)
  · rcases filter_cases f' with ⟨left', op', right', plain'⟩ | ⟨left', op', right', rfl⟩ | shape'
    · rw [same, plain'.pieces_eq] at shape
      exact absurd (List.mem_append_right _ List.mem_cons_self) (shape.no_comparison op')
    · rw [same] at shape
      exact absurd (List.mem_append_right _ List.mem_cons_self) (shape.no_comparison op')
    · rw [← same] at shape'
      exact reading.of_enclosed conditions small h h' shape shape'

theorem holds (n : Nat) : Holds V R n ∧ FilterHolds V S n := by
  induction n with
  | zero =>
    refine ⟨fun e e' small => ?_, fun f f' small => ?_⟩
    · cases e <;> rw [Expr.size] at small <;> omega
    · have := f.size_pos
      omega
  | succ n ih => exact ⟨reading.holds_succ ih.1 ih.2, reading.filterHolds_succ ih.1 ih.2⟩

/-- **What is written alike is related.** -/
theorem of_pieces {e e' : Expr} (h : e.Legible V) (h' : e'.Legible V)
    (same : e.pieces = e'.pieces) : R e e' :=
  (reading.holds e.size).1 e e' (Nat.le_refl _) h h' same

/-- **Legible expressions of one text are related.** -/
theorem of_text {e e' : Expr} (h : e.Legible V) (h' : e'.Legible V) (same : e.text = e'.text) :
    R e e' := by
  have chars : listChars e.pieces ++ [] = listChars e'.pieces ++ [] := by
    rw [e.chars_pieces, e'.chars_pieces, same]
  exact reading.of_pieces h h'
    (listChars_inj _ _ (e.lexed_pieces h) (e'.lexed_pieces h') stops_nil stops_nil chars).1

end Reading

end ColumnPlan
