import ColumnPlan.Proofs.Compile.Outcome
import ColumnPlan.Proofs.Fallible
import Mathlib.Data.Nat.Log

/-!
# The shape of balanced chains

A chain puts a tree of additions and subtractions above its terms.  Behind a subtraction all signs
are turned, so the first term of such a part counts as positive, and the only term that can need
a sign of its own is the first one of the whole chain.

* `SumTree`                     what a chain puts above its terms, with the terms as its leaves;
* `SumTree.signedTerms`         the leaves with the signs that they have in the whole;
* `SumTree.NegatesFirst b`      at most the first leaf is negated, and it is iff `b`;
* `SignedTerm.exists_balances`  the tree of a balanced chain, by induction on its halves;
* `outcome_chain`               the steps in which a chain is compiled;
* `compileExpr_chain`           the shape of what it is compiled to.
-/

namespace ColumnPlan

open Compile

/-- What a chain puts above its terms.  The leaves are whole expressions and are not looked
into. -/
inductive SumTree where
  | term (e : ScalarExpr)
  | negate (t : SumTree)
  | add (left right : SumTree)
  | minus (left right : SumTree)

namespace SumTree

/-- The tree as an expression; no part of it is named. -/
def expr : SumTree → ScalarExpr
  | term e => e
  | negate t => .call .negate [t.expr] none
  | add left right => .call .add [left.expr, right.expr] none
  | minus left right => .call .minus [left.expr, right.expr] none

/-- The leaves from left to right. -/
def terms : SumTree → List ScalarExpr
  | term e => [e]
  | negate t => t.terms
  | add left right | minus left right => left.terms ++ right.terms

/-- The leaves with their signs, where the whole has a sign of its own. -/
def signedTerms (negative : Bool) : SumTree → List SignedTerm
  | term e => [⟨negative, e⟩]
  | negate t => t.signedTerms !negative
  | add left right => left.signedTerms negative ++ right.signedTerms negative
  | minus left right => left.signedTerms negative ++ right.signedTerms !negative

/-- The number of calls from the root to the deepest leaf. -/
def depth : SumTree → Nat
  | term _ => 0
  | negate t => t.depth + 1
  | add left right | minus left right => max left.depth right.depth + 1

/-- No negation stands anywhere but right above the first leaf, and one stands there iff
`negated`. -/
def NegatesFirst (negated : Bool) : SumTree → Prop
  | term _ => negated = false
  | negate t => negated = true ∧ ∃ e, t = term e
  | add left right | minus left right => left.NegatesFirst negated ∧ right.NegatesFirst false

theorem map_expr_signedTerms (t : SumTree) (negative : Bool) :
    (t.signedTerms negative).map (·.expr) = t.terms := by
  induction t generalizing negative with
  | term e => rfl
  | negate t ih => exact ih _
  | add left right ihl ihr | minus left right ihl ihr =>
    rw [signedTerms, terms, List.map_append, ihl, ihr]

end SumTree

/-! ### balanced chains -/

/-- The longer half of a list decides how often it can be halved. -/
theorem clog_two_of_half {n : Nat} (h : 0 < n) :
    Nat.clog 2 (n + 1) = Nat.clog 2 (n / 2 + 1) + 1 := by
  rw [Nat.clog_of_two_le Nat.one_lt_two (Nat.succ_le_succ h)]
  congr 2
  omega

/-- the tree of a balanced chain -/
structure SignedTerm.Balances (flipped : Bool) (first : SignedTerm) (rest : List SignedTerm)
    (t : SumTree) : Prop where
  expr_eq : t.expr = balanced flipped first rest
  signedTerms_eq : t.signedTerms flipped = first :: rest
  negatesFirst : t.NegatesFirst (first.negative != flipped)
  depth_le : t.depth ≤ Nat.clog 2 (rest.length + 1) + (first.negative != flipped).toNat

namespace SignedTerm
variable {flipped : Bool} {first : SignedTerm}

/-- A chain of one term. -/
theorem exists_balances_nil (flipped : Bool) (first : SignedTerm) :
    ∃ t, first.Balances flipped [] t := by
  obtain ⟨negative, e⟩ := first
  by_cases turned : negative = flipped
  · subst turned
    refine ⟨.term e, ?_, rfl, ?_, ?_⟩
    · simp [balanced_nil, leaf, SumTree.expr]
    · simp [SumTree.NegatesFirst]
    · simp [SumTree.depth]
  · have opposite : negative = !flipped := Bool.eq_not.mpr turned
    subst opposite
    refine ⟨.negate (.term e), ?_, rfl, ?_, ?_⟩
    · simp [balanced_nil, leaf, SumTree.expr]
    · simp [SumTree.NegatesFirst]
    · simp [SumTree.depth]

section
variable {rest : List SignedTerm} {middle : SignedTerm} {last : List SignedTerm}
  (h : rest.drop (rest.length / 2) = middle :: last) {l r : SumTree}
  (hl : first.Balances flipped (rest.take (rest.length / 2)) l)
  (hr : middle.Balances middle.negative last r)
include h hl hr

/-- Neither half is longer than the first one can be, and no term is negated in the second one. -/
theorem Balances.depth_join :
    max l.depth r.depth + 1 ≤
      Nat.clog 2 (rest.length + 1) + (first.negative != flipped).toNat := by
  have counted : last.length + 1 = rest.length - rest.length / 2 := by
    have := congrArg List.length h
    rw [List.length_drop, List.length_cons] at this
    exact this.symm
  have left : l.depth ≤ Nat.clog 2 (rest.length / 2 + 1) + (first.negative != flipped).toNat := by
    have half : min (rest.length / 2) rest.length = rest.length / 2 := by omega
    have := hl.depth_le
    rwa [List.length_take, half] at this
  have right : r.depth ≤ Nat.clog 2 (rest.length / 2 + 1) := by
    have mono : Nat.clog 2 (last.length + 1) ≤ Nat.clog 2 (rest.length / 2 + 1) :=
      Nat.clog_mono_right 2 (by omega)
    have := hr.depth_le
    rw [bne_self_eq_false, Bool.toNat_false] at this
    omega
  rw [clog_two_of_half (by omega : 0 < rest.length)]
  omega

/-- The two halves of a chain. -/
theorem Balances.join :
    first.Balances flipped rest
      (if middle.negative = flipped then .add l r else .minus l r) := by
  have order : first :: rest.take (rest.length / 2) ++ middle :: last = first :: rest := by
    rw [List.cons_append, ← h, List.take_append_drop]
  have positive : r.NegatesFirst false := by
    have := hr.negatesFirst
    rwa [bne_self_eq_false] at this
  by_cases same : middle.negative = flipped
  · rw [if_pos same]
    refine ⟨?_, ?_, ⟨hl.negatesFirst, positive⟩, hl.depth_join h hr⟩
    · rw [balanced_of_drop flipped first h, ← hl.expr_eq, ← hr.expr_eq, same, bne_self_eq_false]
      rfl
    · have signed := hr.signedTerms_eq
      rw [same] at signed
      rw [SumTree.signedTerms, hl.signedTerms_eq, signed, order]
  · rw [if_neg same]
    refine ⟨?_, ?_, ⟨hl.negatesFirst, positive⟩, hl.depth_join h hr⟩
    · rw [balanced_of_drop flipped first h, ← hl.expr_eq, ← hr.expr_eq, bne_iff_ne.mpr same]
      rfl
    · have signed := hr.signedTerms_eq
      rw [Bool.eq_not.mpr same] at signed
      rw [SumTree.signedTerms, hl.signedTerms_eq, signed, order]

end

/-- **The tree of a balanced chain.**  All parts behind the first half start with a term whose
sign is the one that is expected there. -/
theorem exists_balances (flipped : Bool) (first : SignedTerm) (rest : List SignedTerm) :
    ∃ t, first.Balances flipped rest t := by
  induction flipped, first, rest using balanced_induction with
  | single flipped first => exact exists_balances_nil flipped first
  | halves flipped first rest middle last h ihl ihr =>
    obtain ⟨l, hl⟩ := ihl
    obtain ⟨r, hr⟩ := ihr
    exact ⟨_, hl.join h hr⟩

end SignedTerm

/-! ### compiled chains -/

/-- The terms of a chain with their signs. -/
def signed (ops : List ArithmeticOp) (terms : List ScalarExpr) : List SignedTerm :=
  List.zipWith (fun op e => ⟨op = .minus, e⟩) ops terms

theorem checkChain_eq_ok_iff {terms : Nat} {ops : List ArithmeticOp} :
    checkChain terms ops = .ok () ↔
      terms ≠ 0 ∧ terms = ops.length ∧ ∀ op ∈ ops, op = .plus ∨ op = .minus := by
  unfold checkChain
  split
  · next empty => simp [empty]
  · next nonempty =>
    split
    · next uneven => simp [uneven]
    · next even =>
      rw [not_not] at even
      split
      · next op found =>
        have stray := List.find?_some found
        have member := List.mem_of_find?_eq_some found
        simp only [decide_eq_true_eq] at stray
        refine ⟨nofun, fun h => ?_⟩
        rcases h.2.2 op member with plus | minus
        · exact absurd plus stray.1
        · exact absurd minus stray.2
      · next none =>
        refine ⟨fun _ => ⟨nonempty, even, fun op member => ?_⟩, fun _ => rfl⟩
        have known := List.find?_eq_none.mp none op member
        simp only [decide_eq_true_eq, not_and_or, not_not] at known
        exact known

/-- The tree of a chain whose signs stand before its terms. -/
structure SumTree.OfChain (ops : List ArithmeticOp) (terms : List ScalarExpr) (t : SumTree) :
    Prop where
  chainTree_eq : chainTree ops terms = .ok t.expr
  signedTerms_eq : t.signedTerms false = signed ops terms
  negatesFirst : t.NegatesFirst (ops.head? = some .minus)
  depth_le : t.depth ≤ Nat.clog 2 terms.length + (decide (ops.head? = some .minus)).toNat

theorem exists_ofChain {ops : List ArithmeticOp} {terms : List ScalarExpr}
    (hl : ops.length = terms.length) (hn : 0 < terms.length) :
    ∃ t, SumTree.OfChain ops terms t := by
  rcases terms with _ | ⟨e, es⟩
  · exact absurd hn (Nat.lt_irrefl 0)
  · rcases ops with _ | ⟨op, ops⟩
    · cases hl
    · obtain ⟨t, ht⟩ := SignedTerm.exists_balances false ⟨op = .minus, e⟩ (signed ops es)
      have turned : (decide (op = .minus) != false) = decide ((op :: ops).head? = some .minus) := by
        rw [Bool.bne_false, List.head?_cons]
        exact decide_eq_decide.mpr (Option.some_inj.symm)
      have counted : (signed ops es).length + 1 = (e :: es).length := by
        simp only [List.length_cons, Nat.add_right_cancel_iff] at hl ⊢
        rw [signed, List.length_zipWith, hl, Nat.min_self]
      refine ⟨t, ?_, ht.signedTerms_eq, ?_, ?_⟩
      · rw [ht.expr_eq]
        exact chainTree_cons rfl
      · have := ht.negatesFirst
        rwa [turned] at this
      · have := ht.depth_le
        rwa [turned, counted] at this

theorem SumTree.OfChain.terms_eq {ops : List ArithmeticOp} {terms : List ScalarExpr} {t : SumTree}
    (h : SumTree.OfChain ops terms t) (hl : ops.length = terms.length) : t.terms = terms := by
  rw [← map_expr_signedTerms t false, h.signedTerms_eq, signed, List.map_zipWith]
  clear h
  induction terms generalizing ops with
  | nil => rw [List.zipWith_nil_right]
  | cons e es ih =>
    rcases ops with _ | ⟨op, ops⟩
    · cases hl
    · rw [List.zipWith_cons_cons, ih (Nat.succ.inj hl)]

section
variable {c : Setting} {s : Schema} {terms : List Expr} {ops : List ArithmeticOp}

theorem outcome_chain (hn : 2 ≤ terms.length) (named : Bool) :
    (compileExpr c s (.chain terms ops) named).outcome =
      checkChain terms.length ops >>= fun _ =>
        (terms.mapM fun e => (compileExpr c s e false).outcome) >>= fun compiled =>
          chainTree ops compiled >>= fun tree =>
            .ok ((if named then some (Expr.chain terms ops).columnName else none).elim tree
              tree.withAlias) := by
  have blind (compiled : List ScalarExpr) : Blind (do
      let tree ← chainTree ops compiled
      pure ((if named then some (Expr.chain terms ops).columnName else none).elim tree
        tree.withAlias)) :=
    blind_bind (blind_lift _) fun _ => blind_pure _
  rw [compileExpr]
  · rw [outcome_bind _ fun _ => blind_bind (blind_compileExprs c s terms) blind, outcome_lift]
    congr 1
    funext _
    rw [outcome_bind _ blind, outcome_compileExprs]
    congr 1
    funext compiled
    rw [outcome_bind _ fun _ => blind_pure _]
    rfl
  · rintro term op rfl -
    exact Nat.not_succ_le_self 1 hn

theorem outcome_chain_of_ofChain (hn : 2 ≤ terms.length) (hl : ops.length = terms.length)
    (ho : ∀ op ∈ ops, op = .plus ∨ op = .minus) {compiled : List ScalarExpr}
    (hc : List.Forall₂ (fun e x => (compileExpr c s e false).outcome = .ok x) terms compiled)
    {t : SumTree} (ht : SumTree.OfChain ops compiled t) (named : Bool) :
    (compileExpr c s (.chain terms ops) named).outcome =
      .ok (if named then t.expr.withAlias (Expr.chain terms ops).columnName else t.expr) := by
  have checked : checkChain terms.length ops = .ok () :=
    checkChain_eq_ok_iff.mpr ⟨by omega, hl.symm, ho⟩
  rw [outcome_chain hn, checked, mapM_eq_ok_iff.mpr hc]
  show (chainTree ops compiled >>= _) = _
  rw [ht.chainTree_eq]
  cases named <;> rfl

/-- **The shape of a chain.**  A chain of two terms or more is compiled if its terms are.  Above
them stand additions and subtractions, and one negation if the chain starts with a minus; the
terms keep their order, and none is deeper than a list of them can be halved, but for the
negation. -/
theorem compileExpr_chain (hn : 2 ≤ terms.length) (hl : ops.length = terms.length)
    (ho : ∀ op ∈ ops, op = .plus ∨ op = .minus) {compiled : List ScalarExpr}
    (hc : List.Forall₂ (fun e x => (compileExpr c s e false).outcome = .ok x) terms compiled)
    (named : Bool) (pool : LiteralPool) :
    ∃ t : SumTree,
      (compileExpr c s (.chain terms ops) named).result pool =
        .ok (if named then t.expr.withAlias (Expr.chain terms ops).columnName else t.expr) ∧
      t.terms = compiled ∧
      t.NegatesFirst (ops.head? = some .minus) ∧
      t.depth ≤ Nat.clog 2 terms.length + if ops.head? = some .minus then 1 else 0 := by
  have counted := hc.length_eq
  obtain ⟨t, ht⟩ := exists_ofChain (hl.trans counted) (by omega)
  refine ⟨t, ?_, ht.terms_eq (hl.trans counted), ht.negatesFirst, ?_⟩
  · rw [(blind_compileExpr c s _ named).result_eq]
    exact outcome_chain_of_ofChain hn hl ho hc ht named
  · rw [counted]
    have := ht.depth_le
    split
    · next minus => rwa [decide_eq_true minus] at this
    · next plus => rwa [decide_eq_false plus] at this

end

/-- Three terms behind a minus: the first one is negated, and two additions or subtractions stand
above it. -/
theorem compileExpr_chain_minus :
    let c : Setting := ⟨.builtins, .default⟩
    let s : Schema := ⟨[⟨"a.x", .int32, true, none⟩, ⟨"a.y", .int64, true, none⟩]⟩
    let e := Expr.chain [.path "a.x", .const (.integer 5), .path "a.y"] [.minus, .plus, .minus]
    ∃ t : SumTree, (compileExpr c s e false).result .empty = .ok t.expr ∧
      t.terms = [.field 0 none, .literal (.integer 5) none, .field 1 none] ∧
      t.NegatesFirst true ∧ t.depth ≤ 3 := by
  intro c s e
  have compiled : List.Forall₂ (fun e x => (compileExpr c s e false).outcome = .ok x)
      [.path "a.x", .const (.integer 5), .path "a.y"]
      [.field 0 none, .literal (.integer 5) none, .field 1 none] := by
    refine .cons ?_ (.cons ?_ (.cons ?_ .nil)) <;> · rw [compileExpr]; rfl
  have known : ∀ op ∈ [ArithmeticOp.minus, .plus, .minus], op = .plus ∨ op = .minus := by decide
  obtain ⟨t, result, terms, negated, depth⟩ :=
    compileExpr_chain (by decide) rfl known compiled false .empty
  exact ⟨t, result, terms, negated, depth.trans (by decide)⟩

end ColumnPlan
