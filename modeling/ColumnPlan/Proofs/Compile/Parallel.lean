import ColumnPlan.Proofs.Compile.Built
import ColumnPlan.Proofs.Logical.Leaves

/-!
# Two settings side by side

The compilers of two settings with the same functions take the same steps, but for the leaves and
the order of the parts of a filter.  So two relations that these steps keep, one of expressions and
one of predicates, hold between all that is compiled.

* `Compile.Leads R m n`         whatever the first computation yields, the second one yields
                                something related;
* `Registry.Respects R`         calls of a function with related arguments are carried out alike;
* `Parallel c c' s R Q`         the steps keep the relations `R` and `Q`;
* `leads_expr`, `leads_filter`  what is compiled is related.
-/

-- in a mutual block the linter does not see what the other theorems use
set_option linter.unusedSectionVars false

namespace ColumnPlan

namespace Compile
variable {α β γ δ : Type}

/-- Whatever the first computation yields, the second one yields something that is related to it,
each from a pool of its own. -/
def Leads (R : α → β → Prop) (m : Compile α) (n : Compile β) : Prop :=
  ∀ pool other a, m.result pool = .ok a → ∃ b, n.result other = .ok b ∧ R a b

variable {R : α → β → Prop}

theorem leads_pure {a : α} {b : β} (h : R a b) : Leads R (pure a) (pure b) := by
  intro pool other a' ha
  cases ha
  exact ⟨b, rfl, h⟩

theorem leads_throw (R : α → β → Prop) (e : Error) (n : Compile β) : Leads R (throw e) n := nofun

theorem leads_lift {x : Except Error α} {y : Except Error β}
    (h : ∀ a, x = .ok a → ∃ b, y = .ok b ∧ R a b) : Leads R (liftM x) (liftM y) :=
  fun _ _ a ha => h a ha

theorem leads_self {m : Compile α} (hm : Blind m) {R : α → α → Prop} (h : ∀ a, R a a) :
    Leads R m m :=
  fun pool other a ha => ⟨a, (hm other pool).trans ha, h a⟩

theorem leads_bind {R' : γ → δ → Prop} {m : Compile α} {n : Compile β} {f : α → Compile γ}
    {f' : β → Compile δ} (hm : Leads R m n) (hf : ∀ a b, R a b → Leads R' (f a) (f' b)) :
    Leads R' (m >>= f) (n >>= f') := by
  intro pool other c hc
  rw [result_bind] at hc ⊢
  obtain ⟨a, ha, hc⟩ := bind_eq_ok_iff.mp hc
  obtain ⟨b, hb, related⟩ := hm pool other a ha
  rw [hb, ok_bind]
  exact hf a b related _ _ c hc

/-- The same first step, of which the second ones may know what it yields. -/
theorem leads_bind_self {R' : γ → δ → Prop} {m : Compile α} {f : α → Compile γ}
    {f' : α → Compile δ} (hm : Blind m)
    (hf : ∀ a, m.outcome = .ok a → Leads R' (f a) (f' a)) : Leads R' (m >>= f) (m >>= f') := by
  have same : Leads (fun a b => a = b ∧ m.outcome = .ok a) m m := fun pool other a ha =>
    ⟨a, (hm other pool).trans ha, rfl, (hm .empty pool).trans ha⟩
  refine leads_bind same ?_
  rintro a _ ⟨rfl, ha⟩
  exact hf a ha

end Compile

open Compile

/-- A call of a function that succeeds does so with related arguments as well, and the results are
related. -/
def Registry.Respects (r : Registry) (R : ScalarExpr → ScalarExpr → Prop) : Prop :=
  ∀ name, ∀ f ∈ r.lookup? name, ∀ args args' params e, List.Forall₂ R args args' →
    f.transform args params = .ok e → ∃ e', f.transform args' params = .ok e' ∧ R e e'

/-- The functions that are always there build calls of their arguments. -/
theorem Registry.respects_builtins {R : ScalarExpr → ScalarExpr → Prop}
    (call : ∀ f {e e'}, R e e' → R (.call f [e] none) (.call f [e'] none)) :
    Registry.builtins.Respects R := by
  intro name f hf args args' params e h he
  rw [Registry.eq_extract_of_builtins hf] at he ⊢
  rcases h with _ | @⟨timestamp, timestamp', _, _, related, _ | _⟩
  · cases he
  · obtain ⟨unit, known, he⟩ := bind_eq_ok_iff.mp he
    cases he
    exact ⟨_, bind_eq_ok_iff.mpr ⟨unit, known, rfl⟩, call (.extract unit) related⟩
  · cases he

/-- Relations between the trees of two settings that are kept by each step of the compilers. -/
structure Parallel (c c' : Setting) (s : Schema) (R : ScalarExpr → ScalarExpr → Prop)
    (Q : PredicateExpr → PredicateExpr → Prop) : Prop where
  functions : c'.functions = c.functions
  respects : c.functions.Respects R
  field : ∀ i label, R (.field i label) (.field i label)
  literal : ∀ v label, R (.literal v label) (.literal v label)
  call : ∀ f {args args'} label, List.Forall₂ R args args' →
    R (.call f args label) (.call f args' label)
  rename : ∀ label {e e'}, R e e' → R (.rename label e) (.rename label e')
  withAlias : ∀ label {e e'}, R e e' → R (e.withAlias label) (e'.withAlias label)
  predicate : ∀ {p p'}, Q p p' → R (.predicate p) (.predicate p')
  compare : ∀ op {l l' r r'}, R l l' → R r r' →
    Q (.compare (.ofOp op) [l, r]) (.compare (.ofOp op) [l', r'])
  /-- Leaves without expressions below them. -/
  simple : ∀ f : Filter, f.isLeaf = true → (∀ l op r, f ≠ .expr l op r) →
    Leads Q (compileNormal c s f) (compileNormal c' s f)
  /-- Whatever becomes of the connectives. -/
  filter : ∀ f : Filter,
    (∀ leaf ∈ f.pushNot.leaves, Leads Q (compileNormal c s leaf) (compileNormal c' s leaf)) →
      Leads Q (compileFilter c s f) (compileFilter c' s f)

namespace Parallel
variable {c c' : Setting} {s : Schema} {R : ScalarExpr → ScalarExpr → Prop}
  {Q : PredicateExpr → PredicateExpr → Prop} (parallel : Parallel c c' s R Q)
include parallel

/-! ### labels and chains -/

theorem renamed (label : Option String) {e e' : ScalarExpr} (h : R e e') :
    R (e.renamed label) (e'.renamed label) := by
  cases label with
  | none => exact h
  | some name => exact parallel.rename name h

theorem labelled (label : Option String) {e e' : ScalarExpr} (h : R e e') :
    R (label.elim e e.withAlias) (label.elim e' e'.withAlias) := by
  cases label with
  | none => exact h
  | some name => exact parallel.withAlias name h

theorem leaf (flipped negative : Bool) {e e' : ScalarExpr} (h : R e e') :
    R (SignedTerm.leaf flipped ⟨negative, e⟩) (SignedTerm.leaf flipped ⟨negative, e'⟩) := by
  unfold SignedTerm.leaf
  split
  · exact parallel.call .negate none (.cons h .nil)
  · exact h

theorem balanced (flipped : Bool) (first : SignedTerm) (rest : List SignedTerm)
    {first' : SignedTerm} {rest' : List SignedTerm}
    (h : List.Forall₂ (fun t t' => t'.negative = t.negative ∧ R t.expr t'.expr) (first :: rest)
      (first' :: rest')) :
    R (balanced flipped first rest) (balanced flipped first' rest') := by
  induction flipped, first, rest using balanced_induction generalizing first' rest' with
  | single flipped first =>
    obtain ⟨⟨sign, related⟩, hr⟩ := List.forall₂_cons.mp h
    cases hr
    rw [balanced_nil, balanced_nil]
    obtain ⟨negative, e⟩ := first
    obtain ⟨negative', e'⟩ := first'
    cases sign
    exact parallel.leaf flipped negative related
  | halves flipped first rest middle last hm ihl ihr =>
    obtain ⟨hf, hr⟩ := List.forall₂_cons.mp h
    have behind := List.forall₂_drop (rest.length / 2) hr
    rw [hm] at behind
    obtain ⟨middle', last', hmiddle, hlast, hm'⟩ := List.forall₂_cons_left_iff.mp behind
    rw [hr.length_eq] at hm'
    have left := ihl (.cons hf (List.forall₂_take (rest.length / 2) hr))
    have right := ihr (.cons hmiddle hlast)
    rw [balanced_of_drop flipped first hm, balanced_of_drop flipped first' hm', hmiddle.1,
      ← hr.length_eq]
    exact parallel.call _ none (.cons left (.cons right .nil))

theorem chainTree {ops : List ArithmeticOp} {terms terms' : List ScalarExpr} {e : ScalarExpr}
    (ht : List.Forall₂ R terms terms') (h : chainTree ops terms = .ok e) :
    ∃ e', chainTree ops terms' = .ok e' ∧ R e e' := by
  have signs : List.Forall₂ (fun t t' : SignedTerm => t'.negative = t.negative ∧ R t.expr t'.expr)
      (List.zipWith (fun op e => SignedTerm.mk (op = .minus) e) ops terms)
      (List.zipWith (fun op e => SignedTerm.mk (op = .minus) e) ops terms') := by
    clear h
    induction ht generalizing ops with
    | nil =>
      rw [List.zipWith_nil_right]
      exact .nil
    | cons related _ ih =>
      cases ops with
      | nil => exact .nil
      | cons op ops => exact .cons ⟨rfl, related⟩ ih
  cases hz : List.zipWith (fun op e => SignedTerm.mk (op = .minus) e) ops terms with
  | nil =>
    rw [chainTree_nil hz] at h
    cases h
  | cons first rest =>
    rw [chainTree_cons hz] at h
    cases h
    rw [hz] at signs
    obtain ⟨first', rest', hfirst, hrest, hz'⟩ := List.forall₂_cons_left_iff.mp signs
    exact ⟨_, chainTree_cons hz', parallel.balanced false first rest (.cons hfirst hrest)⟩

/-! ### trees -/

mutual

theorem leads_expr (e : Expr) (named : Bool) :
    Leads R (compileExpr c s e named) (compileExpr c' s e named) := by
  rw [compileExpr.eq_def, compileExpr.eq_def c']
  cases e with
  | path pattern =>
    exact leads_bind_self (blind_lift _) fun i _ => leads_pure (parallel.field i _)
  | key => exact leads_bind_self (blind_lift _) fun i _ => leads_pure (parallel.field i _)
  | const v => exact leads_bind_self (blind_literal v) fun w _ => leads_pure (parallel.literal w _)
  | binary op left right =>
    exact leads_bind (leads_expr left false) fun l l' hl =>
      leads_bind (leads_expr right false) fun r r' hr =>
        leads_pure (parallel.call _ _ (.cons hl (.cons hr .nil)))
  | unary op operand => exact leads_unary op operand _
  | bracket inner text =>
    exact leads_bind (leads_expr inner false) fun _ _ h => leads_pure (parallel.renamed _ h)
  | caseWhen conditions results otherwise =>
    have tail (label : Option String) : Leads R (do
        let branches ← compileBranches c s conditions results
        let last ← compileOtherwise c s otherwise
        pure (ScalarExpr.call .caseWhen (branches ++ last) label)) (do
        let branches ← compileBranches c' s conditions results
        let last ← compileOtherwise c' s otherwise
        pure (ScalarExpr.call .caseWhen (branches ++ last) label)) :=
      leads_bind (leads_branches conditions results) fun branches branches' hb =>
        leads_bind (leads_otherwise otherwise) fun last last' hl =>
          leads_pure (parallel.call _ _ (List.rel_append hb hl))
    dsimp only
    split
    · exact leads_bind_self (blind_throw _) fun _ _ => tail _
    · exact tail _
  | call name args params distinct =>
    refine leads_bind_self (blind_lift _) fun column _ => ?_
    cases column with
    | some i => exact leads_pure (parallel.field i _)
    | none =>
      rw [parallel.functions]
      refine leads_bind_self (blind_lift _) fun f hf => ?_
      refine leads_bind (leads_exprs args) fun compiled compiled' hc => ?_
      refine leads_bind (R := R) (leads_lift fun e he => ?_) fun e e' h =>
        leads_pure (parallel.renamed _ h)
      exact parallel.respects name f (lookup?_of_rowFunction hf) compiled compiled' params e hc he
  | chain terms ops =>
    have tail (label : Option String) : Leads R (do
        let tree ← ColumnPlan.chainTree ops (← compileExprs c s terms)
        pure (label.elim tree tree.withAlias)) (do
        let tree ← ColumnPlan.chainTree ops (← compileExprs c' s terms)
        pure (label.elim tree tree.withAlias)) :=
      leads_bind (leads_exprs terms) fun compiled compiled' hc =>
        leads_bind (leads_lift fun _ => parallel.chainTree hc) fun tree tree' h =>
          leads_pure (parallel.labelled label h)
    refine leads_bind_self (blind_lift _) fun _ _ => ?_
    rcases terms with _ | ⟨term, _ | ⟨second, rest⟩⟩
    · exact tail _
    · rcases ops with _ | ⟨op, _ | ⟨op₂, ops⟩⟩
      · exact tail _
      · exact leads_unary op term _
      · exact tail _
    · exact tail _
termination_by 3 * e.size
decreasing_by
  all_goals
    simp only [Expr.size, Expr.listSize]
    omega

theorem leads_unary (op : ArithmeticOp) (operand : Expr) (label : Option String) :
    Leads R (compileUnary c s op operand label) (compileUnary c' s op operand label) := by
  rw [compileUnary.eq_def, compileUnary.eq_def c']
  split
  · exact leads_expr operand _
  · exact leads_bind (leads_expr operand false) fun e e' h =>
      leads_pure (parallel.call _ _ (.cons h .nil))
  · exact leads_throw _ _ _
termination_by 3 * operand.size + 1

theorem leads_exprs (es : List Expr) :
    Leads (List.Forall₂ R) (compileExprs c s es) (compileExprs c' s es) := by
  rw [compileExprs.eq_def, compileExprs.eq_def c']
  cases es with
  | nil => exact leads_pure .nil
  | cons e es =>
    exact leads_bind (leads_expr e false) fun _ _ hf =>
      leads_bind (leads_exprs es) fun _ _ hr => leads_pure (.cons hf hr)
termination_by 3 * Expr.listSize es
decreasing_by
  all_goals
    simp only [Expr.listSize]
    omega

theorem leads_branches (conditions : List Filter) (results : List Expr) :
    Leads (List.Forall₂ R) (compileBranches c s conditions results)
      (compileBranches c' s conditions results) := by
  rw [compileBranches.eq_def, compileBranches.eq_def c']
  rcases conditions with _ | ⟨f, fs⟩
  · exact leads_pure .nil
  · rcases results with _ | ⟨e, es⟩
    · exact leads_pure .nil
    · exact leads_bind (leads_filter f) fun _ _ hp =>
        leads_bind (leads_expr e false) fun _ _ he =>
          leads_bind (leads_branches fs es) fun _ _ hr =>
            leads_pure (.cons (parallel.predicate hp) (.cons he hr))
termination_by 3 * (Filter.listSize conditions + Expr.listSize results)
decreasing_by
  all_goals
    simp only [Expr.listSize, Filter.listSize]
    omega

theorem leads_otherwise (otherwise : Option Expr) :
    Leads (List.Forall₂ R) (compileOtherwise c s otherwise) (compileOtherwise c' s otherwise) := by
  rw [compileOtherwise.eq_def, compileOtherwise.eq_def c']
  cases otherwise with
  | none => exact leads_pure .nil
  | some e => exact leads_bind (leads_expr e false) fun _ _ h => leads_pure (.cons h .nil)
termination_by 3 * Expr.optionSize otherwise
decreasing_by
  all_goals
    simp only [Expr.optionSize]
    omega

theorem leads_filter (f : Filter) : Leads Q (compileFilter c s f) (compileFilter c' s f) :=
  parallel.filter f fun leaf hl => leads_leaf leaf (Filter.isLeaf_of_mem_leaves hl)
termination_by 3 * f.size + 1
decreasing_by
  have below := Filter.size_le_of_mem_leaves hl
  have := Filter.size_pushNot_le f
  omega

theorem leads_leaf (f : Filter) :
    f.isLeaf = true → Leads Q (compileNormal c s f) (compileNormal c' s f) := by
  cases f with
  | and | or | not => exact nofun
  | expr left op right =>
    intro _
    rw [compileNormal, compileNormal]
    exact leads_bind (leads_expr left false) fun _ _ hl =>
      leads_bind (leads_expr right false) fun _ _ hr => leads_pure (parallel.compare op hl hr)
  | value | path | key | member | bool => exact fun _ => parallel.simple _ rfl nofun
termination_by 3 * f.size
decreasing_by
  all_goals
    simp only [Filter.size]
    omega

end

end Parallel

end ColumnPlan
