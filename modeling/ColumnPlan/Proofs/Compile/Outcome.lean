import ColumnPlan.Compile.Tree

/-!
# What a compilation yields, whatever pool it starts from

A compilation fills a pool of literals, and of what it finds there it takes only the literals that
it would make itself.  So what it yields is an `Except` of its own, and the equations of the
compilers hold of these without any pool.

* `Compile.result m pool`      what a computation yields from a pool;
* `Compile.Blind m`            the result is the same from every pool;
* `Compile.outcome m`          that result;
* `outcome_bind`               steps one after the other, if the second one is blind;
* `blind_compileExpr`, `blind_compileFilter`   the compilers are blind.
-/

namespace ColumnPlan

namespace Compile
variable {α β : Type}

/-- what a computation yields from a pool -/
def result (m : Compile α) (pool : LiteralPool) : Except Error α := (m.run.run pool).1

/-- the pool that a computation leaves behind -/
def after (m : Compile α) (pool : LiteralPool) : LiteralPool := (m.run.run pool).2

/-- The result is the same from every pool. -/
def Blind (m : Compile α) : Prop := ∀ p q, m.result p = m.result q

/-- What a computation yields from the empty pool; if it is blind, from every pool. -/
def outcome (m : Compile α) : Except Error α := m.result .empty

theorem result_bind (m : Compile α) (f : α → Compile β) (pool : LiteralPool) :
    result (m >>= f) pool = m.result pool >>= fun a => (f a).result (m.after pool) := by
  show ((ExceptT.bindCont f (m.run.run pool).1 : StateM LiteralPool _).run
    (m.run.run pool).2).1 = _
  unfold result after
  cases (m.run.run pool).1 with
  | error e => rfl
  | ok a => rfl

theorem Blind.result_eq {m : Compile α} (h : Blind m) (pool : LiteralPool) :
    m.result pool = m.outcome := h pool .empty

/-! ### basic steps -/

theorem blind_pure (a : α) : Blind (pure a) := fun _ _ => rfl

theorem blind_throw (e : Error) : Blind (throw e : Compile α) := fun _ _ => rfl

theorem blind_lift (x : Except Error α) : Blind (liftM x : Compile α) := fun _ _ => rfl

theorem result_literal (v : Value) (pool : LiteralPool) : (literal v).result pool = .ok v :=
  congrArg Except.ok (pool.intern_fst v)

theorem blind_literal (v : Value) : Blind (literal v) := by
  intro p q
  rw [result_literal, result_literal]

theorem blind_bind {m : Compile α} {f : α → Compile β} (hm : Blind m) (hf : ∀ a, Blind (f a)) :
    Blind (m >>= f) := by
  intro p q
  rw [result_bind, result_bind, hm p q]
  cases m.result q with
  | error e => rfl
  | ok a => exact hf a _ _

@[simp] theorem outcome_pure (a : α) : outcome (pure a) = .ok a := rfl

@[simp] theorem outcome_lift (x : Except Error α) : outcome (liftM x : Compile α) = x := rfl

@[simp] theorem outcome_literal (v : Value) : outcome (literal v) = .ok v :=
  result_literal v .empty

theorem outcome_bind (m : Compile α) {f : α → Compile β} (hf : ∀ a, Blind (f a)) :
    outcome (m >>= f) = m.outcome >>= fun a => (f a).outcome := by
  show result (m >>= f) .empty = m.result .empty >>= _
  rw [result_bind]
  cases m.result .empty with
  | error e => rfl
  | ok a => exact (hf a).result_eq _

theorem blind_mapM {f : α → Compile β} (hf : ∀ a, Blind (f a)) (as : List α) :
    Blind (as.mapM f) := by
  induction as with
  | nil => exact blind_pure []
  | cons a as ih =>
    rw [List.mapM_cons]
    exact blind_bind (hf a) fun _ => blind_bind ih fun _ => blind_pure _

theorem outcome_mapM {f : α → Compile β} (hf : ∀ a, Blind (f a)) (as : List α) :
    outcome (as.mapM f) = as.mapM fun a => (f a).outcome := by
  induction as with
  | nil => rfl
  | cons a as ih =>
    rw [List.mapM_cons, List.mapM_cons, outcome_bind _ fun _ =>
      blind_bind (blind_mapM hf as) fun _ => blind_pure _]
    congr 1
    funext b
    rw [outcome_bind _ fun _ => blind_pure _, ih]
    rfl

end Compile

open Compile

/-! ### leaves -/

theorem blind_compileOperand (op : CompareOp) (v : Value) (i : Nat) :
    Blind (compileOperand op v i) := by
  unfold compileOperand
  split
  · exact blind_throw _
  · exact blind_bind (blind_literal v) fun _ => blind_pure _

theorem result_compileOperand {op : CompareOp} {v : Value} (h : op.isLike → v.isBinary)
    (i : Nat) (pool : LiteralPool) :
    (compileOperand op v i).result pool =
      .ok (.compare (.ofOp op) [.field i none, .literal v none]) := by
  have allowed : ¬ (op.isLike && !v.isBinary) = true := by
    rw [Bool.and_eq_true, Bool.not_eq_true']
    rintro ⟨like, other⟩
    exact Bool.false_ne_true (other.symm.trans (h like))
  unfold compileOperand
  rw [if_neg allowed, result_bind]
  show ((literal v).result pool >>= _) = _
  rw [result_literal]
  rfl

theorem blind_compileComparison (o : CompileOptions) (op : CompareOp) (v : Value) (i : Nat) :
    Blind (compileComparison o op v i) := by
  have hk := blind_literal v
  have hp := blind_lift (likeOperand op v)
  unfold compileComparison
  split
  · split
    · exact blind_bind hk fun _ => blind_pure _
    · exact blind_bind hk fun _ => blind_pure _
    · exact blind_bind hp fun _ => blind_pure _
    · exact blind_bind hp fun _ => blind_pure _
    · exact blind_compileOperand op v i
  · exact blind_compileOperand op v i

theorem blind_compileValue (o : CompileOptions) (s : Schema) (pattern : String) (op : CompareOp)
    (v : Value) : Blind (compileValue o s pattern op v) :=
  blind_bind (blind_lift _) fun _ =>
    blind_bind (blind_mapM (blind_compileComparison o op v) _) fun _ => blind_pure _

theorem blind_compileKey (o : CompileOptions) (s : Schema) (op : CompareOp) (n : Int64) :
    Blind (compileKey o s op n) :=
  blind_bind (blind_lift _) fun _ =>
    blind_bind (blind_compileComparison o op _ _) fun _ => blind_pure _

/-! ### trees -/

mutual

theorem blind_compileExpr (c : Setting) (s : Schema) (e : Expr) (named : Bool) :
    Blind (compileExpr c s e named) := by
  rw [compileExpr.eq_def]
  cases e with
  | path pattern => exact blind_bind (blind_lift _) fun _ => blind_pure _
  | key => exact blind_bind (blind_lift _) fun _ => blind_pure _
  | const v => exact blind_bind (blind_literal v) fun _ => blind_pure _
  | binary op left right =>
    exact blind_bind (blind_compileExpr c s left false) fun _ =>
      blind_bind (blind_compileExpr c s right false) fun _ => blind_pure _
  | unary op operand => exact blind_compileUnary c s op operand _
  | bracket inner label =>
    exact blind_bind (blind_compileExpr c s inner false) fun _ => blind_pure _
  | caseWhen conditions results otherwise =>
    have tail : Blind (do
        let branches ← compileBranches c s conditions results
        let last ← compileOtherwise c s otherwise
        pure (ScalarExpr.call .caseWhen (branches ++ last)
          (if named then some (Expr.caseWhen conditions results otherwise).columnName
            else none))) :=
      blind_bind (blind_compileBranches c s conditions results) fun _ =>
        blind_bind (blind_compileOtherwise c s otherwise) fun _ => blind_pure _
    dsimp only
    split
    · exact blind_bind (blind_throw _) fun _ => tail
    · exact tail
  | call name args params distinct =>
    refine blind_bind (blind_lift _) fun column => ?_
    cases column with
    | some i => exact blind_pure _
    | none =>
      exact blind_bind (blind_lift _) fun _ =>
        blind_bind (blind_compileExprs c s args) fun _ =>
          blind_bind (blind_lift _) fun _ => blind_pure _
  | chain terms ops =>
    have tail : Blind (do
        let tree ← chainTree ops (← compileExprs c s terms)
        pure ((if named then some (Expr.chain terms ops).columnName else none).elim tree
          tree.withAlias)) :=
      blind_bind (blind_compileExprs c s terms) fun _ =>
        blind_bind (blind_lift _) fun _ => blind_pure _
    refine blind_bind (blind_lift _) fun _ => ?_
    rcases terms with _ | ⟨term, _ | ⟨second, rest⟩⟩
    · exact tail
    · rcases ops with _ | ⟨op, _ | ⟨op₂, ops⟩⟩
      · exact tail
      · exact blind_compileUnary c s op term _
      · exact tail
    · exact tail
termination_by 3 * e.size
decreasing_by
  all_goals
    simp only [Expr.size, Expr.listSize]
    omega

theorem blind_compileUnary (c : Setting) (s : Schema) (op : ArithmeticOp) (operand : Expr)
    (label : Option String) : Blind (compileUnary c s op operand label) := by
  rw [compileUnary.eq_def]
  split
  · exact blind_compileExpr c s operand _
  · exact blind_bind (blind_compileExpr c s operand false) fun _ => blind_pure _
  · exact blind_throw _
termination_by 3 * operand.size + 1

theorem blind_compileExprs (c : Setting) (s : Schema) (es : List Expr) :
    Blind (compileExprs c s es) := by
  rw [compileExprs.eq_def]
  cases es with
  | nil => exact blind_pure []
  | cons e es =>
    exact blind_bind (blind_compileExpr c s e false) fun _ =>
      blind_bind (blind_compileExprs c s es) fun _ => blind_pure _
termination_by 3 * Expr.listSize es
decreasing_by
  all_goals
    simp only [Expr.listSize]
    omega

theorem blind_compileBranches (c : Setting) (s : Schema) (conditions : List Filter)
    (results : List Expr) : Blind (compileBranches c s conditions results) := by
  rw [compileBranches.eq_def]
  rcases conditions with _ | ⟨f, fs⟩
  · exact blind_pure []
  · rcases results with _ | ⟨e, es⟩
    · exact blind_pure []
    · exact blind_bind (blind_compileFilter c s f) fun _ =>
        blind_bind (blind_compileExpr c s e false) fun _ =>
          blind_bind (blind_compileBranches c s fs es) fun _ => blind_pure _
termination_by 3 * (Filter.listSize conditions + Expr.listSize results)
decreasing_by
  all_goals
    simp only [Expr.listSize, Filter.listSize]
    omega

theorem blind_compileOtherwise (c : Setting) (s : Schema) (otherwise : Option Expr) :
    Blind (compileOtherwise c s otherwise) := by
  rw [compileOtherwise.eq_def]
  cases otherwise with
  | none => exact blind_pure []
  | some e => exact blind_bind (blind_compileExpr c s e false) fun _ => blind_pure _
termination_by 3 * Expr.optionSize otherwise
decreasing_by
  all_goals
    simp only [Expr.optionSize]
    omega

theorem blind_compileFilter (c : Setting) (s : Schema) (f : Filter) :
    Blind (compileFilter c s f) := by
  rw [compileFilter]
  exact blind_compileNormal c s _
termination_by 3 * f.size + 1
decreasing_by
  have := Filter.size_normalize_le c.options.reorder f
  omega

theorem blind_compileNormal (c : Setting) (s : Schema) (f : Filter) :
    Blind (compileNormal c s f) := by
  rw [compileNormal.eq_def]
  cases f with
  | bool b => exact blind_pure _
  | value pattern op v => exact blind_compileValue c.options s pattern op v
  | key op n => exact blind_compileKey c.options s op n
  | path left op right => exact blind_lift _
  | expr left op right =>
    exact blind_bind (blind_compileExpr c s left false) fun _ =>
      blind_bind (blind_compileExpr c s right false) fun _ => blind_pure _
  | member pattern op values => exact blind_lift _
  | and children => exact blind_bind (blind_compileNormals c s children) fun _ => blind_pure _
  | or children => exact blind_bind (blind_compileNormals c s children) fun _ => blind_pure _
  | not child => exact blind_throw _
termination_by 3 * f.size
decreasing_by
  all_goals
    simp only [Filter.size]
    omega

theorem blind_compileNormals (c : Setting) (s : Schema) (fs : List Filter) :
    Blind (compileNormals c s fs) := by
  rw [compileNormals.eq_def]
  cases fs with
  | nil => exact blind_pure []
  | cons f fs =>
    exact blind_bind (blind_compileNormal c s f) fun _ =>
      blind_bind (blind_compileNormals c s fs) fun _ => blind_pure _
termination_by 3 * Filter.listSize fs
decreasing_by
  all_goals
    simp only [Filter.listSize]
    omega

end

/-! ### what the compilers of trees yield -/

section
variable (c : Setting) (s : Schema)

theorem outcome_compileExprs (es : List Expr) :
    (compileExprs c s es).outcome = es.mapM fun e => (compileExpr c s e false).outcome := by
  induction es with
  | nil => rw [compileExprs, List.mapM_nil]; rfl
  | cons e es ih =>
    rw [compileExprs, List.mapM_cons, outcome_bind _ fun _ =>
      blind_bind (blind_compileExprs c s es) fun _ => blind_pure _]
    congr 1
    funext first
    rw [outcome_bind _ fun _ => blind_pure _, ih]
    rfl

theorem outcome_compileNormals (fs : List Filter) :
    (compileNormals c s fs).outcome = fs.mapM fun f => (compileNormal c s f).outcome := by
  induction fs with
  | nil => rw [compileNormals, List.mapM_nil]; rfl
  | cons f fs ih =>
    rw [compileNormals, List.mapM_cons, outcome_bind _ fun _ =>
      blind_bind (blind_compileNormals c s fs) fun _ => blind_pure _]
    congr 1
    funext first
    rw [outcome_bind _ fun _ => blind_pure _, ih]
    rfl

theorem outcome_compileNormal_and (fs : List Filter) :
    (compileNormal c s (.and fs)).outcome =
      (fs.mapM fun f => (compileNormal c s f).outcome) >>= fun ps => .ok (.allOf ps) := by
  rw [compileNormal, outcome_bind _ fun _ => blind_pure _, outcome_compileNormals]
  rfl

theorem outcome_compileNormal_or (fs : List Filter) :
    (compileNormal c s (.or fs)).outcome =
      (fs.mapM fun f => (compileNormal c s f).outcome) >>= fun ps => .ok (.anyOf ps) := by
  rw [compileNormal, outcome_bind _ fun _ => blind_pure _, outcome_compileNormals]
  rfl

theorem outcome_compileNormal_expr (left : Expr) (op : CompareOp) (right : Expr) :
    (compileNormal c s (.expr left op right)).outcome =
      (compileExpr c s left false).outcome >>= fun l =>
        (compileExpr c s right false).outcome >>= fun r =>
          .ok (.compare (.ofOp op) [l, r]) := by
  rw [compileNormal, outcome_bind _ fun _ =>
    blind_bind (blind_compileExpr c s right false) fun _ => blind_pure _]
  congr 1
  funext l
  rw [outcome_bind _ fun _ => blind_pure _]
  rfl

theorem outcome_compileFilter (f : Filter) :
    (compileFilter c s f).outcome =
      (compileNormal c s (f.normalize c.options.reorder)).outcome := by
  rw [compileFilter]

end

end ColumnPlan
