import ColumnPlan.Proofs.Compile.Built
import ColumnPlan.Proofs.Compile.Chain
import ColumnPlan.Proofs.Logical.Leaves

/-!
# How a compilation fails

The compilers have branches for what cannot happen: a chain without terms, a column that its schema
does not have, a call of `extract` that has lost its argument, a negation in a normal form.  What a
compiler has found out before it gets there rules each of them out, so it answers every request:
with what it makes of it, or with what is wrong with it.

* `Error.IsRefusal`                the error says what is wrong with a request;
* `Error.IsRefusal.message_ne`     it does not read like that of a negation in a normal form;
* `Answered x`                     a step yields something or a refusal;
* `Compile.Answers m`              a computation does so from every pool;
* `answers_bind`                   steps one after the other;
* `Registry.Answers`               the functions of a registry answer every call;
* `answers_expr`, `answers_filter`   the compilers answer.
-/

-- in a mutual block the linter does not see what the other theorems use
set_option linter.unusedSectionVars false

namespace ColumnPlan

open Compile

/-- The error says what is wrong with a request.  Of the other ones some are for rows and batches,
and some for broken invariants. -/
def Error.IsRefusal : Error → Prop
  | .columnNotFound _ _ | .ambiguousColumn _ _ _ | .ambiguousKey _ _ | .malformed _ => True
  | .unsupported .negation => False
  | .unsupported _ => True
  | .evaluation _ | .batch _ | .fieldIndex _ _ | .internal _ => False

/-! ### what a refusal reads like -/

theorem head?_append {a : Char} (text rest : String) (h : text.toList.head? = some a) :
    (text ++ rest).toList.head? = some a := by
  rw [String.toList_append, List.head?_append, h]
  rfl

/-- No message but that of a negation begins with its first letter. -/
theorem Unsupported.exists_initial {cause : Unsupported} (h : cause ≠ .negation) :
    ∃ a, cause.message.toList.head? = some a ∧ a ≠ 'N' := by
  cases cause with
  | negation => exact absurd rfl h
  | noEqualityKey | noHashers => exact ⟨'h', rfl, by decide⟩
  | cell => exact ⟨_, head?_append _ _ rfl, by decide⟩
  | dataType | unaryOperator | unknownFunction | likePattern | pathPattern | distinctCall
  | extractField =>
    exact ⟨_, head?_append _ _ (head?_append _ _ rfl), by decide⟩
  | notRowMapping =>
    refine ⟨'f', ?_, by decide⟩
    iterate 4 apply head?_append
    rfl
  | likeOperand =>
    refine ⟨'\'', ?_, by decide⟩
    iterate 5 apply head?_append
    rfl

theorem Error.IsRefusal.message_ne {error : Error} (h : error.IsRefusal) :
    error.message ≠ (Error.unsupported .negation).message := by
  intro same
  have initial : (Error.unsupported .negation).message.toList.head? = some 'u' :=
    head?_append _ _ rfl
  have differs (a : Char) (ha : error.message.toList.head? = some a) (hu : a ≠ 'u') : False := by
    rw [same, initial] at ha
    exact hu (Option.some.inj ha).symm
  cases error with
  | unsupported cause =>
    have other : cause ≠ .negation := by
      rintro rfl
      exact h
    obtain ⟨a, ha, hn⟩ := Unsupported.exists_initial other
    have letters : cause.message = Unsupported.negation.message :=
      (String.append_right_inj "unsupported operation: ").mp same
    rw [letters] at ha
    exact hn (Option.some.inj (ha.symm.trans rfl))
  | malformed => exact differs 'm' (head?_append _ _ rfl) (by decide)
  | columnNotFound =>
    refine differs 'c' ?_ (by decide)
    iterate 4 apply head?_append
    rfl
  | ambiguousColumn =>
    refine differs 'c' ?_ (by decide)
    iterate 6 apply head?_append
    rfl
  | ambiguousKey =>
    refine differs 'e' ?_ (by decide)
    iterate 4 apply head?_append
    rfl
  | evaluation | batch | fieldIndex | internal => exact h

/-! ### steps that answer -/

/-- The step yields something or a refusal. -/
abbrev Answered {α : Type} : Except Error α → Prop := FailsWith Error.IsRefusal

namespace Compile
variable {α β : Type} {m : Compile α} {f : α → Compile β}

/-- The computation answers, whatever the pool holds. -/
def Answers (m : Compile α) : Prop := ∀ pool, Answered (m.result pool)

theorem answers_pure (a : α) : Answers (pure a) := fun _ => trivial

theorem answers_throw {error : Error} (h : error.IsRefusal) : Answers (throw error : Compile α) :=
  fun _ => h

theorem answers_lift {x : Except Error α} (h : Answered x) : Answers (liftM x : Compile α) :=
  fun _ => h

theorem answers_literal (v : Value) : Answers (literal v) := by
  intro pool
  rw [result_literal]
  trivial

theorem answers_bind (hm : Answers m) (hf : ∀ pool a, m.result pool = .ok a → Answers (f a)) :
    Answers (m >>= f) := by
  intro pool
  rw [result_bind]
  exact failsWith_bind (hm pool) fun a ha => hf pool a ha _

theorem answers_map (hm : Answers m) (g : α → β) : Answers (do pure (g (← m))) :=
  answers_bind hm fun _ _ _ => answers_pure _

theorem answers_mapM {as : List α} (h : ∀ a ∈ as, Answers (f a)) : Answers (as.mapM f) := by
  induction as with
  | nil => exact answers_pure []
  | cons a as ih =>
    obtain ⟨ha, has⟩ := List.forall_mem_cons.mp h
    rw [List.mapM_cons]
    exact answers_bind ha fun _ _ _ => answers_map (ih has) _

end Compile

/-! ### columns -/

section
variable (s : Schema)

theorem answered_unique (pattern : String) (is : List Nat) : Answered (s.unique pattern is) := by
  unfold Schema.unique
  split <;> trivial

theorem answered_resolve (pattern : String) : Answered (s.resolve pattern) :=
  answered_unique s pattern _

theorem answered_resolveKey : Answered s.resolveKey := by
  unfold Schema.resolveKey
  split <;> trivial

theorem answered_leafColumns (pattern : String) : Answered (leafColumns s pattern) := by
  unfold leafColumns
  split <;> trivial

theorem answered_computedColumn? (name : String) : Answered (computedColumn? s name) := by
  unfold computedColumn?
  split
  · trivial
  · rw [map_eq_pure_bind]
    exact failsWith_bind (answered_unique s name _) fun _ _ => trivial

/-- A column of the schema has a type, be it one without values. -/
theorem answered_valueType {s : Schema} {i : Nat} (h : i < s.size) : Answered (s.valueType i) := by
  unfold Schema.valueType
  rw [List.getElem?_eq_getElem h]
  dsimp only
  split <;> trivial

end

/-! ### leaves of filters -/

theorem answered_likeOperand (op : CompareOp) (v : Value) : Answered (likeOperand op v) := by
  unfold likeOperand
  split
  · trivial
  · split <;> trivial

theorem answers_compileOperand (op : CompareOp) (v : Value) (i : Nat) :
    Answers (compileOperand op v i) := by
  unfold compileOperand
  split
  · exact answers_throw trivial
  · exact answers_map (answers_literal v) _

theorem answers_compileComparison (o : CompileOptions) (op : CompareOp) (v : Value) (i : Nat) :
    Answers (compileComparison o op v i) := by
  have constant := answers_literal v
  have pattern := answers_lift (answered_likeOperand op v)
  unfold compileComparison
  split
  · split
    · exact answers_map constant _
    · exact answers_map constant _
    · exact answers_map pattern _
    · exact answers_map pattern _
    · exact answers_compileOperand op v i
  · exact answers_compileOperand op v i

theorem answers_compileValue (o : CompileOptions) (s : Schema) (pattern : String) (op : CompareOp)
    (v : Value) : Answers (compileValue o s pattern op v) :=
  answers_bind (answers_lift (answered_leafColumns s pattern)) fun _ _ _ =>
    answers_map (answers_mapM fun i _ => answers_compileComparison o op v i) _

theorem answers_compileKey (o : CompileOptions) (s : Schema) (op : CompareOp) (n : Int64) :
    Answers (compileKey o s op n) :=
  answers_bind (answers_lift (answered_resolveKey s)) fun _ i _ =>
    answers_map (answers_compileComparison o op (.long n) i) _

/-- The columns that are found are columns of the schema. -/
theorem answered_compileMember (s : Schema) (pattern : String) (op : MemberOp)
    (values : List Value) : Answered (compileMember s pattern op values) := by
  refine failsWith_bind (answered_leafColumns s pattern) fun is found => ?_
  refine failsWith_bind (failsWith_mapM fun i hi => ?_) fun _ _ => trivial
  exact failsWith_bind (answered_valueType (lt_size_of_leafColumns found i hi)) fun _ _ => trivial

theorem answered_compilePaths (s : Schema) (left : String) (op : CompareOp) (right : String) :
    Answered (compilePaths s left op right) :=
  failsWith_bind (answered_resolve s left) fun _ _ =>
    failsWith_bind (answered_resolve s right) fun _ _ => trivial

/-! ### functions -/

theorem answered_rowFunction (functions : Registry) (name : String) (distinct : Bool) :
    Answered (rowFunction functions name distinct) := by
  unfold rowFunction
  split
  · trivial
  · split
    · trivial
    · split <;> trivial

/-- The functions of a registry answer every call. -/
def Registry.Answers (r : Registry) : Prop :=
  ∀ name, ∀ f ∈ r.lookup? name, ∀ args params, Answered (f.transform args params)

theorem Function.answered_extractUnit? (params : Params) : Answered (extractUnit? params) := by
  unfold extractUnit?
  split
  · trivial
  · split <;> trivial

/-- Either the call has too many arguments or none, or its argument is there. -/
theorem Function.answered_extract (args : List ScalarExpr) (params : Params) :
    Answered (extract.transform args params) := by
  by_cases one : args.length = 1
  · obtain ⟨timestamp, rfl⟩ := List.length_eq_one_iff.mp one
    rw [transform_extract_singleton]
    exact failsWith_bind (answered_extractUnit? params) fun _ _ => trivial
  · rw [transform_extract_of_length_ne one]
    trivial

theorem Registry.answers_builtins : Registry.builtins.Answers := by
  intro name f hf args params
  rw [Registry.eq_extract_of_builtins hf]
  exact Function.answered_extract args params

/-! ### chains -/

theorem answered_checkChain (terms : Nat) (ops : List ArithmeticOp) :
    Answered (checkChain terms ops) := by
  unfold checkChain
  split
  · trivial
  · split
    · trivial
    · split <;> trivial

/-- A chain that has been checked has terms, and as many operators. -/
theorem answered_chainTree {ops : List ArithmeticOp} {terms : List ScalarExpr}
    (h : checkChain terms.length ops = .ok ()) : Answered (chainTree ops terms) := by
  obtain ⟨some, even, -⟩ := checkChain_eq_ok_iff.mp h
  cases hz : List.zipWith (fun op e => SignedTerm.mk (op = .minus) e) ops terms with
  | nil =>
    have none := congrArg List.length hz
    rw [List.length_zipWith, ← even, Nat.min_self] at none
    exact absurd none some
  | cons first rest =>
    rw [chainTree_cons hz]
    trivial

theorem length_of_compileExprs {c : Setting} {s : Schema} {es : List Expr} {pool : LiteralPool}
    {compiled : List ScalarExpr} (h : (compileExprs c s es).result pool = .ok compiled) :
    compiled.length = es.length := by
  rw [(blind_compileExprs c s es).result_eq, outcome_compileExprs] at h
  exact length_of_mapM h

/-! ### trees -/

section
variable {c : Setting} (answers : c.functions.Answers) (s : Schema)
include answers

mutual

theorem answers_expr (e : Expr) (named : Bool) : Answers (compileExpr c s e named) := by
  rw [compileExpr.eq_def]
  cases e with
  | path pattern => exact answers_map (answers_lift (answered_resolve s pattern)) _
  | key => exact answers_map (answers_lift (answered_resolveKey s)) _
  | const v => exact answers_map (answers_literal v) _
  | binary op left right =>
    exact answers_bind (answers_expr left false) fun _ _ _ =>
      answers_map (answers_expr right false) _
  | unary op operand => exact answers_unary op operand _
  | bracket inner label => exact answers_map (answers_expr inner false) _
  | caseWhen conditions results otherwise =>
    have tail : Answers (do
        let branches ← compileBranches c s conditions results
        let last ← compileOtherwise c s otherwise
        pure (ScalarExpr.call .caseWhen (branches ++ last)
          (if named then some (Expr.caseWhen conditions results otherwise).columnName
            else none))) :=
      answers_bind (answers_branches conditions results) fun _ _ _ =>
        answers_map (answers_otherwise otherwise) _
    dsimp only
    split
    · exact answers_bind (answers_throw trivial) fun _ _ _ => tail
    · exact tail
  | call name args params distinct =>
    refine answers_bind (answers_lift (answered_computedColumn? s _)) fun _ column _ => ?_
    cases column with
    | some i => exact answers_pure _
    | none =>
      refine answers_bind (answers_lift (answered_rowFunction _ name distinct)) fun _ f found =>
        answers_bind (answers_exprs args) fun _ compiled _ => ?_
      exact answers_map (answers_lift
        (answers name f (lookup?_of_rowFunction found) compiled params)) _
  | chain terms ops =>
    refine answers_bind (answers_lift (answered_checkChain terms.length ops)) fun _ _ checked => ?_
    have tail : Answers (do
        let tree ← chainTree ops (← compileExprs c s terms)
        pure ((if named then some (Expr.chain terms ops).columnName else none).elim tree
          tree.withAlias)) := by
      refine answers_bind (answers_exprs terms) fun _ compiled h => ?_
      rw [← length_of_compileExprs h] at checked
      exact answers_map (answers_lift (answered_chainTree checked)) _
    rcases terms with _ | ⟨term, _ | ⟨second, rest⟩⟩
    · exact tail
    · rcases ops with _ | ⟨op, _ | ⟨op₂, ops⟩⟩
      · exact tail
      · exact answers_unary op term _
      · exact tail
    · exact tail
termination_by 3 * e.size
decreasing_by
  all_goals
    simp only [Expr.size, Expr.listSize]
    omega

theorem answers_unary (op : ArithmeticOp) (operand : Expr) (label : Option String) :
    Answers (compileUnary c s op operand label) := by
  rw [compileUnary.eq_def]
  split
  · exact answers_expr operand _
  · exact answers_map (answers_expr operand false) _
  · exact answers_throw trivial
termination_by 3 * operand.size + 1

theorem answers_exprs (es : List Expr) : Answers (compileExprs c s es) := by
  rw [compileExprs.eq_def]
  cases es with
  | nil => exact answers_pure []
  | cons e es =>
    exact answers_bind (answers_expr e false) fun _ _ _ => answers_map (answers_exprs es) _
termination_by 3 * Expr.listSize es
decreasing_by
  all_goals
    simp only [Expr.listSize]
    omega

theorem answers_branches (conditions : List Filter) (results : List Expr) :
    Answers (compileBranches c s conditions results) := by
  rw [compileBranches.eq_def]
  rcases conditions with _ | ⟨f, fs⟩
  · exact answers_pure []
  · rcases results with _ | ⟨e, es⟩
    · exact answers_pure []
    · exact answers_bind (answers_filter f) fun _ _ _ =>
        answers_bind (answers_expr e false) fun _ _ _ => answers_map (answers_branches fs es) _
termination_by 3 * (Filter.listSize conditions + Expr.listSize results)
decreasing_by
  all_goals
    simp only [Expr.listSize, Filter.listSize]
    omega

theorem answers_otherwise (otherwise : Option Expr) : Answers (compileOtherwise c s otherwise) := by
  rw [compileOtherwise.eq_def]
  cases otherwise with
  | none => exact answers_pure []
  | some e => exact answers_map (answers_expr e false) _
termination_by 3 * Expr.optionSize otherwise
decreasing_by
  all_goals
    simp only [Expr.optionSize]
    omega

theorem answers_filter (f : Filter) : Answers (compileFilter c s f) := by
  rw [compileFilter]
  exact answers_normal _ (Filter.notFree_normalize _ f)
termination_by 3 * f.size + 1
decreasing_by
  have := Filter.size_normalize_le c.options.reorder f
  omega

/-- No part of a normal form is a negation. -/
theorem answers_normal (f : Filter) : f.NotFree → Answers (compileNormal c s f) := by
  rw [compileNormal.eq_def]
  cases f with
  | bool b => exact fun _ => answers_pure _
  | value pattern op v => exact fun _ => answers_compileValue c.options s pattern op v
  | key op n => exact fun _ => answers_compileKey c.options s op n
  | path left op right => exact fun _ => answers_lift (answered_compilePaths s left op right)
  | expr left op right =>
    exact fun _ => answers_bind (answers_expr left false) fun _ _ _ =>
      answers_map (answers_expr right false) _
  | member pattern op values =>
    exact fun _ => answers_lift (answered_compileMember s pattern op values)
  | and children =>
    intro h
    exact answers_map (answers_normals children ((Filter.notFree_and_iff children).mp h)) _
  | or children =>
    intro h
    exact answers_map (answers_normals children ((Filter.notFree_or_iff children).mp h)) _
  | not child => exact fun h => absurd h (Filter.not_notFree_not child)
termination_by 3 * f.size
decreasing_by
  all_goals
    simp only [Filter.size]
    omega

theorem answers_normals (fs : List Filter) :
    (∀ f ∈ fs, f.NotFree) → Answers (compileNormals c s fs) := by
  rw [compileNormals.eq_def]
  cases fs with
  | nil => exact fun _ => answers_pure []
  | cons f fs =>
    intro h
    obtain ⟨first, rest⟩ := List.forall_mem_cons.mp h
    exact answers_bind (answers_normal f first) fun _ _ _ => answers_map (answers_normals fs rest) _
termination_by 3 * Filter.listSize fs
decreasing_by
  all_goals
    simp only [Filter.listSize]
    omega

end

end

end ColumnPlan
