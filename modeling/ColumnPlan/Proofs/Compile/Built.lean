import ColumnPlan.Proofs.Compile.Ensures
import ColumnPlan.Proofs.Fallible
import ColumnPlan.Proofs.Physical.Parts
import ColumnPlan.Proofs.Schema.Resolve

/-!
# What compiled trees are built of

A compiler takes its fields from a schema and its constants from a pool, gives each function as many
operands as the function has, simplifies the connectives, and labels nothing but the root.  So a
property that these steps keep is one of all that is compiled.

* `Closed width P Q`            the steps keep a property of expressions and one of predicates;
* `Registry.Hands P`            a call of a function hands a property of its arguments on;
* `Closed.hands_builtins`       the functions that are always there do;
* `ensures_expr`, `ensures_filter`   what is compiled without a name has the properties.
-/

-- in a mutual block the linter does not see what the other theorems use
set_option linter.unusedSectionVars false

namespace ColumnPlan

open Compile

/-- A property of expressions and one of predicates that are kept by each step of a compiler, for
rows of a width and constants in a pool. -/
structure Closed (width : Nat) (P : LiteralPool → ScalarExpr → Prop)
    (Q : LiteralPool → PredicateExpr → Prop) : Prop where
  field : ∀ {pool i}, i < width → P pool (.field i none)
  literal : ∀ {pool v}, v ∈ pool.values → P pool (.literal v none)
  call : ∀ {pool f args}, f.Accepts args.length → (∀ e ∈ args, P pool e) →
    P pool (.call f args none)
  predicate : ∀ {pool p}, Q pool p → P pool (.predicate p)
  compare : ∀ {pool f operands}, operands.length = f.arity →
    (∀ v ∈ (Part.compare f f.arity).constant?, v ∈ pool.values) → (∀ e ∈ operands, P pool e) →
      Q pool (.compare f operands)
  simplify : ∀ {pool} (k : Connective) {ps}, (∀ p ∈ ps, Q pool p) → Q pool (k.simplify ps)

/-- The call of a function hands a property of its arguments on. -/
def Registry.Hands (r : Registry) (P : LiteralPool → ScalarExpr → Prop) : Prop :=
  ∀ name, ∀ f ∈ r.lookup? name, ∀ args params e, f.transform args params = .ok e →
    ∀ pool, (∀ a ∈ args, P pool a) → P pool e

/-- One function is always there. -/
theorem Registry.eq_extract_of_builtins {name : String} {f : Function}
    (h : f ∈ Registry.builtins.lookup? name) : f = .extract := by
  have found : (if foldName name = foldName Function.extract.identifier then some Function.extract
      else none) = some f := (Dictionary.get?_set .empty _ _ _).symm.trans h
  split at found
  · cases found
    rfl
  · cases found

theorem exists_of_extract {args : List ScalarExpr} {params : Params} {e : ScalarExpr}
    (h : Function.extract.transform args params = .ok e) :
    ∃ unit timestamp, args = [timestamp] ∧ Function.extractUnit? params = .ok unit ∧
      e = .call (.extract unit) [timestamp] none := by
  by_cases one : args.length = 1
  · obtain ⟨timestamp, rfl⟩ := List.length_eq_one_iff.mp one
    rw [Function.transform_extract_singleton] at h
    obtain ⟨unit, hu, h⟩ := bind_eq_ok_iff.mp h
    cases h
    exact ⟨unit, timestamp, rfl, hu, rfl⟩
  · rw [Function.transform_extract_of_length_ne one] at h
    cases h

theorem lookup?_of_rowFunction {functions : Registry} {name : String} {distinct : Bool}
    {f : Function} (h : rowFunction functions name distinct = .ok f) :
    functions.lookup? name = some f := by
  unfold rowFunction at h
  split at h
  · cases h
  · split at h
    · cases h
    · next g hg =>
      split at h
      · cases h
        exact hg
      · cases h

/-! ### places in a schema -/

section
variable {s : Schema}

theorem lt_size_of_leafColumns {pattern : String} {is : List Nat}
    (h : leafColumns s pattern = .ok is) : ∀ i ∈ is, i < s.size := by
  intro i hi
  unfold leafColumns at h
  split at h
  · cases h
  · cases h
    exact Schema.lt_size_of_mem_columns hi

theorem lt_size_of_resolve {pattern : String} {i : Nat} (h : s.resolve pattern = .ok i) :
    i < s.size := by
  have found : i ∈ s.columns pattern := s.columns_of_resolve h ▸ List.mem_singleton_self i
  exact Schema.lt_size_of_mem_columns found

theorem lt_size_of_resolveKey {i : Nat} (h : s.resolveKey = .ok i) : i < s.size := by
  have found : i ∈ s.keyIndices := s.keyIndices_of_resolveKey h ▸ List.mem_singleton_self i
  exact Schema.lt_size_of_mem_indicesWhere found

theorem lt_size_of_computedColumn? {name : String} {i : Nat}
    (h : computedColumn? s name = .ok (some i)) : i < s.size := by
  unfold computedColumn? at h
  split at h
  · cases h
  · obtain ⟨j, hj, h⟩ := bind_eq_ok_iff.mp ((map_eq_pure_bind _ _).symm.trans h)
    cases h
    have found : i ∈ s.named name := by
      rw [(s.unique_eq_ok_iff name _ i).mp hj]
      exact List.mem_singleton_self i
    exact Schema.lt_size_of_mem_indicesWhere found

end

namespace Closed
variable {width : Nat} {P : LiteralPool → ScalarExpr → Prop}
  {Q : LiteralPool → PredicateExpr → Prop} (closed : Closed width P Q)
include closed

/-- The functions that are always there build calls of their arguments. -/
theorem hands_builtins : Registry.builtins.Hands P := by
  intro name f hf args params e h pool hargs
  rw [Registry.eq_extract_of_builtins hf] at h
  obtain ⟨unit, timestamp, rfl, -, rfl⟩ := exists_of_extract h
  exact closed.call (by rintro m ⟨⟩; rfl) hargs

/-! ### leaves -/

theorem combine {pool : LiteralPool} {ps : List PredicateExpr} (h : ∀ p ∈ ps, Q pool p)
    (q : Quantifier) : Q pool (q.combine ps) := by
  cases q with
  | any => exact closed.simplify .disjunction h
  | all => exact closed.simplify .conjunction h

theorem compareField {pool : LiteralPool} {f : PredicateFunction} {i : Nat} (hf : f.arity = 1)
    (hc : ∀ v ∈ (Part.compare f f.arity).constant?, v ∈ pool.values) (hi : i < width) :
    Q pool (.compare f [.field i none]) :=
  closed.compare hf.symm hc (List.forall_mem_singleton.mpr (closed.field hi))

theorem compareOf {pool : LiteralPool} (op : CompareOp) {left right : ScalarExpr}
    (hl : P pool left) (hr : P pool right) : Q pool (.compare (.ofOp op) [left, right]) := by
  refine closed.compare rfl nofun ?_
  exact List.forall_mem_cons.mpr ⟨hl, List.forall_mem_singleton.mpr hr⟩

theorem ensures_operand (op : CompareOp) (v : Value) {i : Nat} (hi : i < width) :
    Ensures (compileOperand op v i) Q := by
  unfold compileOperand
  split
  · exact ensures_throw _ _
  · refine ensures_bind (ensures_literal v) fun w => ensures_pure ?_
    intro pool hw
    exact closed.compareOf op (closed.field hi) (closed.literal hw)

theorem ensures_comparison (o : CompileOptions) (op : CompareOp) (v : Value) {i : Nat}
    (hi : i < width) : Ensures (compileComparison o op v i) Q := by
  have operand := closed.ensures_operand op v hi
  have pattern (f : LikePattern → PredicateFunction) (hf : ∀ p, (f p).arity = 1)
      (hc : ∀ p, (Part.compare (f p) (f p).arity).constant? = none) :
      Ensures (do pure (PredicateExpr.compare (f (← likeOperand op v)) [.field i none])) Q := by
    refine ensures_bind (ensures_lift _) fun p => ensures_pure ?_
    intro pool _
    exact closed.compareField (hf p) (by rw [hc]; nofun) hi
  have constant (f : Value → PredicateFunction) (hf : ∀ w, (f w).arity = 1)
      (hc : ∀ w, (Part.compare (f w) (f w).arity).constant? = some w) :
      Ensures (do pure (PredicateExpr.compare (f (← ColumnPlan.literal v)) [.field i none])) Q := by
    refine ensures_bind (ensures_literal v) fun w => ensures_pure ?_
    intro pool hw
    exact closed.compareField (hf w) (by rw [hc]; rintro x ⟨⟩; exact hw) hi
  unfold compileComparison
  split
  · split
    · exact constant .equalConst (fun _ => rfl) fun _ => rfl
    · exact constant .notEqualConst (fun _ => rfl) fun _ => rfl
    · exact pattern .likeConst (fun _ => rfl) fun _ => rfl
    · exact pattern .notLikeConst (fun _ => rfl) fun _ => rfl
    · exact operand
  · exact operand

/-! ### chains -/

theorem leaf {pool : LiteralPool} (flipped : Bool) {t : SignedTerm} (h : P pool t.expr) :
    P pool (t.leaf flipped) := by
  unfold SignedTerm.leaf
  split
  · exact closed.call (by rintro m ⟨⟩; rfl) (List.forall_mem_singleton.mpr h)
  · exact h

theorem balanced {pool : LiteralPool} (flipped : Bool) (first : SignedTerm)
    (rest : List SignedTerm) (h : ∀ t ∈ first :: rest, P pool t.expr) :
    P pool (balanced flipped first rest) := by
  induction flipped, first, rest using balanced_induction with
  | single flipped first =>
    rw [balanced_nil]
    exact closed.leaf flipped (h first List.mem_cons_self)
  | halves flipped first rest middle last hr ihl ihr =>
    have behind : ∀ t ∈ middle :: last, t ∈ rest := fun t ht =>
      List.mem_of_mem_drop (hr ▸ ht)
    have left := ihl fun t ht => h t <| by
      rcases List.mem_cons.mp ht with rfl | ht
      · exact List.mem_cons_self
      · exact List.mem_cons_of_mem _ (List.mem_of_mem_take ht)
    have right := ihr fun t ht => h t (List.mem_cons_of_mem _ (behind t ht))
    rw [balanced_of_drop flipped first hr]
    refine closed.call ?_ (List.forall_mem_cons.mpr ⟨left, List.forall_mem_singleton.mpr right⟩)
    intro n hn
    split at hn
    · cases hn; rfl
    · cases hn; rfl

theorem chainTree {pool : LiteralPool} {ops : List ArithmeticOp} {terms : List ScalarExpr}
    {tree : ScalarExpr} (h : chainTree ops terms = .ok tree) (ht : ∀ e ∈ terms, P pool e) :
    P pool tree := by
  have each : ∀ t ∈ List.zipWith (fun op e => SignedTerm.mk (op = .minus) e) ops terms,
      P pool t.expr := by
    intro t hm
    rw [← List.map_uncurry_zip_eq_zipWith, List.mem_map] at hm
    obtain ⟨⟨op, e⟩, hz, rfl⟩ := hm
    exact ht e (List.of_mem_zip hz).2
  cases hz : List.zipWith (fun op e => SignedTerm.mk (op = .minus) e) ops terms with
  | nil =>
    rw [chainTree_nil hz] at h
    cases h
  | cons first rest =>
    rw [chainTree_cons hz] at h
    cases h
    exact closed.balanced false first rest (hz ▸ each)

end Closed

/-! ### filters over a schema -/

namespace Closed
variable {s : Schema} {P : LiteralPool → ScalarExpr → Prop} {Q : LiteralPool → PredicateExpr → Prop}
  (closed : Closed s.size P Q)
include closed

theorem ensures_value (o : CompileOptions) (pattern : String) (op : CompareOp) (v : Value) :
    Ensures (compileValue o s pattern op v) Q := by
  unfold compileValue
  intro pool
  -- without columns nothing is compiled
  cases hi : leafColumns s pattern with
  | error e => exact ensures_throw e _ pool
  | ok is =>
    refine ensures_bind (ensures_mapM fun i hm =>
      closed.ensures_comparison o op v (lt_size_of_leafColumns hi i hm)) (fun ps => ?_) pool
    exact ensures_pure fun pool h => closed.combine h _

theorem ensures_key (o : CompileOptions) (op : CompareOp) (n : Int64) :
    Ensures (compileKey o s op n) Q := by
  unfold compileKey
  intro pool
  cases hi : s.resolveKey with
  | error e => exact ensures_throw e _ pool
  | ok i =>
    refine ensures_bind (closed.ensures_comparison o op (.long n) (lt_size_of_resolveKey hi))
      (fun p => ?_) pool
    refine ensures_pure fun pool h => closed.combine ?_ _
    exact List.forall_mem_singleton.mpr h

theorem of_compileMember {pattern : String} {op : MemberOp} {values : List Value}
    {p : PredicateExpr} (h : compileMember s pattern op values = .ok p) (pool : LiteralPool) :
    Q pool p := by
  unfold compileMember at h
  obtain ⟨is, hi, h⟩ := bind_eq_ok_iff.mp h
  obtain ⟨ps, hp, h⟩ := bind_eq_ok_iff.mp h
  cases h
  refine closed.combine (fun q hq => ?_) _
  obtain ⟨i, hm, hq⟩ := exists_of_mem_mapM hp hq
  obtain ⟨type, -, hq⟩ := bind_eq_ok_iff.mp hq
  cases hq
  have bound : i < s.size := lt_size_of_leafColumns hi i hm
  cases op.negated with
  | false => exact closed.compareField rfl nofun bound
  | true => exact closed.compareField rfl nofun bound

theorem of_compilePaths {left right : String} {op : CompareOp} {p : PredicateExpr}
    (h : compilePaths s left op right = .ok p) (pool : LiteralPool) : Q pool p := by
  obtain ⟨i, hi, h⟩ := bind_eq_ok_iff.mp h
  obtain ⟨j, hj, h⟩ := bind_eq_ok_iff.mp h
  cases h
  exact closed.compareOf op (closed.field (lt_size_of_resolve hi))
    (closed.field (lt_size_of_resolve hj))

/-! ### trees -/

variable {c : Setting} (hands : c.functions.Hands P)
include hands

mutual

theorem ensures_expr (e : Expr) : Ensures (compileExpr c s e false) P := by
  rw [compileExpr.eq_def]
  cases e with
  | path pattern =>
    refine ensures_bind (ensures_lift _) fun i => ensures_pure ?_
    intro pool hi
    exact closed.field (lt_size_of_resolve hi)
  | key =>
    refine ensures_bind (ensures_lift _) fun i => ensures_pure ?_
    intro pool hi
    exact closed.field (lt_size_of_resolveKey hi)
  | const v =>
    refine ensures_bind (ensures_literal v) fun w => ensures_pure ?_
    intro pool hw
    exact closed.literal hw
  | binary op left right =>
    refine ensures_bind (ensures_expr left) fun l =>
      ensures_bind (ensures_expr right) fun r => ensures_pure ?_
    intro pool hr hl
    refine closed.call ?_ (List.forall_mem_cons.mpr ⟨hl, List.forall_mem_singleton.mpr hr⟩)
    intro m hm
    cases op with
    | plus | minus | star | div | mod =>
      cases hm
      rfl
  | unary op operand => exact ensures_unary op operand
  | bracket inner text =>
    exact ensures_bind (ensures_expr inner) fun e => ensures_pure fun pool he => he
  | caseWhen conditions results otherwise =>
    have tail : Ensures (do
        let branches ← compileBranches c s conditions results
        let last ← compileOtherwise c s otherwise
        pure (ScalarExpr.call .caseWhen (branches ++ last) none)) P := by
      refine ensures_bind (ensures_branches conditions results) fun branches =>
        ensures_bind (ensures_otherwise otherwise) fun last => ensures_pure ?_
      intro pool hl hb
      exact closed.call nofun (List.forall_mem_append.mpr ⟨hb, hl⟩)
    dsimp only
    split
    · exact ensures_bind (ensures_throw _ fun _ _ => True) fun _ => tail.imp fun _ _ h _ => h
    · exact tail
  | call name args params distinct =>
    refine ensures_bind (ensures_lift _) fun column => ?_
    cases column with
    | some i =>
      refine ensures_pure ?_
      intro pool hi
      exact closed.field (lt_size_of_computedColumn? hi)
    | none =>
      refine ensures_bind (ensures_lift _) fun f =>
        ensures_bind (ensures_exprs args) fun compiled =>
          ensures_bind (ensures_lift _) fun e => ensures_pure ?_
      intro pool he built hf _
      exact hands name f (lookup?_of_rowFunction hf) compiled params e he pool built
  | chain terms ops =>
    have tail : Ensures (do
        let tree ← ColumnPlan.chainTree ops (← compileExprs c s terms)
        pure ((none : Option String).elim tree tree.withAlias)) P := by
      refine ensures_bind (ensures_exprs terms) fun compiled =>
        ensures_bind (ensures_lift _) fun tree => ensures_pure ?_
      intro pool htree built
      exact closed.chainTree htree built
    have checked : Ensures (match terms, ops with
        | [term], [op] => compileUnary c s op term none
        | terms, ops => do
          let tree ← ColumnPlan.chainTree ops (← compileExprs c s terms)
          pure ((none : Option String).elim tree tree.withAlias)) P := by
      rcases terms with _ | ⟨term, _ | ⟨second, rest⟩⟩
      · exact tail
      · rcases ops with _ | ⟨op, _ | ⟨op₂, ops⟩⟩
        · exact tail
        · exact ensures_unary op term
        · exact tail
      · exact tail
    exact ensures_bind (ensures_lift _) fun _ => checked.imp fun _ _ h _ => h
termination_by 3 * e.size
decreasing_by
  all_goals
    simp only [Expr.size, Expr.listSize]
    omega

theorem ensures_unary (op : ArithmeticOp) (operand : Expr) :
    Ensures (compileUnary c s op operand none) P := by
  rw [compileUnary.eq_def]
  split
  · exact ensures_expr operand
  · refine ensures_bind (ensures_expr operand) fun e => ensures_pure ?_
    intro pool he
    exact closed.call (by rintro m ⟨⟩; rfl) (List.forall_mem_singleton.mpr he)
  · exact ensures_throw _ _
termination_by 3 * operand.size + 1

theorem ensures_exprs (es : List Expr) :
    Ensures (compileExprs c s es) fun pool es => ∀ e ∈ es, P pool e := by
  rw [compileExprs.eq_def]
  cases es with
  | nil => exact ensures_pure fun _ _ h => absurd h List.not_mem_nil
  | cons e es =>
    refine ensures_bind (ensures_expr e) fun first =>
      ensures_bind (ensures_exprs es) fun rest => ensures_pure ?_
    intro pool hr hf
    exact List.forall_mem_cons.mpr ⟨hf, hr⟩
termination_by 3 * Expr.listSize es
decreasing_by
  all_goals
    simp only [Expr.listSize]
    omega

theorem ensures_branches (conditions : List Filter) (results : List Expr) :
    Ensures (compileBranches c s conditions results) fun pool es => ∀ e ∈ es, P pool e := by
  rw [compileBranches.eq_def]
  rcases conditions with _ | ⟨f, fs⟩
  · exact ensures_pure fun _ _ h => absurd h List.not_mem_nil
  · rcases results with _ | ⟨e, es⟩
    · exact ensures_pure fun _ _ h => absurd h List.not_mem_nil
    · refine ensures_bind (ensures_filter f) fun condition =>
        ensures_bind (ensures_expr e) fun result =>
          ensures_bind (ensures_branches fs es) fun rest => ensures_pure ?_
      intro pool hrest hresult hcondition
      exact List.forall_mem_cons.mpr
        ⟨closed.predicate hcondition, List.forall_mem_cons.mpr ⟨hresult, hrest⟩⟩
termination_by 3 * (Filter.listSize conditions + Expr.listSize results)
decreasing_by
  all_goals
    simp only [Expr.listSize, Filter.listSize]
    omega

theorem ensures_otherwise (otherwise : Option Expr) :
    Ensures (compileOtherwise c s otherwise) fun pool es => ∀ e ∈ es, P pool e := by
  rw [compileOtherwise.eq_def]
  cases otherwise with
  | none => exact ensures_pure fun _ _ h => absurd h List.not_mem_nil
  | some e =>
    refine ensures_bind (ensures_expr e) fun last => ensures_pure ?_
    intro pool hl
    exact List.forall_mem_singleton.mpr hl
termination_by 3 * Expr.optionSize otherwise
decreasing_by
  all_goals
    simp only [Expr.optionSize]
    omega

theorem ensures_filter (f : Filter) : Ensures (compileFilter c s f) Q := by
  rw [compileFilter]
  exact ensures_normal _
termination_by 3 * f.size + 1
decreasing_by
  have := Filter.size_normalize_le c.options.reorder f
  omega

theorem ensures_normal (f : Filter) : Ensures (compileNormal c s f) Q := by
  rw [compileNormal.eq_def]
  cases f with
  | bool b =>
    refine ensures_pure fun pool => ?_
    have none : ∀ p ∈ ([] : List PredicateExpr), Q pool p := nofun
    cases b with
    | true => exact closed.simplify .conjunction none
    | false => exact closed.simplify .disjunction none
  | value pattern op v => exact closed.ensures_value c.options pattern op v
  | key op n => exact closed.ensures_key c.options op n
  | path left op right =>
    exact (ensures_lift _).imp fun pool _ h => closed.of_compilePaths h pool
  | expr left op right =>
    refine ensures_bind (ensures_expr left) fun l =>
      ensures_bind (ensures_expr right) fun r => ensures_pure ?_
    intro pool hr hl
    exact closed.compareOf op hl hr
  | member pattern op values =>
    exact (ensures_lift _).imp fun pool _ h => closed.of_compileMember h pool
  | and children =>
    refine ensures_bind (ensures_normals children) fun ps => ensures_pure ?_
    intro pool h
    exact closed.simplify .conjunction h
  | or children =>
    refine ensures_bind (ensures_normals children) fun ps => ensures_pure ?_
    intro pool h
    exact closed.simplify .disjunction h
  | not child => exact ensures_throw _ _
termination_by 3 * f.size
decreasing_by
  all_goals
    simp only [Filter.size]
    omega

theorem ensures_normals (fs : List Filter) :
    Ensures (compileNormals c s fs) fun pool ps => ∀ p ∈ ps, Q pool p := by
  rw [compileNormals.eq_def]
  cases fs with
  | nil => exact ensures_pure fun _ _ h => absurd h List.not_mem_nil
  | cons f fs =>
    refine ensures_bind (ensures_normal f) fun first =>
      ensures_bind (ensures_normals fs) fun rest => ensures_pure ?_
    intro pool hr hf
    exact List.forall_mem_cons.mpr ⟨hf, hr⟩
termination_by 3 * Filter.listSize fs
decreasing_by
  all_goals
    simp only [Filter.listSize]
    omega

end

end Closed

end ColumnPlan
