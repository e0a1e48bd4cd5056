import ColumnPlan.Proofs.Compile.Coincide
import ColumnPlan.Proofs.Compile.Label
import ColumnPlan.Proofs.Compile.Spread
import ColumnPlan.Proofs.Function.Extract
import ColumnPlan.Proofs.Physical.Safe

/-!
# Columns that are named after calls

A column that is named after an expression is taken for its value.  Legible expressions of one name
are compiled to the same tree, so their values are the same; but a name does not show all that an
expression is made of, and expressions that are not legible can share a name and nothing else.

* `reading_coincide`             what is written alike is compiled alike;
* `eval_of_columnName`           expressions of one name have one value.
-/

namespace ColumnPlan

open Compile

/-! ### parts that are compiled alike -/

section
variable {c : Setting} {s : Schema}

theorem coincide_operands {rest rest' : List (ArithmeticOp × Expr)}
    (h : List.Forall₂ (fun t t' => t.1 = t'.1 ∧ t.2.Coincide c s t'.2) rest rest') :
    Coincide (compileOperands c s rest) (compileOperands c s rest') := by
  refine .mapM (h.imp fun t t' same => ?_)
  rw [same.1]
  exact same.2.bind_refl

theorem coincide_unary (op : ArithmeticOp) {e e' : Expr} (h : e.Coincide c s e') :
    (Expr.unary op e).Coincide c s (.unary op e') := by
  unfold Expr.Coincide
  rw [outcome_unary, outcome_unary]
  cases op with
  | plus =>
    rw [compileUnary, compileUnary]
    exact h
  | minus =>
    rw [outcome_negated, outcome_negated]
    exact h.bind_refl
  | star | div | mod =>
    rw [compileUnary, compileUnary]
    · exact .refl _
    all_goals rintro ⟨⟩

theorem coincide_branches {conditions conditions' : List Filter} {results results' : List Expr}
    (hc : List.Forall₂ (Filter.Coincide c s) conditions conditions')
    (hr : List.Forall₂ (Expr.Coincide c s) results results') :
    Coincide (compileBranches c s conditions results).outcome
      (compileBranches c s conditions' results').outcome := by
  induction hc generalizing results results' with
  | nil =>
    rw [compileBranches.eq_def, compileBranches.eq_def]
    exact .refl _
  | cons condition _ ih =>
    cases hr with
    | nil =>
      rw [compileBranches.eq_def, compileBranches.eq_def]
      exact .refl _
    | cons result others =>
      rw [outcome_branches, outcome_branches]
      exact (condition.outcome false).bind fun _ _ _ => result.bind fun _ _ _ =>
        (ih others).bind_refl

theorem coincide_otherwise {otherwise otherwise' : Option Expr}
    (h : Option.Rel (Expr.Coincide c s) otherwise otherwise') :
    Coincide (compileOtherwise c s otherwise).outcome (compileOtherwise c s otherwise').outcome := by
  cases h with
  | none => exact .refl _
  | some h =>
    rw [outcome_otherwise, outcome_otherwise]
    exact h.bind_refl

theorem coincide_caseWhen {conditions conditions' : List Filter} {results results' : List Expr}
    {otherwise otherwise' : Option Expr}
    (h : conditions.length = results.length → conditions'.length = results'.length →
      List.Forall₂ (Filter.Coincide c s) conditions conditions' ∧
        List.Forall₂ (Expr.Coincide c s) results results' ∧
          Option.Rel (Expr.Coincide c s) otherwise otherwise') :
    (Expr.caseWhen conditions results otherwise).Coincide c s
      (.caseWhen conditions' results' otherwise') := by
  unfold Expr.Coincide
  rw [outcome_caseWhen, outcome_caseWhen]
  split
  · exact nofun
  · next length =>
    split
    · exact fun _ _ _ => nofun
    · next length' =>
      obtain ⟨hc, hr, ho⟩ := h (not_not.mp length) (not_not.mp length')
      exact (coincide_branches hc hr).bind fun _ _ _ => (coincide_otherwise ho).bind_refl

end

section
variable {options : CompileOptions} {s : Schema}

/-- With the function that is always there, a call of one argument is known from the argument and
the text of the parameters. -/
theorem coincide_call {name : String} {args args' : List Expr} {params params' : Params} {once : Bool}
    (text : (Expr.call name args params once).text = (Expr.call name args' params' once).text)
    (single : ∀ a a', args = [a] → args' = [a'] →
      a.Coincide ⟨.builtins, options⟩ s a' ∧ params.pieces = params'.pieces) :
    (Expr.call name args params once).Coincide ⟨.builtins, options⟩ s
      (.call name args' params' once) := by
  unfold Expr.Coincide
  rw [outcome_call, outcome_call, Expr.columnName, Expr.columnName, text]
  refine (Coincide.refl _).bind fun column _ _ => ?_
  cases column with
  | some i => exact .refl _
  | none =>
    refine (Coincide.refl _).bind fun f hf _ => ?_
    cases Registry.eq_extract_of_builtins (lookup?_of_rowFunction hf)
    intro p p' hp hp'
    obtain ⟨compiled, hc, hp⟩ := bind_eq_ok_iff.mp hp
    obtain ⟨compiled', hc', hp'⟩ := bind_eq_ok_iff.mp hp'
    obtain ⟨unit, t, rfl, hu, rfl⟩ := exists_of_extract hp
    obtain ⟨unit', t', rfl, hu', rfl⟩ := exists_of_extract hp'
    obtain ⟨a, rfl, ha⟩ := exists_of_mapM_singleton hc
    obtain ⟨a', rfl, ha'⟩ := exists_of_mapM_singleton hc'
    obtain ⟨same, pieces⟩ := single a a' rfl rfl
    rw [same t t' ha ha', extractUnit?_inj pieces hu hu']

/-- **What is written alike is compiled alike.** -/
theorem reading_coincide (V : String → Option Expr) :
    Reading V (Expr.Coincide ⟨.builtins, options⟩ s) (Filter.Coincide ⟨.builtins, options⟩ s) where
  atom _ := .refl _
  sum h h' first rest := by
    unfold Expr.Coincide
    rw [outcome_spread _ s _ h, outcome_spread _ s _ h']
    exact first.bind fun _ _ _ => (coincide_operands rest).bind_refl
  product {e e'} first rest := by
    unfold Expr.Coincide
    rw [outcome_factors _ s e, outcome_factors _ s e']
    exact first.bind fun _ _ _ => (coincide_operands rest).bind_refl
  unary := coincide_unary _
  bracket h := by
    unfold Expr.Coincide
    rw [outcome_bracket, outcome_bracket]
    exact h
  caseWhen := coincide_caseWhen
  call := coincide_call
  leaf _ := .refl _
  compare := .compare _
  connective := .connective _
  single := .single (closed_normal 0).hands_builtins _ _
  empty := .empty
  not := .not
  symm := .symm

/-! ### columns -/

theorem outcome_call_of_named (c : Setting) {t : Schema} {name : String} {args : List Expr}
    {params : Params} {once : Bool} {i : Nat}
    (column : t.named (Expr.call name args params once).columnName = [i]) :
    (compileExpr c t (.call name args params once) false).outcome = .ok (.field i none) := by
  have bound : computedColumn? t (Expr.call name args params once).columnName = .ok (some i) := by
    unfold computedColumn?
    rw [column]
    rfl
  rw [outcome_call, bound]
  rfl

/-- **Legible expressions of one name have one value.**  With the function that is always there,
wherever both are compiled, both have the same value on every row, or fail alike.  So if a column
named after a call holds the value of any legible expression of its name, then the call that is
bound to the column has the value that it would have been computed to. -/
theorem eval_of_columnName {V : String → Option Expr} {e e' : Expr} (h : e.Legible V)
    (h' : e'.Legible V) (name : e.columnName = e'.columnName) {named named' : Bool}
    {pool pool' : LiteralPool} {p p' : ScalarExpr}
    (hp : (compileExpr ⟨.builtins, options⟩ s e named).result pool = .ok p)
    (hp' : (compileExpr ⟨.builtins, options⟩ s e' named').result pool' = .ok p') (row : Row) :
    p.eval row = p'.eval row ∧
      ∀ (t : Schema) (i : Nat) (later : Row) (d : Datum), t.named e'.columnName = [i] →
        later[i]? = some d → p.eval row = .ok d → ∀ f args params once,
          e' = .call f args params once →
            ∃ q, (compileExpr ⟨.builtins, options⟩ t e' false).outcome = .ok q ∧
              q.eval later = p'.eval row := by
  obtain ⟨q, hq, value⟩ := exists_unnamed hp
  obtain ⟨q', hq', value'⟩ := exists_unnamed hp'
  have same : q = q' := (reading_coincide V).of_text h h' name q q' hq hq'
  have one : p.eval row = p'.eval row := by rw [value, value', same]
  refine ⟨one, fun t i later d column held holds f args params once call => ?_⟩
  subst call
  refine ⟨.field i none, outcome_call_of_named _ column, ?_⟩
  rw [← one, holds, ScalarExpr.eval, held]

end

/-! ### calls of one name -/

namespace Sample

/-- Some of the names look like expressions. -/
def instants : Schema :=
  ⟨["a", "b", "t", "a + b", "(t)", "-(t)", "'", "' + '", "CASE", "t, 'month'"].map fun name =>
    ⟨name, .int64, true, none⟩⟩

/-- A call that asks for a field. -/
def field (e : Expr) (params : Params) : Expr := .call "extract" [e] params false

/-- A call that asks for the year. -/
def year (e : Expr) : Expr := field e ⟨[.binary [121, 101, 97, 114]], .empty⟩

section
variable (c : Setting)

theorem outcome_a : (compileExpr c instants (.path "a") false).outcome = .ok (.field 0 none) :=
  outcome_path c instants rfl

theorem outcome_b : (compileExpr c instants (.path "b") false).outcome = .ok (.field 1 none) :=
  outcome_path c instants rfl

theorem outcome_t : (compileExpr c instants (.path "t") false).outcome = .ok (.field 2 none) :=
  outcome_path c instants rfl

theorem outcome_field {options : CompileOptions} {e : Expr} {x : ScalarExpr} {params : Params}
    {unit : TemporalUnit} (absent : instants.named (field e params).columnName = [])
    (asks : (params.get? 0 "field").bind Value.unit? = some unit)
    (h : (compileExpr ⟨.builtins, options⟩ instants e false).outcome = .ok x) :
    (compileExpr ⟨.builtins, options⟩ instants (field e params) false).outcome =
      .ok (.call (.extract unit) [x] none) := by
  have column : computedColumn? instants (field e params).columnName = .ok none := by
    unfold computedColumn?
    rw [absent]
  have known : Registry.builtins.lookup? "extract" = some .extract :=
    (Dictionary.get?_set ..).trans (if_pos rfl)
  have function : rowFunction Registry.builtins "extract" false = .ok .extract := by
    unfold rowFunction
    rw [known]
    rfl
  have asked := extractUnit?_eq_ok_iff.mpr (Option.bind_eq_some_iff.mp asks)
  unfold field at column ⊢
  rw [outcome_call, column]
  simp only [ok_bind, Option.elim_none, function, List.mapM_cons, List.mapM_nil, h, pure_bind]
  rw [Function.transform_extract_singleton]
  simp only [asked, ok_bind]

theorem outcome_year {options : CompileOptions} {e : Expr} {x : ScalarExpr}
    (absent : instants.named (year e).columnName = [])
    (h : (compileExpr ⟨.builtins, options⟩ instants e false).outcome = .ok x) :
    (compileExpr ⟨.builtins, options⟩ instants (year e) false).outcome =
      .ok (.call (.extract .year) [x] none) :=
  outcome_field absent (by decide +kernel) h

end

def words : String → Option Expr
  | "a" => some (.path "a")
  | "t" => some (.path "t")
  | "5" => some (.const (.long 5))
  | _ => none

def chained : Expr := .chain [.path "a", .path "t", .const (.long 5)] [.minus, .plus, .minus]

def nested : Expr :=
  .binary .minus (.binary .plus (.unary .minus (.path "a")) (.path "t")) (.const (.long 5))

theorem legible_a : (Expr.path "a").Legible words := ⟨⟨rfl, fun _ => trivial, trivial⟩, rfl⟩

theorem legible_t : (Expr.path "t").Legible words := ⟨⟨rfl, fun _ => trivial, trivial⟩, rfl⟩

theorem legible_five : (Expr.const (.long 5)).Legible words :=
  ⟨⟨rfl, fun _ => trivial, trivial⟩, rfl⟩

theorem signable_a : (Expr.path "a").Signable words .minus := ⟨.inr rfl, rfl, fun _ => rfl⟩

theorem legible_chained : chained.Legible words := by
  refine ⟨⟨legible_a, legible_t, legible_five, trivial⟩, rfl, ?_, ?_⟩
  · rintro term (_ | ⟨_, _ | ⟨_, _ | ⟨_, ⟨⟩⟩⟩⟩) <;> exact Nat.zero_le 1
  · rintro term ⟨⟩ -
    exact signable_a

theorem legible_nested : nested.Legible words :=
  ⟨⟨⟨legible_a, signable_a⟩, legible_t, Nat.zero_le 1, Nat.zero_le 1⟩, legible_five, Nat.le_refl 1,
    Nat.zero_le 1⟩

theorem legible_year {V : String → Option Expr} {e : Expr} (h : e.Legible V) : (year e).Legible V := by
  have text : (Value.binary [121, 101, 97, 114]).text = "'year'" := by decide +kernel
  refine ⟨rfl, ⟨h, trivial⟩, ?_⟩
  rintro part (_ | ⟨_, ⟨⟩⟩)
  show Piece.ListLexed (Value.pieces _)
  rw [Value.pieces, text]
  exact ⟨rfl, fun _ => trivial, trivial⟩

def sum : ScalarExpr :=
  .call .minus [.call .add [.call .negate [.field 0 none] none, .field 2 none] none,
    .literal (.long 5) none] none

theorem outcome_nested (c : Setting) : (compileExpr c instants nested false).outcome = .ok sum := by
  rw [nested, outcome_binary, outcome_binary, outcome_unary, outcome_negated, outcome_a, outcome_t,
    outcome_const]
  rfl

/-- Both are sums of the same terms. -/
theorem outcome_chained (c : Setting) : (compileExpr c instants chained false).outcome = .ok sum := by
  rw [← outcome_nested, outcome_spread _ _ _ legible_chained, outcome_spread _ _ _ legible_nested]
  rfl

end Sample

/-- A chain and nested operators are written alike, and a column of their name holds the value of
either. -/
theorem eval_of_columnName_chain :
    let e := Sample.year Sample.chained
    let e' := Sample.year Sample.nested
    let row : Row := [some (.long 0), none, some (.long 31556952000), none]
    let computed : Schema := ⟨[⟨"extract(-a + t - 5, 'year')", .int64, true, none⟩]⟩
    e.Legible Sample.words ∧ e'.Legible Sample.words ∧ e.columnName = e'.columnName ∧
      ∃ p p' q, (compileExpr ⟨.builtins, .default⟩ Sample.instants e false).result .empty = .ok p ∧
        (compileExpr ⟨.builtins, .default⟩ Sample.instants e' false).result .empty = .ok p' ∧
        (compileExpr ⟨.builtins, .default⟩ computed e' false).outcome = .ok q ∧
        p.eval row = p'.eval row ∧ q.eval [some (.long 1971)] = p'.eval row := by
  intro e e' row computed
  have h := Sample.legible_year Sample.legible_chained
  have h' := Sample.legible_year Sample.legible_nested
  have name : e.columnName = e'.columnName := by decide +kernel
  have hp := Sample.outcome_year (by decide +kernel) (Sample.outcome_chained ⟨.builtins, .default⟩)
  have hp' := Sample.outcome_year (by decide +kernel) (Sample.outcome_nested ⟨.builtins, .default⟩)
  obtain ⟨same, bound⟩ := eval_of_columnName h h' name hp hp' row
  obtain ⟨q, hq, value⟩ := bound computed 0 [some (.long 1971)] (some (.long 1971))
    (by decide +kernel) rfl rfl _ _ _ _ rfl
  exact ⟨h, h', name, _, _, q, hp, hp', hq, same, value⟩

namespace Sample

def row : Row :=
  [Int64.minValue, 0, 31556952000, -1, 0, 0, 31556952000, 0, 0, 0].map fun n => some (.long n)

/-- A comparison that fails where its operand overflows. -/
def risky : Filter := .expr (.binary .minus (.path "a") (.const (.long 1))) ⟨.eq, .any⟩ (.path "b")

/-- The path if the comparison and a guard hold. -/
def guarded (guard : Filter) : Expr :=
  .caseWhen [.and [risky, guard]] [.path "a"] (some (.path "t"))

/-- A field as a number of years behind 1970, in milliseconds. -/
def years (e : Expr) (params : Params) : Expr :=
  .binary .star (field e params) (.const (.long 31556952000))

/-- Calls of one name, with one argument each: another thing under one label; names with a blank, a
bracket, an open quote or a comma in them, the empty one, one that begins with a sign, one that begins
a case expression, and a text with quotes in it; operands that need brackets, four terms, a number
below zero, and compared words. -/
def lookalikes : List (Expr × Expr) :=
  [(.bracket (.path "a") (some "t"), .path "t"),
   (.path "a + b", .binary .plus (.path "a") (.path "b")),
   (.path "(t)", .bracket (.path "t") none),
   (.path "' + '", .binary .plus (.path "'") (.path "'")),
   (years (.path "t, 'month'") ⟨[.ofText "year"], .empty⟩,
    years (.path "t") ⟨[.ofText "month", .ofText "year"], .empty⟩),
   (.call "" [.path "t"] ⟨[], .empty⟩ false, .bracket (.path "t") none),
   (.call "-" [.path "t"] ⟨[], .empty⟩ false, .unary .minus (.bracket (.path "t") none)),
   (.caseWhen [.bool false, .bool true]
      [.path "CASE", .caseWhen [.bool true] [.path "t"] none] none,
    .caseWhen [.bool false]
      [.caseWhen [.bool true, .bool true] [.path "CASE", .path "t"] none] none),
   (years (.path "t") ⟨[], ⟨[("a", .ofText "x', field='month', z='q"), ("field", .ofText "year")]⟩⟩,
    years (.path "t")
      ⟨[], ⟨[("a", .ofText "x"), ("field", .ofText "month"), ("z", .ofText "q', field='year")]⟩⟩),
   (.binary .minus (.path "t") (.binary .minus (.path "b") (.path "t")),
    .binary .minus (.binary .minus (.path "t") (.path "b")) (.path "t")),
   (.binary .plus (.binary .plus (.binary .plus (.path "a") (.path "t"))
      (.const (.long Int64.maxValue))) (.path "t"),
    .chain [.path "a", .path "t", .const (.long Int64.maxValue), .path "t"]
      [.plus, .plus, .plus, .plus]),
   (.binary .minus (.const (.integer Int32.minValue)) (.const (.integer 1)),
    .binary .minus (.unary .minus (.const (.long 2147483648))) (.const (.integer 1))),
   (guarded (.value "b" ⟨.notEq, .any⟩ (.integer 0)),
    guarded (.expr (.path "b") ⟨.notEq, .any⟩ (.const (.integer 0))))]

/-- The calls have one name, which no column has, and have different values on the row. -/
def Apart (e e' : Expr) : Prop :=
  (year e).columnName = (year e').columnName ∧ instants.named (year e).columnName = [] ∧
    ∃ p p', (compileExpr ⟨.builtins, .default⟩ instants (year e) false).result .empty = .ok p ∧
      (compileExpr ⟨.builtins, .default⟩ instants (year e') false).result .empty = .ok p' ∧
      p.eval row ≠ p'.eval row

theorem apart {e e' : Expr} {x y : ScalarExpr}
    (hx : (compileExpr ⟨.builtins, .default⟩ instants e false).outcome = .ok x)
    (hy : (compileExpr ⟨.builtins, .default⟩ instants e' false).outcome = .ok y)
    (name : (year e).columnName = (year e').columnName)
    (absent : instants.named (year e).columnName = [])
    (values : ((ScalarExpr.call (.extract .year) [x] none).eval row).toOption ≠
      ((ScalarExpr.call (.extract .year) [y] none).eval row).toOption) : Apart e e' :=
  ⟨name, absent, _, _, outcome_year absent hx, outcome_year (name ▸ absent) hy,
    fun same => values (congrArg Except.toOption same)⟩

def scaled (unit : TemporalUnit) (x : ScalarExpr) : ScalarExpr :=
  .call .multiply [.call (.extract unit) [x] none, .literal (.long 31556952000) none] none

theorem outcome_years {options : CompileOptions} {e : Expr} {x : ScalarExpr} {params : Params}
    {unit : TemporalUnit} (absent : instants.named (field e params).columnName = [])
    (asks : (params.get? 0 "field").bind Value.unit? = some unit)
    (h : (compileExpr ⟨.builtins, options⟩ instants e false).outcome = .ok x) :
    (compileExpr ⟨.builtins, options⟩ instants (years e params) false).outcome =
      .ok (scaled unit x) := by
  rw [years, outcome_binary, outcome_field absent asks h, outcome_const]
  rfl

section
variable (c : Setting)

/-- Four terms that are added are added in pairs. -/
theorem balanced_four (e f g h : ScalarExpr) :
    balanced false ⟨false, e⟩ [⟨false, f⟩, ⟨false, g⟩, ⟨false, h⟩] =
      .call .add [.call .add [e, f] none, .call .add [g, h] none] none := by
  have two (e f : ScalarExpr) : balanced false ⟨false, e⟩ [⟨false, f⟩] = .call .add [e, f] none := by
    have short : ([] : List (ArithmeticOp × ScalarExpr)).length ≤ 1 := Nat.zero_le 1
    have one := call_summed e short (show ArithmeticOp.plus.isSum = true from rfl) f
    rw [summed_nil] at one
    exact one.symm
  have middle : [SignedTerm.mk false f, ⟨false, g⟩, ⟨false, h⟩].length / 2 = 1 := by
    simp only [List.length_cons, List.length_nil, Nat.reduceAdd, Nat.reduceDiv]
  rw [balanced_of_drop false ⟨false, e⟩ (by rw [middle]; rfl), middle]
  show ScalarExpr.call .add [balanced false ⟨false, e⟩ [⟨false, f⟩],
    balanced false ⟨false, g⟩ [⟨false, h⟩]] none = _
  rw [two, two]

theorem outcome_four :
    (compileExpr c instants
      (.chain [.path "a", .path "t", .const (.long Int64.maxValue), .path "t"]
        [.plus, .plus, .plus, .plus]) false).outcome =
      .ok (.call .add [.call .add [.field 0 none, .field 2 none] none,
        .call .add [.literal (.long Int64.maxValue) none, .field 2 none] none] none) := by
  rw [outcome_chain (by decide)]
  simp only [List.mapM_cons, List.mapM_nil, outcome_a, outcome_t, outcome_const, ok_bind, pure_bind]
  rw [chainTree_cons rfl, ok_bind]
  exact congrArg Except.ok (balanced_four ..)

theorem outcome_noBranch : (compileBranches c instants [] []).outcome = .ok [] := by
  rw [compileBranches.eq_def]
  rfl

theorem outcome_guarded {guard : Filter} {p : PredicateExpr}
    (h : (compileFilter c instants (.and [risky, guard])).outcome = .ok p) :
    (compileExpr c instants (guarded guard) false).outcome =
      .ok (.call .caseWhen [.predicate p, .field 0 none, .field 2 none] none) := by
  rw [guarded, outcome_caseWhen, outcome_branches, outcome_otherwise, h, outcome_noBranch,
    outcome_a, outcome_t]
  rfl

def difference : PredicateExpr :=
  .compare (.compare .eq)
    [.call .minus [.field 0 none, .literal (.long 1) none] none, .field 1 none]

theorem outcome_risky : (compileFilter c instants risky).outcome = .ok difference := by
  rw [outcome_compileFilter, Filter.normalize_of_isLeaf rfl, risky, outcome_compileNormal_expr,
    outcome_binary, outcome_a, outcome_b, outcome_const]
  rfl

theorem outcome_pair {guard : Filter} {p : PredicateExpr}
    (h : (compileFilter ⟨c.functions, .default⟩ instants guard).outcome = .ok p) :
    (compileFilter ⟨c.functions, .default⟩ instants (.and [risky, guard])).outcome =
      .ok (.allOf (if risky.complexity ≤ guard.complexity then [difference, p]
        else [p, difference])) := by
  have order : CompileOptions.default.order [risky, guard] =
      if risky.complexity ≤ guard.complexity then [risky, guard] else [guard, risky] :=
    Filter.sortByComplexity_pair _ _
  refine (outcome_connective _ _ false .conjunction _).trans ?_
  rw [order]
  split
  · rw [List.mapM_cons, List.mapM_cons, List.mapM_nil]
    simp only [Filter.under, Bool.false_eq_true, if_false, h, outcome_risky, ok_bind, pure_bind]
    rfl
  · rw [List.mapM_cons, List.mapM_cons, List.mapM_nil]
    simp only [Filter.under, Bool.false_eq_true, if_false, h, outcome_risky, ok_bind, pure_bind]
    rfl

theorem outcome_value :
    (compileFilter ⟨c.functions, .default⟩ instants
      (.value "b" ⟨.notEq, .any⟩ (.integer 0))).outcome =
      .ok (.compare (.notEqualConst (.integer 0)) [.field 1 none]) := by
  rw [outcome_compileFilter, Filter.normalize_of_isLeaf rfl, compileNormal]
  rfl

theorem outcome_expr :
    (compileFilter ⟨c.functions, .default⟩ instants
      (.expr (.path "b") ⟨.notEq, .any⟩ (.const (.integer 0)))).outcome =
      .ok (.compare (.compare .notEq) [.field 1 none, .literal (.integer 0) none]) := by
  rw [outcome_compileFilter, Filter.normalize_of_isLeaf rfl, outcome_compileNormal_expr, outcome_b,
    outcome_const]
  rfl

def constant (value : Bool) : PredicateExpr := if value then .always else .never

theorem outcome_bool (value : Bool) :
    (compileFilter c instants (.bool value)).outcome = .ok (constant value) := by
  rw [outcome_compileFilter, Filter.normalize_of_isLeaf rfl, compileNormal]
  cases value <;> rfl

theorem outcome_one (b : Bool) {e : Expr} {x : ScalarExpr}
    (h : (compileExpr c instants e false).outcome = .ok x) :
    (compileExpr c instants (.caseWhen [.bool b] [e] none) false).outcome =
      .ok (.call .caseWhen [.predicate (constant b), x] none) := by
  rw [outcome_caseWhen, outcome_branches, outcome_bool, h, outcome_noBranch, compileOtherwise]
  rfl

theorem outcome_two (b d : Bool) {e f : Expr} {x y : ScalarExpr}
    (h : (compileExpr c instants e false).outcome = .ok x)
    (h' : (compileExpr c instants f false).outcome = .ok y) :
    (compileExpr c instants (.caseWhen [.bool b, .bool d] [e, f] none) false).outcome =
      .ok (.call .caseWhen [.predicate (constant b), x, .predicate (constant d), y] none) := by
  rw [outcome_caseWhen, outcome_branches, outcome_branches, outcome_bool, outcome_bool, h, h',
    outcome_noBranch, compileOtherwise]
  rfl

end

end Sample

/-- Names that show less: calls that are not legible, or read their words differently, share a name
and not their value. -/
theorem not_eval_of_columnName :
    Sample.lookalikes.Forall fun pair => Sample.Apart pair.1 pair.2 := by
  let c : Setting := ⟨.builtins, .default⟩
  have a := Sample.outcome_a c
  have b := Sample.outcome_b c
  have t := Sample.outcome_t c
  have inBrackets := (outcome_bracket c Sample.instants (.path "t") none).trans t
  refine ⟨?label, ?blank, ?bracket, ?quote, ?comma, ?empty, ?sign, ?cases, ?text, ?nest, ?four, ?below,
    ?guard⟩
  case label =>
    exact Sample.apart ((outcome_bracket ..).trans a) t (by decide +kernel) (by decide +kernel)
      (by decide +kernel)
  case blank =>
    have added : (compileExpr c Sample.instants (.binary .plus (.path "a") (.path "b"))
        false).outcome = .ok (.call .add [.field 0 none, .field 1 none] none) := by
      rw [outcome_binary, a, b]
      rfl
    exact Sample.apart (outcome_path _ _ rfl) added (by decide +kernel) (by decide +kernel)
      (by decide +kernel)
  case bracket =>
    exact Sample.apart (outcome_path _ _ rfl) inBrackets (by decide +kernel) (by decide +kernel)
      (by decide +kernel)
  case quote =>
    have mark : (compileExpr c Sample.instants (.path "'") false).outcome = .ok (.field 6 none) :=
      outcome_path _ _ rfl
    have added : (compileExpr c Sample.instants (.binary .plus (.path "'") (.path "'"))
        false).outcome = .ok (.call .add [.field 6 none, .field 6 none] none) := by
      rw [outcome_binary, mark]
      rfl
    exact Sample.apart (outcome_path _ _ rfl) added (by decide +kernel) (by decide +kernel)
      (by decide +kernel)
  case comma =>
    have column : (compileExpr c Sample.instants (.path "t, 'month'") false).outcome =
        .ok (.field 9 none) := outcome_path _ _ rfl
    exact Sample.apart (x := Sample.scaled .year _) (y := Sample.scaled .month _)
      (Sample.outcome_years (by decide +kernel) (by decide +kernel) column)
      (Sample.outcome_years (by decide +kernel) (by decide +kernel) t) (by decide +kernel)
      (by decide +kernel) (by decide +kernel)
  case empty =>
    exact Sample.apart (x := .field 4 none) (outcome_call_of_named _ (by decide +kernel)) inBrackets
      (by decide +kernel) (by decide +kernel) (by decide +kernel)
  case sign =>
    have negated : (compileExpr c Sample.instants (.unary .minus (.bracket (.path "t") none))
        false).outcome = .ok (.call .negate [.field 2 none] none) := by
      rw [outcome_unary, outcome_negated, inBrackets]
      rfl
    exact Sample.apart (x := .field 5 none) (outcome_call_of_named _ (by decide +kernel)) negated
      (by decide +kernel) (by decide +kernel) (by decide +kernel)
  case cases =>
    have word : (compileExpr c Sample.instants (.path "CASE") false).outcome =
        .ok (.field 8 none) := outcome_path _ _ rfl
    exact Sample.apart (Sample.outcome_two c false true word (Sample.outcome_one c true t))
      (Sample.outcome_one c false (Sample.outcome_two c true true word t)) (by decide +kernel)
      (by decide +kernel) (by decide +kernel)
  case text =>
    exact Sample.apart (x := Sample.scaled .year _) (y := Sample.scaled .month _)
      (Sample.outcome_years (by decide +kernel) (by decide +kernel) t)
      (Sample.outcome_years (by decide +kernel) (by decide +kernel) t) (by decide +kernel)
      (by decide +kernel) (by decide +kernel)
  case nest =>
    have inner : (compileExpr c Sample.instants (.binary .minus (.path "t")
        (.binary .minus (.path "b") (.path "t"))) false).outcome =
        .ok (.call .minus [.field 2 none, .call .minus [.field 1 none, .field 2 none] none] none) := by
      rw [outcome_binary, outcome_binary, t, b]
      rfl
    have outer : (compileExpr c Sample.instants (.binary .minus (.binary .minus (.path "t")
        (.path "b")) (.path "t")) false).outcome =
        .ok (.call .minus [.call .minus [.field 2 none, .field 1 none] none, .field 2 none] none) := by
      rw [outcome_binary, outcome_binary, t, b]
      rfl
    exact Sample.apart inner outer (by decide +kernel) (by decide +kernel) (by decide +kernel)
  case four =>
    have nested : (compileExpr c Sample.instants (.binary .plus (.binary .plus (.binary .plus
        (.path "a") (.path "t")) (.const (.long Int64.maxValue))) (.path "t")) false).outcome =
        .ok (.call .add [.call .add [.call .add [.field 0 none, .field 2 none] none,
          .literal (.long Int64.maxValue) none] none, .field 2 none] none) := by
      rw [outcome_binary, outcome_binary, outcome_binary, a, t, outcome_const]
      rfl
    exact Sample.apart nested (Sample.outcome_four c) (by decide +kernel) (by decide +kernel)
      (by decide +kernel)
  case below =>
    have below : (compileExpr c Sample.instants (.binary .minus (.const (.integer Int32.minValue))
        (.const (.integer 1))) false).outcome =
        .ok (.call .minus [.literal (.integer Int32.minValue) none, .literal (.integer 1) none]
          none) := by
      rw [outcome_binary, outcome_const, outcome_const]
      rfl
    have negated : (compileExpr c Sample.instants (.binary .minus (.unary .minus
        (.const (.long 2147483648))) (.const (.integer 1))) false).outcome =
        .ok (.call .minus [.call .negate [.literal (.long 2147483648) none] none,
          .literal (.integer 1) none] none) := by
      rw [outcome_binary, outcome_unary, outcome_negated, outcome_const, outcome_const]
      rfl
    exact Sample.apart below negated (by decide +kernel) (by decide +kernel) (by decide +kernel)
  case guard =>
    have value := Sample.outcome_guarded c (Sample.outcome_pair c (Sample.outcome_value c))
    have expr := Sample.outcome_guarded c (Sample.outcome_pair c (Sample.outcome_expr c))
    exact Sample.apart value expr (by decide +kernel) (by decide +kernel) (by decide +kernel)

end ColumnPlan
