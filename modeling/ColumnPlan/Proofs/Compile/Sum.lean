import ColumnPlan.Proofs.Compile.Chain
import ColumnPlan.Proofs.Physical.Arithmetic

/-!
# Chains compute signed sums

Every part of the tree above the terms of a chain holds the signed sum of its own terms, in the
type in which they all meet, or NULL if one of them is NULL.  Only an overflow can come between,
and there is none where the numbers are small together.

* `Datum.Whole`, `Datum.number`   cells that are NULL or integers;
* `SumTree.total`, `SumTree.type`   what a tree computes, step by step;
* `total_eq_sum`                the total is the signed sum of the leaves;
* `shows_of_eval`               a tree that is evaluated shows its total;
* `exists_eval`                 a tree over small numbers is evaluated;
* `eval_chain`                  the same for a compiled chain.
-/

namespace ColumnPlan

open Compile

namespace Datum

/-- The cell is NULL or holds an integer of one of the two widths. -/
def Whole (d : Datum) : Prop := ∀ v, d = some v → v.type = .integer ∨ v.type = .long

/-- The integer in a cell; NULL counts nothing. -/
def number (d : Datum) : Int := (d.bind Value.toInt?).getD 0

/-- The type of the integer in a cell. -/
def width (d : Datum) : ValueType :=
  if d.map Value.type = some .integer then .integer else .long

/-- The cell holds this number in this type, unless it is NULL. -/
def Shows (d : Datum) (z : Int) (type : ValueType) : Prop :=
  ∀ v, d = some v → v.toInt? = some z ∧ v.type = type

theorem Whole.shows {d : Datum} (h : d.Whole) : d.Shows d.number d.width := by
  rintro v rfl
  have integral := h v rfl
  obtain ⟨n, hn⟩ := Value.isIntegral_iff.mp integral
  have number : number (some v) = n := by
    show v.toInt?.getD 0 = n
    rw [hn]
    rfl
  refine ⟨by rw [number, hn], ?_⟩
  rcases integral with narrow | wide
  · show v.type = if some v.type = some .integer then .integer else .long
    rw [narrow]
    rfl
  · show v.type = if some v.type = some .integer then .integer else .long
    rw [wide]
    rfl

theorem width_isIntegral (d : Datum) : d.width = .integer ∨ d.width = .long := by
  unfold width
  split
  · exact .inl rfl
  · exact .inr rfl

/-- The outcome of an operation on integers: NULL if an operand is, else the number if it fits. -/
def computed (name : String) (null : Bool) (type : ValueType) (z : Int) : Except Error Datum :=
  if null then .ok none else some <$> fitted name (Value.ofInt? type z)

theorem computed_eq_ok {name : String} {null : Bool} {type : ValueType} {z : Int} {d : Datum}
    (ht : type = .integer ∨ type = .long) (h : computed name null type z = .ok d) :
    (d = none ↔ null = true) ∧ d.Shows z type := by
  unfold computed at h
  split at h
  · next missing =>
    cases h
    exact ⟨iff_of_true rfl missing, nofun⟩
  · next present =>
    cases found : Value.ofInt? type z with
    | none =>
      rw [found] at h
      cases h
    | some v =>
      rw [found] at h
      cases h
      refine ⟨iff_of_false (Option.some_ne_none v) present, ?_⟩
      rintro w hw
      cases hw
      exact Value.toInt?_of_ofInt? ht found

theorem exists_computed (name : String) (null : Bool) (type : ValueType) {z : Int}
    (h : z.natAbs ≤ 2 ^ 31 - 1) : ∃ d, computed name null type z = .ok d := by
  obtain ⟨v, hv⟩ := Value.exists_ofInt? type h
  cases null with
  | true => exact ⟨none, rfl⟩
  | false =>
    refine ⟨some v, ?_⟩
    show some <$> fitted name (Value.ofInt? type z) = .ok (some v)
    rw [hv]
    rfl

section
variable {x y : Datum} {a b : Int} {t u : ValueType}

theorem onValues_of_shows {f : ArithmeticFunction} (hf : f ≠ .mod) {z : Int}
    (hz : f.integerResult? a b = some z) (hx : x.Shows a t) (hy : y.Shows b u) :
    onValues (arithmetic f) x y = computed f.name (x.isNone || y.isNone) (t.wider u) z := by
  cases x with
  | none => rfl
  | some v =>
    cases y with
    | none => rfl
    | some w =>
      obtain ⟨hv, rfl⟩ := hx v rfl
      obtain ⟨hw, rfl⟩ := hy w rfl
      show arithmetic f v w = some <$> fitted f.name (Value.ofInt? (v.type.wider w.type) z)
      rw [arithmetic_of_toInt? f hv hw, f.onInts_of_integerResult? hf hz]

theorem onValue_of_shows (hx : x.Shows a t) :
    onValue negateValue x = computed "negate" x.isNone t (-a) := by
  cases x with
  | none => rfl
  | some v =>
    obtain ⟨hv, rfl⟩ := hx v rfl
    show negateValue v >>= (fun w => pure (some w)) =
      some <$> fitted "negate" (Value.ofInt? v.type (-a))
    rw [negateValue_of_toInt? hv]
    rfl

end

end Datum

/-! ### trees -/

/-- What a term adds to the sum, if its cell is known. -/
def SignedTerm.amount (cell : ScalarExpr → Datum) (t : SignedTerm) : Int :=
  if t.negative then -(cell t.expr).number else (cell t.expr).number

namespace SumTree
variable (cell : ScalarExpr → Datum)

/-- What the tree computes, if the cells of its leaves are known and none is NULL. -/
def total : SumTree → Int
  | term e => (cell e).number
  | negate t => -t.total
  | add left right => left.total + right.total
  | minus left right => left.total - right.total

/-- The type in which the tree computes it. -/
def type : SumTree → ValueType
  | term e => (cell e).width
  | negate t => t.type
  | add left right | minus left right => left.type.wider right.type

theorem type_isIntegral (t : SumTree) : t.type cell = .integer ∨ t.type cell = .long := by
  induction t with
  | term e => exact Datum.width_isIntegral _
  | negate t ih => exact ih
  | add left right | minus left right => exact ValueType.wider_isIntegral _ _

/-- The tree computes in the narrow type iff all of its leaves are of that type. -/
theorem type_eq_integer_iff (t : SumTree) :
    t.type cell = .integer ↔ ∀ e ∈ t.terms, (cell e).map Value.type = some .integer := by
  induction t with
  | term e =>
    rw [terms, List.forall_mem_singleton, type, Datum.width]
    split
    · next narrow => exact iff_of_true rfl narrow
    · next wide => exact iff_of_false (by decide) wide
  | negate t ih => exact ih
  | add left right ihl ihr | minus left right ihl ihr =>
    rw [terms, List.forall_mem_append, ← ihl, ← ihr, type, ValueType.wider]
    split
    · next narrow => exact iff_of_true rfl narrow
    · next wide => exact iff_of_false (by decide) wide

theorem type_eq (t : SumTree) :
    t.type cell =
      if ∀ d ∈ t.terms.map cell, d.map Value.type = some .integer then .integer else .long := by
  have narrow : t.type cell = .integer ↔
      ∀ d ∈ t.terms.map cell, d.map Value.type = some .integer := by
    rw [List.forall_mem_map]
    exact t.type_eq_integer_iff cell
  split
  · next all => exact narrow.mpr all
  · next some => exact (t.type_isIntegral cell).resolve_left (mt narrow.mp some)

/-- The total is the sum of the leaves with their signs; below a subtraction both are turned. -/
theorem sum_signedTerms (t : SumTree) (negative : Bool) :
    ((t.signedTerms negative).map (SignedTerm.amount cell)).sum =
      if negative then -t.total cell else t.total cell := by
  induction t generalizing negative with
  | term e => cases negative <;> simp [signedTerms, SignedTerm.amount, total]
  | negate t ih =>
    rw [signedTerms, ih, total]
    cases negative <;> simp
  | add left right ihl ihr =>
    rw [signedTerms, List.map_append, List.sum_append, ihl, ihr, total]
    cases negative with
    | true => simp only [if_true]; omega
    | false => rfl
  | minus left right ihl ihr =>
    rw [signedTerms, List.map_append, List.sum_append, ihl, ihr, total]
    cases negative with
    | true => simp only [Bool.not_true, Bool.false_eq_true, if_true, if_false]; omega
    | false => simp only [Bool.not_false, Bool.false_eq_true, if_true, if_false]; omega

/-- The sum of the absolute values of the leaves. -/
def mass (t : SumTree) : Nat := (t.terms.map fun e => (cell e).number.natAbs).sum

theorem mass_of_terms {p left right : SumTree} (h : p.terms = left.terms ++ right.terms) :
    p.mass cell = left.mass cell + right.mass cell := by
  unfold mass
  rw [h, List.map_append, List.sum_append]

theorem natAbs_total_le (t : SumTree) : (t.total cell).natAbs ≤ t.mass cell := by
  induction t with
  | term e => simp [total, mass, terms]
  | negate t ih =>
    rw [total, Int.natAbs_neg]
    exact ih
  | add left right ihl ihr | minus left right ihl ihr =>
    rw [mass_of_terms cell rfl, total]
    omega

/-- A cell that the tree can be evaluated to: NULL iff a leaf is, else its total in its type. -/
structure Shows (t : SumTree) (d : Datum) : Prop where
  null_iff : d = none ↔ none ∈ t.terms.map cell
  shows : d.Shows (t.total cell) (t.type cell)

variable {cell}

theorem Shows.term {e : ScalarExpr} (h : (cell e).Whole) : (SumTree.term e).Shows cell (cell e) := by
  refine ⟨?_, h.shows⟩
  rw [terms, List.map_singleton, List.mem_singleton, eq_comm]

/-- What is computed from the cells of two trees is shown by the tree above them. -/
theorem Shows.join {p left right : SumTree} (terms : p.terms = left.terms ++ right.terms)
    {x y d : Datum} (hx : left.Shows cell x) (hy : right.Shows cell y) {name : String}
    (h : Datum.computed name (x.isNone || y.isNone) (p.type cell) (p.total cell) = .ok d) :
    p.Shows cell d := by
  obtain ⟨null, shows⟩ := Datum.computed_eq_ok (p.type_isIntegral cell) h
  refine ⟨?_, shows⟩
  rw [null, terms, List.map_append, List.mem_append, ← hx.null_iff, ← hy.null_iff,
    Bool.or_eq_true, Option.isNone_iff_eq_none, Option.isNone_iff_eq_none]

theorem Shows.opposite {t : SumTree} {x d : Datum} (hx : t.Shows cell x)
    (h : Datum.computed "negate" x.isNone (t.type cell) (-t.total cell) = .ok d) :
    (negate t).Shows cell d := by
  obtain ⟨null, shows⟩ := Datum.computed_eq_ok (t.type_isIntegral cell) h
  refine ⟨?_, shows⟩
  rw [null, terms, ← hx.null_iff, Option.isNone_iff_eq_none]

section
variable {row : Row}

/-- The cells are what the leaves are evaluated to, NULL or integers. -/
def Evaluates (row : Row) (cell : ScalarExpr → Datum) (t : SumTree) : Prop :=
  ∀ e ∈ t.terms, e.eval row = .ok (cell e) ∧ (cell e).Whole

theorem Evaluates.parts {p left right : SumTree} (h : p.Evaluates row cell)
    (terms : p.terms = left.terms ++ right.terms) :
    left.Evaluates row cell ∧ right.Evaluates row cell := by
  unfold Evaluates at h
  rw [terms, List.forall_mem_append] at h
  exact h

theorem eval_join {f : ArithmeticFunction} (hf : f ≠ .mod) {left right : SumTree} {x y : Datum}
    {z : Int} (hz : f.integerResult? (left.total cell) (right.total cell) = some z)
    (hx : left.Shows cell x) (hy : right.Shows cell y) (ex : left.expr.eval row = .ok x)
    (ey : right.expr.eval row = .ok y) :
    (ScalarExpr.call f.function [left.expr, right.expr] none).eval row =
      Datum.computed f.name (x.isNone || y.isNone)
        ((left.type cell).wider (right.type cell)) z := by
  rw [eval_arithmetic, ex, ok_bind, ey, ok_bind]
  exact Datum.onValues_of_shows hf hz hx.shows hy.shows

/-- One step of the induction, for a tree above two others. -/
theorem shows_of_eval_join {f : ArithmeticFunction} (hf : f ≠ .mod) {p left right : SumTree}
    (terms : p.terms = left.terms ++ right.terms)
    (type : p.type cell = (left.type cell).wider (right.type cell))
    (total : f.integerResult? (left.total cell) (right.total cell) = some (p.total cell))
    (hl : ∀ {x}, left.expr.eval row = .ok x → left.Shows cell x)
    (hr : ∀ {y}, right.expr.eval row = .ok y → right.Shows cell y) {d : Datum}
    (he : (ScalarExpr.call f.function [left.expr, right.expr] none).eval row = .ok d) :
    p.Shows cell d := by
  have steps := he
  rw [eval_arithmetic] at steps
  obtain ⟨x, ex, steps⟩ := bind_eq_ok_iff.mp steps
  obtain ⟨y, ey, -⟩ := bind_eq_ok_iff.mp steps
  rw [eval_join hf total (hl ex) (hr ey) ex ey, ← type] at he
  exact (hl ex).join terms (hr ey) he

/-- **A tree that is evaluated shows its total**, by induction on the tree. -/
theorem shows_of_eval (t : SumTree) (h : t.Evaluates row cell) {d : Datum}
    (he : t.expr.eval row = .ok d) : t.Shows cell d := by
  induction t generalizing d with
  | term e =>
    obtain ⟨cellOf, whole⟩ := h e (List.mem_singleton_self e)
    cases cellOf.symm.trans he
    exact .term whole
  | negate t ih =>
    rw [expr, eval_negate] at he
    obtain ⟨x, ex, he⟩ := bind_eq_ok_iff.mp he
    have hx := ih h ex
    rw [Datum.onValue_of_shows hx.shows] at he
    exact hx.opposite he
  | add left right ihl ihr =>
    obtain ⟨hl, hr⟩ := h.parts rfl
    exact shows_of_eval_join (f := .add) (by decide) rfl rfl rfl (ihl hl) (ihr hr) he
  | minus left right ihl ihr =>
    obtain ⟨hl, hr⟩ := h.parts rfl
    exact shows_of_eval_join (f := .minus) (by decide) rfl rfl rfl (ihl hl) (ihr hr) he

theorem exists_eval_join {f : ArithmeticFunction} (hf : f ≠ .mod) {p left right : SumTree}
    (terms : p.terms = left.terms ++ right.terms)
    (total : f.integerResult? (left.total cell) (right.total cell) = some (p.total cell))
    (h : p.Evaluates row cell) (small : p.mass cell ≤ 2 ^ 31 - 1)
    (hl : left.mass cell ≤ 2 ^ 31 - 1 → ∃ x, left.expr.eval row = .ok x)
    (hr : right.mass cell ≤ 2 ^ 31 - 1 → ∃ y, right.expr.eval row = .ok y) :
    ∃ d, (ScalarExpr.call f.function [left.expr, right.expr] none).eval row = .ok d := by
  have masses := p.mass_of_terms cell terms
  have fits : (p.total cell).natAbs ≤ 2 ^ 31 - 1 := (p.natAbs_total_le cell).trans small
  obtain ⟨x, ex⟩ := hl (by omega)
  obtain ⟨y, ey⟩ := hr (by omega)
  obtain ⟨left', right'⟩ := h.parts terms
  rw [eval_join hf total (shows_of_eval left left' ex) (shows_of_eval right right' ey) ex ey]
  exact Datum.exists_computed _ _ _ fits

/-- **A tree over small numbers is evaluated**: each of its parts is small. -/
theorem exists_eval (t : SumTree) (h : t.Evaluates row cell) (small : t.mass cell ≤ 2 ^ 31 - 1) :
    ∃ d, t.expr.eval row = .ok d := by
  induction t with
  | term e => exact ⟨cell e, (h e (List.mem_singleton_self e)).1⟩
  | negate t ih =>
    obtain ⟨x, ex⟩ := ih h small
    have fits : (-t.total cell).natAbs ≤ 2 ^ 31 - 1 := by
      rw [Int.natAbs_neg]
      exact (t.natAbs_total_le cell).trans small
    rw [expr, eval_negate, ex, ok_bind, Datum.onValue_of_shows (shows_of_eval t h ex).shows]
    exact Datum.exists_computed _ _ _ fits
  | add left right ihl ihr =>
    obtain ⟨hl, hr⟩ := h.parts rfl
    exact exists_eval_join (f := .add) (by decide) rfl rfl h small (ihl hl) (ihr hr)
  | minus left right ihl ihr =>
    obtain ⟨hl, hr⟩ := h.parts rfl
    exact exists_eval_join (f := .minus) (by decide) rfl rfl h small (ihl hl) (ihr hr)

end

end SumTree

/-! ### compiled chains -/

/-- The sum of cells with the operators that stand before them. -/
def chainSum (ops : List ArithmeticOp) (cells : List Datum) : Int :=
  (List.zipWith (fun op (d : Datum) => if op = .minus then -d.number else d.number) ops cells).sum

theorem map_amount_signed (cell : ScalarExpr → Datum) (ops : List ArithmeticOp)
    (terms : List ScalarExpr) :
    ((signed ops terms).map (SignedTerm.amount cell)).sum = chainSum ops (terms.map cell) := by
  unfold signed chainSum SignedTerm.amount
  rw [List.map_zipWith, List.zipWith_map_right]
  simp only [decide_eq_true_eq]

theorem SumTree.OfChain.total_eq {ops : List ArithmeticOp} {terms : List ScalarExpr} {t : SumTree}
    (h : SumTree.OfChain ops terms t) (cell : ScalarExpr → Datum) :
    t.total cell = chainSum ops (terms.map cell) := by
  rw [← map_amount_signed, ← h.signedTerms_eq, t.sum_signedTerms]
  rfl

section
variable {c : Setting} {s : Schema} {terms : List Expr} {ops : List ArithmeticOp}

/-- A chain that is compiled to a tree and the value of what it is compiled to. -/
theorem exists_ofChain_of_compiled (hn : 2 ≤ terms.length) {named : Bool} {tree : ScalarExpr}
    (hc : (compileExpr c s (.chain terms ops) named).outcome = .ok tree)
    {compiled : List ScalarExpr}
    (ht : List.Forall₂ (fun e x => (compileExpr c s e false).outcome = .ok x) terms compiled)
    (row : Row) :
    ∃ t, SumTree.OfChain ops compiled t ∧ t.terms = compiled ∧ tree.eval row = t.expr.eval row := by
  rw [outcome_chain hn] at hc
  obtain ⟨⟨⟩, checked, hc⟩ := bind_eq_ok_iff.mp hc
  obtain ⟨-, even, -⟩ := checkChain_eq_ok_iff.mp checked
  have counted := even.symm.trans ht.length_eq
  obtain ⟨t, tOf⟩ := exists_ofChain counted (by omega)
  refine ⟨t, tOf, tOf.terms_eq counted, ?_⟩
  rw [mapM_eq_ok_iff.mpr ht, ok_bind, tOf.chainTree_eq] at hc
  cases hc
  cases named with
  | true => exact t.expr.eval_withAlias row _
  | false => rfl

/-- **A chain computes the sum of its terms with their signs.**  Its value is NULL iff a term is
NULL, and it is an `INTEGER` iff all terms are.  Numbers that do not exceed 31 bits together
cannot overflow on the way. -/
theorem eval_chain (row : Row) (hn : 2 ≤ terms.length) {named : Bool} {pool : LiteralPool}
    {tree : ScalarExpr}
    (hc : (compileExpr c s (.chain terms ops) named).result pool = .ok tree)
    {compiled : List ScalarExpr}
    (ht : List.Forall₂ (fun e x => (compileExpr c s e false).outcome = .ok x) terms compiled)
    {cells : List Datum} (he : (compiled.mapM fun x => x.eval row) = .ok cells)
    (whole : ∀ d ∈ cells, d.Whole) :
    (∀ d, tree.eval row = .ok d → (d = none ↔ none ∈ cells) ∧
      ∀ v, d = some v → v.toInt? = some (chainSum ops cells) ∧
        v.type = if ∀ d ∈ cells, d.map Value.type = some .integer then .integer else .long) ∧
    ((cells.map fun d => d.number.natAbs).sum ≤ 2 ^ 31 - 1 → ∃ d, tree.eval row = .ok d) := by
  rw [(blind_compileExpr c s _ named).result_eq] at hc
  obtain ⟨t, tOf, tTerms, value⟩ := exists_ofChain_of_compiled hn hc ht row
  obtain ⟨cell, rfl, cellOf⟩ := exists_map_of_mapM he
  have evaluates : t.Evaluates row cell := by
    intro e member
    rw [tTerms] at member
    exact ⟨cellOf e member, whole _ (List.mem_map_of_mem member)⟩
  constructor
  · intro d hd
    have shown := SumTree.shows_of_eval t evaluates (value.symm.trans hd)
    refine ⟨tTerms ▸ shown.null_iff, fun v hv => ?_⟩
    have both := shown.shows v hv
    rwa [tOf.total_eq, t.type_eq, tTerms] at both
  · intro small
    have mass : t.mass cell ≤ 2 ^ 31 - 1 := by
      rw [List.map_map, ← tTerms] at small
      exact small
    rw [value]
    exact SumTree.exists_eval t evaluates mass

end

/-- Seven is taken off first, and one `LONG` among the terms makes the sum one. -/
theorem eval_chain_minus :
    let c : Setting := ⟨.builtins, .default⟩
    let s : Schema := ⟨[⟨"a.x", .int32, true, none⟩, ⟨"a.y", .int64, true, none⟩]⟩
    let e := Expr.chain [.path "a.x", .const (.integer 5), .path "a.y"] [.minus, .plus, .minus]
    let row : Row := [some (.integer 7), some (.long 3)]
    ∃ tree v, (compileExpr c s e false).result .empty = .ok tree ∧
      tree.eval row = .ok (some v) ∧ v.toInt? = some (-5) ∧ v.type = .long := by
  intro c s e row
  have compiled : List.Forall₂ (fun e x => (compileExpr c s e false).outcome = .ok x)
      [.path "a.x", .const (.integer 5), .path "a.y"]
      [.field 0 none, .literal (.integer 5) none, .field 1 none] := by
    refine .cons ?_ (.cons ?_ (.cons ?_ .nil)) <;> · rw [compileExpr]; rfl
  obtain ⟨t, ht⟩ : ∃ t, SumTree.OfChain [.minus, .plus, .minus]
      [.field 0 none, .literal (.integer 5) none, .field 1 none] t :=
    exists_ofChain rfl (by decide)
  have tree : (compileExpr c s e false).outcome = .ok t.expr :=
    outcome_chain_of_ofChain (by decide) rfl (by decide) compiled ht false
  have whole : ∀ d ∈ [some (.integer 7), some (.integer 5), some (.long 3)], Datum.Whole d := by
    rintro d member v rfl
    rcases List.mem_cons.mp member with first | member
    · cases first
      exact .inl rfl
    · rcases List.mem_pair.mp member with second | third
      · cases second
        exact .inl rfl
      · cases third
        exact .inr rfl
  obtain ⟨sum, succeeds⟩ := eval_chain row (by decide) tree compiled rfl whole
  obtain ⟨d, value⟩ := succeeds (by decide)
  obtain ⟨null, shows⟩ := sum d value
  cases d with
  | none => exact absurd (null.mp rfl) (by decide)
  | some v =>
    obtain ⟨number, type⟩ := shows v rfl
    exact ⟨t.expr, v, tree, value, number, type⟩

end ColumnPlan
