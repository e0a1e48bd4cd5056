import ColumnPlan.Proofs.Compile.Outcome
import ColumnPlan.Proofs.Physical.Comparison
import ColumnPlan.Proofs.Schema.Resolve

/-!
# A compiled filter holds where the filter is true

A predicate knows two outcomes and a filter three, so they agree on one thing only: a compiled
filter holds of a row iff the filter is true of it.  Both connectives keep this, false and unknown
being alike to them; a negation would not, and so it is gone before anything is compiled.

* `Filter.meaningIn c s row f`   the meaning of a filter whose expressions are evaluated by their
                                 compiled forms;
* `holds_of_compileNormal`       the leaves and the connectives;
* `holds_of_compileFilter`       the same behind the normalization, which keeps the meaning.
-/

namespace ColumnPlan

open Compile PredicateExpr

variable (c : Setting) (s : Schema) (row : Row)

/-- the value of an expression on a row, by its compiled form -/
def compiledValue (e : Expr) : Option Value :=
  match (compileExpr c s e false).outcome with
  | .ok compiled => compiled.value? row
  | .error _ => none

/-- the meaning of a filter whose expressions are compiled -/
def Filter.meaningIn (f : Filter) : Truth := f.meaning s row (compiledValue c s row)

/-! ### leaves -/

theorem holds_combine (q : Quantifier) {ps : List PredicateExpr} {ts : List Truth}
    (h : List.Forall₂ (fun p t => p.Holds row ↔ t = Truth.true) ps ts) :
    (q.combine ps).Holds row ↔ q.over ts = .true := by
  cases q with
  | any =>
    show (anyOf ps).Holds row ↔ Truth.any ts = .true
    rw [holds_anyOf, Truth.any_eq_true_iff]
    induction h with
    | nil => simp only [List.not_mem_nil, false_and, exists_false]
    | cons hp _ ih => rw [List.exists_mem_cons_iff, List.exists_mem_cons_iff, hp, ih]
  | all =>
    show (allOf ps).Holds row ↔ Truth.all ts = .true
    rw [holds_allOf, Truth.all_eq_true_iff]
    induction h with
    | nil => simp only [List.not_mem_nil, false_imp_iff, implies_true]
    | cons hp _ ih => rw [List.forall_mem_cons, List.forall_mem_cons, hp, ih]

/-- A leaf that is compiled column by column is as true as its columns make it. -/
theorem holds_combine_mapM {q : Quantifier} {is : List Nat} {ps : List PredicateExpr}
    {f : Nat → Except Error PredicateExpr} {t : Nat → Truth} (h : is.mapM f = .ok ps)
    (hf : ∀ i p, f i = .ok p → (p.Holds row ↔ t i = .true)) :
    (q.combine ps).Holds row ↔ q.over (is.map t) = .true := by
  refine holds_combine row q ?_
  rw [List.forall₂_map_right_iff]
  exact (mapM_eq_ok_iff.mp h).flip.imp fun p i hp => hf i p hp

theorem leafColumns_eq_ok {pattern : String} {is : List Nat}
    (h : leafColumns s pattern = .ok is) : s.columns pattern = is := by
  unfold leafColumns at h
  split at h
  · cases h
  · cases h
    rfl

theorem holds_of_compileOperand {op : CompareOp} {v : Value} {i : Nat} {p : PredicateExpr}
    (h : (compileOperand op v i).outcome = .ok p) :
    p.Holds row ↔ op.base.between (row.value? i) (some v) = .true := by
  unfold compileOperand at h
  split at h
  · cases h
  · cases h
    rw [PredicateFunction.ofOp, holds_comparison, ScalarExpr.value?_field,
      ScalarExpr.value?_literal]

/-- A test of a cell holds iff the cell has a value of which the test is true. -/
theorem holds_cellTest {f : PredicateFunction} {test : Value → Truth} (i : Nat)
    (hf : f.arity = 1) (h : ∀ x, f.holds [x] = .ok true ↔ test x = .true) :
    (PredicateExpr.compare f [.field i none]).Holds row ↔
      (row.value? i).elim .unknown test = .true := by
  rw [holds_test row hf, ScalarExpr.value?_field]
  cases row.value? i with
  | none => exact iff_of_false nofun nofun
  | some x =>
    show _ ↔ test x = .true
    rw [← h x]
    constructor
    · rintro ⟨y, hy, hh⟩
      cases hy
      exact hh
    · intro hh; exact ⟨x, rfl, hh⟩

theorem likeOperand_eq_ok {op : CompareOp} {v : Value} {pattern : LikePattern}
    (h : likeOperand op v = .ok pattern) (wanted : Bool) (x : Value) :
    Comparison.likeTruth wanted x v = .true ↔
      (x.bytes?.any fun bytes => pattern.isMatch bytes == wanted) = true := by
  unfold likeOperand at h
  cases hv : v.bytes? with
  | none => rw [hv] at h; cases h
  | some p =>
    rw [hv] at h
    dsimp only at h
    cases hp : LikePattern.ofBytes? p with
    | none => rw [hp] at h; cases h
    | some regex =>
      rw [hp] at h
      cases h
      unfold Comparison.likeTruth
      rw [hv]
      cases x.bytes? with
      | none => exact iff_of_false nofun nofun
      | some bytes =>
        dsimp only
        rw [hp]
        exact Truth.ofBool_eq_true_iff _

/-- A test against a pattern holds iff the match is as wanted. -/
theorem holds_patternTest {op : CompareOp} {v : Value} {pattern : LikePattern}
    (hp : likeOperand op v = .ok pattern) (wanted : Bool) {f : PredicateFunction}
    (hf : f.arity = 1)
    (h : ∀ x, f.holds [x] = .ok (x.bytes?.any fun bytes => pattern.isMatch bytes == wanted))
    (i : Nat) :
    (PredicateExpr.compare f [.field i none]).Holds row ↔
      (row.value? i).elim .unknown (Comparison.likeTruth wanted · v) = .true := by
  refine holds_cellTest row i hf fun x => ?_
  rw [h x, likeOperand_eq_ok hp, Except.ok.injEq]

theorem holds_of_compileComparison {o : CompileOptions} {op : CompareOp} {v : Value} {i : Nat}
    {p : PredicateExpr} (h : (compileComparison o op v i).outcome = .ok p) :
    p.Holds row ↔ op.base.between (row.value? i) (some v) = .true := by
  unfold compileComparison at h
  split at h
  · rw [Comparison.between_some]
    split at h
    · next hb =>
      cases h
      rw [hb]
      exact holds_cellTest row i rfl fun x => Comparison.holds_eq_true_iff .eq x v
    · next hb =>
      cases h
      rw [hb]
      exact holds_cellTest row i rfl fun x => Comparison.holds_eq_true_iff .notEq x v
    · next hb =>
      rw [outcome_bind _ fun _ => blind_pure _] at h
      obtain ⟨pattern, hp, h⟩ := bind_eq_ok_iff.mp h
      cases h
      rw [hb]
      refine holds_patternTest row hp true rfl (fun x => ?_) i
      simp only [beq_true]
      rfl
    · next hb =>
      rw [outcome_bind _ fun _ => blind_pure _] at h
      obtain ⟨pattern, hp, h⟩ := bind_eq_ok_iff.mp h
      cases h
      rw [hb]
      refine holds_patternTest row hp false rfl (fun x => ?_) i
      simp only [beq_false]
      rfl
    · rw [← Comparison.between_some]
      exact holds_of_compileOperand row h
  · exact holds_of_compileOperand row h

theorem holds_memberTest (negated : Bool) (values : List Value) (i : Nat) :
    (PredicateExpr.compare (if negated then .notInSet (.ofList values)
      else .inSet (.ofList values)) [.field i none]).Holds row ↔
      membership negated values (row.value? i) = .true := by
  rw [membership_eq_elim]
  cases negated with
  | false =>
    refine holds_cellTest row i rfl fun x => ?_
    show Except.ok ((ValueSet.ofList values).contains x) = .ok true ↔ _
    rw [ValueSet.contains_ofList, Except.ok.injEq, Truth.ofBool_eq_true_iff, Bool.bne_false]
  | true =>
    refine holds_cellTest row i rfl fun x => ?_
    show Except.ok (!(ValueSet.ofList values).contains x) = .ok true ↔ _
    rw [ValueSet.contains_ofList, Except.ok.injEq, Truth.ofBool_eq_true_iff, Bool.bne_true]

theorem candidates_of_valueType {i : Nat} {type : ValueType} (h : s.valueType i = .ok type)
    (values : List Value) : s.candidates values i = values.filter fun v => v.type = type := by
  unfold Schema.valueType at h
  unfold Schema.candidates
  cases hf : s.fields[i]? with
  | none => rw [hf] at h; cases h
  | some f =>
    rw [hf] at h
    dsimp only at h
    cases hd : f.type.valueType? with
    | none => rw [hd] at h; cases h
    | some t =>
      rw [hd] at h
      cases h
      refine List.filter_congr fun v _ => ?_
      simp only [Option.bind_some, hd, Option.some.injEq, eq_comm]

theorem holds_of_compileMembership {op : MemberOp} {values : List Value} {i : Nat}
    {p : PredicateExpr} (h : compileMembership s op values i = .ok p) :
    p.Holds row ↔
      membership op.negated (s.candidates values i) (row.value? i) = .true := by
  unfold compileMembership at h
  obtain ⟨type, ht, h⟩ := bind_eq_ok_iff.mp h
  cases h
  rw [candidates_of_valueType s ht]
  exact holds_memberTest row op.negated _ i

theorem holds_of_compileValue {o : CompileOptions} {pattern : String} {op : CompareOp} {v : Value}
    {p : PredicateExpr} (h : (compileValue o s pattern op v).outcome = .ok p) :
    p.Holds row ↔ (Filter.value pattern op v).meaningIn c s row = .true := by
  unfold compileValue at h
  rw [outcome_bind _ fun _ => blind_bind (blind_mapM (blind_compileComparison o op v) _)
    fun _ => blind_pure _] at h
  obtain ⟨is, hi, h⟩ := bind_eq_ok_iff.mp h
  rw [outcome_bind _ fun _ => blind_pure _, outcome_mapM (blind_compileComparison o op v)] at h
  obtain ⟨ps, hp, h⟩ := bind_eq_ok_iff.mp h
  cases h
  rw [Filter.meaningIn, Filter.meaning, leafColumns_eq_ok s hi]
  exact holds_combine_mapM row hp fun i p h => holds_of_compileComparison row h

theorem holds_of_compileKey {o : CompileOptions} {op : CompareOp} {n : Int64}
    {p : PredicateExpr} (h : (compileKey o s op n).outcome = .ok p) :
    p.Holds row ↔ (Filter.key op n).meaningIn c s row = .true := by
  unfold compileKey at h
  rw [outcome_bind _ fun _ => blind_bind (blind_compileComparison o op _ _)
    fun _ => blind_pure _] at h
  obtain ⟨i, hi, h⟩ := bind_eq_ok_iff.mp h
  rw [outcome_bind _ fun _ => blind_pure _] at h
  obtain ⟨q, hq, h⟩ := bind_eq_ok_iff.mp h
  cases h
  have hk : s.keyIndices = [i] := s.keyIndices_of_resolveKey hi
  rw [Filter.meaningIn, Filter.meaning, hk, holds_combine row op.quantifier
    (.cons (holds_of_compileComparison row hq) .nil)]
  cases op.quantifier with
  | any => exact (Truth.or_eq_true_iff _ _).trans (or_iff_left nofun)
  | all => exact (Truth.and_eq_true_iff _ _).trans (and_iff_left rfl)

theorem holds_of_compilePaths {left right : String} {op : CompareOp} {p : PredicateExpr}
    (h : compilePaths s left op right = .ok p) :
    p.Holds row ↔ (Filter.path left op right).meaningIn c s row = .true := by
  unfold compilePaths at h
  obtain ⟨i, hi, h⟩ := bind_eq_ok_iff.mp h
  obtain ⟨j, hj, h⟩ := bind_eq_ok_iff.mp h
  cases h
  rw [Filter.meaningIn, Filter.meaning, s.columns_of_resolve hi, s.columns_of_resolve hj,
    PredicateFunction.ofOp, holds_comparison, ScalarExpr.value?_field, ScalarExpr.value?_field]

theorem holds_of_compileMember {pattern : String} {op : MemberOp} {values : List Value}
    {p : PredicateExpr} (h : compileMember s pattern op values = .ok p) :
    p.Holds row ↔ (Filter.member pattern op values).meaningIn c s row = .true := by
  unfold compileMember at h
  obtain ⟨is, hi, h⟩ := bind_eq_ok_iff.mp h
  obtain ⟨ps, hp, h⟩ := bind_eq_ok_iff.mp h
  cases h
  rw [Filter.meaningIn, Filter.meaning, leafColumns_eq_ok s hi]
  exact holds_combine_mapM row hp fun i p h => holds_of_compileMembership s row h

/-! ### trees -/

mutual

theorem holds_of_compileNormal : (f : Filter) → {p : PredicateExpr} →
    (compileNormal c s f).outcome = .ok p → (p.Holds row ↔ f.meaningIn c s row = .true)
  | .bool b, p, h => by
    rw [compileNormal] at h
    cases h
    rw [Filter.meaningIn, Filter.meaning, Truth.ofBool_eq_true_iff]
    cases b with
    | true => exact iff_of_true trivial rfl
    | false => exact iff_of_false id nofun
  | .value pattern op v, p, h => by
    rw [compileNormal] at h
    exact holds_of_compileValue c s row h
  | .key op n, p, h => by
    rw [compileNormal] at h
    exact holds_of_compileKey c s row h
  | .path left op right, p, h => by
    rw [compileNormal] at h
    exact holds_of_compilePaths c s row h
  | .expr left op right, p, h => by
    rw [outcome_compileNormal_expr] at h
    obtain ⟨l, hl, h⟩ := bind_eq_ok_iff.mp h
    obtain ⟨r, hr, h⟩ := bind_eq_ok_iff.mp h
    cases h
    rw [Filter.meaningIn, Filter.meaning, PredicateFunction.ofOp, holds_comparison]
    unfold compiledValue
    rw [hl, hr]
  | .member pattern op values, p, h => by
    rw [compileNormal] at h
    exact holds_of_compileMember c s row h
  | .and fs, p, h => by
    rw [outcome_compileNormal_and] at h
    obtain ⟨ps, hp, h⟩ := bind_eq_ok_iff.mp h
    cases h
    rw [Filter.meaningIn, Filter.meaning_and]
    exact holds_combine row .all (holds_of_compileNormals fs hp)
  | .or fs, p, h => by
    rw [outcome_compileNormal_or] at h
    obtain ⟨ps, hp, h⟩ := bind_eq_ok_iff.mp h
    cases h
    rw [Filter.meaningIn, Filter.meaning_or]
    exact holds_combine row .any (holds_of_compileNormals fs hp)
  | .not f, p, h => by
    rw [compileNormal] at h
    cases h

theorem holds_of_compileNormals : (fs : List Filter) → {ps : List PredicateExpr} →
    (fs.mapM fun f => (compileNormal c s f).outcome) = .ok ps →
      List.Forall₂ (fun p t => p.Holds row ↔ t = Truth.true) ps (fs.map (Filter.meaningIn c s row))
  | [], ps, h => by
    cases h
    exact .nil
  | f :: fs, ps, h => by
    rw [List.mapM_cons] at h
    obtain ⟨p, hp, h⟩ := bind_eq_ok_iff.mp h
    obtain ⟨rest, hr, h⟩ := bind_eq_ok_iff.mp h
    cases h
    exact .cons (holds_of_compileNormal f hp) (holds_of_compileNormals fs hr)

end

theorem holds_of_compileFilter {f : Filter} {p : PredicateExpr}
    (h : (compileFilter c s f).outcome = .ok p) :
    p.Holds row ↔ f.meaningIn c s row = .true := by
  rw [outcome_compileFilter] at h
  rw [holds_of_compileNormal c s row _ h, Filter.meaningIn, Filter.meaning_normalize]
  rfl

theorem Filter.meaningIn_not (f : Filter) :
    (Filter.not f).meaningIn c s row = (f.meaningIn c s row).not := by
  rw [meaningIn, meaning]
  rfl

/-- **A compiled filter that evaluates on a row evaluates to true iff the filter as it was
written is true of the row**, and then no compiled form of its negation does. -/
theorem eval_compileFilter (f : Filter) (pool : LiteralPool) (p : PredicateExpr) (b : Bool)
    (hc : (compileFilter c s f).result pool = .ok p) (he : p.eval row = .ok b) :
    (b = true ↔ f.meaningIn c s row = .true) ∧
      ∀ (other : LiteralPool) (q : PredicateExpr),
        (compileFilter c s (.not f)).result other = .ok q →
          ¬ (p.eval row = .ok true ∧ q.eval row = .ok true) := by
  rw [(blind_compileFilter c s f).result_eq] at hc
  have hp := holds_of_compileFilter c s row hc
  refine ⟨(holds_iff_of_eval row p he).symm.trans hp, ?_⟩
  rintro other q hq ⟨hpt, hqt⟩
  rw [(blind_compileFilter c s _).result_eq] at hq
  have hf : f.meaningIn c s row = .true := hp.mp ((holds_iff_of_eval row p hpt).mpr rfl)
  have hn := (holds_of_compileFilter c s row hq).mp ((holds_iff_of_eval row q hqt).mpr rfl)
  rw [Filter.meaningIn_not, hf] at hn
  cases hn

/-- The NULL leaves the filter unknown, and its negation with it. -/
theorem eval_compileFilter_unknown :
    let c : Setting := ⟨.builtins, ⟨false, true⟩⟩
    let s : Schema := ⟨[⟨"a.x", .int32, true, none⟩, ⟨"a.y", .int64, true, none⟩]⟩
    let row : Row := [some (.integer 1), none]
    let f := Filter.or [.value "a.*" ⟨.gt, .any⟩ (.long 3), .path "a.x" ⟨.eq, .any⟩ "a.y"]
    ∃ p, (compileFilter c s (.not f)).result .empty = .ok p ∧ p.eval row = .ok false ∧
      (Filter.not f).meaningIn c s row ≠ .true := by
  intro c s row f
  have compiled : (compileFilter c s (.not f)).result .empty =
      .ok (.and [.compare (.compare .ltEq) [.field 0 none, .literal (.long 3) none],
        .compare (.compare .ltEq) [.field 1 none, .literal (.long 3) none],
        .compare (.compare .notEq) [.field 0 none, .field 1 none]]) := by
    rw [compileFilter]
    -- the negation is pushed to the leaves before anything is compiled
    show (compileNormal c s (.and [.value "a.*" ⟨.ltEq, .all⟩ (.long 3),
      .path "a.x" ⟨.notEq, .all⟩ "a.y"])).result .empty = _
    rw [compileNormal, compileNormals, compileNormal, compileNormals, compileNormal,
      compileNormals]
    rfl
  have evaluated := eval_compileFilter c s row (.not f) .empty _ false compiled rfl
  exact ⟨_, compiled, rfl, fun h => absurd (evaluated.1.mpr h) Bool.false_ne_true⟩

end ColumnPlan
