import ColumnPlan.Proofs.Compile.Leaves
import ColumnPlan.Proofs.Schema.Resolve

/-!
# Which filters can be compiled

A connective can be compiled iff each child can, whatever the options, and a leaf iff its paths
mean columns and its value can stand behind its operator.  With the opposite operator a leaf asks
for the same, so a negation can be compiled iff the filter itself can.

* `compiles_and_iff`, `compiles_or_iff`     the connectives;
* `exists_compileComparison_iff`            a column compared with a value;
* `exists_compileValue_iff`, `exists_compileMember_iff`, `exists_compilePaths_iff`   leaves;
* `compiles_negate_iff`                     leaves with the opposite operator;
* `compiles_not_iff`                        negations;
* `compiles_path_iff`                       a comparison of two paths.
-/

namespace ColumnPlan

open Compile

/-! ### connectives -/

namespace Filter
variable (c : Setting) (s : Schema)

theorem compiles_and_iff (fs : List Filter) :
    (Filter.and fs).Compiles c s ↔ ∀ f ∈ fs, f.Compiles c s := by
  rw [compiles_iff_leaves_pushNot, pushNot, leaves_and, pushNotAll_eq_map, List.flatMap_map,
    List.forall_mem_flatMap]
  exact forall₂_congr fun f _ => f.compiles_iff_leaves_pushNot.symm

theorem compiles_or_iff (fs : List Filter) :
    (Filter.or fs).Compiles c s ↔ ∀ f ∈ fs, f.Compiles c s := by
  rw [compiles_iff_leaves_pushNot, pushNot, leaves_or, pushNotAll_eq_map, List.flatMap_map,
    List.forall_mem_flatMap]
  exact forall₂_congr fun f _ => f.compiles_iff_leaves_pushNot.symm

end Filter

/-! ### leaves -/

theorem CompareOp.isLike_opposite (op : CompareOp) : op.opposite.isLike = op.isLike := by
  obtain ⟨base, quantifier⟩ := op
  cases base <;> rfl

/-- Whether a value can stand behind `like`: it is a text, and a pattern if it becomes part of the
comparison. -/
def CompileOptions.takesPattern (o : CompileOptions) (v : Value) : Bool :=
  if o.fold then (v.bytes?.bind LikePattern.ofBytes?).isSome else v.isBinary

theorem exists_likeOperand_iff (op : CompareOp) (v : Value) :
    (∃ p, likeOperand op v = .ok p) ↔ (v.bytes?.bind LikePattern.ofBytes?).isSome = true := by
  unfold likeOperand
  cases v.bytes? with
  | none => exact ⟨nofun, nofun⟩
  | some bytes =>
    dsimp only [Option.bind_some]
    cases LikePattern.ofBytes? bytes with
    | none => exact ⟨nofun, nofun⟩
    | some pattern => exact ⟨fun _ => rfl, fun _ => ⟨pattern, rfl⟩⟩

theorem exists_compileOperand_iff (op : CompareOp) (v : Value) (i : Nat) :
    (∃ p, (compileOperand op v i).outcome = .ok p) ↔ (op.isLike = true → v.isBinary = true) := by
  constructor
  · rintro ⟨p, h⟩ like
    unfold compileOperand at h
    cases text : v.isBinary with
    | true => rfl
    | false =>
      rw [like, text] at h
      cases h
  · intro h
    exact ⟨_, result_compileOperand h i .empty⟩

/-- Only `like` asks for more of the value that a column is compared with. -/
theorem exists_compileComparison_iff (o : CompileOptions) (op : CompareOp) (v : Value) (i : Nat) :
    (∃ p, (compileComparison o op v i).outcome = .ok p) ↔
      (op.isLike = true → o.takesPattern v = true) := by
  have constant (f : Value → PredicateExpr) :
      ∃ p, (do pure (f (← literal v)) : Compile PredicateExpr).outcome = .ok p :=
    ⟨f v, by rw [outcome_bind _ fun _ => blind_pure _, outcome_literal]; rfl⟩
  have pattern (f : LikePattern → PredicateExpr) :
      (∃ p, (do pure (f (← likeOperand op v)) : Compile PredicateExpr).outcome = .ok p) ↔
        (v.bytes?.bind LikePattern.ofBytes?).isSome = true := by
    rw [outcome_bind _ fun _ => blind_pure _, outcome_lift, ← exists_likeOperand_iff op v]
    cases likeOperand op v with
    | error e => exact ⟨nofun, nofun⟩
    | ok p => exact ⟨fun _ => ⟨p, rfl⟩, fun _ => ⟨f p, rfl⟩⟩
  unfold compileComparison CompileOptions.takesPattern
  cases o.fold with
  | false => exact exists_compileOperand_iff op v i
  | true =>
    rw [if_pos rfl, if_pos rfl]
    obtain ⟨base, quantifier⟩ := op
    cases base with
    | eq => exact iff_of_true (constant _) nofun
    | notEq => exact iff_of_true (constant _) nofun
    | like => exact (pattern _).trans (imp_iff_right rfl).symm
    | notLike => exact (pattern _).trans (imp_iff_right rfl).symm
    | gt | gtEq | lt | ltEq =>
      exact (exists_compileOperand_iff _ v i).trans ⟨fun _ => nofun, fun _ => nofun⟩

theorem exists_compileValue_iff (o : CompileOptions) (s : Schema) (pattern : String)
    (op : CompareOp) (v : Value) :
    (∃ p, (compileValue o s pattern op v).outcome = .ok p) ↔
      ∃ columns, leafColumns s pattern = .ok columns ∧
        ∀ i ∈ columns, ∃ p, (compileComparison o op v i).outcome = .ok p := by
  have comparisons (columns : List Nat) := blind_mapM (blind_compileComparison o op v) columns
  unfold compileValue
  rw [outcome_bind _ fun columns => blind_bind (comparisons columns) fun _ => blind_pure _,
    outcome_lift, exists_bind_ok_iff]
  refine exists_congr fun columns => and_congr_right fun _ => ?_
  rw [outcome_bind _ fun _ => blind_pure _, outcome_mapM (blind_compileComparison o op v),
    exists_bind_ok_iff, ← exists_mapM_ok_iff]
  exact exists_congr fun ps => and_iff_left ⟨_, rfl⟩

theorem exists_compileKey_iff (o : CompileOptions) (s : Schema) (op : CompareOp) (n : Int64) :
    (∃ p, (compileKey o s op n).outcome = .ok p) ↔
      ∃ i, s.resolveKey = .ok i ∧ ∃ p, (compileComparison o op (.long n) i).outcome = .ok p := by
  have comparison (i : Nat) := blind_compileComparison o op (.long n) i
  unfold compileKey
  rw [outcome_bind _ fun i => blind_bind (comparison i) fun _ => blind_pure _, outcome_lift,
    exists_bind_ok_iff]
  refine exists_congr fun i => and_congr_right fun _ => ?_
  rw [outcome_bind _ fun _ => blind_pure _, exists_bind_ok_iff]
  exact exists_congr fun p => and_iff_left ⟨_, rfl⟩

theorem exists_compileMember_iff (s : Schema) (pattern : String) (op : MemberOp)
    (values : List Value) :
    (∃ p, compileMember s pattern op values = .ok p) ↔
      ∃ columns, leafColumns s pattern = .ok columns ∧
        ∀ i ∈ columns, ∃ type, s.valueType i = .ok type := by
  have membership (i : Nat) : (∃ p, compileMembership s op values i = .ok p) ↔
      ∃ type, s.valueType i = .ok type := by
    unfold compileMembership
    rw [exists_bind_ok_iff]
    exact exists_congr fun type => and_iff_left ⟨_, rfl⟩
  unfold compileMember
  rw [exists_bind_ok_iff]
  refine exists_congr fun columns => and_congr_right fun _ => ?_
  rw [exists_bind_ok_iff]
  simp only [← membership, ← exists_mapM_ok_iff]
  exact exists_congr fun ps => and_iff_left ⟨_, rfl⟩

/-- A comparison of two paths is one of the columns that they mean. -/
theorem compilePaths_eq_ok_iff {s : Schema} {left : String} {op : CompareOp} {right : String}
    {p : PredicateExpr} :
    compilePaths s left op right = .ok p ↔
      ∃ i j, s.columns left = [i] ∧ s.columns right = [j] ∧
        p = .compare (.ofOp op) [.field i none, .field j none] := by
  constructor
  · intro h
    obtain ⟨i, hi, h⟩ := bind_eq_ok_iff.mp h
    obtain ⟨j, hj, h⟩ := bind_eq_ok_iff.mp h
    cases h
    exact ⟨i, j, s.columns_of_resolve hi, s.columns_of_resolve hj, rfl⟩
  · rintro ⟨i, j, hi, hj, rfl⟩
    have left : s.resolve left = .ok i := (s.unique_eq_ok_iff left _ i).mpr hi
    have right : s.resolve right = .ok j := (s.unique_eq_ok_iff right _ j).mpr hj
    exact bind_eq_ok_iff.mpr ⟨i, left, bind_eq_ok_iff.mpr ⟨j, right, rfl⟩⟩

theorem exists_compilePaths_iff (s : Schema) (left : String) (op : CompareOp) (right : String) :
    (∃ p, compilePaths s left op right = .ok p) ↔
      (∃ i, s.columns left = [i]) ∧ ∃ j, s.columns right = [j] := by
  simp only [compilePaths_eq_ok_iff]
  constructor
  · rintro ⟨_, i, j, hi, hj, -⟩
    exact ⟨⟨i, hi⟩, j, hj⟩
  · rintro ⟨⟨i, hi⟩, j, hj⟩
    exact ⟨_, i, j, hi, hj, rfl⟩

/-! ### negations -/

namespace Filter
variable {c : Setting} {s : Schema}

/-- With the opposite operator a leaf can be compiled as before. -/
theorem compiles_negate_iff {leaf : Filter} (h : leaf.isLeaf = true) :
    leaf.negate.Compiles c s ↔ leaf.Compiles c s := by
  unfold Compiles
  rw [outcome_compileFilter_of_isLeaf h, outcome_compileFilter_of_isLeaf (isLeaf_negate h)]
  cases leaf with
  | and | or | not => cases h
  | bool b =>
    rw [negate, compileNormal, compileNormal]
    exact iff_of_true ⟨_, rfl⟩ ⟨_, rfl⟩
  | value pattern op v =>
    rw [negate, compileNormal, compileNormal]
    simp only [exists_compileValue_iff, exists_compileComparison_iff, op.isLike_opposite]
  | key op n =>
    rw [negate, compileNormal, compileNormal]
    simp only [exists_compileKey_iff, exists_compileComparison_iff, op.isLike_opposite]
  | member pattern op values =>
    rw [negate, compileNormal, compileNormal, outcome_lift, outcome_lift,
      exists_compileMember_iff, exists_compileMember_iff]
  | path left op right =>
    rw [negate, compileNormal, compileNormal, outcome_lift, outcome_lift,
      exists_compilePaths_iff, exists_compilePaths_iff]
  | expr left op right =>
    rw [negate, outcome_compileNormal_expr, outcome_compileNormal_expr]
    simp only [exists_bind_ok_iff]
    refine exists_congr fun l => and_congr_right fun _ =>
      exists_congr fun r => and_congr_right fun _ => ?_
    exact iff_of_true ⟨_, rfl⟩ ⟨_, rfl⟩

/-- A negation can be compiled iff the filter itself can. -/
theorem compiles_not_iff (f : Filter) : (Filter.not f).Compiles c s ↔ f.Compiles c s := by
  rw [compiles_iff_leaves_pushNot, compiles_iff_leaves_pushNot, pushNot, leaves_negate,
    List.forall_mem_map]
  exact forall₂_congr fun leaf hl => compiles_negate_iff (isLeaf_of_mem_leaves hl)

/-! ### comparisons of paths and constants -/

/-- A comparison of two paths can be compiled iff each of them means one column. -/
theorem compiles_path_iff {left right : String} {op : CompareOp} :
    (Filter.path left op right).Compiles c s ↔
      (∃ i, s.columns left = [i]) ∧ ∃ j, s.columns right = [j] := by
  unfold Compiles
  rw [outcome_compileFilter_of_isLeaf rfl, compileNormal, outcome_lift, exists_compilePaths_iff]

theorem compiles_bool (b : Bool) : (Filter.bool b).Compiles c s := by
  refine ⟨if b then .always else .never, ?_⟩
  rw [outcome_compileFilter_of_isLeaf rfl, compileNormal]
  rfl

end Filter

end ColumnPlan
