import ColumnPlan.Proofs.Compile.Refusal
import ColumnPlan.Proofs.Join.Plan

/-!
# How the planning of a join fails

* `answers_join`               a join is planned or refused;
* `isRefusal_of_compile`       whatever is compiled with the functions that are always there, an
                               error is a refusal.
-/

namespace ColumnPlan

open Compile

theorem answered_validate (o : JoinOptions) : Answered o.validate := by
  unfold JoinOptions.validate
  split
  · split
    · trivial
    · split <;> trivial
  · trivial

section
variable (build probe : Schema) (d : JoinDescriptor)

theorem answered_equation (paths : String × String) : Answered (equation build probe paths) := by
  unfold equation
  split
  · trivial
  · split <;> trivial

theorem answered_joinCondition (filter : Option Filter) :
    Answered (joinCondition build probe d filter) :=
  failsWith_bind (failsWith_mapM fun paths _ => answered_equation build probe paths)
    fun _ _ => trivial

theorem answered_choose (algorithm : JoinAlgorithm) (keys : JoinKeys) :
    Answered (JoinStrategy.choose algorithm keys) := by
  unfold JoinStrategy.choose
  split
  · trivial
  · split <;> trivial

variable {c : Setting} (answers : c.functions.Answers)
include answers

theorem answers_join (filter : Option Filter) : Answers (compileJoin c build probe d filter) := by
  rw [compileJoin_eq]
  refine answers_bind (answers_lift (answered_validate d.options)) fun _ _ _ =>
    answers_bind (answers_lift (answered_joinCondition build probe d filter))
      fun _ condition _ => ?_
  exact answers_bind (answers_filter answers _ _) fun _ _ _ =>
    answers_map (answers_lift (answered_choose _ _)) _

end

/-- **No branch of a compiler for a broken invariant is ever taken.**  With the functions that are
always there, an expression, a filter or a join that is not compiled is refused: the error is not
one of an evaluation or of a batch, it is not an internal one, and it is not the one of a negation
that was left in a filter, nor does it read like that. -/
theorem isRefusal_of_compile (o : CompileOptions) (pool : LiteralPool) (error : Error)
    (h : (∃ s e named, (compileExpr ⟨.builtins, o⟩ s e named).result pool = .error error) ∨
      (∃ s f, (compileFilter ⟨.builtins, o⟩ s f).result pool = .error error) ∨
      ∃ build probe d filter,
        (compileJoin ⟨.builtins, o⟩ build probe d filter).result pool = .error error) :
    error.IsRefusal ∧ error.message ≠ (Error.unsupported .negation).message := by
  have answers : (Setting.mk .builtins o).functions.Answers := Registry.answers_builtins
  have refusal : error.IsRefusal := by
    rcases h with ⟨s, e, named, h⟩ | ⟨s, f, h⟩ | ⟨build, probe, d, filter, h⟩
    · exact failsWith_iff.mp (answers_expr answers s e named pool) error h
    · exact failsWith_iff.mp (answers_filter answers s f pool) error h
    · exact failsWith_iff.mp (answers_join build probe d answers filter pool) error h
  exact ⟨refusal, refusal.message_ne⟩

/-- A chain without terms is refused as such, a column of dates has no values that could be members
of anything, and without an equation there is nothing to hash. -/
theorem isRefusal_of_compile_chain :
    let o : CompileOptions := ⟨false, true⟩
    let s : Schema := ⟨[⟨"day", .date32, true, none⟩]⟩
    let f : Filter := .not (.member "day" ⟨false, .any⟩ [.long 1])
    let d : JoinDescriptor := ⟨⟨.inner, .hash, false, none⟩, none, none, [], []⟩
    let empty := Error.malformed .emptyChain
    let date := Error.unsupported (.dataType .date32)
    let apart := Error.unsupported .noEqualityKey
    (compileExpr ⟨.builtins, o⟩ s (.chain [] []) true).result .empty = .error empty ∧
      (compileFilter ⟨.builtins, o⟩ s f).result .empty = .error date ∧
      (compileJoin ⟨.builtins, o⟩ s s d none).result .empty = .error apart ∧
      empty.IsRefusal ∧ date.IsRefusal ∧ apart.IsRefusal := by
  intro o s f d empty date apart
  have chain : (compileExpr ⟨.builtins, o⟩ s (.chain [] []) true).result .empty = .error empty := by
    rw [compileExpr]
    · rfl
    · intro term op none
      cases none
  have filter : (compileFilter ⟨.builtins, o⟩ s f).result .empty = .error date := by
    rw [compileFilter]
    show (compileNormal _ s (.member "day" ⟨true, .all⟩ [.long 1])).result .empty = _
    rw [compileNormal]
    rfl
  have join : (compileJoin ⟨.builtins, o⟩ s s d none).result .empty = .error apart := by
    have rest : (compileFilter ⟨.builtins, o⟩ (s.merge s) (.and [])).result .empty =
        .ok .always := by
      rw [compileFilter]
      show (compileNormal _ _ (.and [])).result .empty = _
      rw [compileNormal, compileNormals]
      rfl
    rw [compileJoin_eq]
    show (compileCondition _ s s d (.and [])).result .empty = _
    rw [compileCondition, result_bind]
    show ((compileFilter _ (s.merge s) (.and [])).result .empty >>= _) = _
    rw [rest]
    rfl
  exact ⟨chain, filter, join, (isRefusal_of_compile o .empty empty (.inl ⟨_, _, _, chain⟩)).1,
    (isRefusal_of_compile o .empty date (.inr (.inl ⟨_, _, filter⟩))).1,
    (isRefusal_of_compile o .empty apart (.inr (.inr ⟨_, _, _, _, join⟩))).1⟩

end ColumnPlan
