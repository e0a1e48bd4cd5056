import ColumnPlan.Proofs.Compile.Built
import ColumnPlan.Proofs.Compile.Label

/-!
# What compiled trees are made of

A compiled tree is made for the rows of its schema: it refers to no cell that such a row lacks,
gives each function as many operands as the function has, and takes its constants from the pool.

* `Function.Keeps`              a call is made of its arguments and of nothing that does not fit;
* `keeps_builtins`              so are the calls of the functions that are always there;
* `closed_made`                 the steps of a compiler make trees for the rows of a width;
* `ensures_compileExpr`, `ensures_compileFilter`   compiled trees are made for the schema.
-/

namespace ColumnPlan

open Compile

/-! ### functions -/

/-- A call of the function is made for rows of a width if its arguments are. -/
def Function.Keeps (f : Function) : Prop :=
  ∀ args params e, f.transform args params = .ok e → ∀ width pool,
    Made width pool (ScalarExpr.listParts args) → Made width pool e.parts

def Registry.Keeps (r : Registry) : Prop := ∀ name, ∀ f ∈ r.lookup? name, f.Keeps

theorem Function.keeps_extract : Function.extract.Keeps := by
  intro args params e h width pool made
  obtain ⟨unit, timestamp, rfl, -, rfl⟩ := exists_of_extract h
  exact .call (by rintro m ⟨⟩; rfl) made

theorem Registry.keeps_builtins : Registry.builtins.Keeps := by
  intro name f h
  rw [Registry.eq_extract_of_builtins h]
  exact Function.keeps_extract

theorem Registry.Keeps.hands {r : Registry} (h : r.Keeps) (width : Nat) :
    r.Hands fun pool e => Made width pool e.parts :=
  fun name f hf args params e ht pool made => h name f hf args params e ht width pool
    (.listParts made)

/-! ### trees -/

theorem closed_made (width : Nat) :
    Closed width (fun pool e => Made width pool e.parts) fun pool p => Made width pool p.parts where
  field := .field
  literal := .literal
  call := fun hf made => .call hf (.listParts made)
  predicate := id
  compare := by
    intro pool f operands length known made
    rw [PredicateExpr.parts, length]
    exact .compare known (.listParts made)
  simplify := fun k _ made => .simplify made k

/-- A name leaves the nodes of an expression as they are. -/
theorem IsLabel.parts {name : String} {label : ScalarExpr → ScalarExpr} (h : IsLabel name label)
    (e : ScalarExpr) : (label e).parts = e.parts := by
  cases h with
  | own => exact e.parts_withAlias name
  | above => rfl

section
variable {c : Setting} (hc : c.functions.Keeps) (s : Schema)
include hc

theorem ensures_compileExpr (e : Expr) (named : Bool) :
    Ensures (compileExpr c s e named) fun pool e => Made s.size pool e.parts := by
  have plain := (closed_made s.size).ensures_expr (hc.hands s.size) e
  cases named with
  | false => exact plain
  | true =>
    obtain ⟨label, hl, h⟩ := exists_label c s e
    rw [h, map_eq_pure_bind]
    refine ensures_bind plain fun compiled => ensures_pure ?_
    intro pool made
    rw [hl.parts]
    exact made

theorem ensures_compileFilter (f : Filter) :
    Ensures (compileFilter c s f) fun pool p => Made s.size pool p.parts :=
  (closed_made s.size).ensures_filter (hc.hands s.size) f

end

end ColumnPlan
