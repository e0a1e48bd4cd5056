import Mathlib.Algebra.Ring.Nat
import ColumnPlan.Logical.Normalize
import ColumnPlan.Proofs.Logical.Leaves

/-!
# The fold with a stack of its own

A node on the stack is worked off with all that is below it before the next one is looked at, and
leaves one result.  So the fold combines results as the recursion on the filter does.

* `foldRecursive_node`        the recursion, said once for all nodes;
* `Filter.Folds`              the frame of a node leaves the result of the recursion;
* `folds`                     every frame does;
* `foldPostorder_eq`          the fold is the recursion;
* `foldPostorder_score`       the complexity of a filter, found by such a fold.
-/

namespace ColumnPlan.Filter

section
variable {m : Type → Type} [Monad m] {β : Type} (combine : Filter → List β → m β)

/-- The results of the children from left to right, and then the node. -/
theorem foldRecursive_node [LawfulMonad m] (f : Filter) :
    foldRecursive combine f = foldChildren combine f.children >>= combine f := by
  cases f with
  | and | or => rw [foldRecursive, children]
  | not f =>
    rw [foldRecursive, children, foldChildren, bind_assoc]
    refine bind_congr fun result => ?_
    rw [foldChildren, pure_bind, pure_bind]
  | value | path | key | expr | member | bool =>
    show _ = foldChildren combine [] >>= _
    rw [foldRecursive, foldChildren, pure_bind]

/-- What comes after the children may rely on one result for each child. -/
theorem foldChildren_bind_congr [LawfulMonad m] {γ : Type} {fs : List Filter}
    {next next' : List β → m γ}
    (h : ∀ results, results.length = fs.length → next results = next' results) :
    foldChildren combine fs >>= next = foldChildren combine fs >>= next' := by
  induction fs generalizing next next' with
  | nil =>
    rw [foldChildren, pure_bind, pure_bind]
    exact h [] rfl
  | cons f fs ih =>
    rw [foldChildren, bind_assoc, bind_assoc]
    refine bind_congr fun result => ?_
    rw [bind_assoc, bind_assoc]
    refine ih fun results length => ?_
    rw [pure_bind, pure_bind]
    exact h _ (congrArg Nat.succ length)

variable [MonadExceptOf Error m]

/-- The frame of a node, worked off with all that is below it, leaves one result.  The other frames
and the results that are there already are not touched. -/
def Folds (f : Filter) : Prop :=
  ∀ rest done, foldLoop combine (.visit f :: rest) done =
    foldRecursive combine f >>= fun result => foldLoop combine rest (result :: done)

variable {combine}

/-- The node takes the results of its children and leaves its own. -/
theorem foldLoop_combine (f : Filter) (rest : List Frame) (below done : List β) :
    foldLoop combine (.combine f below.length :: rest) (below.reverse ++ done) =
      combine f below >>= fun result => foldLoop combine rest (result :: done) := by
  have enough : ¬ (below.reverse ++ done).length < below.length := by
    rw [List.length_append, List.length_reverse]
    omega
  have length : below.length = below.reverse.length := List.length_reverse.symm
  rw [foldLoop, if_neg enough, length, List.take_left, List.drop_left, List.reverse_reverse]

variable [LawfulMonad m]

theorem foldLoop_visitAll {fs : List Filter} (each : ∀ f ∈ fs, Folds combine f)
    (rest : List Frame) (done : List β) :
    foldLoop combine (fs.map .visit ++ rest) done =
      foldChildren combine fs >>= fun results =>
        foldLoop combine rest (results.reverse ++ done) := by
  induction fs generalizing done with
  | nil =>
    rw [foldChildren, pure_bind]
    rfl
  | cons f fs ih =>
    have first : Folds combine f := each f List.mem_cons_self
    rw [List.map_cons, List.cons_append, first, foldChildren, bind_assoc]
    refine bind_congr fun result => ?_
    rw [ih fun f hf => each f (List.mem_cons_of_mem _ hf), bind_assoc]
    refine bind_congr fun results => ?_
    rw [pure_bind, List.reverse_cons, List.append_assoc]
    rfl

theorem folds (f : Filter) : Folds combine f := by
  induction f using children_induction with
  | node f each =>
    intro rest done
    rw [foldLoop, foldLoop_visitAll each, foldRecursive_node, bind_assoc]
    -- the frame of the node waits for as many results as there are children
    refine foldChildren_bind_congr combine fun results length => ?_
    rw [← length, foldLoop_combine]

/-- So the two folds are one, whatever the callback does besides. -/
theorem foldPostorder_eq (combine : Filter → List β → m β) :
    foldPostorder combine = foldRecursive combine := by
  funext f
  have last (result : β) : foldLoop combine [] [result] = pure result := by rw [foldLoop]
  rw [foldPostorder, folds f]
  simp only [last, bind_pure]

end

/-! ### complexity -/

/-- What a node costs, with all that is below it. -/
def score (f : Filter) (below : List Nat) : Except Error Nat :=
  .ok (f.isExpensive.toNat + below.sum)

theorem complexityAll_eq_sum (fs : List Filter) : complexityAll fs = (fs.map complexity).sum := by
  induction fs with
  | nil => rw [complexityAll, List.map_nil, List.sum_nil]
  | cons f fs ih => rw [complexityAll, ih, List.map_cons, List.sum_cons]

theorem complexity_node (f : Filter) :
    f.complexity = f.isExpensive.toNat + (f.children.map complexity).sum := by
  cases f with
  | and fs | or fs =>
    rw [complexity, complexityAll_eq_sum]
    exact (Nat.zero_add _).symm
  | not f =>
    rw [complexity]
    show _ = 0 + (f.complexity + 0)
    omega
  | value | path | key | expr | member | bool => rw [complexity]; rfl

theorem foldRecursive_score (f : Filter) : foldRecursive score f = .ok f.complexity := by
  induction f using children_induction with
  | node f each =>
    have below : ∀ fs : List Filter, (∀ f ∈ fs, foldRecursive score f = .ok f.complexity) →
        foldChildren score fs = .ok (fs.map complexity) := by
      intro fs each
      induction fs with
      | nil => rw [foldChildren]; rfl
      | cons f fs ih =>
        obtain ⟨first, others⟩ := List.forall_mem_cons.mp each
        rw [foldChildren, first, ih others]
        rfl
    rw [foldRecursive_node, below f.children each, complexity_node]
    rfl

theorem foldPostorder_score (f : Filter) : foldPostorder score f = .ok f.complexity := by
  rw [foldPostorder_eq, foldRecursive_score]

end ColumnPlan.Filter
