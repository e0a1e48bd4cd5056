import ColumnPlan.Proofs.Logical.Leaves

/-!
# The calls of a walk

A walk calls its visitor once for each node and hands the state from call to call.  A node is known
by its place, the way down to it from the root, since equal nodes may stand at several places.  The
stack holds the nodes that wait, the next one on top; what is left of a walk is the recursion over
these nodes, one after the other.  That a walk ends is known from the size of what waits.

* `at?`                        the node at a place;
* `placed`                     the nodes with their places, in the order of a recursion;
* `mem_placed`, `pairwise_placed`   each place once, and the places in lexicographic order;
* `walkLoop_eq`                what is left of a walk is known from the stack;
* `Visitor.Threads`            calls that hand a state on;
* `Visitor.recorded`           a visitor that keeps a record of its calls;
* `containsNot_iff`            a walk finds every negation;
* `walk_preorder`              the calls of a walk.
-/

namespace ColumnPlan.Filter

/-! ### places -/

/-- The node at a place: the numbers of the children on the way down to it.  The filters inside an
expression are not nodes. -/
def at? : Filter → List Nat → Option Filter
  | f, [] => some f
  | f, i :: place => f.children[i]?.bind fun child => at? child place

/-- A node with its place, seen from the parent of the child of this number. -/
def beneath (i : Nat) (entry : List Nat × Filter) : List Nat × Filter := (i :: entry.1, entry.2)

mutual

/-- The nodes with their places: a node, then the nodes below it from left to right. -/
def placed : Filter → List (List Nat × Filter)
  | .and children => ([], .and children) :: placedFrom 0 children
  | .or children => ([], .or children) :: placedFrom 0 children
  | .not child => ([], .not child) :: (placed child).map (beneath 0)
  | .value p op v => [([], .value p op v)]
  | .path l op r => [([], .path l op r)]
  | .key op n => [([], .key op n)]
  | .expr l op r => [([], .expr l op r)]
  | .member p op vs => [([], .member p op vs)]
  | .bool b => [([], .bool b)]

/-- The nodes below a parent, whose children have numbers from `i` on. -/
def placedFrom (i : Nat) : List Filter → List (List Nat × Filter)
  | [] => []
  | f :: fs => (placed f).map (beneath i) ++ placedFrom (i + 1) fs

end

theorem placedFrom_eq_flatMap (i : Nat) (fs : List Filter) :
    placedFrom i fs = (fs.zipIdx i).flatMap fun (f, j) => f.placed.map (beneath j) := by
  induction fs generalizing i with
  | nil => rw [placedFrom, List.zipIdx_nil, List.flatMap_nil]
  | cons f fs ih => rw [placedFrom, ih, List.zipIdx_cons, List.flatMap_cons]

theorem placed_node (f : Filter) :
    f.placed = ([], f) ::
      f.children.zipIdx.flatMap fun (child, i) => child.placed.map (beneath i) := by
  cases f with
  | and fs | or fs =>
    rw [placed, placedFrom_eq_flatMap]
    rfl
  | not f =>
    rw [placed, children, List.zipIdx_cons, List.zipIdx_nil, List.flatMap_singleton]
  | value | path | key | expr | member | bool =>
    rw [placed]
    rfl

/-- The nodes stand in the order of the recursion. -/
theorem map_placed (f : Filter) : f.placed.map (·.2) = f.preorder := by
  induction f using children_induction with
  | node f ih =>
    have each : ∀ entry ∈ f.children.zipIdx,
        (entry.1.placed.map (beneath entry.2)).map (·.2) = entry.1.preorder := by
      rintro ⟨child, i⟩ h
      rw [List.map_map]
      exact ih child (List.fst_mem_of_mem_zipIdx h)
    rw [placed_node, preorder_node, List.map_cons, List.map_flatMap, List.flatMap_congr each,
      ← List.flatMap_map Prod.fst preorder, List.zipIdx_map_fst]

/-- A place has one node, and every place has it. -/
theorem mem_placed {f node : Filter} {place : List Nat} :
    (place, node) ∈ f.placed ↔ f.at? place = some node := by
  induction f using children_induction generalizing place with
  | node f ih =>
    rw [placed_node, List.mem_cons, List.mem_flatMap]
    cases place with
    | nil =>
      rw [at?, Option.some.injEq]
      constructor
      · rintro (root | ⟨entry, -, below⟩)
        · exact (Prod.mk.inj root).2.symm
        · obtain ⟨_, -, same⟩ := List.mem_map.mp below
          cases same
      · rintro rfl
        exact .inl rfl
    | cons i place =>
      rw [at?, Option.bind_eq_some_iff]
      constructor
      · rintro (root | ⟨⟨child, j⟩, hc, below⟩)
        · cases root
        · obtain ⟨⟨place', node'⟩, hp, same⟩ := List.mem_map.mp below
          cases same
          have number := List.mem_zipIdx_iff_getElem?.mp hc
          exact ⟨child, number, (ih child (List.mem_of_getElem? number)).mp hp⟩
      · rintro ⟨child, number, found⟩
        have entry := (ih child (List.mem_of_getElem? number)).mpr found
        exact .inr ⟨(child, i), List.mem_zipIdx_iff_getElem?.mpr number,
          List.mem_map_of_mem (f := beneath i) entry⟩

/-- The order of the places is lexicographic, so a node comes before the nodes below it, and what is
below a child before what is below the children on its right. -/
theorem pairwise_placed (f : Filter) : (f.placed.map (·.1)).Pairwise (· < ·) := by
  rw [List.pairwise_map]
  induction f using children_induction with
  | node f ih =>
    rw [placed_node, List.pairwise_cons, List.pairwise_flatMap]
    refine ⟨?_, ?_, ?_⟩
    · intro entry h
      obtain ⟨_, -, below⟩ := List.mem_flatMap.mp h
      obtain ⟨_, -, rfl⟩ := List.mem_map.mp below
      exact List.nil_lt_cons _ _
    · rintro ⟨child, i⟩ h
      have ordered := ih child (List.fst_mem_of_mem_zipIdx h)
      refine List.pairwise_map.mpr (ordered.imp fun {entry entry'} less => ?_)
      exact List.cons_lt_cons_iff.mpr (.inr ⟨rfl, less⟩)
    · have numbers : (f.children.zipIdx.map (·.2)).Pairwise (· < ·) := by
        rw [List.zipIdx_map_snd]
        exact List.pairwise_lt_range' 1
      refine (List.pairwise_map.mp numbers).imp fun {child child'} less entry h entry' h' => ?_
      obtain ⟨_, -, rfl⟩ := List.mem_map.mp h
      obtain ⟨_, -, rfl⟩ := List.mem_map.mp h'
      exact List.cons_lt_cons_iff.mpr (.inl less)

/-- Equal nodes have places of their own. -/
example : (Filter.and [.bool true, .not (.bool true)]).placed.map (·.1) = [[], [0], [1], [1, 0]] :=
  rfl

/-! ### the stack -/

section
variable {m : Type → Type} [Monad m]

/-- What is left of a walk is the recursion over the nodes on the stack, from the top down. -/
theorem walkLoop_eq (visit : Filter → m Unit) (stack : List Filter) :
    walkLoop visit stack = (stack.flatMap preorder).forM visit := by
  induction stack using walkLoop.induct with
  | case1 =>
    rw [walkLoop]
    rfl
  | case2 f rest ih =>
    -- the children are on top of the rest, in their order, just as the recursion has them next
    rw [walkLoop, ih, pushAll_eq_append, List.flatMap_append, List.flatMap_cons, preorder_node]
    rfl

theorem walk_eq (visit : Filter → m Unit) (f : Filter) : f.walk visit = f.preorder.forM visit := by
  rw [walk, walkLoop_eq, List.flatMap_singleton]

end

/-! ### calls -/

namespace Visitor
variable {σ : Type}

/-- A call of a visitor: the node, and the states before and after. -/
structure Call (σ : Type) where
  node : Filter
  before : σ
  after : σ

variable (visitor : Visitor (StateM σ))

/-- the call that a visitor gets and answers -/
def call (node : Filter) (before : σ) : Call σ where
  node := node
  before := before
  after := ((visitor.visit node).run before).2

/-- The visitor with a record of its calls, the last one at the end. -/
def recorded (node : Filter) : StateM (σ × List (Call σ)) Unit := fun (s, calls) =>
  let call := visitor.call node s
  ((), call.after, calls ++ [call])

/-- Calls from a state on: each one finds the state that the one before it has left behind. -/
inductive Threads : σ → List (Call σ) → σ → Prop where
  | nil {s} : Threads s [] s
  | cons {node s calls t} : Threads (visitor.call node s).after calls t →
      Threads s (visitor.call node s :: calls) t

/-- One node after the other is one call after the other, and a record of them changes nothing. -/
theorem exists_threads (nodes : List Filter) (s : σ) (log : List (Call σ)) :
    ∃ calls t, (nodes.forM visitor.visit).run s = ((), t) ∧
      (nodes.forM visitor.recorded).run (s, log) = ((), t, log ++ calls) ∧
      visitor.Threads s calls t ∧ calls.map (·.node) = nodes := by
  induction nodes generalizing s log with
  | nil =>
    refine ⟨[], s, rfl, ?_, .nil, rfl⟩
    rw [List.append_nil]
    rfl
  | cons node nodes ih =>
    obtain ⟨calls, t, run, record, threads, same⟩ :=
      ih (visitor.call node s).after (log ++ [visitor.call node s])
    refine ⟨visitor.call node s :: calls, t, run, ?_, .cons threads, congrArg (node :: ·) same⟩
    rw [List.append_cons]
    exact record

end Visitor

/-! ### negations -/

theorem run_negationFinder (nodes : List Filter) (found : Bool) :
    (nodes.forM negationFinder.visit).run found = ((), found || nodes.any isNot) := by
  induction nodes generalizing found with
  | nil =>
    rw [List.any_nil, Bool.or_false]
    rfl
  | cons node nodes ih =>
    have first : (negationFinder.visit node).run found = ((), found || node.isNot) := by
      cases node with
      | not => exact congrArg (Prod.mk ()) (Bool.or_true found).symm
      | and | or | value | path | key | expr | member | bool =>
        exact congrArg (Prod.mk ()) (Bool.or_false found).symm
    have step : ((node :: nodes).forM negationFinder.visit).run found =
        (nodes.forM negationFinder.visit).run ((negationFinder.visit node).run found).2 := rfl
    rw [step, first, ih, List.any_cons, Bool.or_assoc]

theorem isNot_iff {f : Filter} : f.isNot = true ↔ ∃ child, f = .not child := by
  cases f with
  | not child => exact ⟨fun _ => ⟨child, rfl⟩, fun _ => rfl⟩
  | and | or | value | path | key | expr | member | bool => exact ⟨nofun, nofun⟩

theorem containsNot_iff (f : Filter) :
    f.containsNot = true ↔ ∃ place child, f.at? place = some (.not child) := by
  rw [containsNot, walk_eq, run_negationFinder, Bool.false_or, List.any_eq_true, ← map_placed]
  constructor
  · rintro ⟨node, member, negation⟩
    obtain ⟨⟨place, _⟩, entry, rfl⟩ := List.mem_map.mp member
    obtain ⟨child, rfl⟩ := isNot_iff.mp negation
    exact ⟨place, child, mem_placed.mp entry⟩
  · rintro ⟨place, child, found⟩
    exact ⟨.not child, List.mem_map_of_mem (f := Prod.snd) (mem_placed.mpr found), rfl⟩

/-! ### walks -/

/-- **The walk with a stack of its own is the recursive walk in preorder.**  As programs they are
equal.  The walk makes one call for each place of the filter, with the node at that place, in the
lexicographic order of the places: a node before the nodes below it, and these from left to right.
Each call finds the state that the one before it has left behind, and the last one leaves the state
in which the walk ends.  So a filter contains a negation iff there is one at some place. -/
theorem walk_preorder {σ : Type} (visitor : Visitor (StateM σ)) (f : Filter) (s : σ) :
    f.walk visitor.visit = f.preorder.forM visitor.visit ∧
    (∃ calls t,
      (f.walk visitor.visit).run s = ((), t) ∧
      (f.walk visitor.recorded).run (s, []) = ((), t, calls) ∧
      visitor.Threads s calls t ∧
      calls.map (·.node) = f.placed.map (·.2)) ∧
    f.placed.map (·.2) = f.preorder ∧
    (f.placed.map (·.1)).Pairwise (· < ·) ∧
    (∀ place node, (place, node) ∈ f.placed ↔ f.at? place = some node) ∧
    (f.containsNot = true ↔ ∃ place child, f.at? place = some (.not child)) := by
  refine ⟨walk_eq _ f, ?_, f.map_placed, f.pairwise_placed, fun _ _ => mem_placed,
    f.containsNot_iff⟩
  obtain ⟨calls, t, run, record, threads, nodes⟩ := visitor.exists_threads f.preorder s []
  rw [walk_eq, walk_eq, map_placed]
  exact ⟨calls, t, run, record, threads, nodes⟩

end ColumnPlan.Filter
