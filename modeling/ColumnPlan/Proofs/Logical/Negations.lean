import Mathlib.Algebra.Group.Nat.Even
import ColumnPlan.Proofs.Logical.Leaves

/-!
# Negations pushed to the leaves

What becomes of a node when negations are pushed down is decided by the number of negations above
it: below an even number it stays as it is, below an odd number a leaf has the opposite operator and
a connective is the other one, with as many children in the same order.

* `Filter.Node`                  a node without what is below it;
* `Filter.nodes`                 the nodes of a filter, its negations counted and left out;
* `nodesUnder_node`              a node before those of its children;
* `Filter.turned`                a node with the negations above it pushed down;
* `eq_of_nodes`                  the nodes say everything about a filter without negations;
* `nodes_pushNot_negate`         one count of negations, for both halves of the pass;
* `pushNot_of_notFree`           without negations nothing changes;
* `negate_negate_pushNot`        two negations are none;
* `pushNot_turns`                what the pass does, and does no more when repeated.
-/

namespace ColumnPlan.Filter

/-! ### nodes -/

/-- The leaf with the opposite operator; a constant becomes the other one. -/
def opposite : Filter → Filter
  | .value p op v => .value p op.opposite v
  | .path l op r => .path l op.opposite r
  | .key op n => .key op.opposite n
  | .expr l op r => .expr l op.opposite r
  | .member p op vs => .member p op.opposite vs
  | .bool b => .bool !b
  | f => f

/-- A node that is no negation: a leaf, or a connective with the number of its children. -/
inductive Node where
  | leaf (f : Filter)
  | and (arity : Nat)
  | or (arity : Nat)

namespace Node

def opposite : Node → Node
  | .leaf f => .leaf f.opposite
  | .and arity => .or arity
  | .or arity => .and arity

def leaf? : Node → Option Filter
  | .leaf f => some f
  | .and _ | .or _ => none

def arity : Node → Nat
  | .leaf _ => 0
  | .and arity | .or arity => arity

/-- The filter of a node and of what is below it. -/
def build : Node → List Filter → Filter
  | .leaf f, _ => f
  | .and _, children => .and children
  | .or _, children => .or children

end Node

/-- The node of a filter that is no negation. -/
def node : Filter → Node
  | .and children => .and children.length
  | .or children => .or children.length
  | f => .leaf f

mutual

/-- The nodes below `n` negations that are no negations themselves.  Each has the number of
negations above it and comes before the nodes below it, which stand from left to right. -/
def nodesUnder (n : Nat) : Filter → List (Nat × Node)
  | .and children => (n, .and children.length) :: nodesUnderAll n children
  | .or children => (n, .or children.length) :: nodesUnderAll n children
  | .not child => nodesUnder (n + 1) child
  | .value p op v => [(n, .leaf (.value p op v))]
  | .path l op r => [(n, .leaf (.path l op r))]
  | .key op m => [(n, .leaf (.key op m))]
  | .expr l op r => [(n, .leaf (.expr l op r))]
  | .member p op vs => [(n, .leaf (.member p op vs))]
  | .bool b => [(n, .leaf (.bool b))]

def nodesUnderAll (n : Nat) : List Filter → List (Nat × Node)
  | [] => []
  | f :: fs => nodesUnder n f ++ nodesUnderAll n fs

end

def nodes (f : Filter) : List (Nat × Node) := f.nodesUnder 0

/-- The leaves from left to right, each with the number of negations above it. -/
def countedLeaves (f : Filter) : List (Nat × Filter) :=
  f.nodes.filterMap fun (n, node) => node.leaf?.map (n, ·)

/-- The node with the negations above it pushed down. -/
def turned : Nat × Node → Nat × Node
  | (n, node) => (0, if Even n then node else node.opposite)

theorem nodesUnderAll_eq_flatMap (n : Nat) (fs : List Filter) :
    nodesUnderAll n fs = fs.flatMap (nodesUnder n) := by
  induction fs with
  | nil => rw [nodesUnderAll, List.flatMap_nil]
  | cons f fs ih => rw [nodesUnderAll, ih, List.flatMap_cons]

theorem nodesUnder_of_isLeaf {f : Filter} (h : f.isLeaf = true) (n : Nat) :
    f.nodesUnder n = [(n, .leaf f)] := by
  cases f with
  | and | or | not => cases h
  | value | path | key | expr | member | bool => rw [nodesUnder]

section
variable {f : Filter} (h : f.isNot = false)
include h

theorem nodesUnder_node (n : Nat) :
    f.nodesUnder n = (n, f.node) :: f.children.flatMap (nodesUnder n) := by
  cases f with
  | not => cases h
  | and | or =>
    rw [nodesUnder, nodesUnderAll_eq_flatMap]
    rfl
  | value | path | key | expr | member | bool =>
    rw [nodesUnder]
    rfl

theorem build_node : f.node.build f.children = f := by
  cases f with
  | not => cases h
  | and | or | value | path | key | expr | member | bool => rfl

theorem arity_node : f.node.arity = f.children.length := by
  cases f with
  | not => cases h
  | and | or | value | path | key | expr | member | bool => rfl

theorem node_pushNot : f.pushNot.node = f.node := by
  cases f with
  | not => cases h
  | and fs | or fs =>
    rw [pushNot, pushNotAll_eq_map, node, node, List.length_map]
  | value | path | key | expr | member | bool => rw [pushNot]

theorem node_negate : f.negate.node = f.node.opposite := by
  cases f with
  | not => cases h
  | and fs | or fs =>
    rw [negate, negateAll_eq_map, node, node, List.length_map]
    rfl
  | value | path | key | expr | member | bool => rfl

theorem children_pushNot : f.pushNot.children = f.children.map pushNot := by
  cases f with
  | not => cases h
  | and | or => exact pushNotAll_eq_map _
  | value | path | key | expr | member | bool => rfl

theorem children_negate : f.negate.children = f.children.map negate := by
  cases f with
  | not => cases h
  | and | or => exact negateAll_eq_map _
  | value | path | key | expr | member | bool => rfl

end

theorem leaves_eq_filterMap (f : Filter) (n : Nat) :
    f.leaves = (f.nodesUnder n).filterMap fun node => node.2.leaf? := by
  induction f using Filter.induction generalizing n with
  | leaf f h =>
    rw [leaves_of_isLeaf h, nodesUnder_of_isLeaf h]
    rfl
  | and fs ih =>
    rw [leaves_and, nodesUnder, nodesUnderAll_eq_flatMap, List.filterMap_cons_none rfl,
      List.filterMap_flatMap]
    exact List.flatMap_congr fun f hf => ih f hf n
  | or fs ih =>
    rw [leaves_or, nodesUnder, nodesUnderAll_eq_flatMap, List.filterMap_cons_none rfl,
      List.filterMap_flatMap]
    exact List.flatMap_congr fun f hf => ih f hf n
  | not f ih => rw [leaves_not, nodesUnder, ih (n + 1)]

theorem map_countedLeaves (f : Filter) : f.countedLeaves.map (·.2) = f.leaves := by
  unfold countedLeaves nodes
  rw [List.map_filterMap, f.leaves_eq_filterMap 0]
  refine List.filterMap_congr fun node _ => ?_
  rw [Option.map_map]
  exact Option.map_id'

/-! ### what the nodes say -/

/-- The nodes of some filters, and what comes after them, are read in one way. -/
theorem eq_of_flatMap_nodesUnder {n : Nat} {fs : List Filter}
    (each : ∀ f ∈ fs, ∀ g, g.NotFree → ∀ rest rest',
      f.nodesUnder n ++ rest = g.nodesUnder n ++ rest' → f = g ∧ rest = rest')
    {gs : List Filter} (free : ∀ g ∈ gs, g.NotFree) (length : fs.length = gs.length)
    {rest rest' : List (Nat × Node)}
    (same : fs.flatMap (nodesUnder n) ++ rest = gs.flatMap (nodesUnder n) ++ rest') :
    fs = gs ∧ rest = rest' := by
  induction fs generalizing gs with
  | nil =>
    obtain rfl := List.length_eq_zero_iff.mp length.symm
    exact ⟨rfl, same⟩
  | cons f fs ih =>
    cases gs with
    | nil => cases length
    | cons g gs =>
      rw [List.flatMap_cons, List.flatMap_cons, List.append_assoc, List.append_assoc] at same
      obtain ⟨head, tail⟩ := each f List.mem_cons_self g (free g List.mem_cons_self) _ _ same
      obtain ⟨others, rest⟩ := ih (fun f hf => each f (List.mem_cons_of_mem _ hf))
        (fun g hg => free g (List.mem_cons_of_mem _ hg)) (Nat.succ.inj length) tail
      exact ⟨congrArg₂ List.cons head others, rest⟩

/-- A connective says how many children it has, so the nodes show where each child ends. -/
theorem eq_of_nodesUnder {f : Filter} (hf : f.NotFree) (n : Nat) {g : Filter} (hg : g.NotFree)
    {rest rest' : List (Nat × Node)} (same : f.nodesUnder n ++ rest = g.nodesUnder n ++ rest') :
    f = g ∧ rest = rest' := by
  induction f using children_induction generalizing g rest rest' with
  | node f ih =>
    have notF := hf.isNot_eq_false
    have notG := hg.isNot_eq_false
    rw [nodesUnder_node notF, nodesUnder_node notG, List.cons_append, List.cons_append] at same
    obtain ⟨root, below⟩ := List.cons.inj same
    have root : f.node = g.node := congrArg Prod.snd root
    have length : f.children.length = g.children.length := by
      rw [← arity_node notF, ← arity_node notG, root]
    obtain ⟨children, rest⟩ := eq_of_flatMap_nodesUnder
      (fun f hf' g hg _ _ same => ih f hf' (hf.of_mem (mem_preorder_of_mem_children hf')) hg same)
      (fun g hg' => hg.of_mem (mem_preorder_of_mem_children hg')) length below
    refine ⟨?_, rest⟩
    rw [← build_node notF, ← build_node notG, root, children]

/-- A filter without negations is known by its nodes. -/
theorem eq_of_nodes {f g : Filter} (hf : f.NotFree) (hg : g.NotFree) (same : f.nodes = g.nodes) :
    f = g := (eq_of_nodesUnder hf 0 hg (congrArg (· ++ []) same)).1

/-! ### the pass -/

/-- Both halves of the pass at once: the first is for an even number of negations above, the second
for an odd one, and each negation on the way changes from one to the other. -/
theorem nodes_pushNot_negate (f : Filter) (n : Nat) :
    (Even n → f.pushNot.nodes = (f.nodesUnder n).map turned) ∧
      (¬ Even n → f.negate.nodes = (f.nodesUnder n).map turned) := by
  unfold nodes
  induction f using children_induction generalizing n with
  | node f ih =>
    by_cases h : f.isNot = false
    · obtain ⟨pushed, negated⟩ := f.notFree_pushNot_negate
      rw [nodesUnder_node pushed.isNot_eq_false, nodesUnder_node negated.isNot_eq_false,
        nodesUnder_node h, node_pushNot h, node_negate h, children_pushNot h, children_negate h,
        List.flatMap_map, List.flatMap_map, List.map_cons, List.map_flatMap, turned]
      constructor
      · intro even
        rw [if_pos even, List.flatMap_congr fun f hf => (ih f hf n).1 even]
      · intro odd
        rw [if_neg odd, List.flatMap_congr fun f hf => (ih f hf n).2 odd]
    · obtain ⟨child, rfl⟩ : ∃ child, f = .not child := by
        cases f with
        | not child => exact ⟨child, rfl⟩
        | and | or | value | path | key | expr | member | bool => exact absurd rfl h
      -- no node of its own, only one more negation above the nodes below
      rw [pushNot, negate, nodesUnder]
      obtain ⟨below, belowOdd⟩ := ih child List.mem_cons_self (n + 1)
      rw [Nat.even_add_one] at below belowOdd
      exact ⟨fun even => belowOdd (not_not_intro even), below⟩

theorem nodes_pushNot (f : Filter) : f.pushNot.nodes = f.nodes.map turned :=
  (f.nodes_pushNot_negate 0).1 Even.zero

/-- The leaves keep their places; an odd number of negations turns a leaf. -/
theorem leaves_pushNot (f : Filter) :
    f.pushNot.leaves = f.countedLeaves.map fun (n, leaf) =>
      if Even n then leaf else leaf.opposite := by
  have nodes := f.nodes_pushNot
  unfold countedLeaves
  rw [f.pushNot.leaves_eq_filterMap 0]
  show f.pushNot.nodes.filterMap _ = _
  rw [nodes, List.filterMap_map, List.map_filterMap]
  refine List.filterMap_congr fun (n, node) _ => ?_
  show (if Even n then node else node.opposite).leaf? = _
  rw [Option.map_map]
  by_cases even : Even n
  · rw [if_pos even]
    cases node with
    | leaf f => exact congrArg some (if_pos even).symm
    | and | or => rfl
  · rw [if_neg even]
    cases node with
    | leaf f => exact congrArg some (if_neg even).symm
    | and | or => rfl

theorem pushNot_of_notFree {f : Filter} (h : f.NotFree) : f.pushNot = f := by
  induction f using Filter.induction with
  | leaf f hf => exact pushNot_of_isLeaf hf
  | and fs ih =>
    have each := (notFree_and_iff fs).mp h
    rw [pushNot, pushNotAll_eq_map, List.map_congr_left fun f hf => ih f hf (each f hf),
      List.map_id']
  | or fs ih =>
    have each := (notFree_or_iff fs).mp h
    rw [pushNot, pushNotAll_eq_map, List.map_congr_left fun f hf => ih f hf (each f hf),
      List.map_id']
  | not f => exact absurd h (not_notFree_not f)

theorem notFree_pushNot (f : Filter) : f.pushNot.NotFree := f.notFree_pushNot_negate.1

theorem negate_negate_pushNot (f : Filter) :
    f.negate.negate = f.pushNot ∧ f.pushNot.negate = f.negate := by
  induction f using Filter.induction with
  | leaf f h =>
    rw [negate_negate_of_isLeaf h, pushNot_of_isLeaf h]
    exact ⟨rfl, rfl⟩
  | and fs ih =>
    have twice : fs.map (negate ∘ negate) = fs.map pushNot :=
      List.map_congr_left fun f hf => (ih f hf).1
    have once : fs.map (negate ∘ pushNot) = fs.map negate :=
      List.map_congr_left fun f hf => (ih f hf).2
    rw [pushNot, negate, negate, negate, pushNotAll_eq_map, negateAll_eq_map, negateAll_eq_map,
      negateAll_eq_map, List.map_map, List.map_map, twice, once]
    exact ⟨rfl, rfl⟩
  | or fs ih =>
    have twice : fs.map (negate ∘ negate) = fs.map pushNot :=
      List.map_congr_left fun f hf => (ih f hf).1
    have once : fs.map (negate ∘ pushNot) = fs.map negate :=
      List.map_congr_left fun f hf => (ih f hf).2
    rw [pushNot, negate, negate, negate, pushNotAll_eq_map, negateAll_eq_map, negateAll_eq_map,
      negateAll_eq_map, List.map_map, List.map_map, twice, once]
    exact ⟨rfl, rfl⟩
  | not f ih =>
    rw [negate, pushNot]
    exact ⟨ih.2, ih.1⟩

/-- **Negations are pushed to the leaves.**  The result is the one filter without negations whose
nodes are those of the filter, in order and with as many children, each turned if an odd number of
negations stands above it.  So the leaves are the same but for their operators, and a filter without
negations, such as the result, does not change.  Pushing down a negation of the result of a negation
gives the result of the filter. -/
theorem pushNot_turns (f : Filter) :
    (∀ g, f.pushNot = g ↔ g.NotFree ∧ g.nodes = f.nodes.map turned) ∧
    f.countedLeaves.map (·.2) = f.leaves ∧
    (f.pushNot.leaves = f.countedLeaves.map fun (n, leaf) =>
      if Even n then leaf else leaf.opposite) ∧
    (f.pushNot = f ↔ f.NotFree) ∧
    f.pushNot.pushNot = f.pushNot ∧
    (Filter.not (Filter.not f).pushNot).pushNot = f.pushNot := by
  refine ⟨fun g => ?_, f.map_countedLeaves, f.leaves_pushNot, ?_,
    pushNot_of_notFree f.notFree_pushNot, ?_⟩
  · constructor
    · rintro rfl
      exact ⟨f.notFree_pushNot, f.nodes_pushNot⟩
    · rintro ⟨free, nodes⟩
      exact eq_of_nodes f.notFree_pushNot free (f.nodes_pushNot.trans nodes.symm)
  · exact ⟨fun same => same ▸ f.notFree_pushNot, pushNot_of_notFree⟩
  · rw [pushNot, pushNot]
    exact f.negate_negate_pushNot.1

example : (Filter.not (.and [.value "a" ⟨.eq, .any⟩ (.long 1), .not (.bool true)])).pushNot =
    .or [.value "a" ⟨.notEq, .all⟩ (.long 1), .bool true] := rfl

end ColumnPlan.Filter
