import ColumnPlan.Proofs.Fallible
import ColumnPlan.Proofs.Logical.Fold
import Mathlib.Data.List.Basic

/-!
# The calls of a fold

A fold calls its callback once for each node, behind the calls for the children and with what these
have answered.  The callback may keep a state, and it may fail; then there is no further call.  So
the calls and the state are as good a description of a fold as its result, and in them too the fold
with a stack of its own is the recursion.  That its loop ends is known from the cost of its frames.

* `Callback`, `runFrom`     a callback with a state and failures, and a computation from a state;
* `Call`, `recorded`        a call, and the callback that keeps a record of its calls;
* `Trace`                   the calls that the recursion makes over a list of filters;
* `Trace.complete`, `Trace.stops`   one call for each node in postorder, up to a failure;
* `exists_trace`            the recursion makes the calls of a trace;
* `foldPostorder_calls`     and so does the fold with a stack.
-/

namespace ColumnPlan.Filter

mutual

/-- The nodes below a node, then the node. -/
def postorder : Filter → List Filter
  | .and children => postorderAll children ++ [.and children]
  | .or children => postorderAll children ++ [.or children]
  | .not child => postorder child ++ [.not child]
  | .value p op v => [.value p op v]
  | .path l op r => [.path l op r]
  | .key op n => [.key op n]
  | .expr l op r => [.expr l op r]
  | .member p op vs => [.member p op vs]
  | .bool b => [.bool b]

def postorderAll : List Filter → List Filter
  | [] => []
  | f :: fs => postorder f ++ postorderAll fs

end

theorem postorder_node (f : Filter) : f.postorder = postorderAll f.children ++ [f] := by
  cases f with
  | and | or => rw [postorder, children]
  | not f =>
    rw [postorder, children, postorderAll, postorderAll, List.append_nil]
  | value | path | key | expr | member | bool =>
    rw [postorder]
    rfl

/-- Induction on lists of filters: the children of the first one, and the others. -/
@[elab_as_elim]
theorem forest_induction {motive : List Filter → Prop} (nil : motive [])
    (cons : ∀ f fs, motive f.children → motive fs → motive (f :: fs)) (fs : List Filter) :
    motive fs := by
  rcases fs with _ | ⟨f, fs⟩
  · exact nil
  · exact cons f fs (forest_induction nil cons f.children) (forest_induction nil cons fs)
termination_by Filter.listSize fs
decreasing_by
  · have := listSize_children f
    simp only [Filter.listSize]
    omega
  · have := f.size_pos
    simp only [Filter.listSize]
    omega

/-! ### recursion over lists -/

section
variable {m : Type → Type} [Monad m] [LawfulMonad m] {β : Type}

/-- The recursion over a list: the children of the first filter, the filter, and the others. -/
theorem foldChildren_cons (combine : Filter → List β → m β) (f : Filter) (fs : List Filter) :
    foldChildren combine (f :: fs) =
      foldChildren combine f.children >>= fun below =>
        combine f below >>= fun b => foldChildren combine fs >>= fun bs => pure (b :: bs) := by
  rw [foldChildren, foldRecursive_node, bind_assoc]

theorem foldChildren_singleton (combine : Filter → List β → m β) (f : Filter) :
    foldChildren combine [f] = foldRecursive combine f >>= fun b => pure [b] := by
  rw [foldChildren, foldChildren]
  simp only [pure_bind]

end

/-! ### callbacks -/

/-- What combines the results of the children at a node, from a state on and unless it fails. -/
abbrev Callback (σ β : Type) := Filter → List β → ExceptT Error (StateM σ) β

/-- what a computation yields from a state, and the state that it leaves behind -/
def runFrom {σ α : Type} (x : ExceptT Error (StateM σ) α) (s : σ) : Except Error α × σ :=
  x.run.run s

/-- A call of a callback: the node with the results of its children, what is answered, and the
states before and after. -/
structure Call (σ β : Type) where
  node : Filter
  below : List β
  before : σ
  answer : Except Error β
  after : σ

section
variable {σ α β γ : Type}

/-- the call that a callback gets and answers -/
def Callback.call (combine : Callback σ β) (f : Filter) (below : List β) (before : σ) :
    Call σ β where
  node := f
  below := below
  before := before
  answer := (runFrom (combine f below) before).1
  after := (runFrom (combine f below) before).2

/-- The callback with a record of its calls, the last one at the end. -/
def recorded (combine : Callback σ β) : Callback (σ × List (Call σ β)) β := fun f below =>
  ExceptT.mk fun (s, calls) =>
    let call := combine.call f below s
    (call.answer, call.after, calls ++ [call])

variable {x : ExceptT Error (StateM σ) α} {next : α → ExceptT Error (StateM σ) γ} {s t : σ}

theorem runFrom_bind_ok {a : α} (h : runFrom x s = (.ok a, t)) :
    runFrom (x >>= next) s = runFrom (next a) t := by
  show (ExceptT.bindCont next (runFrom x s).1 : StateM σ _).run (runFrom x s).2 = _
  rw [h]
  rfl

theorem runFrom_bind_error {e : Error} (h : runFrom x s = (.error e, t)) :
    runFrom (x >>= next) s = (.error e, t) := by
  show (ExceptT.bindCont next (runFrom x s).1 : StateM σ _).run (runFrom x s).2 = _
  rw [h]
  rfl

theorem runFrom_map {r : Except Error α} (h : runFrom x s = (r, t)) (g : α → γ) :
    runFrom (x >>= fun a => pure (g a)) s = (r.map g, t) := by
  cases r with
  | error e => exact runFrom_bind_error h
  | ok a => exact runFrom_bind_ok h

end

/-! ### the calls of the recursion -/

section
variable {σ β : Type} {combine : Callback σ β}

/-- The calls that the recursion makes over a list of filters from a state on, with what it yields
and the state that it leaves behind: for each filter the calls for its children, and then, unless
one of them fails, a call for the filter itself, which gets what these have yielded. -/
inductive Trace (combine : Callback σ β) :
    List Filter → σ → List (Call σ β) → Except Error (List β) → σ → Prop where
  | nil {s} : Trace combine [] s [] (.ok []) s
  | inside {f fs s calls e t} : Trace combine f.children s calls (.error e) t →
      Trace combine (f :: fs) s calls (.error e) t
  | here {f fs s calls below t e} : Trace combine f.children s calls (.ok below) t →
      (combine.call f below t).answer = .error e →
        Trace combine (f :: fs) s (calls ++ [combine.call f below t]) (.error e)
          (combine.call f below t).after
  | behind {f fs s calls below t b rest e u} : Trace combine f.children s calls (.ok below) t →
      (combine.call f below t).answer = .ok b →
        Trace combine fs (combine.call f below t).after rest (.error e) u →
          Trace combine (f :: fs) s (calls ++ combine.call f below t :: rest) (.error e) u
  | cons {f fs s calls below t b rest bs u} : Trace combine f.children s calls (.ok below) t →
      (combine.call f below t).answer = .ok b →
        Trace combine fs (combine.call f below t).after rest (.ok bs) u →
          Trace combine (f :: fs) s (calls ++ combine.call f below t :: rest) (.ok (b :: bs)) u

/-- The callback does not fail. -/
def Call.Succeeds (call : Call σ β) : Prop := ∃ b, call.answer = .ok b

/-- Without a failure there is a call for each node. -/
theorem Trace.complete {fs : List Filter} {s t : σ} {calls : List (Call σ β)}
    {r : Except Error (List β)} (h : Trace combine fs s calls r t) {bs : List β} (hr : r = .ok bs) :
    calls.map (·.node) = postorderAll fs ∧ ∀ call ∈ calls, call.Succeeds := by
  induction h generalizing bs with
  | nil => exact ⟨rfl, nofun⟩
  | inside | here | behind => cases hr
  | @cons f fs s calls below t b rest bs u _ answer _ ihf ihs =>
    obtain ⟨nodes, answered⟩ := ihf rfl
    obtain ⟨others, answered'⟩ := ihs rfl
    constructor
    · rw [List.map_append, List.map_cons, nodes, others, postorderAll, postorder_node,
        List.append_assoc]
      rfl
    · exact List.forall_mem_append.mpr ⟨answered, List.forall_mem_cons.mpr ⟨⟨b, answer⟩, answered'⟩⟩

/-- A failure is that of the last call, and the nodes behind it get none. -/
theorem Trace.stops {fs : List Filter} {s t : σ} {calls : List (Call σ β)}
    {r : Except Error (List β)} (h : Trace combine fs s calls r t) {e : Error} (hr : r = .error e) :
    calls.map (·.node) <+: postorderAll fs ∧
      ∃ earlier last, calls = earlier ++ [last] ∧ last.answer = .error e ∧
        ∀ call ∈ earlier, call.Succeeds := by
  induction h with
  | nil | cons => cases hr
  | @inside f fs s calls e t _ ih =>
    obtain ⟨nodes, stopped⟩ := ih hr
    rw [postorderAll, postorder_node, List.append_assoc]
    exact ⟨nodes.trans (List.prefix_append _ _), stopped⟩
  | @here f fs s calls below t e trace answer _ =>
    cases hr
    obtain ⟨nodes, answered⟩ := trace.complete rfl
    refine ⟨?_, calls, _, rfl, answer, answered⟩
    rw [List.map_append, nodes, postorderAll, postorder_node]
    exact List.prefix_append _ _
  | @behind f fs s calls below t b rest e u trace answer _ _ ih =>
    obtain ⟨nodes, answered⟩ := trace.complete rfl
    obtain ⟨others, earlier, last, rfl, failed, answered'⟩ := ih hr
    refine ⟨?_, calls ++ combine.call f below t :: earlier, last, ?_, failed, ?_⟩
    · rw [List.map_append, List.map_cons, nodes, postorderAll, postorder_node, List.append_assoc]
      exact (List.prefix_append_right_inj _).mpr ((List.prefix_cons_inj _).mpr others)
    · rw [List.append_assoc]
      rfl
    · exact List.forall_mem_append.mpr ⟨answered, List.forall_mem_cons.mpr ⟨⟨b, answer⟩, answered'⟩⟩

/-- Over one filter the result is the answer to the last call. -/
theorem Trace.root {f : Filter} {s t : σ} {calls : List (Call σ β)} {r : Except Error β}
    (h : Trace combine [f] s calls (r.map fun b => [b]) t) :
    calls.map (·.node) <+: f.postorder ∧
      (∀ b, r = .ok b → calls.map (·.node) = f.postorder) ∧
      (∀ call ∈ calls.dropLast, call.Succeeds) ∧
      calls.getLast?.map (·.answer) = some r := by
  have single : postorderAll [f] = f.postorder := by
    rw [postorderAll, postorderAll, List.append_nil]
  cases r with
  | error e =>
    obtain ⟨nodes, earlier, last, rfl, failed, answered⟩ := h.stops rfl
    rw [List.dropLast_concat, List.getLast?_concat, Option.map_some, failed]
    exact ⟨single ▸ nodes, nofun, answered, rfl⟩
  | ok b =>
    obtain ⟨nodes, answered⟩ := h.complete rfl
    rw [single] at nodes
    refine ⟨nodes ▸ List.prefix_refl _, fun _ _ => nodes,
      fun call hc => answered call ((List.dropLast_sublist _).subset hc), ?_⟩
    cases h with
    | cons _ answer rest =>
      cases rest
      rw [List.getLast?_concat, Option.map_some, answer]

/-- The recursion makes the calls of a trace, and a record of them changes nothing. -/
theorem exists_trace (combine : Callback σ β) (fs : List Filter) (s : σ)
    (log : List (Call σ β)) :
    ∃ calls r t, Trace combine fs s calls r t ∧ runFrom (foldChildren combine fs) s = (r, t) ∧
      runFrom (foldChildren (recorded combine) fs) (s, log) = (r, t, log ++ calls) := by
  induction fs using forest_induction generalizing s log with
  | nil =>
    refine ⟨[], .ok [], s, .nil, ?_, ?_⟩
    · rw [foldChildren]
      rfl
    · rw [foldChildren, List.append_nil]
      rfl
  | cons f fs ihf ihs =>
    obtain ⟨calls, r, t, trace, run, record⟩ := ihf s log
    rw [foldChildren_cons, foldChildren_cons]
    cases r with
    | error e =>
      exact ⟨calls, .error e, t, .inside trace, runFrom_bind_error run, runFrom_bind_error record⟩
    | ok below =>
      rw [runFrom_bind_ok run, runFrom_bind_ok record]
      have answered : runFrom (combine f below) t =
          ((combine.call f below t).answer, (combine.call f below t).after) := rfl
      have logged : runFrom (recorded combine f below) (t, log ++ calls) =
          ((combine.call f below t).answer, (combine.call f below t).after,
            log ++ calls ++ [combine.call f below t]) := rfl
      cases answer : (combine.call f below t).answer with
      | error e =>
        rw [answer] at answered logged
        refine ⟨_, .error e, _, .here trace answer, runFrom_bind_error answered, ?_⟩
        rw [runFrom_bind_error logged, List.append_assoc]
      | ok b =>
        rw [answer] at answered logged
        obtain ⟨rest, r, u, trace', run', record'⟩ :=
          ihs (combine.call f below t).after (log ++ calls ++ [combine.call f below t])
        rw [runFrom_bind_ok answered, runFrom_bind_ok logged, runFrom_map run', runFrom_map record',
          List.append_assoc, List.append_assoc]
        cases r with
        | error e => exact ⟨_, _, u, .behind trace answer trace', rfl, rfl⟩
        | ok bs => exact ⟨_, _, u, .cons trace answer trace', rfl, rfl⟩

end

/-- **The fold with a stack of its own is the recursive fold.**  As programs they are equal, so they
end in the same result and the same state, after the same calls.  These are the calls of a trace:
one for each node, in postorder, with what the calls for its children have yielded.  The first call
that fails is the last one, and the result is its failure and never an error of the stack itself;
if none fails, every node has its call, and the result is what the one for the root yields. -/
theorem foldPostorder_calls {σ β : Type} (combine : Callback σ β) (f : Filter) (s : σ) :
    foldPostorder combine f = foldRecursive combine f ∧
    ∃ calls r t,
      runFrom (foldPostorder combine f) s = (r, t) ∧
      runFrom (foldPostorder (recorded combine) f) (s, []) = (r, t, calls) ∧
      runFrom (foldRecursive (recorded combine) f) (s, []) = (r, t, calls) ∧
      Trace combine [f] s calls (r.map fun b => [b]) t ∧
      calls.map (·.node) <+: f.postorder ∧
      (∀ b, r = .ok b → calls.map (·.node) = f.postorder) ∧
      (∀ call ∈ calls.dropLast, call.Succeeds) ∧
      calls.getLast?.map (·.answer) = some r := by
  rw [foldPostorder_eq, foldPostorder_eq]
  refine ⟨rfl, ?_⟩
  obtain ⟨calls, rs, t, trace, run, record⟩ := exists_trace combine [f] s []
  cases hr : runFrom (foldRecursive combine f) s with
  | mk r t' =>
    cases hr' : runFrom (foldRecursive (recorded combine) f) (s, []) with
    | mk r' state =>
      rw [foldChildren_singleton, runFrom_map hr] at run
      rw [foldChildren_singleton, runFrom_map hr'] at record
      cases run
      obtain ⟨same, rfl⟩ := Prod.mk.inj record
      rw [exceptMap_inj List.singleton_injective same]
      exact ⟨calls, r, t, rfl, rfl, rfl, trace, trace.root⟩

/-- Numbers the nodes in the order of the calls, and refuses negations. -/
def numbering : Callback Nat Nat := fun f _ => do
  let n ← getThe Nat
  set (n + 1)
  if f.isNot then throw (.unsupported .negation) else pure n

/-- Neither the last child nor the root is called. -/
example :
    let f := Filter.and [.bool true, .not (.bool false), .bool true]
    (runFrom (foldPostorder (recorded numbering) f) (0, [])).2.2.map (·.node) =
      [.bool true, .bool false, .not (.bool false)] := by
  cbv

end ColumnPlan.Filter
