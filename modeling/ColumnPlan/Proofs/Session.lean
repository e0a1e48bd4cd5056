import ColumnPlan.Proofs.Join.Safe
import ColumnPlan.Session

/-!
# What a context remembers

Nothing but literals: an answer is the same in the middle of a session as at its start.  The pool of
a session only grows, and it holds the constants of every answer.

* `Compiled.parts`             the nodes of an answer;
* `Request.blind_compile`      no request depends on the pool;
* `Request.ensures_compile`    its constants are in the pool afterwards;
* `exchange_faithful`          one exchange;
* `session_faithful`           a session, by induction on its requests.
-/

namespace ColumnPlan

open Compile

/-- The nodes of the two expressions that hash rows, if there are any. -/
def JoinStrategy.parts : JoinStrategy → List Part
  | .nestedLoop => []
  | .hash build probe => build.parts ++ probe.parts

/-- The nodes of all trees of a plan. -/
def JoinPlan.parts (plan : JoinPlan) : List Part :=
  plan.residual.parts ++ plan.matcher.parts ++ ScalarExpr.listParts plan.outputs ++
    plan.strategy.parts

def Compiled.parts : Compiled → List Part
  | .expr e => e.parts
  | .filter p => p.parts
  | .join plan => plan.parts

/-- The constants that an answer brings along are in a pool. -/
def Compiled.Shares (pool : LiteralPool) (answer : Compiled) : Prop :=
  ∀ part ∈ answer.parts, ∀ v ∈ part.constant?, v ∈ pool.values

theorem Made.shares {width : Nat} {pool : LiteralPool} {parts : List Part}
    (h : Made width pool parts) : ∀ part ∈ parts, ∀ v ∈ part.constant?, v ∈ pool.values :=
  fun part hp => (h part hp).2

theorem JoinPlan.WellMade.shares {plan : JoinPlan} {pool : LiteralPool}
    (h : plan.WellMade pool) : (Compiled.join plan).Shares pool := by
  have hashers : ∀ part ∈ plan.strategy.parts, ∀ v ∈ part.constant?, v ∈ pool.values := by
    cases hs : plan.strategy with
    | nestedLoop => exact fun _ hp => absurd hp List.not_mem_nil
    | hash b p =>
      obtain ⟨bs, ps, rfl, rfl, hb, hp⟩ := h.hashers b p hs
      exact List.forall_mem_append.mpr
        ⟨(made_fieldHasher hb pool).shares, (made_fieldHasher hp pool).shares⟩
  intro part hm
  simp only [Compiled.parts, JoinPlan.parts, List.mem_append] at hm
  rcases hm with ((residual | matcher) | outputs) | strategy
  · exact h.residual.shares part residual
  · exact h.matcher.shares part matcher
  · exact h.outputs.shares part outputs
  · exact hashers part strategy

/-! ### one request -/

namespace Request

theorem blind_compile (c : Setting) (request : Request) : Blind (request.compile c) := by
  cases request with
  | expr s e named => exact blind_bind (blind_compileExpr c s e named) fun _ => blind_pure _
  | filter s f => exact blind_bind (blind_compileFilter c s f) fun _ => blind_pure _
  | join build probe d condition =>
    exact blind_bind (blind_compileJoin c build probe d condition) fun _ => blind_pure _

theorem ensures_compile {c : Setting} (hc : c.functions.Keeps) (request : Request) :
    Ensures (request.compile c) fun pool answer => answer.Shares pool := by
  cases request with
  | expr s e named =>
    refine ensures_bind (ensures_compileExpr hc s e named) fun compiled => ensures_pure ?_
    intro pool made
    exact made.shares
  | filter s f =>
    refine ensures_bind (ensures_compileFilter hc s f) fun p => ensures_pure ?_
    intro pool made
    exact made.shares
  | join build probe d condition =>
    refine ensures_bind (ensures_compileJoin hc build probe d condition) fun plan => ensures_pure ?_
    intro pool made
    exact made.shares

end Request

/-- The answer is that of a fresh context, and the pool has grown by what the answer needs. -/
structure Exchange.Faithful (c : Setting) (x : Exchange) : Prop where
  answer_eq : x.answer = (x.request.compile c).result .empty
  grows : x.before.values ⊆ x.after.values
  nodup : x.after.values.Nodup
  shares : ∀ answer, x.answer = .ok answer → answer.Shares x.after

theorem exchange_faithful {c : Setting} (hc : c.functions.Keeps) (pool : LiteralPool)
    (request : Request) : (c.exchange pool request).Faithful c := by
  obtain ⟨grows, yields⟩ := request.ensures_compile hc pool
  refine ⟨request.blind_compile c pool .empty, grows, LiteralPool.nodup _, ?_⟩
  intro answer h
  exact yields answer h _ fun _ hv => hv

/-! ### a session -/

theorem map_request_session (c : Setting) (pool : LiteralPool) (requests : List Request) :
    (c.session pool requests).map (·.request) = requests := by
  induction requests generalizing pool with
  | nil => rfl
  | cons request rest ih =>
    rw [Setting.session, List.map_cons, ih]
    rfl

/-- **A context carries nothing from one compilation to the next but literals.**  With the functions
that are always there, each request of a session is answered as by a fresh context, failures
included.  After each of them the pool still holds what it held, holds no value twice, and holds the
constants of the answer. -/
theorem session_faithful (options : CompileOptions) (pool : LiteralPool)
    (requests : List Request) :
    let c : Setting := ⟨.builtins, options⟩
    (c.session pool requests).map (·.request) = requests ∧
      ∀ x ∈ c.session pool requests, x.Faithful c := by
  intro c
  refine ⟨map_request_session c pool requests, ?_⟩
  induction requests generalizing pool with
  | nil => exact fun _ h => absurd h List.not_mem_nil
  | cons request rest ih =>
    rw [Setting.session]
    exact List.forall_mem_cons.mpr
      ⟨exchange_faithful Registry.keeps_builtins pool request, ih _⟩

/-- The second request fails, and the third one finds its literal in the pool. -/
theorem session_faithful_again :
    let filter := Request.filter Sample.build (.value "a.v" ⟨.eq, .any⟩ (.long 3))
    ∃ x y z, Sample.setting.session .empty
        [filter, .expr Sample.build (.path "a.w") false, filter] = [x, y, z] ∧
      x.answer = z.answer ∧ y.answer.isOk = false ∧ .long 3 ∈ z.after.values := by
  intro filter
  have compiled : (filter.compile Sample.setting).result .empty =
      .ok (.filter (.compare (.equalConst (.long 3)) [.field 1 none])) := by
    show result (compileFilter Sample.setting Sample.build _ >>= fun p => _) .empty = _
    rw [compileFilter]
    show result (compileNormal Sample.setting Sample.build
      (.value "a.v" ⟨.eq, .any⟩ (.long 3)) >>= fun p => _) .empty = _
    rw [compileNormal]
    rfl
  have fails : ((Request.expr Sample.build (.path "a.w") false).compile
      Sample.setting).result .empty = .error (.columnNotFound "a.w" ["a.id", "a.v"]) := by
    show result (compileExpr Sample.setting Sample.build (.path "a.w") false >>= fun e => _)
      .empty = _
    rw [compileExpr]
    rfl
  obtain ⟨-, faithful⟩ := session_faithful Sample.setting.options .empty
    [filter, .expr Sample.build (.path "a.w") false, filter]
  refine ⟨_, _, _, rfl, ?_, ?_, ?_⟩
  · have first := faithful _ List.mem_cons_self
    have third := faithful _ (List.mem_cons_of_mem _ (List.mem_cons_of_mem _ List.mem_cons_self))
    exact first.answer_eq.trans third.answer_eq.symm
  · have second := (faithful _ (List.mem_cons_of_mem _ List.mem_cons_self)).answer_eq.trans fails
    exact congrArg Except.isOk second
  · have third := faithful _ (List.mem_cons_of_mem _ (List.mem_cons_of_mem _ List.mem_cons_self))
    exact third.shares _ (third.answer_eq.trans compiled) _ List.mem_cons_self _ rfl

end ColumnPlan
