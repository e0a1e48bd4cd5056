import ColumnPlan.Join.Plan

/-!
# Compilations through one context

A context is used for one compilation after the other.  Each of them starts from the pool of
literals that the one before has left behind, also after a failure.

* `Request`            what a context is asked to compile;
* `Compiled`           what it answers, if nothing fails;
* `Exchange`           a request with its answer and the pools around it;
* `Setting.session`    requests in a row.
-/

namespace ColumnPlan

inductive Request where
  | expr (s : Schema) (e : Expr) (named : Bool)
  | filter (s : Schema) (f : Filter)
  | join (build probe : Schema) (d : JoinDescriptor) (condition : Option Filter)

inductive Compiled where
  | expr (e : ScalarExpr)
  | filter (p : PredicateExpr)
  | join (plan : JoinPlan)

def Request.compile (c : Setting) : Request → Compile Compiled
  | .expr s e named => do pure (.expr (← compileExpr c s e named))
  | .filter s f => do pure (.filter (← compileFilter c s f))
  | .join build probe d condition => do pure (.join (← compileJoin c build probe d condition))

structure Exchange where
  request : Request
  /-- The pool that the request finds. -/
  before : LiteralPool
  answer : Except Error Compiled
  /-- The pool that it leaves behind. -/
  after : LiteralPool

def Setting.exchange (c : Setting) (pool : LiteralPool) (request : Request) : Exchange :=
  let (answer, after) := (request.compile c).run.run pool
  ⟨request, pool, answer, after⟩

def Setting.session (c : Setting) (pool : LiteralPool) : List Request → List Exchange
  | [] => []
  | request :: requests =>
    let exchange := c.exchange pool request
    exchange :: c.session exchange.after requests

end ColumnPlan
