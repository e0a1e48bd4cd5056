import ColumnPlan.Logical.Basic
import ColumnPlan.Error

/-!
# Folds and walks over filters

Generated filters nest deeply, so both keep their own stack of work.

* `Filter.foldPostorder combine f`   combines the results of the children at each node, from left
                                     to right and from the leaves up;
* `Filter.foldRecursive`             the same fold by recursion on the filter;
* `Filter.Visitor`                   what is done at each kind of node;
* `Filter.walk visit f`              visits each node before its children, from left to right;
* `Filter.preorder`                  the nodes in that order;
* `Filter.containsNot`               whether a negation is met on the walk.
-/

namespace ColumnPlan.Filter

theorem size_pos (f : Filter) : 0 < f.size := by
  cases f <;> simp only [Filter.size] <;> omega

theorem listSize_children (f : Filter) : Filter.listSize f.children < f.size + 1 := by
  cases f <;> simp only [children, Filter.size, Filter.listSize] <;> omega

/-! ### folds -/

/-- Work of a fold: a node to visit, or one whose children have been visited. -/
inductive Frame where
  | visit (f : Filter)
  | combine (f : Filter) (arity : Nat)

/-- The work that a frame still causes. -/
def Frame.cost : Frame → Nat
  | .visit f => 2 * f.size
  | .combine _ _ => 1

def frameCost (frames : List Frame) : Nat := frames.foldr (fun frame n => frame.cost + n) 0

theorem frameCost_visit (fs : List Filter) (rest : List Frame) :
    frameCost (fs.map .visit ++ rest) + 2 * fs.length =
      2 * Filter.listSize fs + frameCost rest := by
  induction fs with
  | nil => simp [frameCost, Filter.listSize]
  | cons f fs ih =>
    simp only [frameCost, List.map_cons, List.cons_append, List.foldr_cons, Frame.cost,
      Filter.listSize, List.length_cons] at ih ⊢
    omega

theorem frameCost_expand (f : Filter) (rest : List Frame) :
    frameCost (f.children.map .visit ++ .combine f f.children.length :: rest) <
      frameCost (.visit f :: rest) := by
  have h := frameCost_visit f.children (.combine f f.children.length :: rest)
  have hc : Filter.listSize f.children + 1 ≤ f.size + f.children.length := by
    cases f <;> simp only [children, Filter.size, Filter.listSize, List.length_cons,
      List.length_nil] <;> omega
  simp only [frameCost, List.foldr_cons, Frame.cost] at h ⊢
  omega

section
variable {m : Type → Type} [Monad m] [MonadExceptOf Error m] {β : Type}

/-- Works off the frames; `done` holds the results that no node has taken yet, the last one
first. -/
def foldLoop (combine : Filter → List β → m β) (frames : List Frame) (done : List β) : m β :=
  match frames with
  | [] =>
    match done with
    | [result] => pure result
    | _ => throw (.internal "postorder fold ended without a single root result")
  | .visit f :: rest =>
    foldLoop combine (f.children.map .visit ++ .combine f f.children.length :: rest) done
  | .combine f arity :: rest =>
    if done.length < arity then
      throw (.internal ("postorder fold lost results: need " ++ toString arity ++ ", have " ++
        toString done.length))
    else do
      let result ← combine f (done.take arity).reverse
      foldLoop combine rest (result :: done.drop arity)
termination_by frameCost frames
decreasing_by
  · exact frameCost_expand f rest
  · simp [frameCost, Frame.cost]

def foldPostorder (combine : Filter → List β → m β) (f : Filter) : m β :=
  foldLoop combine [.visit f] []

end

section
variable {m : Type → Type} [Monad m] {β : Type}

mutual

def foldRecursive (combine : Filter → List β → m β) : Filter → m β
  | .and children => do combine (.and children) (← foldChildren combine children)
  | .or children => do combine (.or children) (← foldChildren combine children)
  | .not child => do
    let result ← foldRecursive combine child
    combine (.not child) [result]
  | .value p op v => combine (.value p op v) []
  | .path l op r => combine (.path l op r) []
  | .key op n => combine (.key op n) []
  | .expr l op r => combine (.expr l op r) []
  | .member p op vs => combine (.member p op vs) []
  | .bool b => combine (.bool b) []

def foldChildren (combine : Filter → List β → m β) : List Filter → m (List β)
  | [] => pure []
  | f :: fs => do
    let result ← foldRecursive combine f
    let results ← foldChildren combine fs
    pure (result :: results)

end

/-! ### walks -/

theorem listSize_append (fs gs : List Filter) :
    Filter.listSize (fs ++ gs) = Filter.listSize fs + Filter.listSize gs := by
  induction fs with
  | nil => simp [Filter.listSize]
  | cons f fs ih => simp only [List.cons_append, Filter.listSize, ih]; omega

/-- What is done at each kind of node; where nothing is said, nothing. -/
structure Visitor (m : Type → Type) [Monad m] where
  value (path : String) (op : CompareOp) (value : Value) : m Unit := pure ()
  path (left : String) (op : CompareOp) (right : String) : m Unit := pure ()
  key (op : CompareOp) (value : Int64) : m Unit := pure ()
  expr (left : Expr) (op : CompareOp) (right : Expr) : m Unit := pure ()
  member (path : String) (op : MemberOp) (values : List Value) : m Unit := pure ()
  bool (value : Bool) : m Unit := pure ()
  and (children : List Filter) : m Unit := pure ()
  or (children : List Filter) : m Unit := pure ()
  not (child : Filter) : m Unit := pure ()

def Visitor.visit (visitor : Visitor m) : Filter → m Unit
  | .value p op v => visitor.value p op v
  | .path l op r => visitor.path l op r
  | .key op n => visitor.key op n
  | .expr l op r => visitor.expr l op r
  | .member p op vs => visitor.member p op vs
  | .bool b => visitor.bool b
  | .and children => visitor.and children
  | .or children => visitor.or children
  | .not child => visitor.not child

/-- Pushes nodes onto a stack, the last one first, so that the first one is taken off first. -/
def pushAll (fs stack : List Filter) : List Filter :=
  fs.reverse.foldl (fun stack f => f :: stack) stack

theorem pushAll_eq_append (fs stack : List Filter) : pushAll fs stack = fs ++ stack := by
  rw [pushAll, List.foldl_flip_cons_eq_append, List.map_id', List.reverse_reverse]

/-- Visits the nodes on the stack, each before its children. -/
def walkLoop (visit : Filter → m Unit) (stack : List Filter) : m Unit :=
  match stack with
  | [] => pure ()
  | f :: rest => do
    visit f
    walkLoop visit (pushAll f.children rest)
termination_by Filter.listSize stack
decreasing_by
  have h := listSize_children f
  simp only [pushAll_eq_append, listSize_append, Filter.listSize]
  omega

def walk (visit : Filter → m Unit) (f : Filter) : m Unit := walkLoop visit [f]

end

mutual

/-- A node, then the nodes below it. -/
def preorder : Filter → List Filter
  | .and children => .and children :: preorderAll children
  | .or children => .or children :: preorderAll children
  | .not child => .not child :: preorder child
  | .value p op v => [.value p op v]
  | .path l op r => [.path l op r]
  | .key op n => [.key op n]
  | .expr l op r => [.expr l op r]
  | .member p op vs => [.member p op vs]
  | .bool b => [.bool b]

def preorderAll : List Filter → List Filter
  | [] => []
  | f :: fs => preorder f ++ preorderAll fs

end

def isNot : Filter → Bool
  | .not _ => true
  | _ => false

/-- Remembers that it has met a negation. -/
def negationFinder : Visitor (StateM Bool) where
  not _ := set true

def containsNot (f : Filter) : Bool := ((f.walk negationFinder.visit).run false).2

end ColumnPlan.Filter
