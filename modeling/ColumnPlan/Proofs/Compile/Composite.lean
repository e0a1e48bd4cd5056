import ColumnPlan.Proofs.Compile.Outcome

/-!
# Expressions are compiled part by part

What an expression without a label is compiled to, from what its parts are compiled to.

* `outcome_path`, `outcome_const`       words;
* `outcome_binary`, `outcome_unary`, `outcome_bracket`   operators and brackets;
* `outcome_call`                        a call, or the column that is named after it;
* `outcome_caseWhen`                    a case expression.
-/

namespace ColumnPlan

open Compile

section
variable (c : Setting) (s : Schema)

theorem outcome_path {pattern : String} {i : Nat} (h : s.resolve pattern = .ok i) :
    (compileExpr c s (.path pattern) false).outcome = .ok (.field i none) := by
  rw [compileExpr, outcome_bind _ fun _ => blind_pure _, outcome_lift, h]
  rfl

theorem outcome_const (v : Value) :
    (compileExpr c s (.const v) false).outcome = .ok (.literal v none) := by
  rw [compileExpr, outcome_bind _ fun _ => blind_pure _, outcome_literal]
  rfl

theorem outcome_binary (op : ArithmeticOp) (left right : Expr) :
    (compileExpr c s (.binary op left right) false).outcome =
      (compileExpr c s left false).outcome >>= fun l =>
        (compileExpr c s right false).outcome >>= fun r => .ok (.call op.function [l, r] none) := by
  rw [compileExpr, outcome_bind _ fun _ =>
    blind_bind (blind_compileExpr c s right false) fun _ => blind_pure _]
  congr 1
  funext l
  rw [outcome_bind _ fun _ => blind_pure _]
  rfl

theorem outcome_negated (operand : Expr) :
    (compileUnary c s .minus operand none).outcome =
      (compileExpr c s operand false).outcome >>= fun x => .ok (.call .negate [x] none) := by
  rw [compileUnary, outcome_bind _ fun _ => blind_pure _]
  rfl

theorem outcome_unary (op : ArithmeticOp) (operand : Expr) :
    (compileExpr c s (.unary op operand) false).outcome =
      (compileUnary c s op operand none).outcome := by
  rw [compileExpr]
  rfl

theorem outcome_bracket (inner : Expr) (label : Option String) :
    (compileExpr c s (.bracket inner label) false).outcome = (compileExpr c s inner false).outcome := by
  rw [compileExpr, outcome_bind _ fun _ => blind_pure _]
  cases (compileExpr c s inner false).outcome with
  | error e => rfl
  | ok x => rfl

/-- A call is the column that is named after it, or what its function makes of its arguments. -/
theorem outcome_call (name : String) (args : List Expr) (params : Params) (once : Bool) :
    (compileExpr c s (.call name args params once) false).outcome =
      computedColumn? s (Expr.call name args params once).columnName >>= fun column =>
        column.elim
          (rowFunction c.functions name once >>= fun f =>
            (args.mapM fun e => (compileExpr c s e false).outcome) >>= fun compiled =>
              f.transform compiled params)
          fun i => .ok (.field i none) := by
  have blind (f : Function) (compiled : List ScalarExpr) :
      Blind (do pure ((← liftM (f.transform compiled params) : ScalarExpr).renamed none)) :=
    blind_bind (blind_lift _) fun _ => blind_pure _
  rw [compileExpr]
  refine (outcome_bind _ fun column => ?_).trans ?_
  · cases column with
    | some i => exact blind_pure _
    | none =>
      exact blind_bind (blind_lift _) fun f =>
        blind_bind (blind_compileExprs c s args) fun compiled => blind f compiled
  · rw [outcome_lift]
    congr 1
    funext column
    cases column with
    | some i => rfl
    | none =>
      refine (outcome_bind _ fun f => blind_bind (blind_compileExprs c s args) (blind f)).trans ?_
      rw [outcome_lift]
      congr 1
      funext f
      rw [outcome_bind _ (blind f), outcome_compileExprs]
      congr 1
      funext compiled
      rw [outcome_bind _ fun _ => blind_pure _, outcome_lift]
      cases f.transform compiled params with
      | error e => rfl
      | ok x => rfl

theorem outcome_branches (f : Filter) (fs : List Filter) (e : Expr) (es : List Expr) :
    (compileBranches c s (f :: fs) (e :: es)).outcome =
      (compileFilter c s f).outcome >>= fun condition =>
        (compileExpr c s e false).outcome >>= fun result =>
          (compileBranches c s fs es).outcome >>= fun rest =>
            .ok (.predicate condition :: result :: rest) := by
  have behind (condition : PredicateExpr) (result : ScalarExpr) : Blind (do
      let rest ← compileBranches c s fs es
      pure (ScalarExpr.predicate condition :: result :: rest)) :=
    blind_bind (blind_compileBranches c s fs es) fun _ => blind_pure _
  rw [compileBranches, outcome_bind _ fun condition =>
    blind_bind (blind_compileExpr c s e false) (behind condition)]
  congr 1
  funext condition
  rw [outcome_bind _ (behind condition)]
  congr 1
  funext result
  rw [outcome_bind _ fun _ => blind_pure _]
  rfl

theorem outcome_otherwise (e : Expr) :
    (compileOtherwise c s (some e)).outcome =
      (compileExpr c s e false).outcome >>= fun last => .ok [last] := by
  rw [compileOtherwise, outcome_bind _ fun _ => blind_pure _]
  rfl

theorem outcome_caseWhen (conditions : List Filter) (results : List Expr) (otherwise : Option Expr) :
    (compileExpr c s (.caseWhen conditions results otherwise) false).outcome =
      if conditions.length ≠ results.length then
        .error (.malformed (.caseArity conditions.length results.length))
      else
        (compileBranches c s conditions results).outcome >>= fun branches =>
          (compileOtherwise c s otherwise).outcome >>= fun last =>
            .ok (.call .caseWhen (branches ++ last) none) := by
  have tail (branches : List ScalarExpr) : Blind (do
      let last ← compileOtherwise c s otherwise
      pure (ScalarExpr.call .caseWhen (branches ++ last) none)) :=
    blind_bind (blind_compileOtherwise c s otherwise) fun _ => blind_pure _
  rw [compileExpr]
  split
  · rfl
  · show outcome (do
      let branches ← compileBranches c s conditions results
      let last ← compileOtherwise c s otherwise
      pure (ScalarExpr.call .caseWhen (branches ++ last) none)) = _
    rw [outcome_bind _ tail]
    congr 1
    funext branches
    rw [outcome_bind _ fun _ => blind_pure _]
    rfl

end

end ColumnPlan
