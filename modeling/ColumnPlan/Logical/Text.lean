import ColumnPlan.Logical.Basic
import ColumnPlan.Schema.Basic

/-!
# The text of expressions and filters

The text of an expression is also the name of the column that holds its value.

* `Expr.text`, `Expr.columnName`     the text of an expression;
* `Filter.text`                      the text of a filter.
-/

namespace ColumnPlan

/-- Texts in parentheses with a joiner between two of them; `empty` stands for none. -/
def connectiveText (joiner empty : String) : List String → String
  | [] => empty
  | texts => "(" ++ joiner.intercalate texts ++ ")"

/-- The arguments of a call: expressions, then values by place, then values by name. -/
def argumentTexts (args : List String) (params : Params) : List String :=
  args ++ params.positional.map (·.text) ++
    params.named.entries.map fun (k, v) => k ++ "=" ++ v.text

/-- The terms of a chain behind their operators.  A plus before the first term is not written,
and a missing operator is a plus. -/
def chainText : Bool → List String → List ArithmeticOp → String
  | _, [], _ => ""
  | first, term :: terms, ops =>
    let op := ops.head?.getD .plus
    let sign :=
      if first then (if op = .plus then "" else op.text) else " " ++ op.text ++ " "
    sign ++ term ++ chainText false terms ops.tail

/-- The branches of a case expression; a condition without a result is not written. -/
def branchesText : List String → List String → String
  | c :: cs, r :: rs => " WHEN " ++ c ++ " THEN " ++ r ++ branchesText cs rs
  | _, _ => ""

mutual

def Expr.text : Expr → String
  | .path pattern => pattern
  | .key => keyName
  | .const value => value.text
  | .binary op left right => left.text ++ " " ++ op.text ++ " " ++ right.text
  | .unary op operand => op.text ++ operand.text
  | .bracket inner label => label.getD ("(" ++ inner.text ++ ")")
  | .caseWhen conditions results otherwise =>
    "CASE" ++ branchesText (Filter.texts conditions) (Expr.texts results) ++
      Expr.otherwiseText otherwise ++ " END"
  | .call name args params distinct =>
    name ++ "(" ++ (if distinct then "distinct " else "") ++
      ", ".intercalate (argumentTexts (Expr.texts args) params) ++ ")"
  | .chain terms ops => chainText true (Expr.texts terms) ops

def Expr.texts : List Expr → List String
  | [] => []
  | e :: es => e.text :: Expr.texts es

def Expr.otherwiseText : Option Expr → String
  | none => ""
  | some e => " ELSE " ++ e.text

def Filter.text : Filter → String
  | .value path op value => path ++ " " ++ op.text ++ " " ++ value.text
  | .path left op right => left ++ " " ++ op.text ++ " " ++ right
  | .key op value => keyName ++ " " ++ op.text ++ " " ++ toString value.toInt
  | .expr left op right => left.text ++ " " ++ op.text ++ " " ++ right.text
  | .member path op values =>
    path ++ " " ++ op.text ++ " (" ++ ", ".intercalate (values.map (·.text)) ++ ")"
  | .bool value => if value then "true" else "false"
  | .and children => connectiveText " && " "true" (Filter.texts children)
  | .or children => connectiveText " || " "false" (Filter.texts children)
  | .not child => "!(" ++ child.text ++ ")"

def Filter.texts : List Filter → List String
  | [] => []
  | f :: fs => f.text :: Filter.texts fs

end

/-- The name of the column that holds the value of an expression. -/
def Expr.columnName (e : Expr) : String := e.text

end ColumnPlan
