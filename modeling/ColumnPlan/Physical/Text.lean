import ColumnPlan.Physical.Basic

/-!
# The text of physical expressions and predicates

* `ScalarExpr.text`, `PredicateExpr.text`
-/

namespace ColumnPlan

def aliasText (label : Option String) : String := label.elim "" (" AS " ++ ·)

/-- The name of a function in texts; an extraction names its unit. -/
def ScalarFunction.textName : ScalarFunction → String
  | .extract unit => "extract_" ++ unit.name
  | f => f.name

/-- What a predicate compares with, behind its operands. -/
def PredicateFunction.constText : PredicateFunction → String
  | .equalConst v | .notEqualConst v => ", " ++ v.text
  | .likeConst p | .notLikeConst p => ", " ++ (Value.binary p.bytes).text
  | .inSet s | .notInSet s => ", \x7b" ++ toString s.size ++ " values\x7d"
  | .compare _ => ""

mutual

def ScalarExpr.text : ScalarExpr → String
  | .field index label => "#" ++ toString index ++ aliasText label
  | .literal value label => value.text ++ aliasText label
  | .call function args label =>
    function.textName ++ "(" ++ ", ".intercalate (ScalarExpr.texts args) ++ ")" ++ aliasText label
  | .rename label child => child.text ++ " AS " ++ label
  | .predicate p => p.text

def ScalarExpr.texts : List ScalarExpr → List String
  | [] => []
  | e :: es => e.text :: ScalarExpr.texts es

def PredicateExpr.text : PredicateExpr → String
  | .compare function operands =>
    function.name ++ "(" ++ ", ".intercalate (ScalarExpr.texts operands) ++ function.constText ++
      ")"
  | .and children => "and(" ++ ", ".intercalate (PredicateExpr.texts children) ++ ")"
  | .or children => "or(" ++ ", ".intercalate (PredicateExpr.texts children) ++ ")"
  | .always => "true"
  | .never => "false"

def PredicateExpr.texts : List PredicateExpr → List String
  | [] => []
  | p :: ps => p.text :: PredicateExpr.texts ps

end

end ColumnPlan
