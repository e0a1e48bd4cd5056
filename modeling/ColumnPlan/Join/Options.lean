import ColumnPlan.Error

/-!
# What a join is asked to do

The left input of a join is its build side, the right input its probe side.

* `JoinType`               which rows a join emits;
* `JoinAlgorithm`          how pairs of rows are found;
* `JoinOptions.validate`   a mark join needs a name for its mark;
* `JoinDescriptor`         the options of a join with the columns that it equates.
-/

namespace ColumnPlan

inductive JoinType where
  /-- Matching pairs. -/
  | inner
  /-- Matching pairs, then the build rows without a match. -/
  | left
  /-- Matching pairs and the probe rows without a match. -/
  | right
  /-- Matching pairs and the rows of both sides without a match. -/
  | full
  /-- Each probe row, marked if it has a match. -/
  | semi
  /-- Each probe row, marked if it has no match. -/
  | anti
  deriving DecidableEq, Repr

namespace JoinType

def text : JoinType → String
  | .inner => "INNER"
  | .left => "LEFT"
  | .right => "RIGHT"
  | .full => "FULL"
  | .semi => "SEMI"
  | .anti => "ANTI"

/-- A mark join emits each probe row once, with a mark. -/
def isMark : JoinType → Bool
  | .semi | .anti => true
  | _ => false

def isAntiMark (t : JoinType) : Bool := t = .anti

def emitsBuildData (t : JoinType) : Bool := !t.isMark

def emitsBuildUnmatched : JoinType → Bool
  | .left | .full => true
  | _ => false

def emitsProbeUnmatched : JoinType → Bool
  | .inner | .left => false
  | _ => true

/-- Whether a row is emitted for each matching pair. -/
def emitsAllMatched (t : JoinType) : Bool := !t.isMark

end JoinType

inductive JoinAlgorithm where
  /-- Try all pairs. -/
  | nestedLoop
  /-- Try the pairs whose equated columns hash alike. -/
  | hash
  deriving DecidableEq, Repr

def JoinAlgorithm.text : JoinAlgorithm → String
  | .nestedLoop => "NestedLoop"
  | .hash => "Hash"

structure JoinOptions where
  type : JoinType
  algorithm : JoinAlgorithm
  /-- Emit the key of each side under its prefix, in place of the key of the probe side. -/
  emitBuildSideKey : Bool
  /-- The name of the mark of a mark join. -/
  mark : Option String
  deriving DecidableEq, Repr

def JoinOptions.default : JoinOptions := ⟨.inner, .nestedLoop, false, none⟩

def JoinOptions.validate (o : JoinOptions) : Except Error Unit :=
  if o.type.isMark then
    match o.mark with
    | none => .error (.malformed (.markMissing o.type.text))
    | some mark => if mark.isEmpty then .error (.malformed .markEmpty) else .ok ()
  else .ok ()

structure JoinDescriptor where
  options : JoinOptions
  /-- The prefix of the columns of the build side. -/
  buildPrefix : Option String
  /-- The prefix of the columns of the probe side. -/
  probePrefix : Option String
  /-- Names that are equated between the two sides, each under its prefix. -/
  columns : List String
  /-- Paths that are equated between the two sides as they stand. -/
  sharedPaths : List String
  deriving DecidableEq, Repr

end ColumnPlan
