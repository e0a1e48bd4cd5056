import ColumnPlan.Pattern.CharSet
import ColumnPlan.Pattern.Parser

/-!
# Patterns with their flags applied

* `Place`            an assertion about a place in a text;
* `Regex`            a pattern: sets of characters and bytes, places, sequence, choice and
                     repetition;
* `Flags`            the flags in force;
* `Ast.regex?`       the meaning of a pattern as it is written.  Flags set inside a group hold up
                     to its end, also in the alternatives that follow;
* `regexOf?`         the meaning of a text as a pattern.

A pattern means nothing where it asks for a property that does not exist, or for a property or a
character beyond ASCII while it speaks of bytes.
-/

namespace ColumnPlan.Pattern

inductive Place where
  | textStart
  | textEnd
  | lineStart (crlf : Bool)
  | lineEnd (crlf : Bool)
  | word (unicode : Bool) (place : WordPlace)
  deriving DecidableEq, Repr

inductive Regex where
  | empty
  | scalar (set : CharSet)
  | byte (set : CharSet)
  | place (p : Place)
  | seq (a b : Regex)
  | alt (a b : Regex)
  /-- At least so many times, and then up to so many times more, or without end. -/
  | loop (a : Regex) (min : Nat) (more : Option Nat)

structure Flags where
  ignoreCase : Bool
  multiLine : Bool
  dotAll : Bool
  unicode : Bool
  crlf : Bool

namespace Flags

def initial : Flags := ⟨false, false, false, true, false⟩

def set (f : Flags) : FlagSetting → Flags
  | (.ignoreCase, on) => { f with ignoreCase := on }
  | (.multiLine, on) => { f with multiLine := on }
  | (.dotAll, on) => { f with dotAll := on }
  | (.unicode, on) => { f with unicode := on }
  | (.crlf, on) => { f with crlf := on }
  | (.swapGreed, _) => f
  | (.freeSpacing, _) => f

def setAll (f : Flags) (settings : List FlagSetting) : Flags := settings.foldl set f

/-- The case variants that the flags ask for. -/
def orbit? (f : Flags) : Option (Nat → List Nat) :=
  if f.ignoreCase then some (if f.unicode then Unicode.orbit else asciiOrbit) else none

end Flags

/-- A set as one character or one byte, as the flags say. -/
def Regex.ofSet (f : Flags) (s : CharSet) : Regex := if f.unicode then .scalar s else .byte s

/-- The byte of a literal inside a class of bytes, or its code point. -/
def literalCode? (f : Flags) (l : Literal) : Option Nat :=
  if f.unicode || l.isByte || l.char.toNat < 0x80 then some l.char.toNat else none

mutual

def ClassItem.set? (f : Flags) : ClassItem → Option CharSet
  | .literal l => do pure (.singleton (← literalCode? f l))
  | .range first last => do pure (.ranges [(← literalCode? f first, ← literalCode? f last)])
  | .ascii kind negated => some (((asciiSet kind).foldIf f.orbit?).negateIf negated)
  | .shorthand kind negated => some ((shorthandSet f.unicode kind).negateIf negated)
  | .property query negated =>
    if f.unicode then do pure (((← propertySet? query).foldIf f.orbit?).negateIf negated)
    else none
  | .bracket negated set => do pure (((← set.set? f).foldIf f.orbit?).negateIf negated)

def ClassItem.unionSet? (f : Flags) : List ClassItem → Option CharSet
  | [] => some .empty
  | item :: items => do pure (.union (← item.set? f) (← ClassItem.unionSet? f items))

def ClassSet.set? (f : Flags) : ClassSet → Option CharSet
  | .items items => ClassItem.unionSet? f items
  | .binary op left right => do
    let a := (← left.set? f).foldIf f.orbit?
    let b := (← right.set? f).foldIf f.orbit?
    pure (match op with
      | .intersection => .inter a b
      | .difference => .diff a b
      | .symmetricDifference => .symm a b)

end

/-- A literal outside of classes.  Where patterns speak of bytes, a character beyond ASCII still
stands for its encoding, and case variants exist for ASCII letters only. -/
def literalRegex (f : Flags) (l : Literal) : Regex :=
  let code := l.char.toNat
  if f.unicode then .scalar ((CharSet.singleton code).foldIf f.orbit?)
  else if l.isByte || code < 0x80 then
    .byte (if code < 0x80 then (CharSet.singleton code).foldIf f.orbit? else .singleton code)
  else .scalar (.singleton code)

def dotSet (f : Flags) : CharSet :=
  .complement (.ranges
    (if f.dotAll then [] else if f.crlf then [(0x0A, 0x0A), (0x0D, 0x0D)] else [(0x0A, 0x0A)]))

def assertionPlace (f : Flags) : Assertion → Place
  | .lineStart => if f.multiLine then .lineStart f.crlf else .textStart
  | .lineEnd => if f.multiLine then .lineEnd f.crlf else .textEnd
  | .textStart => .textStart
  | .textEnd => .textEnd
  | .word place => .word f.unicode place

def Primitive.regex? (f : Flags) : Primitive → Option Regex
  | .literal l => some (literalRegex f l)
  | .dot => some (.ofSet f (dotSet f))
  | .assertion a => some (.place (assertionPlace f a))
  | .shorthand kind negated => some (.ofSet f ((shorthandSet f.unicode kind).negateIf negated))
  | .property query negated =>
    if f.unicode then do
      pure (.scalar (((← propertySet? query).foldIf f.orbit?).negateIf negated))
    else none

mutual

/-- The meaning of a pattern under the flags, and the flags in force after it. -/
def Ast.regexWith? (f : Flags) : Ast → Option (Regex × Flags)
  | .flags settings => some (.empty, f.setAll settings)
  | .primitive p => do pure (← p.regex? f, f)
  | .bracket negated set => do
    pure (.ofSet f (((← set.set? f).foldIf f.orbit?).negateIf negated), f)
  | .repetition body min max => do
    let (r, f) ← body.regexWith? f
    pure (.loop r min (max.map (· - min)), f)
  | .group settings body => do
    let (r, _) ← body.regexWith? (f.setAll settings)
    pure (r, f)
  | .concat parts => Ast.sequence? f parts
  | .alternation [] => some (.empty, f)
  | .alternation (branch :: branches) => do
    let (r, f) ← branch.regexWith? f
    Ast.choice? f r branches

def Ast.sequence? (f : Flags) : List Ast → Option (Regex × Flags)
  | [] => some (.empty, f)
  | part :: parts => do
    let (r, f) ← part.regexWith? f
    let (rs, f) ← Ast.sequence? f parts
    pure (.seq r rs, f)

/-- The choice between a first branch and the branches after it. -/
def Ast.choice? (f : Flags) (first : Regex) : List Ast → Option (Regex × Flags)
  | [] => some (first, f)
  | branch :: branches => do
    let (r, f) ← branch.regexWith? f
    let (rest, f) ← Ast.choice? f r branches
    pure (.alt first rest, f)

end

def Ast.regex? (a : Ast) : Option Regex := (a.regexWith? .initial).map (·.1)

/-- The regular expression that a text is.  Limits on its size and its depth are left out. -/
def regexOf? (cs : Chars) : Option Regex := do (← parse? cs).regex?

end ColumnPlan.Pattern
