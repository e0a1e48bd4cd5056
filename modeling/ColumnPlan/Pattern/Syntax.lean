/-!
# Patterns as they are written

The syntax tree of a pattern, before its flags are applied.  Whether a repetition is lazy and
whether a group captures are not kept: neither decides which texts match.

* `Flag`, `FlagSetting`     flags, and flags switched on or off;
* `Literal`                 one character;
* `ClassItem`, `ClassSet`   what stands in brackets;
* `Ast`                     a pattern.
-/

namespace ColumnPlan.Pattern

inductive Flag where
  | ignoreCase
  | multiLine
  | dotAll
  | swapGreed
  | unicode
  | crlf
  | freeSpacing
  deriving DecidableEq, Repr

/-- A flag and whether it is switched on. -/
abbrev FlagSetting := Flag × Bool

/-- The first setting of a flag in a list of settings. -/
def settingOf? (settings : List FlagSetting) (flag : Flag) : Option Bool :=
  (settings.find? (·.1 = flag)).map (·.2)

/-- A literal character.  One written as two hexadecimal digits stands for a byte where
patterns speak of bytes. -/
structure Literal where
  char : Char
  isByte : Bool
  deriving DecidableEq, Repr

/-- The classes with a one-letter name. -/
inductive Shorthand where
  | digit
  | space
  | word
  deriving DecidableEq, Repr

/-- The classes of ASCII characters that are written `[:name:]`. -/
inductive AsciiClass where
  | alnum
  | alpha
  | ascii
  | blank
  | cntrl
  | digit
  | graph
  | lower
  | print
  | punct
  | space
  | upper
  | word
  | xdigit
  deriving DecidableEq, Repr

/-- A property by name, or a property and its value. -/
inductive PropertyQuery where
  | named (name : List Char)
  | valued (property value : List Char)
  deriving DecidableEq, Repr

inductive ClassOp where
  | intersection
  | difference
  | symmetricDifference
  deriving DecidableEq, Repr

mutual

inductive ClassItem where
  | literal (l : Literal)
  | range (first last : Literal)
  | ascii (kind : AsciiClass) (negated : Bool)
  | shorthand (kind : Shorthand) (negated : Bool)
  | property (query : PropertyQuery) (negated : Bool)
  | bracket (negated : Bool) (set : ClassSet)

inductive ClassSet where
  | items (items : List ClassItem)
  | binary (op : ClassOp) (left right : ClassSet)

end

/-- Places in a text where a word begins or ends. -/
inductive WordPlace where
  | boundary
  | noBoundary
  | start
  | finish
  | startHalf
  | finishHalf
  deriving DecidableEq, Repr

/-- An assertion about a place in a text. -/
inductive Assertion where
  | lineStart
  | lineEnd
  | textStart
  | textEnd
  | word (place : WordPlace)
  deriving DecidableEq, Repr

/-- One unit of a pattern. -/
inductive Primitive where
  | literal (l : Literal)
  | dot
  | assertion (a : Assertion)
  | shorthand (kind : Shorthand) (negated : Bool)
  | property (query : PropertyQuery) (negated : Bool)
  deriving DecidableEq, Repr

inductive Ast where
  | flags (settings : List FlagSetting)
  | primitive (p : Primitive)
  | bracket (negated : Bool) (set : ClassSet)
  | repetition (body : Ast) (min : Nat) (max : Option Nat)
  | group (settings : List FlagSetting) (body : Ast)
  | concat (parts : List Ast)
  | alternation (branches : List Ast)

namespace Ast

/-- Parts in sequence; a single part stands alone. -/
def ofParts : List Ast → Ast
  | [part] => part
  | parts => .concat parts

/-- A setting of flags cannot be repeated. -/
def isFlags : Ast → Bool
  | .flags _ => true
  | _ => false

end Ast

end ColumnPlan.Pattern
