import ColumnPlan.Pattern.Syntax
import ColumnPlan.Text.Unicode.Binary
import ColumnPlan.Text.Unicode.CaseFold
import ColumnPlan.Text.Unicode.Script

/-!
# Sets of characters

A set is kept as the expression that built it and decides membership of a number: a code point
where a pattern speaks of characters, a byte where it speaks of bytes.

* `CharSet`, `CharSet.mem`     sets and their members;
* `shorthandSet`, `asciiSet`   the sets behind the names of classes;
* `propertySet?`               the set behind a property, if there is such a property.
-/

namespace ColumnPlan.Pattern

inductive CharSet where
  | ranges (rs : List (Nat × Nat))
  | test (holds : Nat → Bool)
  | union (a b : CharSet)
  | inter (a b : CharSet)
  | diff (a b : CharSet)
  | symm (a b : CharSet)
  | complement (a : CharSet)
  | folded (orbit : Nat → List Nat) (a : CharSet)

namespace CharSet

def empty : CharSet := .ranges []

def singleton (c : Nat) : CharSet := .ranges [(c, c)]

/-- Membership.  A folded set holds what is equal to a member up to case. -/
def mem : CharSet → Nat → Bool
  | .ranges rs, c => Unicode.inRanges rs c
  | .test holds, c => holds c
  | .union a b, c => a.mem c || b.mem c
  | .inter a b, c => a.mem c && b.mem c
  | .diff a b, c => a.mem c && !b.mem c
  | .symm a b, c => a.mem c != b.mem c
  | .complement a, c => !a.mem c
  | .folded orbit a, c => (orbit c).any a.mem

def negateIf (negated : Bool) (s : CharSet) : CharSet := if negated then .complement s else s

/-- Folding comes before a complement. -/
def foldIf (fold? : Option (Nat → List Nat)) (s : CharSet) : CharSet :=
  match fold? with
  | some orbit => .folded orbit s
  | none => s

end CharSet

/-- The case variants of a byte: those of ASCII letters. -/
def asciiOrbit (b : Nat) : List Nat :=
  if 0x41 ≤ b ∧ b ≤ 0x5A then [b, b + 32]
  else if 0x61 ≤ b ∧ b ≤ 0x7A then [b, b - 32]
  else [b]

def asciiSet (kind : AsciiClass) : CharSet :=
  .ranges (match kind with
    | .alnum => [(0x30, 0x39), (0x41, 0x5A), (0x61, 0x7A)]
    | .alpha => [(0x41, 0x5A), (0x61, 0x7A)]
    | .ascii => [(0x00, 0x7F)]
    | .blank => [(0x09, 0x09), (0x20, 0x20)]
    | .cntrl => [(0x00, 0x1F), (0x7F, 0x7F)]
    | .digit => [(0x30, 0x39)]
    | .graph => [(0x21, 0x7E)]
    | .lower => [(0x61, 0x7A)]
    | .print => [(0x20, 0x7E)]
    | .punct => [(0x21, 0x2F), (0x3A, 0x40), (0x5B, 0x60), (0x7B, 0x7E)]
    | .space => [(0x09, 0x0D), (0x20, 0x20)]
    | .upper => [(0x41, 0x5A)]
    | .word => [(0x30, 0x39), (0x41, 0x5A), (0x5F, 0x5F), (0x61, 0x7A)]
    | .xdigit => [(0x30, 0x39), (0x41, 0x46), (0x61, 0x66)])

/-- What a shorthand means for characters, or for bytes. -/
def shorthandSet (unicode : Bool) : Shorthand → CharSet
  | .digit => if unicode then .test Unicode.isDigit else asciiSet .digit
  | .space => if unicode then .test Unicode.isWhiteSpace else asciiSet .space
  | .word => if unicode then .test Unicode.isWord else asciiSet .word

/-! ### properties by name -/

/-- Names are compared without case, blanks, hyphens and underscores, and without a leading
"is". -/
def plainName (name : List Char) : List Char :=
  let plain := (name.filter fun c => c.toNat < 0x80 && c ≠ ' ' && c ≠ '_' && c ≠ '-').map
    Char.toLower
  match plain with
  | ['i', 's', 'c'] => plain
  | 'i' :: 's' :: rest => rest
  | _ => plain

def categorySet (holds : Unicode.Category → Bool) : CharSet :=
  .test fun c => holds (Unicode.category c)

/-- A general category or a group of them. -/
def generalCategorySet? (name : String) : Option CharSet :=
  match name with
  | "any" => some (.ranges [(0, 0x10FFFF)])
  | "ascii" => some (.ranges [(0, 0x7F)])
  | "assigned" => some (categorySet (· ≠ .cn))
  | "l" | "letter" => some (categorySet (·.isLetter))
  | "lc" | "casedletter" =>
    some (categorySet fun k => k = .lu || k = .ll || k = .lt)
  | "m" | "mark" | "combiningmark" => some (categorySet (·.isMark))
  | "n" | "number" => some (categorySet (·.isNumber))
  | "p" | "punctuation" | "punct" => some (categorySet (·.isPunctuation))
  | "s" | "symbol" => some (categorySet (·.isSymbol))
  | "z" | "separator" => some (categorySet (·.isSeparator))
  | "c" | "other" => some (categorySet (·.isOther))
  | "digit" => some (categorySet (· = .nd))
  | "cntrl" => some (categorySet (· = .cc))
  | name =>
    (Unicode.Category.all.find? fun k => k.shortName = name || k.longName = name).map
      fun k => categorySet (· = k)

/-- A script by its name, or the characters that are used with it. -/
def scriptSet? (extended : Bool) (name : String) : Option CharSet :=
  (Unicode.scriptCode? name).map fun code =>
    if extended then .test (Unicode.usesScript code) else .ranges (Unicode.scriptRanges code)

/-- A property by its name alone, a general category or a script, looked up in this order. -/
def namedSet? (name : String) : Option CharSet :=
  ((Unicode.binaryTest? name).map .test).or
    ((generalCategorySet? name).or (scriptSet? false name))

def propertySet? : PropertyQuery → Option CharSet
  | .named name => namedSet? (String.ofList (plainName name))
  | .valued property value =>
    let value := String.ofList (plainName value)
    match String.ofList (plainName property) with
    | "gc" | "generalcategory" => generalCategorySet? value
    | "sc" | "script" => scriptSet? false value
    | "scx" | "scriptextensions" => scriptSet? true value
    | _ => none

end ColumnPlan.Pattern
