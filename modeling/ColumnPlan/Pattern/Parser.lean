import ColumnPlan.Pattern.Syntax
import ColumnPlan.Text.Unicode.Property

/-!
# Reading patterns

A pattern is read from left to right with a stack of open groups.  Under the free-spacing flag
white space and comments between its parts are skipped; `free` says whether the flag is on.

* `Reader α`          reads an `α` off the front of the characters, or fails;
* `rounds round s`    reads round by round, from the state `s`;
* `primitive`         one character, escape, dot or anchor;
* `bracketClass`      a class in brackets;
* `counts`            the counts of a repetition in braces;
* `groupHead`         what follows an opening parenthesis;
* `item`              the next part of a pattern, up to its opening or closing parenthesis;
* `parse? cs`         the pattern written by `cs`.

Rounds count down from the number of characters left, and every round that goes on reads at
least one.
-/

namespace ColumnPlan.Pattern

abbrev Chars := List Char

/-- Reads a value off the front; the rest of the characters is left. -/
abbrev Reader (α : Type) := Chars → Option (α × Chars)

def isSpace (c : Char) : Bool := Unicode.isWhiteSpace c.toNat

/-- Drops white space and comments; a comment runs from `#` to the end of its line. -/
def dropSpace (inComment : Bool) : Chars → Chars
  | [] => []
  | c :: cs =>
    if inComment then dropSpace (c ≠ '\n') cs
    else if isSpace c then dropSpace false cs
    else if c = '#' then dropSpace true cs
    else c :: cs

def skipSpace (free : Bool) (cs : Chars) : Chars := if free then dropSpace false cs else cs

/-- Reads after white space and comments. -/
def skipped {α : Type} (free : Bool) (read : Reader α) : Reader α := fun cs =>
  read (skipSpace free cs)

/-! ### rounds -/

/-- How a round of reading ends: there is more to read from a new state, or all has been read. -/
inductive Round (σ α : Type) where
  | more (state : σ)
  | done (value : α)

def roundsWith {σ α : Type} (round : σ → Reader (Round σ α)) : Nat → σ → Reader α
  | 0, _, _ => none
  | count + 1, s, cs => do
    match ← round s cs with
    | (.more s, rest) => roundsWith round count s rest
    | (.done a, rest) => pure (a, rest)

/-- Reads round by round up to the last one. -/
def rounds {σ α : Type} (round : σ → Reader (Round σ α)) (s : σ) : Reader α := fun cs =>
  roundsWith round (cs.length + 1) s cs

/-- Takes one more character of a kind. -/
def takeRound (kind : Char → Bool) (free : Bool) (taken : Chars) : Reader (Round Chars Chars)
  | [] => some (.done taken.reverse, [])
  | c :: cs =>
    if kind c then some (.more (c :: taken), skipSpace free cs)
    else some (.done taken.reverse, c :: cs)

/-- Reads the characters of a kind that stand at the front. -/
def takeKind (kind : Char → Bool) (free : Bool) : Reader Chars := rounds (takeRound kind free) []

/-! ### escapes -/

def hexDigit? (c : Char) : Option Nat :=
  if '0' ≤ c ∧ c ≤ '9' then some (c.toNat - '0'.toNat)
  else if 'a' ≤ c ∧ c ≤ 'f' then some (c.toNat - 'a'.toNat + 10)
  else if 'A' ≤ c ∧ c ≤ 'F' then some (c.toNat - 'A'.toNat + 10)
  else none

/-- The character of a code point, unless it is a surrogate or too large. -/
def charOfCode? (code : Nat) : Option Char :=
  if code < 0xD800 ∨ 0xDFFF < code ∧ code < 0x110000 then some (Char.ofNat code) else none

/-- Reads a fixed number of hexadecimal digits. -/
def fixedHex (free : Bool) : Nat → Nat → Reader Nat
  | 0, code, cs => some (code, cs)
  | _ + 1, _, [] => none
  | count + 1, code, c :: cs => do
    let digit ← hexDigit? c
    fixedHex free count (code * 16 + digit) (skipSpace free cs)

/-- Reads a hexadecimal digit, or the closing brace once there has been a digit. -/
def bracedHexRound (free : Bool) (code : Option Nat) : Reader (Round (Option Nat) Nat)
  | [] => none
  | c :: cs =>
    if c = '\x7d' then code.map fun code => (.done code, skipSpace free cs)
    else do
      let digit ← hexDigit? c
      pure (.more (some (code.getD 0 * 16 + digit)), skipSpace free cs)

/-- Reads a code point between braces, after the opening one. -/
def bracedLiteral (free : Bool) : Reader Literal := fun cs => do
  let (code, rest) ← skipped free (rounds (bracedHexRound free) none) cs
  pure (⟨← charOfCode? code, false⟩, rest)

/-- Reads a code point of so many digits. -/
def fixedLiteral (free : Bool) (digits : Nat) (isByte : Bool) : Reader Literal := fun cs => do
  let (code, rest) ← fixedHex free digits 0 cs
  pure (⟨← charOfCode? code, isByte⟩, rest)

/-- Reads a character by its code point, after the letter that announces it. -/
def hexLiteral (free : Bool) (digits : Nat) (isByte : Bool) : Reader Literal
  | '\x7b' :: cs => bracedLiteral free cs
  | cs => fixedLiteral free digits isByte cs

/-- Reads a character of a name, or the closing brace. -/
def nameRound (free : Bool) (name : Chars) : Reader (Round Chars Chars)
  | [] => none
  | c :: cs =>
    if c = '\x7d' then some (.done name.reverse, cs)
    else some (.more (c :: name), skipSpace free cs)

/-- Splits at the first place where `mark` stands. -/
def splitAtMark (mark : Chars) : Chars → Option (Chars × Chars)
  | [] => none
  | c :: cs =>
    if mark.isPrefixOf (c :: cs) then some ([], (c :: cs).drop mark.length)
    else (splitAtMark mark cs).map fun (before, after) => (c :: before, after)

/-- A property query between braces; the query `name!=value` is negated. -/
def queryOfText (text : Chars) : PropertyQuery × Bool :=
  match splitAtMark ['!', '='] text with
  | some (property, value) => (.valued property value, true)
  | none =>
    match splitAtMark [':'] text with
    | some (property, value) => (.valued property value, false)
    | none =>
      match splitAtMark ['='] text with
      | some (property, value) => (.valued property value, false)
      | none => (.named text, false)

/-- Reads a property query between braces, after the opening one. -/
def bracedQuery (free negated : Bool) : Reader Primitive := fun cs => do
  let (text, rest) ← skipped free (rounds (nameRound free) []) cs
  let (query, opposite) := queryOfText text
  pure (.property query (negated != opposite), rest)

/-- Reads a property query, after the letter that announces it. -/
def propertyQuery (free negated : Bool) : Reader Primitive
  | [] => none
  | '\x7b' :: cs => bracedQuery free negated cs
  | c :: cs =>
    if c = '\\' then none else some (.property (.named [c]) negated, skipSpace free cs)

def isMeta (c : Char) : Bool := "\\.+*?()|[]\x7b\x7d^$#&-~".toList.contains c

/-- Characters that a backslash leaves as they are: all of ASCII but letters, digits and the
two marks kept for word boundaries. -/
def isEscapable (c : Char) : Bool :=
  isMeta c || (c.toNat < 0x80 && !c.isAlphanum && c ≠ '<' && c ≠ '>')

def wordPlaceOfName? (name : Chars) : Option WordPlace :=
  match String.ofList name with
  | "start" => some .start
  | "end" => some .finish
  | "start-half" => some .startHalf
  | "end-half" => some .finishHalf
  | _ => none

def isBoundaryNameChar (c : Char) : Bool := c.isAlpha || c = '-'

/-- Reads the name of a kind of boundary, and the closing brace. -/
def boundaryName (free : Bool) : Reader Primitive := fun cs => do
  let (name, rest) ← takeKind isBoundaryNameChar free cs
  match rest with
  | '\x7d' :: rest => pure (.assertion (.word (← wordPlaceOfName? name)), rest)
  | _ => none

/-- Reads a word boundary after its letter.  A brace opens the name of a kind of boundary if a
letter or hyphen follows, and otherwise the counts of a repetition. -/
def wordBoundary (free : Bool) : Reader Primitive
  | '\x7b' :: inner =>
    match skipSpace free inner with
    | [] => none
    | c :: name =>
      if isBoundaryNameChar c then boundaryName free (c :: name)
      else some (.assertion (.word .boundary), '\x7b' :: inner)
  | cs => some (.assertion (.word .boundary), cs)

/-- Reads what follows a backslash.  A digit would refer back to a group, which is refused. -/
def escape (free : Bool) : Reader Primitive
  | [] => none
  | c :: cs =>
    let literal (char : Char) : Option (Primitive × Chars) := some (.literal ⟨char, false⟩, cs)
    let hex (digits : Nat) (isByte : Bool) : Option (Primitive × Chars) :=
      (skipped free (hexLiteral free digits isByte) cs).map fun (l, rest) => (.literal l, rest)
    if c.isDigit then none
    else if isEscapable c then literal c
    else match c with
    | 'x' => hex 2 true
    | 'u' => hex 4 false
    | 'U' => hex 8 false
    | 'p' => skipped free (propertyQuery free false) cs
    | 'P' => skipped free (propertyQuery free true) cs
    | 'd' => some (.shorthand .digit false, cs)
    | 'D' => some (.shorthand .digit true, cs)
    | 's' => some (.shorthand .space false, cs)
    | 'S' => some (.shorthand .space true, cs)
    | 'w' => some (.shorthand .word false, cs)
    | 'W' => some (.shorthand .word true, cs)
    | 'a' => literal '\x07'
    | 'f' => literal '\x0c'
    | 't' => literal '\t'
    | 'n' => literal '\n'
    | 'r' => literal '\r'
    | 'v' => literal '\x0b'
    | 'A' => some (.assertion .textStart, cs)
    | 'z' => some (.assertion .textEnd, cs)
    | 'b' => wordBoundary free cs
    | 'B' => some (.assertion (.word .noBoundary), cs)
    | '<' => some (.assertion (.word .start), cs)
    | '>' => some (.assertion (.word .finish), cs)
    | _ => none

/-- Reads one unit of a pattern. -/
def primitive (free : Bool) : Reader Primitive
  | [] => none
  | '\\' :: cs => escape free cs
  | '.' :: cs => some (.dot, cs)
  | '^' :: cs => some (.assertion .lineStart, cs)
  | '$' :: cs => some (.assertion .lineEnd, cs)
  | c :: cs => some (.literal ⟨c, false⟩, cs)

/-! ### classes in brackets -/

def asciiClassOfName? (name : Chars) : Option AsciiClass :=
  match String.ofList name with
  | "alnum" => some .alnum
  | "alpha" => some .alpha
  | "ascii" => some .ascii
  | "blank" => some .blank
  | "cntrl" => some .cntrl
  | "digit" => some .digit
  | "graph" => some .graph
  | "lower" => some .lower
  | "print" => some .print
  | "punct" => some .punct
  | "space" => some .space
  | "upper" => some .upper
  | "word" => some .word
  | "xdigit" => some .xdigit
  | _ => none

/-- Reads `name:]`. -/
def asciiName (negated : Bool) : Reader ClassItem := fun cs =>
  match cs.span (· ≠ ':') with
  | (name, ':' :: ']' :: rest) => do pure (.ascii (← asciiClassOfName? name) negated, rest)
  | _ => none

/-- Reads `:name:]` or `:^name:]`, after an opening bracket inside a class. -/
def asciiClass : Reader ClassItem
  | ':' :: '^' :: cs => asciiName true cs
  | ':' :: cs => asciiName false cs
  | _ => none

/-- A unit of a class: a backslash escapes, all else is itself. -/
def classPrimitive (free : Bool) : Reader Primitive
  | [] => none
  | '\\' :: cs => escape free cs
  | c :: cs => some (.literal ⟨c, false⟩, cs)

def Primitive.toItem? : Primitive → Option ClassItem
  | .literal l => some (.literal l)
  | .shorthand kind negated => some (.shorthand kind negated)
  | .property query negated => some (.property query negated)
  | .dot | .assertion _ => none

def Primitive.toLiteral? : Primitive → Option Literal
  | .literal l => some l
  | _ => none

/-- The character after white space and the first `#`, if any does follow. -/
def peekSpaced (inComment : Bool) : Chars → Option Char
  | [] => none
  | c :: cs =>
    if isSpace c then peekSpaced inComment cs
    else if !inComment && c = '#' then peekSpaced true cs
    else some c

/-- The character that decides whether a hyphen makes a range. -/
def peek (free : Bool) (cs : Chars) : Option Char :=
  if free then (peekSpaced false cs).or cs.head? else cs.head?

/-- The range between two characters, in their order. -/
def Primitive.range? (first last : Primitive) : Option ClassItem := do
  let low ← first.toLiteral?
  let high ← last.toLiteral?
  if low.char ≤ high.char then some (.range low high) else none

/-- Reads the last character of a range. -/
def rangeEnd (free : Bool) (first : Primitive) : Reader ClassItem := fun cs => do
  let (last, rest) ← classPrimitive free cs
  pure (← first.range? last, rest)

/-- Reads on after the first unit of an item of a class. -/
def rangeAfter (free : Bool) (first : Primitive) : Reader ClassItem
  | '-' :: rest =>
    if peek free rest = some ']' ∨ peek free rest = some '-' then
      do pure (← first.toItem?, '-' :: rest)
    else skipped free (rangeEnd free first) rest
  | rest => do pure (← first.toItem?, rest)

/-- Reads one item of a class, or a range of characters. -/
def classRange (free : Bool) : Reader ClassItem := fun cs => do
  let (first, rest) ← classPrimitive free cs
  skipped free (rangeAfter free first) rest

/-- A class whose closing bracket has not been read: the items so far, the last one first, and
the operation they are the right side of. -/
structure OpenClass where
  negated : Bool
  pending : Option (ClassOp × ClassSet)
  items : List ClassItem

namespace OpenClass

def push (c : OpenClass) (item : ClassItem) : OpenClass := { c with items := item :: c.items }

/-- All that has been read. -/
def set (c : OpenClass) : ClassSet :=
  let right := .items c.items.reverse
  match c.pending with
  | some (op, left) => .binary op left right
  | none => right

/-- Operations associate to the left. -/
def operate (c : OpenClass) (op : ClassOp) : OpenClass :=
  { c with pending := some (op, c.set), items := [] }

def close (c : OpenClass) : ClassItem := .bracket c.negated c.set

end OpenClass

/-- Reads a hyphen at the start of a class; it stands for itself. -/
def hyphenRound (free : Bool) (c : OpenClass) : Reader (Round OpenClass OpenClass)
  | '-' :: cs => some (.more (c.push (.literal ⟨'-', false⟩)), skipSpace free cs)
  | cs => some (.done c, cs)

/-- Reads a closing bracket that comes first; it stands for itself. -/
def firstBracket (free : Bool) (c : OpenClass) : Reader OpenClass
  | ']' :: cs =>
    if c.items.isEmpty then some (c.push (.literal ⟨']', false⟩), skipSpace free cs)
    else some (c, ']' :: cs)
  | cs => some (c, cs)

/-- Reads the start of a class, after the sign of a negation. -/
def classStart (free : Bool) (negated : Bool) : Reader OpenClass := fun cs => do
  let (c, rest) ← rounds (hyphenRound free) ⟨negated, none, []⟩ cs
  firstBracket free c rest

/-- Reads the start of a class after its opening bracket. -/
def openClass (free : Bool) : Reader OpenClass
  | '^' :: cs => skipped free (classStart free true) cs
  | cs => classStart free false cs

/-- The innermost open class, and the classes around it. -/
structure OpenClasses where
  outer : List OpenClass
  inner : OpenClass

def OpenClasses.push (c : OpenClasses) (item : ClassItem) : OpenClasses :=
  { c with inner := c.inner.push item }

def OpenClasses.operate (c : OpenClasses) (op : ClassOp) : OpenClasses :=
  { c with inner := c.inner.operate op }

/-- Reads a class of ASCII characters, or opens a class in the innermost one. -/
def innerClass (free : Bool) (c : OpenClasses) : Reader (Round OpenClasses OpenClass) := fun cs =>
  match asciiClass cs with
  | some (item, rest) => some (.more (c.push item), rest)
  | none => do
    let (inner, rest) ← skipped free (openClass free) cs
    pure (.more ⟨c.inner :: c.outer, inner⟩, rest)

/-- Closes the innermost class; the last bracket closes the outermost. -/
def OpenClasses.close (c : OpenClasses) : Round OpenClasses OpenClass :=
  match c.outer with
  | [] => .done c.inner
  | around :: outer => .more ⟨outer, around.push c.inner.close⟩

/-- Reads an item of the innermost class. -/
def classItem (free : Bool) (c : OpenClasses) : Reader (Round OpenClasses OpenClass) := fun cs => do
  let (item, rest) ← classRange free cs
  pure (.more (c.push item), rest)

def classRound (free : Bool) (c : OpenClasses) : Reader (Round OpenClasses OpenClass)
  | [] => none
  | '[' :: rest => innerClass free c rest
  | ']' :: rest => some (c.close, rest)
  | '&' :: '&' :: rest => some (.more (c.operate .intersection), rest)
  | '-' :: '-' :: rest => some (.more (c.operate .difference), rest)
  | '~' :: '~' :: rest => some (.more (c.operate .symmetricDifference), rest)
  | cs => classItem free c cs

/-- Reads a class after its opening bracket. -/
def bracketClass (free : Bool) : Reader Ast := fun cs => do
  let (c, rest) ← skipped free (openClass free) cs
  let (c, rest) ← rounds (fun c => skipped free (classRound free c)) ⟨[], c⟩ rest
  pure (.bracket c.negated c.set, rest)

/-! ### repetitions -/

/-- The number that digits write, if there are any; it has to fit into 32 bits. -/
def countOf? (digits : Chars) : Option (Option Nat) :=
  let n := digits.foldl (fun n c => n * 10 + (c.toNat - '0'.toNat)) 0
  if digits.isEmpty then some none else if n < UInt32.size then some (some n) else none

/-- Reads a count; white space may stand around it. -/
def count (free : Bool) : Reader (Option Nat) := fun cs => do
  let (digits, rest) ← takeKind Char.isDigit free (cs.dropWhile isSpace)
  pure (← countOf? digits, skipSpace free (rest.dropWhile isSpace))

/-- Reads the greatest count after the comma; without it there is none. -/
def countAfterComma (free : Bool) (min : Option Nat) : Reader (Nat × Option Nat)
  | '\x7d' :: rest => do pure ((← min, none), '\x7d' :: rest)
  | cs => do
    let (max, rest) ← count free cs
    pure ((← min, some (← max)), rest)

/-- Reads the greatest count after the least.  Without a comma the two are the same. -/
def countAfter (free : Bool) (min : Option Nat) : Reader (Nat × Option Nat)
  | ',' :: rest => skipped free (countAfterComma free min) rest
  | cs => do pure ((← min, ← min.map some), cs)

/-- Reads the closing brace after the counts of a repetition. -/
def closeCounts (free : Bool) (bounds : Nat × Option Nat) : Reader (Nat × Option Nat)
  | '\x7d' :: rest =>
    if bounds.2.all (bounds.1 ≤ ·) then some (bounds, skipSpace free rest) else none
  | _ => none

/-- Reads the least and the greatest count of a repetition, after the opening brace. -/
def counts (free : Bool) : Reader (Nat × Option Nat) := fun cs => do
  let (min, rest) ← skipped free (count free) cs
  let (bounds, rest) ← countAfter free min rest
  closeCounts free bounds rest

/-- Drops the mark of a lazy repetition. -/
def dropLazy : Chars → Chars
  | '?' :: cs => cs
  | cs => cs

/-! ### groups -/

def flagOfLetter? : Char → Option Flag
  | 'i' => some .ignoreCase
  | 'm' => some .multiLine
  | 's' => some .dotAll
  | 'U' => some .swapGreed
  | 'u' => some .unicode
  | 'R' => some .crlf
  | 'x' => some .freeSpacing
  | _ => none

/-- What an opening parenthesis begins. -/
inductive GroupHead where
  | settings (settings : List FlagSetting)
  | plain
  | named (name : Chars)
  | flagged (settings : List FlagSetting)

/-- The flags that have been read, the last one first.  A flag has to follow the minus sign. -/
structure OpenFlags where
  negated : Bool
  dangling : Bool
  settings : List FlagSetting

/-- Reads a flag, or the colon or closing parenthesis after the last one.  Each flag stands at
most once. -/
def flagRound (f : OpenFlags) : Reader (Round OpenFlags GroupHead)
  | [] => none
  | c :: cs =>
    if c = ':' then
      if f.dangling then none else some (.done (.flagged f.settings.reverse), cs)
    else if c = ')' then
      if f.dangling || f.settings.isEmpty then none
      else some (.done (.settings f.settings.reverse), cs)
    else if c = '-' then
      if f.negated then none else some (.more ⟨true, true, f.settings⟩, cs)
    else do
      let flag ← flagOfLetter? c
      if (settingOf? f.settings flag).isSome then none
      else pure (.more ⟨f.negated, false, (flag, !f.negated) :: f.settings⟩, cs)

def isNameChar (first : Bool) (c : Char) : Bool :=
  c = '_' || Unicode.isAlphabetic c.toNat ||
    (!first && (c = '.' || c = '[' || c = ']' || Unicode.isNumeric c.toNat))

/-- Reads the name of a group and the bracket that closes it. -/
def groupName : Reader Chars := fun cs =>
  match cs.span (· ≠ '>') with
  | (c :: more, '>' :: rest) =>
    if isNameChar true c && more.all (isNameChar false) then some (c :: more, rest) else none
  | _ => none

/-- Reads the name or the flags of a group, after the question mark that announces them.
Assertions about the text around a place are refused: their marks are neither. -/
def groupKind : Reader GroupHead
  | 'P' :: '<' :: rest | '<' :: rest =>
    (groupName rest).map fun (name, rest) => (.named name, rest)
  | rest => rounds flagRound ⟨false, false, []⟩ rest

/-- Reads what follows an opening parenthesis. -/
def groupHead : Reader GroupHead
  | '?' :: rest => groupKind rest
  | rest => some (.plain, rest)

/-- An open group: its flags, and what had been read around it when it was opened. -/
structure OpenGroup where
  settings : List FlagSetting
  free : Bool
  branches : List Ast
  parts : List Ast

/-- Where the reading of a pattern stands.  `branches` are the finished alternatives of the
innermost group and `parts` the parts of the current one, both with the last one first. -/
structure State where
  free : Bool
  names : List Chars
  groups : List OpenGroup
  branches : List Ast
  parts : List Ast

namespace State

def initial : State := ⟨false, [], [], [], []⟩

def push (s : State) (part : Ast) : State := { s with parts := part :: s.parts }

/-- All that has been read of the innermost group. -/
def body (s : State) : Ast :=
  let last := Ast.ofParts s.parts.reverse
  if s.branches.isEmpty then last else .alternation (last :: s.branches).reverse

def nextBranch (s : State) : State :=
  { s with branches := Ast.ofParts s.parts.reverse :: s.branches, parts := [] }

def openGroup (s : State) (settings : List FlagSetting) : State :=
  { s with
    free := (settingOf? settings .freeSpacing).getD s.free
    groups := ⟨settings, s.free, s.branches, s.parts⟩ :: s.groups
    branches := []
    parts := [] }

def closeGroup? (s : State) : Option State :=
  match s.groups with
  | [] => none
  | g :: groups =>
    some { s with
      free := g.free
      groups := groups
      branches := g.branches
      parts := .group g.settings s.body :: g.parts }

/-- Begins the group or setting that an opening parenthesis announces; a name is used once. -/
def enter? (s : State) : GroupHead → Option State
  | .settings settings =>
    some { s.push (.flags settings) with
      free := (settingOf? settings .freeSpacing).getD s.free }
  | .plain => some (s.openGroup [])
  | .flagged settings => some (s.openGroup settings)
  | .named name =>
    if s.names.contains name then none
    else some ({ s with names := name :: s.names }.openGroup [])

/-- Repeats the last part. -/
def repeat? (s : State) (min : Nat) (max : Option Nat) : Option State :=
  match s.parts with
  | [] => none
  | part :: parts =>
    if part.isFlags then none else some { s with parts := .repetition part min max :: parts }

def finish? (s : State) : Option Ast := if s.groups.isEmpty then some s.body else none

end State

/-- Reads one unit. -/
def unit (s : State) : Reader State := fun cs => do
  let (p, rest) ← primitive s.free cs
  pure (s.push (.primitive p), rest)

/-- Reads the next part of a pattern.  A parenthesis opens or closes a group. -/
def item (s : State) : Reader State
  | '(' :: cs => do
    let (head, rest) ← skipped s.free groupHead cs
    pure (← s.enter? head, rest)
  | ')' :: cs => do pure (← s.closeGroup?, cs)
  | '|' :: cs => some (s.nextBranch, cs)
  | '[' :: cs => do
    let (part, rest) ← bracketClass s.free cs
    pure (s.push part, rest)
  | '?' :: cs => do pure (← s.repeat? 0 (some 1), dropLazy cs)
  | '*' :: cs => do pure (← s.repeat? 0 none, dropLazy cs)
  | '+' :: cs => do pure (← s.repeat? 1 none, dropLazy cs)
  | '\x7b' :: cs => do
    let ((min, max), rest) ← counts s.free cs
    pure (← s.repeat? min max, dropLazy rest)
  | cs => unit s cs

/-- Reads the next part, or ends where nothing is left. -/
def parseRound (s : State) : Reader (Round State Ast)
  | [] => do pure (.done (← s.finish?), [])
  | cs => do
    let (s, rest) ← item s cs
    pure (.more s, rest)

/-- Reads the rest of a pattern. -/
def parseFrom : State → Reader Ast := rounds fun s => skipped s.free (parseRound s)

/-- The pattern written by the characters; none if they do not form a pattern. -/
def parse? (cs : Chars) : Option Ast := (parseFrom .initial cs).map (·.1)

end ColumnPlan.Pattern
