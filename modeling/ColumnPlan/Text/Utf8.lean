/-!
# Text in bytes: well-formed UTF-8 and the reading of ill-formed bytes

* `tailRanges b`     the ranges in which the bytes after a first byte `b` lie;
* `decodeHead bs`    the character encoded at the front of `bs`, with its number of bytes;
* `scan bs`          the characters of `bs` in order, `none` for each maximal ill-formed part;
* `decode? bs`       the text, if all of `bs` is well formed;
* `lossy bs`         the text with a replacement character for each ill-formed part;
* `encode s`         the bytes of a text, character by character.
-/

namespace ColumnPlan.Utf8

/-- An inclusive range of bytes. -/
abbrev ByteRange := UInt8 × UInt8

def ByteRange.holds (r : ByteRange) (b : UInt8) : Bool := r.1 ≤ b && b ≤ r.2

/-- Any byte that continues an encoding. -/
def tail : ByteRange := (0x80, 0xBF)

/-- The ranges of the bytes that follow the first byte `b`; none if `b` starts no encoding.
The narrow ranges keep out overlong forms, surrogates and numbers past the last character. -/
def tailRanges (b : UInt8) : Option (List ByteRange) :=
  if b < 0x80 then some []
  else if b < 0xC2 then none
  else if b < 0xE0 then some [tail]
  else if b = 0xE0 then some [(0xA0, 0xBF), tail]
  else if b = 0xED then some [(0x80, 0x9F), tail]
  else if b < 0xF0 then some [tail, tail]
  else if b = 0xF0 then some [(0x90, 0xBF), tail, tail]
  else if b < 0xF4 then some [tail, tail, tail]
  else if b = 0xF4 then some [(0x80, 0x8F), tail, tail]
  else none

/-- The bits that the first byte of an encoding gives to its character. -/
def headBits (b : UInt8) : Nat :=
  if b < 0x80 then b.toNat
  else if b < 0xE0 then b.toNat % 32
  else if b < 0xF0 then b.toNat % 16
  else b.toNat % 8

/-- The bits of a character after one more byte of its encoding. -/
def addTail (bits : Nat) (b : UInt8) : Nat := bits * 64 + b.toNat % 64

/-- The bits of a character whose later bytes lie in the given ranges. -/
def takeTail (bits : Nat) : List ByteRange → List UInt8 → Option Nat
  | [], _ => some bits
  | _ :: _, [] => none
  | r :: rs, b :: bs => if r.holds b then takeTail (addTail bits b) rs bs else none

/-- The character encoded at the front, and the number of its bytes. -/
def decodeHead : List UInt8 → Option (Char × Nat)
  | [] => none
  | b :: bs => do
    let ranges ← tailRanges b
    let bits ← takeTail (headBits b) ranges bs
    pure (Char.ofNat bits, ranges.length + 1)

/-! ### reading from left to right -/

/-- What has been read of an encoding: its bits so far and the ranges still to come. -/
abbrev Pending := Option (Nat × List ByteRange)

/-- Reads a byte between two characters. -/
def start (b : UInt8) : List (Option Char) × Pending :=
  match tailRanges b with
  | none => ([none], none)
  | some [] => ([some (Char.ofNat b.toNat)], none)
  | some ranges => ([], some (headBits b, ranges))

/-- Reads one byte. A byte that does not continue the encoding ends it as ill formed and is
read again as a first byte. -/
def step (pending : Pending) (b : UInt8) : List (Option Char) × Pending :=
  match pending with
  | none => start b
  | some (_, []) => start b
  | some (bits, r :: rs) =>
    if r.holds b then
      if rs.isEmpty then ([some (Char.ofNat (addTail bits b))], none)
      else ([], some (addTail bits b, rs))
    else
      let (out, next) := start b
      (none :: out, next)

def scanFrom (pending : Pending) : List UInt8 → List (Option Char)
  | [] => if pending.isSome then [none] else []
  | b :: bs =>
    let (out, next) := step pending b
    out ++ scanFrom next bs

/-- The characters in order; a maximal ill-formed part is one `none`. -/
def scan (bs : List UInt8) : List (Option Char) := scanFrom none bs

/-- The text of well-formed bytes. -/
def decode? (bs : List UInt8) : Option String := (scan bs).mapM id |>.map String.ofList

/-- The text with `U+FFFD` in place of each ill-formed part. -/
def lossy (bs : List UInt8) : String := String.ofList ((scan bs).map (·.getD '\uFFFD'))

def encodeChars (cs : List Char) : List UInt8 := cs.flatMap String.utf8EncodeChar

def encode (s : String) : List UInt8 := encodeChars s.toList

end ColumnPlan.Utf8
