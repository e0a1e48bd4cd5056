/-!
# A digest of a string of bytes

Two words are kept.  Blocks of sixteen bytes change them one after the other, then the bytes at
either end of the last block, and last the number of bytes.

* `Digest.word bytes`       up to eight bytes as a number, the least significant one first;
* `Digest.foldProduct`      the product of two words, its halves laid over each other;
* `Digest.ends`             the words of the two ends of a string of bytes;
* `Digest.ofBytes`          the digest.
-/

namespace ColumnPlan.Digest

def word (bytes : List UInt8) : UInt64 :=
  bytes.foldr (fun b n => n <<< 8 ||| b.toUInt64) 0

def foldProduct (x y : UInt64) : UInt64 :=
  let product := x.toNat * y.toNat
  UInt64.ofNat product ^^^ UInt64.ofNat (product >>> 64)

/-- The first and the last `n` bytes. -/
def endWords (n : Nat) (bytes : List UInt8) : UInt64 × UInt64 :=
  (word (bytes.take n), word (bytes.drop (bytes.length - n)))

/-- The ends are as long as they can be; below four bytes it is the first one, and the middle one
with the last one. -/
def ends (bytes : List UInt8) : UInt64 × UInt64 :=
  let n := bytes.length
  if 8 ≤ n then endWords 8 bytes
  else if 4 ≤ n then endWords 4 bytes
  else
    match bytes[0]?, bytes[n / 2]?, bytes[n - 1]? with
    | some first, some middle, some last => (first.toUInt64, word [middle, last])
    | _, _, _ => (0, 0)

/-- The two words before any byte. -/
def start : UInt64 × UInt64 := (0x243f6a8885a308d3, 0x13198a2e03707344)

/-- Keeps a block of zeros from erasing what came before. -/
def zeroGuard : UInt64 := 0xa4093822299f31d0

/-- Takes in all blocks of sixteen bytes that more bytes follow. -/
def blocks (words : UInt64 × UInt64) (bytes : List UInt8) : UInt64 × UInt64 :=
  if 16 < bytes.length then
    let (x, y) := endWords 8 (bytes.take 16)
    blocks (words.2, foldProduct (words.1 ^^^ x) (zeroGuard ^^^ y)) (bytes.drop 16)
  else words
termination_by bytes.length
decreasing_by
  simp only [List.length_drop]
  omega

def ofBytes (bytes : List UInt8) : UInt64 :=
  let words := blocks start bytes
  let (x, y) := ends (bytes.drop (bytes.length - 16))
  foldProduct (words.1 ^^^ x) (words.2 ^^^ y) ^^^ UInt64.ofNat bytes.length

end ColumnPlan.Digest
