import ColumnPlan.Value.Basic
import ColumnPlan.Value.Digest

/-!
# Hashes of rows

Two numbers of one size hash alike whatever their types, so the hash of a cell is taken from
*words* that state its size and not its type.  The words of a row are the coefficients of a
polynomial, and its hash is the value of the polynomial at a fixed odd number.

* `Datum.words`     the words of a cell: the kind of the cell, then what it holds;
* `hashWords`       the hash of a list of words;
* `hashRow`         the hash of a list of cells.
-/

namespace ColumnPlan

/-- The integer of a number of any type, if it is one and fits into 64 bits. -/
def Value.integral? (v : Value) : Option Int :=
  match v.toInt? with
  | some n => some n
  | none => do
    let n ← (← Dyadic.ofDouble? (← v.toDouble?)).toInt?
    if Int64.minValue.toInt ≤ n ∧ n ≤ Int64.maxValue.toInt then some n else none

/-- The bits of a number that is no 64-bit integer stand behind a word of their own. -/
def Datum.words : Datum → List UInt64
  | none => [0]
  | some (.boolean b) => [1, if b then 1 else 0]
  | some (.binary bytes) => [2, UInt64.ofNat bytes.length, Digest.ofBytes bytes]
  | some v =>
    match v.integral? with
    | some n => [3, (Int64.ofInt n).toUInt64]
    | none => [4, 1, (v.toDouble?.getD 0).toBits]

/-- Where the polynomial is evaluated. -/
def hashPoint : UInt64 := 0xf1357aea2e62a9c5

/-- The value of the polynomial, without a constant term, by Horner's rule.  Its high bits depend
on all words and are brought down. -/
def hashWords (words : List UInt64) : UInt64 :=
  let value := words.foldl (fun hash word => (hash + word) * hashPoint) 0
  value <<< 26 ||| value >>> 38

def hashRow (cells : List Datum) : UInt64 := hashWords (cells.flatMap Datum.words)

end ColumnPlan
