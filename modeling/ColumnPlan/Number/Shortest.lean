import ColumnPlan.Number.Dyadic

/-!
# The shortest decimal text of a floating-point number

A number written in decimal reads back as the float nearest to it, so every decimal inside the
*rounding cell* of a float denotes that float.  The text of a float is the shortest decimal of
its cell, of several equally short ones the nearest.

* `Cell`                 the rounding cell of a positive float, in quarters of its last place;
* `Decimal`              a number `digits · 10 ^ exponent`;
* `Cell.on? k`           the decimal of the cell on the grid of multiples of `10 ^ k`;
* `Cell.shortest`        the decimal of the cell on the coarsest grid that has one;
* `Decimal.positional`   the text without an exponent;
* `Decimal.scientific`   the text with one;
* `Decimal.debug`        the text that shows that the number is no integer.
-/

namespace ColumnPlan

/-- The reals that round to a float lie between `low` and `high`, in units of `2 ^ exponent`;
the ends belong to the cell iff `closed`. -/
structure Cell where
  low : Nat
  center : Nat
  high : Nat
  exponent : Int
  closed : Bool

/-- A number `digits · 10 ^ exponent`. -/
structure Decimal where
  digits : Nat
  exponent : Int

namespace Cell

/-- The cell of `mantissa · 2 ^ exponent` with `bits` binary digits.  Below a power of two the
floats are twice as dense, so there the lower half of the cell is half as wide. -/
def ofMantissa (bits : Nat) (lowestExponent : Int) (mantissa : Nat) (exponent : Int) : Cell :=
  let narrow := mantissa = 1 <<< (bits - 1) ∧ lowestExponent < exponent
  { low := 4 * mantissa - (if narrow then 1 else 2)
    center := 4 * mantissa
    high := 4 * mantissa + 2
    exponent := exponent - 2
    closed := mantissa % 2 = 0 }

/-- Whether `n / unit` lies in the cell whose ends are `low / unit` and `high / unit`. -/
def within (c : Cell) (low high n : Nat) : Bool :=
  if c.closed then low ≤ n && n ≤ high else low < n && n < high

/-- The decimal of the cell on the grid of multiples of `10 ^ k`, the upper one of two equally
near.  On one grid the two neighbours of the center are the only candidates. -/
def on? (c : Cell) (k : Int) : Option Nat :=
  let scale := Nat.pow 10 (-k).toNat <<< c.exponent.toNat
  let unit := Nat.pow 10 k.toNat <<< (-c.exponent).toNat
  let inCell (n : Nat) := c.within (c.low * scale) (c.high * scale) (n * unit)
  let center := c.center * scale
  let below := center / unit
  let above := below + 1
  match inCell below, inCell above with
  | true, true => some (if center - below * unit < above * unit - center then below else above)
  | true, false => some below
  | false, true => some above
  | false, false => none

/-- Tries the grids from `10 ^ k` downwards. -/
def search (c : Cell) (k : Int) : Nat → Decimal
  | 0 => ⟨(c.center / 4) <<< (c.exponent + 2).toNat, 0⟩
  | tries + 1 =>
    match c.on? k with
    | some n => ⟨n, k⟩
    | none => c.search (k - 1) tries

/-- A power of ten above the whole cell. -/
def top (c : Cell) : Int := (c.high.log2 + 1 + c.exponent) * 1233 / 4096 + 2

/-- The grid that holds the center itself. -/
def bottom (c : Cell) : Int := min c.exponent 0

/-- The shortest decimal of the cell. -/
def shortest (c : Cell) : Decimal := c.search c.top ((c.top - c.bottom).toNat + 1)

end Cell

namespace Decimal

/-- The digits `10 ^ places` apart, with zeros where a place has no digit. -/
def positional (d : Decimal) : String :=
  let digits := toString d.digits
  if 0 ≤ d.exponent then digits ++ "".pushn '0' d.exponent.toNat
  else
    let places := (-d.exponent).toNat
    if digits.length ≤ places then
      "0." ++ "".pushn '0' (places - digits.length) ++ digits
    else
      let whole := digits.length - places
      String.ofList (digits.toList.take whole) ++ "." ++ String.ofList (digits.toList.drop whole)

/-- The exponent of the first digit. -/
def magnitude (d : Decimal) : Int := d.exponent + (toString d.digits).length - 1

/-- One digit before the point, and no point without a digit after it. -/
def scientific (d : Decimal) : String :=
  let digits := (toString d.digits).toList
  let fraction := if digits.length = 1 then [] else '.' :: digits.drop 1
  String.ofList (digits.take 1 ++ fraction) ++ "e" ++ toString d.magnitude

/-- Very large and very small numbers have an exponent, and the others a digit after the point. -/
def debug (d : Decimal) : String :=
  if d.magnitude < -4 ∨ 16 ≤ d.magnitude then d.scientific
  else if 0 ≤ d.exponent then d.positional ++ ".0"
  else d.positional

end Decimal

open Float.Model

/-- Writes a float of the given format: the sign, and zero or the shortest decimal of its cell. -/
def floatText (format : Format) (zero : String) (write : Decimal → String) :
    UnpackedFloat → String
  | .notANumber => "NaN"
  | .infinity s => signText s ++ "inf"
  | .zero s => signText s ++ zero
  | .finite s m e _ =>
    signText s ++
      write (Cell.ofMantissa format.mantissaBits format.minExponent m e).shortest
where
  signText (s : UnpackedFloat.Sign) : String := if Dyadic.isNegative s then "-" else ""

/-- No exponent, and no point without a fraction. -/
def Double.text (x : Float) : String :=
  floatText .binary64 "0" Decimal.positional x.toModel.unpack

def Single.text (x : Float32) : String :=
  floatText .binary32 "0" Decimal.positional x.toModel.unpack

def Double.debug (x : Float) : String := floatText .binary64 "0.0" Decimal.debug x.toModel.unpack

def Single.debug (x : Float32) : String := floatText .binary32 "0.0" Decimal.debug x.toModel.unpack

end ColumnPlan
