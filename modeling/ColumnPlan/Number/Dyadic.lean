/-!
# Finite binary floating-point numbers as exact integers times powers of two

* `Dyadic`               a number `± mantissa · 2 ^ exponent`;
* `Dyadic.ofDouble?`     the exact value of a finite 64-bit number;
* `Dyadic.toDouble`      the nearest 64-bit number, ties to even;
* `Dyadic.toInt?`        the value, if it is an integer;
* `Double.ofInt`, `Double.ofSingle`, `Double.rem`   conversions and the exact remainder.
-/

namespace ColumnPlan

open Float.Model

/-- The number `mantissa · 2 ^ exponent`, or its opposite. -/
structure Dyadic where
  negative : Bool
  mantissa : Nat
  exponent : Int
  deriving DecidableEq

namespace Dyadic

def signOf (negative : Bool) : UnpackedFloat.Sign :=
  if negative then .negative else .positive

def isNegative : UnpackedFloat.Sign → Bool
  | .negative => true
  | .positive => false

def ofUnpacked? : UnpackedFloat → Option Dyadic
  | .finite s m e _ => some ⟨isNegative s, m, e⟩
  | .zero s => some ⟨isNegative s, 0, 0⟩
  | .infinity _ => none
  | .notANumber => none

/-- The exact value of a finite 64-bit number. -/
def ofDouble? (x : Float) : Option Dyadic := ofUnpacked? x.toModel.unpack

/-- The nearest 64-bit number; of two equally near the one with the even mantissa. -/
def toDouble (d : Dyadic) : Float :=
  .ofModel (.pack
    (if d.mantissa = 0 then .zero (signOf d.negative)
     else .round .binary64 (signOf d.negative) d.mantissa d.exponent))

/-- The mantissa on the finer grid of multiples of `2 ^ exponent`. -/
def mantissaAt (d : Dyadic) (exponent : Int) : Nat :=
  d.mantissa <<< (d.exponent - exponent).toNat

def withSign (d : Dyadic) (n : Nat) : Int := if d.negative then -(n : Int) else n

/-- The value as an integer, if it is one. -/
def toInt? (d : Dyadic) : Option Int :=
  if 0 ≤ d.exponent then some (d.withSign (d.mantissaAt 0))
  else
    let unit := 1 <<< (-d.exponent).toNat
    if d.mantissa % unit = 0 then some (d.withSign (d.mantissa / unit)) else none

/-- The remainder of the division truncated toward zero; it has the sign of the dividend. -/
def rem (a b : Dyadic) : Dyadic :=
  let grid := min a.exponent b.exponent
  ⟨a.negative, a.mantissaAt grid % b.mantissaAt grid, grid⟩

end Dyadic

namespace Double

def nan : Float := .ofModel (.pack .notANumber)

/-- The 64-bit number nearest to an integer. -/
def ofInt (n : Int) : Float := .ofModel (.ofInt n)

/-- The same number in 64 bits; nothing is lost. -/
def ofSingle (x : Float32) : Float :=
  match x.toModel.unpack with
  | .finite s m e _ => .ofModel (.pack (.round .binary64 s m e))
  | special => .ofModel (.pack special)

/-- The floating remainder: exact, with the sign of the dividend. No remainder exists for an
infinite dividend or a zero divisor, and an infinite divisor leaves the dividend alone. -/
def rem (x y : Float) : Float :=
  match Dyadic.ofDouble? x, Dyadic.ofDouble? y with
  | some a, some b => if b.mantissa = 0 then nan else (a.rem b).toDouble
  | some _, none => if y.isNaN then nan else x
  | none, _ => nan

end Double

end ColumnPlan
