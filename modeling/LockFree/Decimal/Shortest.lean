/-
# Shortest decimals

A number of binary64 is written with the fewest decimal digits that still read
back as the same number, and of those the ones nearest to it; a tie goes away
from zero. For one digit, two digits and so on, the two neighbours of the
number on the grid of that many digits are tried: if any point of the grid
reads back, one of these does.
-/
import LockFree.Decimal.Binary64
import LockFree.Decimal.Digits

namespace LockFree.Decimal

/-- `digits` times ten to the `exponent`. -/
structure Numeral where
  digits : Nat
  exponent : Int
  deriving DecidableEq, Repr

/-- The positive numbers that read back as one number of binary64: between
`low` and `high`, with both ends if `closed`. -/
structure ReadBack where
  value : Ratio
  low : Ratio
  high : Ratio
  closed : Bool
  deriving DecidableEq, Repr

namespace ReadBack

/-- The numbers that read back as `mantissa` times two to the `exponent`. Below
a power of two the numbers are twice as dense as above it. -/
def ofBinary (mantissa : Nat) (exponent : Int) : ReadBack :=
  let quarter (n : Nat) : Ratio := Ratio.scale ⟨n, 1⟩ 2 (exponent - 2)
  let atPower := mantissa = Nat.pow 2 (Binary64.precision - 1) ∧ Binary64.minExponent < exponent
  { value := quarter (4 * mantissa)
    low := quarter (4 * mantissa - if atPower then 1 else 2)
    high := quarter (4 * mantissa + 2)
    closed := mantissa % 2 = 0 }

/-- Whether a ratio is less than another one, or, if `orEqual`, equal to it. -/
def below (orEqual : Bool) (p q : Ratio) : Bool :=
  let l := p.num * q.den
  let r := q.num * p.den
  l < r || (orEqual && l == r)

/-- Whether a decimal reads back. -/
def contains (b : ReadBack) (d : Numeral) : Bool :=
  let q := Ratio.scale ⟨d.digits, 1⟩ 10 d.exponent
  below b.closed b.low q && below b.closed q b.high

/-- The point of the grid with spacing ten to the `exponent` that is nearest
among those next to the value and reads back. -/
def onGrid? (b : ReadBack) (exponent : Int) : Option Numeral :=
  let scaled := b.value.scale 10 (-exponent)
  let floor : Numeral := ⟨scaled.num / scaled.den, exponent⟩
  let ceiling : Numeral := ⟨scaled.num / scaled.den + 1, exponent⟩
  let nearFloor := 2 * (scaled.num % scaled.den) < scaled.den
  match b.contains floor, b.contains ceiling with
  | true, true => some (if nearFloor then floor else ceiling)
  | true, false => some floor
  | false, true => some ceiling
  | false, false => none

/-- The exponent of ten that is the first one above the value. -/
def magnitude (b : ReadBack) : Int :=
  if b.value.den ≤ b.value.num then (Nat.toDigits 10 (b.value.num / b.value.den)).length
  else
    match (List.range 400).find? fun k => b.value.den ≤ b.value.num * Nat.pow 10 (k + 1) with
    | some k => -k
    | none => -400

/-- The shortest decimal that reads back. Seventeen digits always do. -/
def shortest (b : ReadBack) : Numeral :=
  match (List.range 17).findSome? fun n => b.onGrid? (b.magnitude - (n + 1 : Nat)) with
  | some d => d
  | none => ⟨0, 0⟩

end ReadBack

/-- A decimal in positional notation. -/
def Numeral.positional (d : Numeral) : String :=
  if 0 ≤ d.exponent then natText (d.digits * Nat.pow 10 d.exponent.toNat)
  else fixedPoint d.digits (-d.exponent).toNat

namespace Binary64

/-- The text of a number: positional whatever its size, and with a point also
where it is whole. -/
def text : Binary64 → String
  | notANumber => "NaN"
  | infinite negative => if negative then "-inf" else "inf"
  | finite negative mantissa exponent =>
    let digits :=
      if mantissa = 0 then "0" else (ReadBack.ofBinary mantissa exponent).shortest.positional
    let whole := if digits.toList.contains '.' then digits else digits ++ ".0"
    if negative then "-" ++ whole else whole

end Binary64
end LockFree.Decimal
