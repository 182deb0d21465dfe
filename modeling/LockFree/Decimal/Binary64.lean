/-
# Numbers of binary64

The numbers that the binary64 format holds, as exact values: a mantissa below
2^53 times a power of two that is at least 2^-1074, or one of the values that
are not numbers of this kind. `Binary64.ofDecimal` takes a decimal to the
nearest of them, and of two that are equally near to the one with the even
mantissa.
-/
namespace LockFree.Decimal

/-- A value of the binary64 format. -/
inductive Binary64
  /-- `mantissa` times two to the `exponent`. -/
  | finite (negative : Bool) (mantissa : Nat) (exponent : Int)
  | infinite (negative : Bool)
  | notANumber
  deriving DecidableEq, Repr

/-- A positive ratio. -/
structure Ratio where
  num : Nat
  den : Nat
  deriving DecidableEq, Repr

/-- The ratio times a power of `base`. -/
def Ratio.scale (q : Ratio) (base : Nat) (e : Int) : Ratio :=
  if 0 ≤ e then ⟨q.num * Nat.pow base e.toNat, q.den⟩ else ⟨q.num, q.den * Nat.pow base (-e).toNat⟩

namespace Binary64

/-- No mantissa has more bits than this. -/
def precision : Nat := 53

/-- The least exponent. -/
def minExponent : Int := -1074

/-- The greatest exponent. -/
def maxExponent : Int := 971

/-- The nearest integer to a ratio; of two the even one. -/
def roundHalfEven (q : Ratio) : Nat :=
  let whole := q.num / q.den
  let rest := 2 * (q.num % q.den)
  if rest < q.den ∨ (rest = q.den ∧ whole % 2 = 0) then whole else whole + 1

/-- The exponent at which a ratio has a mantissa of full precision, or the least
one. -/
def exponentOf (q : Ratio) : Int :=
  let guess : Int := (Nat.log2 q.num : Int) - Nat.log2 q.den - (precision - 1 : Nat)
  let scaled := q.scale 2 (-guess)
  max minExponent (if scaled.num < scaled.den * Nat.pow 2 (precision - 1) then guess - 1 else guess)

/-- The number nearest to a ratio. -/
def ofRatio (negative : Bool) (q : Ratio) : Binary64 :=
  let e := exponentOf q
  let m := roundHalfEven (q.scale 2 (-e))
  let (m, e) := if m = Nat.pow 2 precision then (Nat.pow 2 (precision - 1), e + 1) else (m, e)
  if maxExponent < e then infinite negative else finite negative m e

/-- A decimal of which `digitCount` digits come before ten to the `scale` is
beyond the largest number if it has more digits than this before its point. -/
def maxDecimalExponent : Int := 310

/-- A decimal with more zeros than this after its point is nearest to zero. -/
def minDecimalExponent : Int := -330

/-- The number nearest to `digits` times ten to the `scale`. -/
def ofDecimal (negative : Bool) (digits : Nat) (scale : Int) : Binary64 :=
  let magnitude : Int := (Nat.toDigits 10 digits).length + scale
  if digits = 0 ∨ magnitude < minDecimalExponent then finite negative 0 minExponent
  else if maxDecimalExponent < magnitude then infinite negative
  else ofRatio negative (Ratio.scale ⟨digits, 1⟩ 10 scale)

end Binary64
end LockFree.Decimal
