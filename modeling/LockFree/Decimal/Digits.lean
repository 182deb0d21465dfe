/-
# Decimal digits and lengths of time

Numbers as decimal digits, and the fixed-point text of a number of small
units: `fixedPoint 1500 3` is `1.5`. Digits run from the most significant one;
the core library's `Nat.toDigits` writes them and `Nat.ofDigitChars` reads
them back.

Time is counted in whole nanoseconds. A length of time is written in the
largest of its units that it reaches (`s`, `ms`, `µs`, `ns`), as a decimal
without trailing zeros: `0ns`, `250ms`, `1.5s`.
-/
namespace LockFree

namespace Decimal

/-- The digits of a natural number; zero has one digit. -/
def digits (n : Nat) : List Char := Nat.toDigits 10 n

/-- The text of a natural number. -/
def natText (n : Nat) : String := String.ofList (digits n)

/-- The text of an integer: a minus sign only where it is negative. -/
def intText (i : Int) : String :=
  if i < 0 then "-" ++ natText i.natAbs else natText i.natAbs

/-- `cs` without the zeros at its end. -/
def dropTrailingZeros (cs : List Char) : List Char := (cs.reverse.dropWhile (· == '0')).reverse

/-- The last `places` digits of `n`, with zeros in front if there are fewer. -/
def paddedDigits (n places : Nat) : List Char :=
  let ds := digits (n % Nat.pow 10 places)
  List.replicate (places - ds.length) '0' ++ ds

/-- The text of `n` units of which ten to the `places` make one: no trailing
zeros after the point, and no point if nothing would follow it. -/
def fixedPoint (n places : Nat) : String :=
  let fraction := if places = 0 then [] else dropTrailingZeros (paddedDigits n places)
  let whole := digits (n / Nat.pow 10 places)
  String.ofList (if fraction.isEmpty then whole else whole ++ '.' :: fraction)

end Decimal

/-- A length of time. -/
structure Duration where
  nanoseconds : Nat
  deriving DecidableEq, Repr

namespace Duration

/-- The length of `n` milliseconds. -/
def ofMilliseconds (n : Nat) : Duration := ⟨n * 1000000⟩

/-- The text of a length of time. -/
def text (d : Duration) : String :=
  let n := d.nanoseconds
  if 1000000000 ≤ n then Decimal.fixedPoint n 9 ++ "s"
  else if 1000000 ≤ n then Decimal.fixedPoint n 6 ++ "ms"
  else if 1000 ≤ n then Decimal.fixedPoint n 3 ++ "µs"
  else Decimal.fixedPoint n 0 ++ "ns"

end Duration

end LockFree
