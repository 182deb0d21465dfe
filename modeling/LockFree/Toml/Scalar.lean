/-
# Bare scalars

A value that begins with neither a quote nor a bracket is a run of letters,
digits and the signs `+ - _ . :`, and the run decides what it is: a flag, an
integer, a number with a fraction or an exponent, or a date or time. Nothing
else may follow such a value than a blank, a comma, a closing bracket, a
comment or a line end, so the whole run has to fit. Only a date and a time may
be parted by a blank.
-/
import LockFree.Toml.Scanner
import LockFree.Toml.Value

namespace LockFree.Toml

open Decimal (Binary64)

/-- A character of a bare scalar. -/
def isBare (c : Char) : Bool :=
  isLetter c || isDigit c || c == '+' || c == '-' || c == '_' || c == '.' || c == ':'

/-- The digits of a group: every underscore in it stands between two digits. -/
def ungroup? (base : Nat) : List Char → Option (List Nat)
  | [] => none
  | [c] => (digitOf? base c).map fun d => [d]
  | c :: '_' :: rest =>
    match digitOf? base c, ungroup? base rest with
    | some d, some ds => some (d :: ds)
    | _, _ => none
  | c :: rest =>
    match digitOf? base c, ungroup? base rest with
    | some d, some ds => some (d :: ds)
    | _, _ => none

/-- A sign and what follows it; whether the sign is a minus. -/
def splitSign : List Char → Bool × List Char
  | '+' :: rest => (false, rest)
  | '-' :: rest => (true, rest)
  | cs => (false, cs)

/-- The digits of a decimal integer, which begins with a zero only if that is
all of it. -/
def wholeDigits? (cs : List Char) : Option (List Nat) :=
  match ungroup? 10 cs with
  | some (0 :: _ :: _) => none
  | ds => ds

/-- A number as an integer, if it is in the range of signed words. -/
def signedWord? (negative : Bool) (n : Nat) : Option Int64 :=
  let i : Int := if negative then -n else n
  if Int64.minValue.toInt ≤ i ∧ i ≤ Int64.maxValue.toInt then some (Int64.ofInt i) else none

/-- An integer: decimal with a sign, or without one in base sixteen, eight or
two. -/
def integer? (cs : List Char) : Option Int64 :=
  let inBase (base : Nat) (ds : List Char) : Option Int64 :=
    (ungroup? base ds).bind fun ds => signedWord? false (numberOf base ds)
  match cs with
  | '0' :: 'x' :: ds => inBase 16 ds
  | '0' :: 'o' :: ds => inBase 8 ds
  | '0' :: 'b' :: ds => inBase 2 ds
  | cs =>
    let (negative, ds) := splitSign cs
    (wholeDigits? ds).bind fun ds => signedWord? negative (numberOf 10 ds)

/-- The number that an exponent gives, after its letter. -/
def exponent? (cs : List Char) : Option Int :=
  let (negative, ds) := splitSign cs
  (ungroup? 10 ds).map fun ds =>
    if negative then -(numberOf 10 ds : Int) else (numberOf 10 ds : Int)

/-- Whether the character begins an exponent. -/
def isExponentMark (c : Char) : Bool := c == 'e' || c == 'E'

/-- The digits before the point and those after it, and the exponent, of a
number that has a fraction or an exponent. -/
def floatParts? (cs : List Char) : Option (List Nat × List Nat × Int) :=
  let whole := cs.takeWhile fun c => c != '.' && !isExponentMark c
  match cs.drop whole.length with
  | '.' :: rest =>
    let fraction := rest.takeWhile fun c => !isExponentMark c
    let tail := rest.drop fraction.length
    match wholeDigits? whole, ungroup? 10 fraction, tail with
    | some ds, some fs, [] => some (ds, fs, 0)
    | some ds, some fs, _ :: es => (exponent? es).map fun e => (ds, fs, e)
    | _, _, _ => none
  | _ :: es =>
    match wholeDigits? whole, exponent? es with
    | some ds, some e => some (ds, [], e)
    | _, _ => none
  | [] => none

/-- A number with a fraction or an exponent, or one of the names of what is no
finite number. One too large to be finite is refused if it is positive. -/
def float? (cs : List Char) : Option Binary64 :=
  let (negative, ds) := splitSign cs
  if ds = ['i', 'n', 'f'] then some (.infinite negative)
  else if ds = ['n', 'a', 'n'] then some .notANumber
  else
    match floatParts? ds with
    | none => none
    | some (whole, fraction, e) =>
      match Binary64.ofDecimal negative (numberOf 10 (whole ++ fraction)) (e - fraction.length) with
      | .infinite false => none
      | x => some x

/-- A number of exactly the digits given. -/
def fixedNumber? (cs : List Char) : Option Nat :=
  (cs.mapM (digitOf? 10)).map (numberOf 10)

/-- Whether the year has a 29th of February. -/
def isLeapYear (year : Nat) : Bool := year % 4 == 0 && (year % 100 != 0 || year % 400 == 0)

/-- How many days the month has. -/
def daysIn (year month : Nat) : Nat :=
  if month = 2 then if isLeapYear year then 29 else 28
  else if month = 4 ∨ month = 6 ∨ month = 9 ∨ month = 11 then 30
  else 31

/-- A date, and what follows it. -/
def date? (cs : List Char) : Option (Date × List Char) :=
  match cs with
  | a :: b :: c :: d :: '-' :: e :: f :: '-' :: g :: h :: rest =>
    match fixedNumber? [a, b, c, d], fixedNumber? [e, f], fixedNumber? [g, h] with
    | some year, some month, some day =>
      if 1 ≤ month ∧ month ≤ 12 ∧ 1 ≤ day ∧ day ≤ daysIn year month then
        some (⟨year, month, day⟩, rest)
      else none
    | _, _, _ => none
  | _ => none

/-- A time of day, and what follows it. A leap second is allowed everywhere. -/
def time? (cs : List Char) : Option (Time × List Char) :=
  match cs with
  | a :: b :: ':' :: c :: d :: ':' :: e :: f :: rest =>
    match fixedNumber? [a, b], fixedNumber? [c, d], fixedNumber? [e, f] with
    | some hour, some minute, some second =>
      if hour ≤ 23 ∧ minute ≤ 59 ∧ second ≤ 60 then
        match rest with
        | '.' :: rest =>
          let fraction := rest.takeWhile isDigit
          if fraction.isEmpty then none
          else some (⟨hour, minute, second, fraction⟩, rest.drop fraction.length)
        | rest => some (⟨hour, minute, second, []⟩, rest)
      else none
    | _, _, _ => none
  | _ => none

/-- An offset from the common clock, in minutes. -/
def offset? (cs : List Char) : Option Int :=
  match cs with
  | ['Z'] | ['z'] => some 0
  | [sign, a, b, ':', c, d] =>
    match fixedNumber? [a, b], fixedNumber? [c, d] with
    | some hour, some minute =>
      if hour ≤ 23 ∧ minute ≤ 59 then
        if sign = '+' then some (hour * 60 + minute : Nat)
        else if sign = '-' then some (-((hour * 60 + minute : Nat) : Int))
        else none
      else none
    | _, _ => none
  | _ => none

/-- A time of day with or without an offset, after a date. -/
def clock? (date : Date) (cs : List Char) : Option DateTime :=
  match time? cs with
  | none => none
  | some (time, []) => some ⟨some date, some time, none⟩
  | some (time, rest) => (offset? rest).map fun o => ⟨some date, some time, some o⟩

/-- A date, a time, or both with a `T` between them. -/
def dateTime? (cs : List Char) : Option DateTime :=
  match date? cs with
  | some (date, []) => some { date := some date }
  | some (date, c :: rest) => if c = 'T' ∨ c = 't' then clock? date rest else none
  | none =>
    match time? cs with
    | some (time, []) => some { time := some time }
    | _ => none

/-- What a run of bare characters stands for. -/
def scalarOf? (cs : List Char) : Option Value :=
  if cs = ['t', 'r', 'u', 'e'] then some (.boolean true)
  else if cs = ['f', 'a', 'l', 's', 'e'] then some (.boolean false)
  else
    match integer? cs with
    | some i => some (.integer i)
    | none =>
      match float? cs with
      | some x => some (.float x)
      | none => (dateTime? cs).map .dateTime

/-- A date that a blank and a digit follow goes on with a time. -/
def timeAfterBlank (date : Date) (rest : List Char) : Option (Value × List Char) :=
  let run := rest.takeWhile isBare
  (clock? date run).map fun t => (.dateTime t, rest.drop run.length)

/-- A bare scalar. -/
def scalar : Reader Value := fun cs =>
  let run := cs.takeWhile isBare
  let rest := cs.drop run.length
  match date? run, rest with
  | some (date, []), ' ' :: c :: more =>
    if isDigit c then timeAfterBlank date (c :: more)
    else some (.dateTime { date := some date }, rest)
  | _, _ => (scalarOf? run).map fun v => (v, rest)

end LockFree.Toml
