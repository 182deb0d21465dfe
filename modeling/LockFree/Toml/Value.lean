/-
# Values of a document

What a document of the TOML language holds: a table of entries whose values are
strings, numbers, flags, dates and times, lists, and tables again. Entries keep
the order of the document.

An entry whose value is an integer is written on a line of its own. Integers of
a document are signed words, so a larger number cannot be written.
-/
import LockFree.Decimal.Binary64
import LockFree.Decimal.Digits

namespace LockFree.Toml

/-- A day of the calendar. -/
structure Date where
  year : Nat
  month : Nat
  day : Nat
  deriving DecidableEq, Repr

/-- A time of day; the digits after the point of the seconds are kept as they
stand. -/
structure Time where
  hour : Nat
  minute : Nat
  second : Nat
  fraction : List Char := []
  deriving DecidableEq, Repr

/-- A date, a time, or both, perhaps with the minutes that the clock is ahead
of the common one. -/
structure DateTime where
  date : Option Date := none
  time : Option Time := none
  offset : Option Int := none
  deriving DecidableEq, Repr

/-- A value. -/
inductive Value
  | string (s : String)
  | integer (i : Int64)
  | float (x : Decimal.Binary64)
  | boolean (b : Bool)
  | dateTime (t : DateTime)
  | array (items : List Value)
  | table (entries : List (String × Value))
  deriving Repr

/-- Entries in the order of the document. -/
abbrev Entries := List (String × Value)

/-! ### Writing entries -/

/-- The line of an integer entry. -/
def integerLine (key : String) (i : Int64) : String :=
  key ++ " = " ++ Decimal.intText i.toInt ++ "\n"

/-- A word as an integer of a document, if it is not too large. -/
def integerOf? (w : UInt64) : Option Int64 :=
  if w.toNat < Nat.pow 2 63 then some (Int64.ofNat w.toNat) else none

/-- The document of entries whose values are words. -/
def wordEntries? (entries : List (String × UInt64)) : Option String :=
  (entries.mapM fun e => (integerOf? e.2).map (integerLine e.1)).map String.join

end LockFree.Toml
