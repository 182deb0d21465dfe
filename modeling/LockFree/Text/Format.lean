/-
# How values are written

A value is shown by its type's name and its fields. There are two layouts: on
one line, and as a block with one field to a line. Both show the same fields
in the same order.

A text in double quotes stands on one line and its ends show: the quote and the
backslash carry a backslash, line ends, tabs and zero have their short names,
and any other character that would not show by itself is given by its number in
hexadecimal.

Text is written piece by piece into a sink, which may take only so many
characters and then fails; what fitted stays written. A rendering is what one
value writes about itself: some text, after which the value may give up.
-/
import LockFree.Text.Combining
import LockFree.Text.Unprintable

namespace LockFree.Text

/-! ### Records -/

/-- A value as it is shown: a name, and the texts of its fields in order. -/
structure Record where
  name : String
  fields : List (String × String)
  deriving DecidableEq, Repr

namespace Record

/-- One field. -/
def field (f : String × String) : String := f.1 ++ ": " ++ f.2

/-- The record on one line. -/
def line (r : Record) : String :=
  r.name ++ " \x7b " ++ ", ".intercalate (r.fields.map field) ++ " \x7d"

/-- The record as a block: each field is indented by four blanks and followed
by a comma. -/
def block (r : Record) : String :=
  r.name ++ " \x7b\n" ++ String.join (r.fields.map fun f => "    " ++ field f ++ ",\n") ++ "\x7d"

end Record

/-- The text of a flag. -/
def flag (b : Bool) : String := if b then "true" else "false"

/-! ### Quoted text -/

/-- Whether `n` lies in one of the ranges. -/
def inRanges (ranges : List (Nat × Nat)) (n : Nat) : Bool :=
  ranges.any fun r => r.1 ≤ n && n ≤ r.2

/-- Whether the character shows by itself, apart from its neighbours. -/
def showsAlone (c : Char) : Bool :=
  if c.toNat < 0x80 then 0x20 ≤ c.toNat && c.toNat < 0x7f
  else !inRanges combiningRanges c.toNat && !inRanges unprintableRanges c.toNat

/-- The character by its number. -/
def numbered (c : Char) : List Char :=
  ['\\', 'u', '\x7b'] ++ Nat.toDigits 16 c.toNat ++ ['\x7d']

/-- The character as it stands between the quotes. -/
def escaped (c : Char) : List Char :=
  match c with
  | '"' => ['\\', '"']
  | '\\' => ['\\', '\\']
  | '\n' => ['\\', 'n']
  | '\r' => ['\\', 'r']
  | '\t' => ['\\', 't']
  | '\x00' => ['\\', '0']
  | c => if showsAlone c then [c] else numbered c

/-- The text in quotes. -/
def quoted (s : String) : String :=
  String.ofList ('"' :: s.toList.flatMap escaped ++ ['"'])

/-! ### Sinks -/

/-- What a value writes about itself. -/
structure Rendering where
  text : String
  /-- Whether the value succeeded after the text. -/
  ok : Bool := true
  deriving DecidableEq, Repr

/-- Where text goes. -/
structure Sink where
  /-- How many more characters fit; `none` if all do. -/
  room : Option Nat := none
  written : String := ""
  deriving DecidableEq, Repr

namespace Sink

/-- The sink after a piece of text, and whether all of it fitted. -/
def write (s : Sink) (text : String) : Sink × Bool :=
  match s.room with
  | none => ({ s with written := s.written ++ text }, true)
  | some n =>
    if text.length ≤ n then (⟨some (n - text.length), s.written ++ text⟩, true)
    else (⟨some 0, s.written ++ String.ofList (text.toList.take n)⟩, false)

/-- The sink after a value has written itself, and whether all went well. -/
def render (s : Sink) (r : Rendering) : Sink × Bool :=
  match s.write r.text with
  | (s, true) => (s, r.ok)
  | (s, false) => (s, false)

end Sink

end LockFree.Text
