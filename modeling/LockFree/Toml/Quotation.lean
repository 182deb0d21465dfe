/-
# Strings

Four ways to write a string: in double quotes, where a backslash begins an
escape, or in single quotes, where nothing does; and each of them in single
quotes of one line or in threefold quotes over several lines. A threefold
string drops a line end right after its opening, may hold one or two quotes in
a row, also right before its closing, and in double quotes a backslash at the
end of a line takes away all blanks and line ends that follow.
-/
import LockFree.Toml.Scanner

namespace LockFree.Toml

/-- The character of a number, if it is one. -/
def charOf? (n : Nat) : Option Char :=
  if n < 0xd800 ∨ (0xe000 ≤ n ∧ n ≤ 0x10ffff) then some (Char.ofNat n) else none

/-- The character with `width` hexadecimal digits at the front of the text. -/
def hexChar? (width : Nat) (cs : List Char) : Option Char :=
  let ds := cs.take width
  if ds.length = width then (ds.mapM (digitOf? 16)).bind fun vs => charOf? (numberOf 16 vs)
  else none

/-- What an escape stands for, given the text after the backslash, and how many
characters of that text belong to it. -/
def escape? : List Char → Option (Char × Nat)
  | 'b' :: _ => some ('\x08', 1)
  | 't' :: _ => some ('\t', 1)
  | 'n' :: _ => some ('\n', 1)
  | 'f' :: _ => some ('\x0c', 1)
  | 'r' :: _ => some ('\r', 1)
  | '"' :: _ => some ('"', 1)
  | '\\' :: _ => some ('\\', 1)
  | 'u' :: rest => (hexChar? 4 rest).map fun c => (c, 5)
  | 'U' :: rest => (hexChar? 8 rest).map fun c => (c, 9)
  | _ => none

/-- A character is put before what was read. -/
def consRead (c : Char) (r : Option (List Char × List Char)) : Option (List Char × List Char) :=
  r.map fun x => (c :: x.1, x.2)

/-- The rest of a string of one line after its opening quote. `escapes` says
whether a backslash begins an escape; `skip` characters belong to an escape
that was read. -/
def lineString (quote : Char) (escapes : Bool) : (skip : Nat) → Reader (List Char)
  | _, [] => none
  | n + 1, _ :: rest => lineString quote escapes n rest
  | 0, c :: rest =>
    if c = quote then some ([], rest)
    else if escapes && c == '\\' then
      match escape? rest with
      | some (d, n) => consRead d (lineString quote escapes n rest)
      | none => none
    else if isText c then consRead c (lineString quote escapes 0 rest)
    else none

/-- Whether a line end is the next thing after blanks. -/
def endsLine (cs : List Char) : Bool := (newline? (skipBlanks cs)).isSome

/-- The quotes that stand right before a closing threefold quote belong to the
string, up to two of them. -/
def closingQuotes (quote : Char) : Reader (List Char)
  | a :: b :: rest =>
    if a = quote then
      if b = quote then some ([quote, quote], rest) else some ([quote], b :: rest)
    else some ([], a :: b :: rest)
  | [a] => if a = quote then some ([quote], []) else some ([], [a])
  | [] => some ([], [])

/-- Whether the text begins with two quotes. -/
def twoQuotes (quote : Char) : List Char → Bool
  | a :: b :: _ => a == quote && b == quote
  | _ => false

/-- The rest of a threefold string after its opening. `skip` characters belong
to what was read; with `trim`, blanks and line ends are passed over. -/
def blockString (quote : Char) (escapes : Bool) : (skip : Nat) → (trim : Bool) → Reader (List Char)
  | _, _, [] => none
  | n + 1, trim, _ :: rest => blockString quote escapes n trim rest
  | 0, trim, c :: rest =>
    if trim && isBlank c then blockString quote escapes 0 true rest
    else if c = '\n' then
      if trim then blockString quote escapes 0 true rest
      else consRead '\n' (blockString quote escapes 0 false rest)
    else if c = '\r' then
      match rest with
      | '\n' :: _ => blockString quote escapes 0 trim rest
      | _ => none
    else if c = quote then
      if twoQuotes quote rest then closingQuotes quote (rest.drop 2)
      else consRead c (blockString quote escapes 0 false rest)
    else if escapes && c == '\\' then
      if endsLine rest then blockString quote escapes 0 true rest
      else
        match escape? rest with
        | some (d, n) => consRead d (blockString quote escapes n false rest)
        | none => none
    else if isText c then consRead c (blockString quote escapes 0 false rest)
    else none

/-- A string of one line, from its opening quote on. -/
def lineQuotation : Reader (List Char)
  | '"' :: rest => lineString '"' true 0 rest
  | '\'' :: rest => lineString '\'' false 0 rest
  | _ => none

/-- The rest after a line end, if one comes first. -/
def dropNewline (cs : List Char) : List Char := (newline? cs).getD cs

/-- A string, from its opening on. -/
def quotation : Reader (List Char)
  | '"' :: '"' :: '"' :: rest => blockString '"' true 0 false (dropNewline rest)
  | '\'' :: '\'' :: '\'' :: rest => blockString '\'' false 0 false (dropNewline rest)
  | cs => lineQuotation cs

end LockFree.Toml
