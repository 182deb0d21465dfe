/-
# Scanning

What the readers of a document share: classes of characters, blanks, line
ends and comments. A reader takes what it reads off the front of the text and
answers with it and the rest, or `none` if the text does not fit.
-/
namespace LockFree.Toml

/-- Reads something off the front of a text. -/
abbrev Reader (α : Type) := List Char → Option (α × List Char)

/-- A blank within a line. -/
def isBlank (c : Char) : Bool := c == ' ' || c == '\t'

/-- A character that a comment or a string may hold as it is. -/
def isText (c : Char) : Bool := c == '\t' || (0x20 ≤ c.toNat && c.toNat != 0x7f)

/-- A decimal digit. -/
def isDigit (c : Char) : Bool := '0' ≤ c && c ≤ '9'

/-- A letter of the Latin alphabet. -/
def isLetter (c : Char) : Bool := ('a' ≤ c && c ≤ 'z') || ('A' ≤ c && c ≤ 'Z')

/-- The value of a digit of a base up to sixteen. -/
def digitOf? (base : Nat) (c : Char) : Option Nat :=
  let v? :=
    if isDigit c then some (c.toNat - '0'.toNat)
    else if 'a' ≤ c && c ≤ 'f' then some (c.toNat - 'a'.toNat + 10)
    else if 'A' ≤ c && c ≤ 'F' then some (c.toNat - 'A'.toNat + 10)
    else none
  v?.filter (· < base)

/-- The number of a list of digits. -/
def numberOf (base : Nat) (ds : List Nat) : Nat := ds.foldl (fun n d => n * base + d) 0

/-- The rest after blanks. -/
def skipBlanks (cs : List Char) : List Char := cs.dropWhile isBlank

/-- The rest after a line end, which is a line feed, perhaps after a carriage
return. -/
def newline? : List Char → Option (List Char)
  | '\n' :: rest => some rest
  | '\r' :: '\n' :: rest => some rest
  | _ => none

/-- The rest after a comment's text, up to the line end. -/
def skipComment (cs : List Char) : List Char := cs.dropWhile isText

/-- The rest after the end of a line: blanks and a comment may stand before
it, and the text may end instead. -/
def lineEnd? (cs : List Char) : Option (List Char) :=
  let rest := match skipBlanks cs with
    | '#' :: comment => skipComment comment
    | cs => cs
  match rest with
  | [] => some []
  | cs => newline? cs

/-- The rest after blanks, line ends and comments. A comment has to end with a
line end. -/
def skipTrivia : (inComment : Bool) → List Char → Option (List Char)
  | false, '#' :: rest => skipTrivia true rest
  | _, '\n' :: rest => skipTrivia false rest
  | _, '\r' :: '\n' :: rest => skipTrivia false rest
  | false, c :: rest => if isBlank c then skipTrivia false rest else some (c :: rest)
  | true, c :: rest => if isText c then skipTrivia true rest else none
  | false, [] => some []
  | true, [] => none

end LockFree.Toml
