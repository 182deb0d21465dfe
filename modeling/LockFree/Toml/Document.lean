/-
# Documents

A document is a sequence of statements, each on a line of its own: a key is
given a value, a header begins a table, or a header in double brackets begins a
further table of a list. `statements?` reads them; `ofStatements?` carries them
out; `read?` does both and answers with the entries of the whole document.

Keys have fewer than `depthLimit` parts, and lists and tables in braces are
nested less than that deep.
-/
import LockFree.Toml.Quotation
import LockFree.Toml.Scalar
import LockFree.Toml.Tree

namespace LockFree.Toml

/-- How deep keys and values must not go. -/
def depthLimit : Nat := 80

/-- A key with dots, taken apart. -/
structure Key where
  path : List String
  last : String
  deriving DecidableEq, Repr

/-- The key of a list of parts, of which there must not be too many. -/
def Key.ofParts? (parts : List String) : Option Key :=
  if parts.length < depthLimit then parts.getLast?.map fun last => ⟨parts.dropLast, last⟩ else none

/-- A character of a part that stands without quotes. -/
def isBareKey (c : Char) : Bool := isLetter c || isDigit c || c == '-' || c == '_'

/-- One part of a key. -/
def keyPart : Reader String
  | '"' :: rest => (lineQuotation ('"' :: rest)).map fun r => (String.ofList r.1, r.2)
  | '\'' :: rest => (lineQuotation ('\'' :: rest)).map fun r => (String.ofList r.1, r.2)
  | cs =>
    let run := cs.takeWhile isBareKey
    if run.isEmpty then none else some (String.ofList run, cs.drop run.length)

/-- The parts of a key, in at most `n` of them; blanks may stand around each. -/
def keyParts : (n : Nat) → Reader (List String)
  | 0, _ => none
  | n + 1, cs =>
    match keyPart (skipBlanks cs) with
    | none => none
    | some (part, rest) =>
      match skipBlanks rest with
      | '.' :: more => (keyParts n more).map fun r => (part :: r.1, r.2)
      | rest => some ([part], rest)

/-- A key. -/
def key : Reader Key := fun cs =>
  match keyParts (cs.length + 1) cs with
  | none => none
  | some (parts, rest) => (Key.ofParts? parts).map fun k => (k, rest)

/-- The elements of a list after its opening bracket or a comma, at most `n` of
them, up to the closing bracket. -/
def listItems (item : Reader Value) : (n : Nat) → Reader (List Value)
  | 0, _ => none
  | n + 1, cs =>
    match skipTrivia false cs with
    | none => none
    | some (']' :: rest) => some ([], rest)
    | some cs =>
      match item cs with
      | none => none
      | some (v, rest) =>
        match skipTrivia false rest with
        | some (',' :: rest) => (listItems item n rest).map fun r => (v :: r.1, r.2)
        | some (']' :: rest) => some ([v], rest)
        | _ => none

/-- A key, its value, and blanks around both. -/
def binding (item : Reader Value) : Reader (Key × Value) := fun cs =>
  match key cs with
  | some (k, '=' :: rest) => (item (skipBlanks rest)).map fun r => ((k, r.1), skipBlanks r.2)
  | _ => none

/-- The bindings of a table in braces after the first, at most `n` of them, up
to the closing brace. -/
def moreBindings (item : Reader Value) : (n : Nat) → Reader (List (Key × Value))
  | 0, _ => none
  | _ + 1, '\x7d' :: rest => some ([], rest)
  | n + 1, ',' :: cs =>
    match binding item cs with
    | none => none
    | some (b, rest) => (moreBindings item n rest).map fun r => (b :: r.1, r.2)
  | _ + 1, _ => none

/-- The bindings of a table in braces, after the opening brace. -/
def bindings (item : Reader Value) : Reader (List (Key × Value)) := fun cs =>
  match skipBlanks cs with
  | '\x7d' :: rest => some ([], rest)
  | cs =>
    match binding item cs with
    | none => none
    | some (b, rest) => (moreBindings item (rest.length + 1) rest).map fun r => (b :: r.1, r.2)

/-- The table of the bindings in braces. -/
def tableOf? (bs : List (Key × Value)) : Option Value :=
  (Table.assignAll (.empty .header) (bs.map fun b => (b.1.path, b.1.last, b.2))).map fun t =>
    .table (sealEntries t.entries)

/-- A value, with at most `room` further levels inside it. -/
def value : (room : Nat) → Reader Value
  | _, '"' :: rest => (quotation ('"' :: rest)).map fun r => (.string (String.ofList r.1), r.2)
  | _, '\'' :: rest => (quotation ('\'' :: rest)).map fun r => (.string (String.ofList r.1), r.2)
  | 0, '[' :: _ => none
  | 0, '\x7b' :: _ => none
  | room + 1, '[' :: rest =>
    (listItems (value room) (rest.length + 1) rest).map fun r => (.array r.1, r.2)
  | room + 1, '\x7b' :: rest =>
    match bindings (value room) rest with
    | none => none
    | some (bs, rest) => (tableOf? bs).map fun v => (v, rest)
  | _, cs => scalar cs

/-- One statement of a document. -/
inductive Statement
  | assign (key : Key) (v : Value)
  | header (key : Key)
  | rowHeader (key : Key)
  deriving Repr

/-- A header, after its opening brackets and up to `close`. -/
def headerKey (close : List Char) : Reader Key := fun cs =>
  match key cs with
  | none => none
  | some (k, rest) => if close.isPrefixOf rest then some (k, rest.drop close.length) else none

/-- One statement, with the end of its line. -/
def statement : Reader Statement := fun cs =>
  let read := match cs with
    | '[' :: '[' :: rest => (headerKey [']', ']'] rest).map fun r => (Statement.rowHeader r.1, r.2)
    | '[' :: rest => (headerKey [']'] rest).map fun r => (Statement.header r.1, r.2)
    | cs => (binding (value (depthLimit - 1)) cs).map fun r => (Statement.assign r.1.1 r.1.2, r.2)
  match read with
  | none => none
  | some (s, rest) => (lineEnd? rest).map fun rest => (s, rest)

/-- The statements of a text, in at most `n` lines. -/
def statementsIn : (n : Nat) → (cs : List Char) → Option (List Statement)
  | 0, _ => none
  | n + 1, cs =>
    match skipBlanks cs with
    | [] => some []
    | '#' :: rest => (lineEnd? ('#' :: rest)).bind (statementsIn n)
    | '\n' :: rest => statementsIn n rest
    | '\r' :: rest => (newline? ('\r' :: rest)).bind (statementsIn n)
    | cs =>
      match statement cs with
      | none => none
      | some (s, rest) => (statementsIn n rest).map fun ss => s :: ss

/-- The mark that a text may begin with to show its encoding. -/
def byteOrderMark : Char := '\ufeff'

/-- The statements of a document. -/
def statements? (cs : List Char) : Option (List Statement) :=
  let cs := match cs with
    | c :: rest => if c = byteOrderMark then rest else c :: rest
    | [] => []
  statementsIn (cs.length + 1) cs

/-- The values that are given to keys up to the next header, and the statements
from there on. -/
def takeAssignments : List Statement → List (List String × String × Value) × List Statement
  | .assign k v :: rest =>
    let (bs, rest) := takeAssignments rest
    ((k.path, k.last, v) :: bs, rest)
  | rest => ([], rest)

/-- The statements from a header on are carried out, in at most `n` tables. -/
def addSections : (n : Nat) → List Statement → Table → Option Table
  | _, [], t => some t
  | 0, _, _ => none
  | n + 1, s :: rest, t =>
    let (bs, rest) := takeAssignments rest
    let body (u : Table) := u.assignAll bs
    match s with
    | .header k => (t.addSection k.path k.last body).bind (addSections n rest)
    | .rowHeader k => (t.addRow k.path k.last body).bind (addSections n rest)
    | .assign .. => none

/-- The entries of a document of these statements. -/
def ofStatements? (ss : List Statement) : Option Entries :=
  let (bs, rest) := takeAssignments ss
  match (Table.empty .header).assignAll bs with
  | none => none
  | some t => (addSections rest.length rest t).map fun t => sealEntries t.entries

/-- The entries of a document, in order; `none` if the text is no document. -/
def read? (text : String) : Option Entries := (statements? text.toList).bind ofStatements?

end LockFree.Toml
