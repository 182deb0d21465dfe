/-
# Tables under construction

While a document is read its tables grow, and how a table came about decides
what may still be added to it. A table with a header, or written in braces, is
complete; one that exists only because a longer header or a dotted key passed
through it is open. Two rules govern every addition: a key is given a value at
most once, and keys with dots add only to tables that dotted keys made.
-/
import LockFree.Toml.Value

namespace LockFree.Toml

/-- How a table came about. -/
inductive Origin
  /-- By a header of its own, or in braces, or as the whole document. -/
  | header
  /-- Because a longer header passed through it. -/
  | passing
  /-- Because a dotted key passed through it. -/
  | dotted
  deriving DecidableEq, Repr

/-- What stands under a key. -/
inductive Item
  | value (v : Value)
  | table (origin : Origin) (entries : List (String × Item))
  /-- The tables of a header in double brackets, in order. -/
  | rows (tables : List (List (String × Item)))
  deriving Repr

/-- A table: how it came about, and its entries in order. -/
structure Table where
  origin : Origin
  entries : List (String × Item)
  deriving Repr

mutual

/-- The value of what stands under a key, once the document is complete. -/
def Item.seal : Item → Value
  | .value v => v
  | .table _ entries => .table (sealEntries entries)
  | .rows tables => .array (sealRows tables)

/-- The entries of a table, once the document is complete. -/
def sealEntries : List (String × Item) → List (String × Value)
  | [] => []
  | (key, item) :: rest => (key, item.seal) :: sealEntries rest

/-- The tables of a list, once the document is complete. -/
def sealRows : List (List (String × Item)) → List Value
  | [] => []
  | entries :: rest => .table (sealEntries entries) :: sealRows rest

end

namespace Table

/-- A table without entries. -/
def empty (origin : Origin) : Table := ⟨origin, []⟩

/-- What stands under a key. -/
def find? (t : Table) (key : String) : Option Item := t.entries.lookup key

/-- The table with an entry at its end. -/
def push (t : Table) (key : String) (item : Item) : Table :=
  { t with entries := t.entries ++ [(key, item)] }

/-- The table with another item under a key, at its old place. -/
def replace (t : Table) (key : String) (item : Item) : Table :=
  { t with entries := t.entries.map fun e => if e.1 = key then (key, item) else e }

/-- The table without an entry. -/
def erase (t : Table) (key : String) : Table :=
  { t with entries := t.entries.filter fun e => e.1 ≠ key }

/-- The table as an item. -/
def toItem (t : Table) : Item := .table t.origin t.entries

/-- The last element of a list replaced by what `f` makes of it. -/
def modifyLast? {β : Type} (f : β → Option β) : List β → Option (List β)
  | [] => none
  | [b] => (f b).map fun b => [b]
  | b :: c :: rest => (modifyLast? f (c :: rest)).map fun r => b :: r

/-- The table after `f` has worked on the table at the end of a path. Tables
that are missing on the way are made, of the origin `made`; of a list of tables
the last one is meant. A dotted key may not pass through a table that is
complete. -/
def descend (made : Origin) (f : Table → Option Table) : (path : List String) → Table → Option Table
  | [], t => f t
  | key :: path, t =>
    match t.find? key with
    | none => (descend made f path (empty made)).map fun u => t.push key u.toItem
    | some (.value _) => none
    | some (.rows tables) =>
      (modifyLast? (fun es => (descend made f path ⟨.header, es⟩).map Table.entries) tables).map
        fun tables => t.replace key (.rows tables)
    | some (.table origin entries) =>
      if made = .dotted ∧ origin = .header then none
      else (descend made f path ⟨origin, entries⟩).map fun u => t.replace key u.toItem

/-- A value is given to a key of this very table. `plain` says whether the key
was written without dots: only such a key adds to a table that no dotted key
made, and only such a key does. -/
def define (plain : Bool) (key : String) (v : Value) (t : Table) : Option Table :=
  if plain == (t.origin == .dotted) then none
  else
    match t.find? key with
    | some _ => none
    | none => some (t.push key (.value v))

/-- A value is given to a key that may have dots; `path` is what stands before
its last part. -/
def assign (t : Table) (path : List String) (key : String) (v : Value) : Option Table :=
  descend .dotted (define path.isEmpty key v) path t

/-- Values are given to keys one after another. -/
def assignAll (t : Table) : List (List String × String × Value) → Option Table
  | [] => some t
  | (path, key, v) :: rest => (t.assign path key v).bind fun t => t.assignAll rest

/-- The table of a header is filled by `body` and stands last among the
entries of its parent. It may exist already, if only longer headers passed
through it. -/
def addSection (path : List String) (key : String) (body : Table → Option Table) (t : Table) :
    Option Table :=
  descend .passing (fun parent =>
    match parent.find? key with
    | none => (body (empty .header)).map fun u => parent.push key u.toItem
    | some (.table .passing entries) =>
      (body ⟨.header, entries⟩).map fun u => (parent.erase key).push key u.toItem
    | some _ => none) path t

/-- The table of a header in double brackets is filled by `body` and joins the
list of its name. -/
def addRow (path : List String) (key : String) (body : Table → Option Table) (t : Table) :
    Option Table :=
  descend .passing (fun parent =>
    match parent.find? key with
    | none => (body (empty .header)).map fun u => parent.push key (.rows [u.entries])
    | some (.rows tables) =>
      (body (empty .header)).map fun u => parent.replace key (.rows (tables ++ [u.entries]))
    | some _ => none) path t

end Table
end LockFree.Toml
