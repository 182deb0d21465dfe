/-
# Positions

A position is a handle on one cell. It may carry a reclaimer, to which it gives
its slot back when it is closed: a position that carries one owns its slot. A
closed position stays closed, owns nothing, and reads as `closedValue`
whatever its cell holds.

Each access belongs to a tier, which says how it is ordered with the other
accesses of its thread. Every access is one step on one cell, so the tiers
agree on the value that is read or written.
-/
import LockFree.Counters.Memory

namespace LockFree.Counters

open Decimal (intText)
open Text (flag)

/-- What a closed position reads as. -/
def closedValue : Int64 := -1

/-- The tiers of a read. -/
inductive ReadTier
  | plain | opaqueRead | acquire | volatile
  deriving DecidableEq, Repr

/-- The tiers of a write; `ordered` is another name of `release`. -/
inductive WriteTier
  | plain | opaqueWrite | release | ordered | volatile
  deriving DecidableEq, Repr

/-- The tiers of a proposal; `ordered` is another name of `release`. -/
inductive ProposalTier
  | plain | opaqueWrite | release | ordered
  deriving DecidableEq, Repr

/-- Whom a position gives its slot back to. -/
inductive Reclaimer
  | manager (m : Nat)
  /-- One that only notes the ids it is given. -/
  | recorder (k : Nat)
  deriving DecidableEq, Repr

/-- A handle on the cell of a slot. -/
structure Position where
  id : SlotId
  cell : Cell
  reclaimer : Option Reclaimer
  closed : Bool
  deriving DecidableEq, Repr

/-- Use of a closed position as if it were open. -/
inductive Misuse
  | write (id : SlotId)
  | proposal (id : SlotId)
  deriving DecidableEq, Repr

/-- The message of a misuse. -/
def Misuse.message : Misuse → String
  | write id => "write to closed counter " ++ intText id.toInt
  | proposal id => "propose on closed counter " ++ intText id.toInt

/-- A cell's value after a proposal, and whether it moved: it moves only up. -/
def proposeMax (current proposed : Int64) : Int64 × Bool :=
  if current < proposed then (proposed, true) else (current, false)

/-- Proposals one after another: what each one answered and the value after
it. -/
def proposeTrace (start : Int64) : List Int64 → List (Bool × Int64)
  | [] => []
  | v :: vs =>
    let (value, moved) := proposeMax start v
    (moved, value) :: proposeTrace value vs

namespace Position

/-- An open position on a cell. -/
def onCell (id : SlotId) (cell : Cell) (reclaimer : Option Reclaimer) : Position :=
  ⟨id, cell, reclaimer, false⟩

/-- A position over a slot of a region. -/
def make (region : Region) (id : SlotId) (reclaimer : Option Reclaimer) : Except Error Position :=
  match region.slotCell id with
  | .error e => .error e
  | .ok c => .ok (onCell id c reclaimer)

/-- Whether closing the position gives a slot back. -/
def owns (p : Position) : Bool := p.reclaimer.isSome

/-- The value that the position reads. -/
def read (p : Position) (m : Memory) (_ : ReadTier) : Int64 :=
  if p.closed then closedValue else m.load p.cell

/-- The memory after a value is written through the position. -/
def write (p : Position) (m : Memory) (_ : WriteTier) (v : Int64) : Except Misuse Memory :=
  if p.closed then .error (.write p.id) else .ok (m.store p.cell v)

/-- The memory after a value is proposed through the position, and whether it
was taken. Memory is written only then. -/
def propose (p : Position) (m : Memory) (_ : ProposalTier) (v : Int64) :
    Except Misuse (Bool × Memory) :=
  if p.closed then .error (.proposal p.id)
  else
    match proposeMax (m.load p.cell) v with
    | (value, true) => .ok (true, m.store p.cell value)
    | (_, false) => .ok (false, m)

/-- The position as closed. -/
def close (p : Position) : Position := { p with closed := true, reclaimer := none }

/-- The position in words. -/
def display (p : Position) (m : Memory) : String :=
  Text.Record.line ⟨"CounterPosition",
    [("closed", flag p.closed), ("counter_id", intText p.id.toInt),
      ("value", intText (p.read m .volatile).toInt)]⟩

/-- The position as a record. -/
def record (p : Position) (m : Memory) : Text.Record :=
  ⟨"CounterPosition",
    [("counter_id", intText p.id.toInt), ("closed", flag p.closed), ("owns_counter", flag p.owns),
      ("value", intText (p.read m .volatile).toInt)]⟩

end Position
end LockFree.Counters
