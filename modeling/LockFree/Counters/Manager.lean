/-
# Managers

A manager hands out the slots at the start of a region. It is made only over a
region that holds all of them; since a slot is a whole number of alignments
long, looking at the first slot's cell covers the others. A manager does not
write memory itself: `Manager.allocate` answers with the cell that is to be set
to zero.
-/
import LockFree.Counters.Region
import LockFree.Counters.Registry

namespace LockFree.Counters

open Decimal (natText)

/-- Who hands out the slots of a region. -/
structure Manager where
  region : Region
  maxCounters : UInt64
  quarantine : Duration
  registry : Registry
  deriving DecidableEq, Repr

/-- What became of a free. -/
inductive FreeOutcome
  | freed
  /-- The manager has no such slot. -/
  | outside
  /-- The slot is not allocated. -/
  | unallocated (state : SlotState)
  deriving DecidableEq, Repr

namespace Manager

/-- A manager of the slots that the settings ask for, at the start of a region.
The settings are checked first, then that the region holds every slot, then the
first slot's cell. -/
def make (region : Region) (settings : Settings) : Except Error Manager :=
  match settings.check with
  | .error fault => .error (.invalidSettings fault)
  | .ok () =>
    match settings.requiredCapacity? with
    | none => .error (.invalidSettings (.other "region size overflows usize"))
    | some required =>
      match region.boundsCheck 0 required with
      | .error e => .error e
      | .ok () =>
        match region.cell 0 with
        | .error e => .error e
        | .ok _ =>
          .ok ⟨region, settings.maxCounters, settings.quarantine,
            Registry.fresh settings.maxCounters.toNat⟩

/-- The index of a slot id, if the manager has that slot. -/
def index (m : Manager) (id : SlotId) : Except Error UInt64 :=
  match slotIndex? id with
  | none => .error (.invalidArgument (.negativeId id))
  | some i =>
    if i < m.maxCounters then .ok i
    else .error (.outOfBounds (Word.saturatingMul i slotLength) valueLength
      (m.maxCounters * slotLength))

/-- The cell of a slot's value. -/
def cell (m : Manager) (id : SlotId) : Except Error Cell :=
  match m.index id with
  | .error e => .error e
  | .ok i => m.region.cell (i * slotLength)

/-- A slot is handed out under a label: its id, and the cell to be set to
zero. -/
def allocate (m : Manager) (now : Nat) (label : String) :
    Except Error (SlotId × Cell) × Manager :=
  match m.registry.next? now m.quarantine.nanoseconds with
  | none => (.error (.capacityExhausted m.maxCounters), m)
  | some (i, rest) =>
    let granted := { m with registry := rest.grant i label }
    match granted.cell (Int32.ofNat i) with
    | .error e => (.error e, granted)
    | .ok c => (.ok (Int32.ofNat i, c), granted)

/-- A slot is given back. Ids that the manager does not have and slots that are
not allocated are left alone. -/
def free (m : Manager) (now : Nat) (id : SlotId) : FreeOutcome × Manager :=
  match m.index id with
  | .error _ => (.outside, m)
  | .ok i =>
    match m.registry.slot? i.toNat with
    | none => (.outside, m)
    | some s =>
      if s.state = .allocated then
        (.freed, { m with registry := m.registry.reclaim i.toNat now })
      else (.unallocated s.state, m)

/-- The state of a slot, if the manager has it. -/
def state? (m : Manager) (id : SlotId) : Option SlotState :=
  (slotIndex? id).bind fun i => (m.registry.slot? i.toNat).map Slot.state

/-- The label of a slot, while it is allocated. -/
def label? (m : Manager) (id : SlotId) : Option String :=
  (slotIndex? id).bind fun i => (m.registry.slot? i.toNat).bind Slot.label?

/-- How many slots are allocated. -/
def allocatedCount (m : Manager) : Nat := m.registry.allocatedCount

/-- The cell of a slot for a position that is to own it, and the manager with
the slot marked as owned. The slot must be allocated and without an owner. -/
def claim (m : Manager) (id : SlotId) : Except Error (Cell × Manager) :=
  match m.index id with
  | .error e => .error e
  | .ok i =>
    match m.registry.slot? i.toNat with
    | none => .error (.invalidArgument (.notAllocated id .unused))
    | some s =>
      if s.state ≠ .allocated then .error (.invalidArgument (.notAllocated id s.state))
      else if s.owned then .error (.invalidArgument (.alreadyOwned id))
      else
        match m.region.slotCell id with
        | .error e => .error e
        | .ok c => .ok (c, { m with registry := m.registry.own i.toNat })

/-- The cell of a slot for a position that only looks. -/
def readerCell (m : Manager) (id : SlotId) : Except Error Cell :=
  match m.index id with
  | .error e => .error e
  | .ok _ => m.region.slotCell id

/-- The manager as a record. -/
def record (m : Manager) : Text.Record :=
  ⟨"CountersManager",
    [("max_counters", natText m.maxCounters.toNat),
      ("allocated", natText m.allocatedCount),
      ("reuse_timeout", m.quarantine.text)]⟩

end Manager
end LockFree.Counters
