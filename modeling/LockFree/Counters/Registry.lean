/-
# Registry of slots

Which slots are handed out, under which label, whether a position owns them,
and which freed ones wait to be handed out again. Freed slots queue in the
order in which they were freed; the one at the front is reused as soon as it
has been free for the length of the quarantine, and until then new slots are
taken from those never used, the smallest first.
-/
import LockFree.Counters.Error

namespace LockFree.Counters

/-- One slot of a registry. The label of an allocation stays in the record
after the slot is freed, where nobody is shown it. -/
structure Slot where
  state : SlotState := .unused
  label : String := ""
  /-- When the slot was freed, in nanoseconds, while it waits for reuse. -/
  freedAt : Option Nat := none
  /-- Whether a position owns the current allocation. -/
  owned : Bool := false
  deriving DecidableEq, Repr

namespace Slot

/-- The label, while the slot is allocated. -/
def label? (s : Slot) : Option String := if s.state = .allocated then some s.label else none

/-- The slot as handed out under a label, without an owner. -/
def granted (label : String) : Slot := ⟨.allocated, label, none, false⟩

/-- The slot as freed. -/
def reclaimed (s : Slot) (now : Nat) : Slot :=
  { s with state := .reclaimed, freedAt := some now, owned := false }

end Slot

/-- The slots by index, and the freed ones in the order of their frees. -/
structure Registry where
  slots : List Slot
  freeList : List Nat
  deriving DecidableEq, Repr

namespace Registry

/-- A registry of `n` slots that were never used. -/
def fresh (n : Nat) : Registry := ⟨List.replicate n {}, []⟩

/-- The slot at an index. -/
def slot? (r : Registry) (i : Nat) : Option Slot := r.slots[i]?

/-- The smallest index that was never used. -/
def firstUnused? (r : Registry) : Option Nat := r.slots.findIdx? fun s => s.state = .unused

/-- Whether slot `i` has been free for the length of the quarantine. -/
def isReady (r : Registry) (now quarantine i : Nat) : Bool :=
  match (r.slot? i).bind Slot.freedAt with
  | some t => quarantine ≤ now - t
  | none => true

/-- The index to hand out next, and the registry with that index taken off the
queue of freed slots. Only the front of the queue is looked at. -/
def next? (r : Registry) (now quarantine : Nat) : Option (Nat × Registry) :=
  match r.freeList with
  | i :: rest =>
    if r.isReady now quarantine i then some (i, { r with freeList := rest })
    else r.firstUnused?.map fun j => (j, r)
  | [] => r.firstUnused?.map fun j => (j, r)

/-- Slot `i` is handed out, without an owner. -/
def grant (r : Registry) (i : Nat) (label : String) : Registry :=
  { r with slots := r.slots.set i (.granted label) }

/-- Slot `i` is freed and joins the end of the queue. -/
def reclaim (r : Registry) (i now : Nat) : Registry :=
  ⟨r.slots.modify i (·.reclaimed now), r.freeList ++ [i]⟩

/-- Slot `i` gets an owner. -/
def own (r : Registry) (i : Nat) : Registry :=
  { r with slots := r.slots.modify i fun s => { s with owned := true } }

/-- How many slots are allocated. -/
def allocatedCount (r : Registry) : Nat := r.slots.countP fun s => s.state = .allocated

end Registry
end LockFree.Counters
