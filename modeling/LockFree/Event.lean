/-
# Events and names

What the library reports while it works: slots handed out and given back,
positions closed, files mapped, queues dropped with elements in them. An event
has a level, a message and named fields.

Whoever works with the library keeps its objects under names. Binding a name
again replaces its value.
-/
import LockFree.Counters.Error

namespace LockFree

/-! ### Events -/

open Counters (SlotId SlotState)

/-- How much an event matters. -/
inductive Level
  | trace | debug | warn
  deriving DecidableEq, Repr

/-- The name of a level. -/
def Level.name : Level → String
  | .trace => "TRACE"
  | .debug => "DEBUG"
  | .warn => "WARN"

/-- What happened. -/
inductive Event
  | managerReady (maxCounters capacity : UInt64)
  | allocated (id : SlotId) (label : String)
  | freed (id : SlotId)
  /-- A free of an id that the manager does not have. -/
  | freeOutside (id : SlotId)
  /-- A free of a slot that is not allocated. -/
  | freeUnallocated (id : SlotId) (state : SlotState)
  | positionClosed (id : SlotId)
  | regionCreated (path : String) (length : UInt64)
  | regionOpened (path : String) (length : UInt64)
  /-- The last handle of a queue went while elements were left in it. -/
  | queueDropped (undrained : Nat)
  deriving DecidableEq, Repr

/-- The value of a field of an event. -/
inductive Event.Field
  | number (n : Int)
  | text (s : String)
  deriving DecidableEq, Repr

namespace Event

/-- How much the event matters. -/
def level : Event → Level
  | managerReady .. | allocated .. | freed _ | regionCreated .. | regionOpened .. => .debug
  | freeOutside _ | freeUnallocated .. => .warn
  | positionClosed _ | queueDropped _ => .trace

/-- The event in words. -/
def message : Event → String
  | managerReady .. => "counters manager ready"
  | allocated .. => "allocated counter"
  | freed _ => "freed counter"
  | freeOutside _ => "ignoring free of counter outside the region"
  | freeUnallocated .. => "ignoring free of unallocated counter"
  | positionClosed _ => "closed position"
  | regionCreated .. => "created mapped counters region"
  | regionOpened .. => "opened mapped counters region"
  | queueDropped _ => "dropping queue with undrained elements"

/-- The fields of the event. -/
def fields : Event → List (String × Field)
  | managerReady maxCounters capacity =>
    [("max_counters", .number maxCounters.toNat), ("capacity", .number capacity.toNat)]
  | allocated id label => [("counter_id", .number id.toInt), ("label", .text label)]
  | freed id | freeOutside id | positionClosed id => [("counter_id", .number id.toInt)]
  | freeUnallocated id state => [("counter_id", .number id.toInt), ("state", .text state.name)]
  | regionCreated path length | regionOpened path length =>
    [("path", .text path), ("len", .number length.toNat)]
  | queueDropped undrained => [("undrained", .number undrained)]

end Event

/-! ### Names -/

/-- Values under names, each name at most once. -/
structure Names (α : Type) where
  entries : List (String × α) := []

namespace Names

variable {α : Type}

/-- The value under a name. -/
def find? (ns : Names α) (name : String) : Option α := ns.entries.lookup name

/-- The names without one of them. -/
def erase (ns : Names α) (name : String) : Names α :=
  ⟨ns.entries.filter fun e => e.1 ≠ name⟩

/-- The names with a value bound to one of them. -/
def bind (ns : Names α) (name : String) (a : α) : Names α :=
  ⟨(name, a) :: (ns.erase name).entries⟩

end Names

end LockFree
