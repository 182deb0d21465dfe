/-
# Regions and cells

A region is a span of addresses onto which bytes of a backing (a buffer or a
file) are mapped. Several regions may show the same backing: a window shows
part of what another region shows, and each mapping of a file shows the whole
file. A cell is eight bytes of a region; `Region.cell` finds it at an offset
after checking that it lies inside, that its address is a multiple of eight
and that this address is not zero. Addresses wrap, offsets do not.
-/
import LockFree.Counters.Settings

namespace LockFree.Counters

/-- A span of addresses over part of a backing. -/
structure Region where
  /-- Address of the first byte. -/
  base : UInt64
  /-- Number of bytes. -/
  capacity : UInt64
  /-- Which backing the bytes belong to. -/
  backing : Nat
  /-- Where the first byte stands in the backing. -/
  start : Nat
  deriving DecidableEq, Repr

/-- Eight bytes: their address, and where they stand in a backing. -/
structure Cell where
  address : UInt64
  backing : Nat
  offset : Nat
  deriving DecidableEq, Repr

namespace Region

/-- Whether `length` bytes at `offset` lie inside. -/
def boundsCheck (r : Region) (offset length : UInt64) : Except Error Unit :=
  match Word.checkedAdd? offset length with
  | some last =>
    if last ≤ r.capacity then .ok () else .error (.outOfBounds offset length r.capacity)
  | none => .error (.outOfBounds offset length r.capacity)

/-- The address at an offset. -/
def addressAt (r : Region) (offset : UInt64) : UInt64 := r.base + offset

/-- The cell at an offset. Bounds are checked first, then alignment, then that
the address is not null. -/
def cell (r : Region) (offset : UInt64) : Except Error Cell :=
  match r.boundsCheck offset valueLength with
  | .error e => .error e
  | .ok () =>
    if r.addressAt offset % valueAlignment ≠ 0 then
      .error (.misaligned offset valueAlignment)
    else if r.addressAt offset = 0 then .error (.invalidArgument .nullBase)
    else .ok ⟨r.addressAt offset, r.backing, r.start + offset.toNat⟩

/-- The cell of a slot. -/
def slotCell (r : Region) (id : SlotId) : Except Error Cell :=
  match slotOffset? id with
  | none => .error (.invalidArgument (.noSlotOffset id))
  | some offset => r.cell offset

/-- The part of a region that begins `skew` bytes into it. -/
def window (r : Region) (skew capacity : UInt64) : Region :=
  ⟨r.base + skew, capacity, r.backing, r.start + skew.toNat⟩

/-- A span of addresses of which only the place is asked. -/
def ofSpan (base capacity : UInt64) : Region := ⟨base, capacity, 0, 0⟩

end Region
end LockFree.Counters
