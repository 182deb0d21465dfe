/-
# Memory

The bytes that regions show. Bytes belong to backings: a buffer has one of its
own, and so has every file. A 64-bit value takes eight bytes, the least
significant first. `Memory.store` changes the eight bytes of one cell and
nothing else, and `Memory.load` reads them back.
-/
import LockFree.Counters.Region

namespace LockFree.Counters

/-- Byte `i` of a value, counted from the least significant. -/
def valueByte (v : Int64) (i : Nat) : UInt8 := UInt8.ofNat (v.toUInt64.toNat / Nat.pow 256 i % 256)

/-- The value of eight bytes. -/
def valueOfBytes (byte : Nat → UInt8) : Int64 :=
  (UInt64.ofNat ((List.range 8).foldr (fun i n => n * 256 + (byte i).toNat) 0)).toInt64

/-- Bytes that regions may share. -/
structure Backing where
  /-- How many bytes there are. -/
  size : Nat
  /-- Every byte; the ones from `size` on read as zero until someone writes
  them. -/
  byte : Nat → UInt8

namespace Backing

/-- Zeros. -/
def zeros (size : Nat) : Backing := ⟨size, fun _ => 0⟩

/-- The given bytes. -/
def ofList (bytes : List UInt8) : Backing :=
  let table := bytes.toArray
  ⟨table.size, fun i => table.getD i 0⟩

/-- The value at an offset. -/
def load (b : Backing) (offset : Nat) : Int64 := valueOfBytes fun i => b.byte (offset + i)

/-- The backing after a value is written at an offset. -/
def store (b : Backing) (offset : Nat) (v : Int64) : Backing :=
  { b with byte := fun i =>
      if offset ≤ i ∧ i < offset + 8 then valueByte v (i - offset) else b.byte i }

/-- The backing with bytes added at its end. -/
def append (b : Backing) (bytes : List UInt8) : Backing :=
  let table := bytes.toArray
  ⟨b.size + table.size, fun i =>
    if b.size ≤ i ∧ i < b.size + table.size then table.getD (i - b.size) 0 else b.byte i⟩

/-- The values other than zero at multiples of eight, with their offsets; the
bytes at the end that make no whole value are left out. -/
def nonzeroWords (b : Backing) : List (Nat × Int64) :=
  (List.range (b.size / 8)).filterMap fun k =>
    let v := b.load (8 * k)
    if v = 0 then none else some (8 * k, v)

end Backing

/-- All backings, and how far the address space has been given out. -/
structure Memory where
  backings : List Backing := []
  /-- No region reaches beyond this address. -/
  frontier : Nat := 4096

namespace Memory

/-- A region begins at a multiple of this. -/
def pageSize : Nat := 4096

/-- Addresses from here on are not given out. -/
def addressLimit : Nat := Nat.pow 2 47

/-- The base of a span of addresses that overlaps no earlier one. It is a
multiple of the page size and not zero. -/
def reserve? (m : Memory) (capacity : Nat) : Option (UInt64 × Memory) :=
  if m.frontier + capacity ≤ addressLimit then
    some (UInt64.ofNat m.frontier,
      { m with frontier := (m.frontier + capacity + pageSize) / pageSize * pageSize })
  else none

/-- The memory with a further backing, and that backing's number. -/
def add (m : Memory) (b : Backing) : Nat × Memory :=
  (m.backings.length, { m with backings := m.backings ++ [b] })

/-- The memory with one backing put in another's place. -/
def replace (m : Memory) (k : Nat) (b : Backing) : Memory :=
  { m with backings := m.backings.set k b }

/-- A byte; where there is none, zero. -/
def byte (m : Memory) (k i : Nat) : UInt8 :=
  match m.backings[k]? with
  | some b => b.byte i
  | none => 0

/-- The value of a cell. -/
def load (m : Memory) (c : Cell) : Int64 := valueOfBytes fun i => m.byte c.backing (c.offset + i)

/-- The memory after a value is written to a cell. -/
def store (m : Memory) (c : Cell) (v : Int64) : Memory :=
  { m with backings := m.backings.modify c.backing fun b => b.store c.offset v }

end Memory
end LockFree.Counters
