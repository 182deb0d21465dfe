/-
# The host of counters

All that managers, positions and recorders of one process share: memory, the
disk, a clock that moves only forward, and the events so far. Objects are
numbered in the order in which they were made and are never removed: a position
keeps the manager it belongs to, and a position that is dropped is one that is
closed and not used again.

`Host.step` carries out one operation. An operation may fail after it has
changed something, so the host after it is an answer of its own.
-/
import LockFree.Counters.Disk
import LockFree.Counters.Manager
import LockFree.Counters.Position
import LockFree.Event

namespace LockFree.Counters

/-- Everything that counters share. -/
structure Host where
  memory : Memory := {}
  disk : Disk := {}
  /-- Nanoseconds since the start. -/
  clock : Nat := 0
  managers : List Manager := []
  /-- The ids that each recorder was given, oldest first. -/
  recorders : List (List SlotId) := []
  positions : List Position := []
  /-- What happened so far, oldest first. -/
  events : List Event := []

/-- Why an operation has no result. -/
inductive Failure
  | error (e : Error)
  /-- A closed position was used as if it were open. -/
  | misuse (m : Misuse)
  /-- No memory is left for a buffer. -/
  | outOfMemory
  /-- The operation names an object that does not exist. -/
  | noSuch
  deriving DecidableEq, Repr

namespace Host

/-- What an operation answers. -/
inductive Result
  | done
  | region (r : Region)
  /-- The number of a new object. -/
  | made (k : Nat)
  /-- The slot that was handed out. -/
  | slot (id : SlotId)
  /-- Whether a proposal was taken. -/
  | moved (b : Bool)
  deriving DecidableEq, Repr

/-- An operation's answer, and the host after it. -/
abbrev Outcome := Except Failure Result × Host

/-- The operation fails with an error and has changed nothing. -/
def fail (h : Host) (e : Error) : Outcome := (.error (.error e), h)

/-- The host with one more event. -/
def emit (h : Host) (e : Event) : Host := { h with events := h.events ++ [e] }

/-! ### Regions -/

/-- The longest buffer: the largest signed length, less what rounding up to
whole cache lines may add. -/
def maxBufferLength : Nat := Nat.pow 2 63 - 64

/-- The length of a buffer, if one of that length can be asked for. -/
def bufferLength (capacity : UInt64) : Except Error UInt64 :=
  if capacity = 0 then .error (.invalidArgument .emptyBuffer)
  else if maxBufferLength < capacity.toNat then
    .error (.invalidArgument (.oversizedBuffer capacity))
  else .ok capacity

/-- The buffer as a record. -/
def bufferRecord (capacity : UInt64) : Text.Record :=
  ⟨"AlignedBuffer", [("capacity", Decimal.natText capacity.toNat)]⟩

/-- A buffer of zeros. -/
def makeBuffer (h : Host) (capacity : UInt64) : Outcome :=
  match bufferLength capacity with
  | .error e => h.fail e
  | .ok length =>
    match h.memory.reserve? length.toNat with
    | none => (.error .outOfMemory, h)
    | some (base, memory) =>
      let (k, memory) := memory.add (.zeros length.toNat)
      (.ok (.region ⟨base, length, k, 0⟩), { h with memory := memory })

/-- A mapping of the whole of backing `k`. -/
def mapBacking (h : Host) (k length : Nat) (event : Event) : Outcome :=
  match h.memory.reserve? length with
  | none => h.fail (.system .outOfMemory)
  | some (base, memory) =>
    (.ok (.region ⟨base, UInt64.ofNat length, k, 0⟩), { h with memory := memory }.emit event)

/-- The file at a path, emptied, or a new empty file; its number. -/
def emptyFile (h : Host) (path : String) : Except SystemFault (Nat × Host) :=
  match h.disk.findToWrite path with
  | .error fault => .error fault
  | .ok (.directory _) => .error .isDirectory
  | .ok (.file _ k) => .ok (k, { h with memory := h.memory.replace k (.zeros 0) })
  | .ok (.vacant l) =>
    let (k, memory) := h.memory.add (.zeros 0)
    .ok (k, { h with memory := memory, disk := h.disk.put l (.file k) })

/-- The file at a path is made to hold `length` zeros and is mapped. The length
is looked at before the path, but a length that no file can have only after the
file was emptied. -/
def createMapping (h : Host) (path : String) (length : UInt64) : Outcome :=
  if length = 0 then h.fail (.invalidArgument .emptyMapping)
  else
    match h.emptyFile path with
    | .error fault => h.fail (.system fault)
    | .ok (k, h) =>
      if Nat.pow 2 63 ≤ length.toNat then h.fail (.system .lengthTooLarge)
      else
        mapBacking { h with memory := h.memory.replace k (.zeros length.toNat) } k length.toNat
          (.regionCreated path length)

/-- The file at a path is mapped as it is. -/
def openMapping (h : Host) (path : String) : Outcome :=
  match h.disk.find path with
  | .error fault => h.fail (.system fault)
  | .ok (.directory _) => h.fail (.system .isDirectory)
  | .ok (.vacant _) => h.fail (.system .notFound)
  | .ok (.file _ k) =>
    match h.memory.backings[k]? with
    | none => h.fail (.system .notFound)
    | some b =>
      if b.size = 0 then h.fail (.invalidArgument (.emptyFile path))
      else h.mapBacking k b.size (.regionOpened path (UInt64.ofNat b.size))

/-- The mapping of a file as a record. -/
def mappingRecord (path : String) (length : UInt64) : Text.Record :=
  ⟨"MappedRegion", [("path", Text.quoted path), ("len", Decimal.natText length.toNat)]⟩

/-! ### Files -/

/-- The file at a path is given new bytes. -/
def writeFile (h : Host) (path : String) (bytes : List UInt8) : Outcome :=
  match h.emptyFile path with
  | .error fault => h.fail (.system fault)
  | .ok (k, h) => (.ok .done, { h with memory := h.memory.replace k (.ofList bytes) })

/-- Bytes are added at the end of the file at a path. -/
def appendFile (h : Host) (path : String) (bytes : List UInt8) : Outcome :=
  match h.disk.file? path with
  | some k =>
    let memory := { h.memory with backings := h.memory.backings.modify k (·.append bytes) }
    (.ok .done, { h with memory := memory })
  | none => h.writeFile path bytes

/-- The file at a path is removed; its mappings keep its bytes. -/
def removeFile (h : Host) (path : String) : Outcome :=
  match h.disk.find path with
  | .error fault => h.fail (.system fault)
  | .ok (.directory _) => h.fail (.system .isDirectory)
  | .ok (.vacant _) => h.fail (.system .notFound)
  | .ok (.file l _) => (.ok .done, { h with disk := h.disk.erase l })

/-- A directory is made at a path, with those that lead to it. -/
def makeDirectory (h : Host) (path : String) : Outcome :=
  (.ok .done,
    { h with disk := h.disk.makeDirectories (Disk.origin path) (Disk.components path) })

/-- The file at a path. -/
def file? (h : Host) (path : String) : Option Backing :=
  (h.disk.file? path).bind fun k => h.memory.backings[k]?

/-! ### Managers -/

/-- A new manager of slots at the start of a region. -/
def manage (h : Host) (region : Region) (settings : Settings) : Outcome :=
  match Manager.make region settings with
  | .error e => h.fail e
  | .ok m =>
    (.ok (.made h.managers.length),
      { h with managers := h.managers ++ [m] }.emit
        (.managerReady settings.maxCounters region.capacity))

/-- Manager `k` hands out a slot, and its value is set to zero. -/
def allocate (h : Host) (k : Nat) (label : String) : Outcome :=
  match h.managers[k]? with
  | none => (.error .noSuch, h)
  | some m =>
    match m.allocate h.clock label with
    | (.error e, m) => fail { h with managers := h.managers.set k m } e
    | (.ok (id, cell), m) =>
      (.ok (.slot id),
        { h with managers := h.managers.set k m, memory := h.memory.store cell 0 }.emit
          (.allocated id label))

/-- Manager `k` takes a slot back, or says why it does not. -/
def release (h : Host) (k : Nat) (id : SlotId) : Host :=
  match h.managers[k]? with
  | none => h
  | some m =>
    match m.free h.clock id with
    | (.freed, m) => { h with managers := h.managers.set k m }.emit (.freed id)
    | (.outside, _) => h.emit (.freeOutside id)
    | (.unallocated state, _) => h.emit (.freeUnallocated id state)

/-- Manager `k` is asked to take a slot back. -/
def free (h : Host) (k : Nat) (id : SlotId) : Outcome :=
  if k < h.managers.length then (.ok .done, h.release k id) else (.error .noSuch, h)

/-! ### Positions -/

/-- The host with one more position. -/
def addPosition (h : Host) (p : Position) : Outcome :=
  (.ok (.made h.positions.length), { h with positions := h.positions ++ [p] })

/-- A position that owns its slot: closing it gives the slot back. -/
def own (h : Host) (k : Nat) (id : SlotId) : Outcome :=
  match h.managers[k]? with
  | none => (.error .noSuch, h)
  | some m =>
    match m.claim id with
    | .error e => h.fail e
    | .ok (cell, m) =>
      addPosition { h with managers := h.managers.set k m } (.onCell id cell (some (.manager k)))

/-- A position that leaves its slot alone. -/
def watch (h : Host) (k : Nat) (id : SlotId) : Outcome :=
  match h.managers[k]? with
  | none => (.error .noSuch, h)
  | some m =>
    match m.readerCell id with
    | .error e => h.fail e
    | .ok cell => h.addPosition (.onCell id cell none)

/-- A position over a slot of a region, without asking any manager. -/
def place (h : Host) (region : Region) (id : SlotId) (reclaimer : Option Reclaimer) : Outcome :=
  match Position.make region id reclaimer with
  | .error e => h.fail e
  | .ok p => h.addPosition p

/-- A reclaimer is given a slot. -/
def giveBack (h : Host) (r : Reclaimer) (id : SlotId) : Host :=
  match r with
  | .manager k => h.release k id
  | .recorder k => { h with recorders := h.recorders.modify k (· ++ [id]) }

/-- Position `k` is closed. The first time, its reclaimer is given the slot;
later closes do nothing. -/
def shut (h : Host) (k : Nat) : Host :=
  match h.positions[k]? with
  | none => h
  | some p =>
    if p.closed then h
    else
      let marked := { h with positions := h.positions.set k p.close }
      let returned := match p.reclaimer with
        | some r => marked.giveBack r p.id
        | none => marked
      returned.emit (.positionClosed p.id)

/-- Position `k` is asked to close. -/
def close (h : Host) (k : Nat) : Outcome :=
  if k < h.positions.length then (.ok .done, h.shut k) else (.error .noSuch, h)

/-- The value that position `k` reads. -/
def read? (h : Host) (k : Nat) (tier : ReadTier) : Option Int64 :=
  h.positions[k]?.map fun p => p.read h.memory tier

/-- A value is written through position `k`. -/
def write (h : Host) (k : Nat) (tier : WriteTier) (v : Int64) : Outcome :=
  match h.positions[k]? with
  | none => (.error .noSuch, h)
  | some p =>
    match p.write h.memory tier v with
    | .error m => (.error (.misuse m), h)
    | .ok memory => (.ok .done, { h with memory := memory })

/-- A value is proposed through position `k`. -/
def propose (h : Host) (k : Nat) (tier : ProposalTier) (v : Int64) : Outcome :=
  match h.positions[k]? with
  | none => (.error .noSuch, h)
  | some p =>
    match p.propose h.memory tier v with
    | .error m => (.error (.misuse m), h)
    | .ok (moved, memory) => (.ok (.moved moved), { h with memory := memory })

/-- The value of a slot of manager `k`. -/
def slotValue (h : Host) (k : Nat) (id : SlotId) : Except Failure Int64 :=
  match h.managers[k]? with
  | none => .error .noSuch
  | some m =>
    match m.cell id with
    | .error e => .error (.error e)
    | .ok c => .ok (h.memory.load c)

/-! ### Operations -/

/-- What can be done to a host. -/
inductive Op
  | makeBuffer (capacity : UInt64)
  | createMapping (path : String) (length : UInt64)
  | openMapping (path : String)
  | writeFile (path : String) (bytes : List UInt8)
  | appendFile (path : String) (bytes : List UInt8)
  | removeFile (path : String)
  | makeDirectory (path : String)
  /-- Time passes. -/
  | wait (nanoseconds : Nat)
  | addRecorder
  | manage (region : Region) (settings : Settings)
  | allocate (manager : Nat) (label : String)
  | free (manager : Nat) (id : SlotId)
  | own (manager : Nat) (id : SlotId)
  | watch (manager : Nat) (id : SlotId)
  | place (region : Region) (id : SlotId) (reclaimer : Option Reclaimer)
  | write (position : Nat) (tier : WriteTier) (v : Int64)
  | propose (position : Nat) (tier : ProposalTier) (v : Int64)
  | close (position : Nat)
  deriving DecidableEq, Repr

/-- One operation. -/
def step (h : Host) : Op → Outcome
  | .makeBuffer capacity => h.makeBuffer capacity
  | .createMapping path length => h.createMapping path length
  | .openMapping path => h.openMapping path
  | .writeFile path bytes => h.writeFile path bytes
  | .appendFile path bytes => h.appendFile path bytes
  | .removeFile path => h.removeFile path
  | .makeDirectory path => h.makeDirectory path
  | .wait n => (.ok .done, { h with clock := h.clock + n })
  | .addRecorder => (.ok (.made h.recorders.length), { h with recorders := h.recorders ++ [[]] })
  | .manage region settings => h.manage region settings
  | .allocate k label => h.allocate k label
  | .free k id => h.free k id
  | .own k id => h.own k id
  | .watch k id => h.watch k id
  | .place region id reclaimer => h.place region id reclaimer
  | .write k tier v => h.write k tier v
  | .propose k tier v => h.propose k tier v
  | .close k => h.close k

/-- The host after operations one after another. -/
def run (h : Host) (ops : List Op) : Host := ops.foldl (fun h op => (h.step op).2) h

end Host
end LockFree.Counters
