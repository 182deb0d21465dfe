/-
# What can go wrong with counters

An `Error` is a cause: which check refused, and with which numbers. Its
message is made in one place, `Error.message`. A check that other code may
phrase freely has a cause `other` that carries the phrase.
-/
import LockFree.Decimal.Digits
import LockFree.Text.Format

namespace LockFree.Counters

open Decimal (natText intText)

/-- The number by which a counter slot is addressed. -/
abbrev SlotId := Int32

/-- Where a slot stands in its life. -/
inductive SlotState
  /-- Never handed out. -/
  | unused
  /-- Handed out and not yet freed. -/
  | allocated
  /-- Freed and waiting to be handed out again. -/
  | reclaimed
  deriving DecidableEq, Repr

/-- The name of a state. -/
def SlotState.name : SlotState → String
  | .unused => "Unused"
  | .allocated => "Allocated"
  | .reclaimed => "Reclaimed"

/-- Why an argument was refused. -/
inductive ArgumentFault
  /-- The cell would lie at address zero. -/
  | nullBase
  /-- A negative id given where a slot's place is computed. -/
  | noSlotOffset (id : SlotId)
  /-- A negative id given to a manager. -/
  | negativeId (id : SlotId)
  /-- Only an allocated slot can have an owner. -/
  | notAllocated (id : SlotId) (state : SlotState)
  /-- An allocation has at most one owner. -/
  | alreadyOwned (id : SlotId)
  | emptyBuffer
  /-- The buffer, rounded up to whole cache lines, is beyond the largest
  signed length. -/
  | oversizedBuffer (bytes : UInt64)
  | emptyMapping
  | emptyFile (path : String)
  | other (text : String)
  deriving DecidableEq, Repr

/-- The words for a refused argument. -/
def ArgumentFault.text : ArgumentFault → String
  | .nullBase => "region has a null base address"
  | .noSlotOffset id => "counter id " ++ intText id.toInt ++ " has no slot offset"
  | .negativeId id => "counter id " ++ intText id.toInt ++ " is negative"
  | .notAllocated id state =>
    "counter " ++ intText id.toInt ++ " is " ++ state.name ++ ", not allocated"
  | .alreadyOwned id => "counter " ++ intText id.toInt ++ " already has an owning position"
  | .emptyBuffer => "buffer capacity must be non-zero"
  | .oversizedBuffer n =>
    "buffer of " ++ natText n.toNat ++
      " bytes: invalid parameters to Layout::from_size_align"
  | .emptyMapping => "mapped region length must be non-zero"
  | .emptyFile path => path ++ " is empty"
  | .other text => text

/-- Why settings were refused. -/
inductive SettingsFault
  | noCounters
  /-- More slots than there are ids. -/
  | beyondIds (maxCounters : UInt64)
  /-- More slots than a word can count the bytes of. -/
  | beyondWords (maxCounters : UInt64)
  | other (text : String)
  deriving DecidableEq, Repr

/-- The words for refused settings. -/
def SettingsFault.text : SettingsFault → String
  | .noCounters => "max_counters must be at least 1"
  | .beyondIds n => "max_counters " ++ natText n.toNat ++ " exceeds the counter id range"
  | .beyondWords n => "max_counters " ++ natText n.toNat ++ " overflows the region size"
  | .other text => text

/-- Why the operating system refused. -/
inductive SystemFault
  | notFound
  | notDirectory
  | isDirectory
  | outOfMemory
  /-- A name on the path, or the path itself. -/
  | nameTooLong
  | nulInPath
  | lengthTooLarge
  | invalidUtf8
  | other (text : String)
  deriving DecidableEq, Repr

/-- The words for a refusal by the operating system. -/
def SystemFault.text : SystemFault → String
  | .notFound => "No such file or directory (os error 2)"
  | .notDirectory => "Not a directory (os error 20)"
  | .isDirectory => "Is a directory (os error 21)"
  | .outOfMemory => "Cannot allocate memory (os error 12)"
  | .nameTooLong => "File name too long (os error 36)"
  | .nulInPath => "file name contained an unexpected NUL byte"
  | .lengthTooLarge => "number too large to fit in target type"
  | .invalidUtf8 => "stream did not contain valid UTF-8"
  | .other text => text

/-- What can go wrong when a region is made or a slot is placed in it. -/
inductive Error
  | invalidArgument (fault : ArgumentFault)
  /-- `length` bytes at `offset` do not fit into `capacity` bytes. -/
  | outOfBounds (offset length capacity : UInt64)
  /-- The address at `offset` is not a multiple of `alignment`. -/
  | misaligned (offset alignment : UInt64)
  /-- Every slot is allocated or still in quarantine. -/
  | capacityExhausted (capacity : UInt64)
  | invalidSettings (fault : SettingsFault)
  | system (fault : SystemFault)
  deriving DecidableEq, Repr

namespace Error

/-- The message of an error. -/
def message : Error → String
  | invalidArgument fault => "invalid argument: " ++ fault.text
  | outOfBounds offset length capacity =>
    "out of bounds: offset " ++ natText offset.toNat ++ " + length " ++ natText length.toNat ++
      " exceeds capacity " ++ natText capacity.toNat
  | misaligned offset alignment =>
    "misaligned access: offset " ++ natText offset.toNat ++ " is not " ++
      natText alignment.toNat ++ "-byte aligned"
  | capacityExhausted capacity =>
    "no counter slot available: capacity " ++ natText capacity.toNat
  | invalidSettings fault => "invalid configuration: " ++ fault.text
  | system fault => "i/o error: " ++ fault.text

/-- The kind of an error, as a word. -/
def kind : Error → String
  | invalidArgument _ => "InvalidArgument"
  | outOfBounds .. => "OutOfBounds"
  | misaligned .. => "Misaligned"
  | capacityExhausted _ => "CapacityExhausted"
  | invalidSettings _ => "InvalidConfig"
  | system _ => "Io"

/-- The error as a record; one that comes from the operating system has no
form of its own. -/
def record? (e : Error) : Option String :=
  let fields (fs : List (String × UInt64)) : Option String :=
    some (Text.Record.line ⟨e.kind, fs.map fun f => (f.1, natText f.2.toNat)⟩)
  let phrase (text : String) : Option String := some (e.kind ++ "(" ++ Text.quoted text ++ ")")
  match e with
  | invalidArgument fault => phrase fault.text
  | outOfBounds offset length capacity =>
    fields [("offset", offset), ("length", length), ("capacity", capacity)]
  | misaligned offset alignment => fields [("offset", offset), ("alignment", alignment)]
  | capacityExhausted capacity => fields [("capacity", capacity)]
  | invalidSettings fault => phrase fault.text
  | system _ => none

/-- The words of the error below this one, if there is one. -/
def source? : Error → Option String
  | system fault => some fault.text
  | _ => none

end Error
end LockFree.Counters
