/-
# Settings of a counters region

How many slots a region has, and how long a freed slot stays in quarantine so
that a reader that lags does not mistake a new counter for its own.
`Settings.check` says which settings a manager accepts.

Lengths, offsets and addresses are 64-bit words. Plain `+` and `*` on them
wrap, which is what addresses do; a length that must not wrap goes through the
checked forms of `Word`, which answer `none`, or through `saturatingMul`, which
stays at the largest word.
-/
import LockFree.Counters.Error

namespace LockFree

/-! ### Arithmetic on words -/

namespace Word

/-- The sum, if it fits in a word. -/
def checkedAdd? (a b : UInt64) : Option UInt64 :=
  if a.toNat + b.toNat < UInt64.size then some (a + b) else none

/-- The product, if it fits in a word. -/
def checkedMul? (a b : UInt64) : Option UInt64 :=
  if a.toNat * b.toNat < UInt64.size then some (a * b) else none

/-- The product, or the largest word if it does not fit. -/
def saturatingMul (a b : UInt64) : UInt64 :=
  if a.toNat * b.toNat < UInt64.size then a * b else UInt64.ofNat (UInt64.size - 1)

theorem checkedAdd?_eq_some_iff {a b c : UInt64} :
    checkedAdd? a b = some c ↔ a.toNat + b.toNat = c.toNat := by
  unfold checkedAdd?
  have hc := c.toNat_lt_size
  split
  · rename_i hlt
    rw [Option.some.injEq, ← UInt64.toNat_inj, UInt64.toNat_add, Nat.mod_eq_of_lt hlt]
  · simp
    omega

theorem checkedMul?_eq_some_iff {a b c : UInt64} :
    checkedMul? a b = some c ↔ a.toNat * b.toNat = c.toNat := by
  unfold checkedMul?
  have hc := c.toNat_lt_size
  split
  · rw [Option.some.injEq, ← UInt64.toNat_inj, UInt64.toNat_mul, Nat.mod_eq_of_lt (by assumption)]
  · simp
    omega

end Word

/-! ### Slots and settings -/

namespace Counters

open Decimal (natText)

/-- Bytes from one slot to the next: two cache lines. -/
def slotLength : UInt64 := 128

/-- Bytes of a counter's value. -/
def valueLength : UInt64 := 8

/-- The address of a counter's value is a multiple of this. -/
def valueAlignment : UInt64 := 8

/-- The largest slot id. -/
def maxSlotId : Nat := Nat.pow 2 31 - 1

/-- The place of a slot in the slots' order, if the id is one. -/
def slotIndex? (id : SlotId) : Option UInt64 :=
  if id < 0 then none else some (UInt64.ofNat id.toNatClampNeg)

/-- Byte offset of a slot within its region; a negative id has none. -/
def slotOffset? (id : SlotId) : Option UInt64 :=
  (slotIndex? id).bind fun index => Word.checkedMul? index slotLength

/-- Layout and reuse policy of a counters region. -/
structure Settings where
  maxCounters : UInt64 := 1024
  reuseTimeoutMs : UInt64 := 0
  deriving DecidableEq, Repr, Inhabited

namespace Settings

/-- Bytes that hold every slot. -/
def requiredCapacity? (s : Settings) : Option UInt64 := Word.checkedMul? s.maxCounters slotLength

/-- How long a freed slot stays in quarantine. -/
def quarantine (s : Settings) : Duration := Duration.ofMilliseconds s.reuseTimeoutMs.toNat

/-- Settings are sound if there is a slot, every slot has an id, and the slots'
bytes can be counted. -/
def check (s : Settings) : Except SettingsFault Unit :=
  if s.maxCounters = 0 then .error .noCounters
  else if maxSlotId < s.maxCounters.toNat then .error (.beyondIds s.maxCounters)
  else if s.requiredCapacity?.isNone then .error (.beyondWords s.maxCounters)
  else .ok ()

/-- The settings as a record. -/
def record (s : Settings) : Text.Record :=
  ⟨"CountersConfig",
    [("max_counters", natText s.maxCounters.toNat),
      ("reuse_timeout_ms", natText s.reuseTimeoutMs.toNat)]⟩

end Settings

end Counters
end LockFree
