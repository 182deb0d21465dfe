/-
# Threads at one manager or one slot

Threads that allocate at one manager take turns at its lock, and at one slot
there is one thread that proposes. So each contest is a run of single steps,
and what is reported does not depend on the order of the turns.
-/
import LockFree.Counters.Host

namespace LockFree.Counters

/-- What is known after threads allocated, and after they freed again. -/
structure AllocationReport where
  /-- The ids that were handed out, ascending. -/
  ids : List SlotId
  failures : List Failure
  allocated : Nat
  afterFree : Nat
  deriving Repr

/-- What is known after a thread proposed. -/
structure ProposalReport where
  /-- How many proposals were taken. -/
  moved : Nat
  /-- Whether the value never went down. -/
  monotonic : Bool
  value : Int64
  deriving DecidableEq, Repr

namespace Contest

/-- `n` allocations, one after another: what each one answered. -/
def allocations : Nat → Host → List (Except Failure Host.Result) × Host
  | 0, h => ([], h)
  | n + 1, h =>
    let (r, h) := h.step (.allocate 0 "")
    let (rs, h) := allocations n h
    (r :: rs, h)

/-- How many slots the first manager has allocated. -/
def allocatedCount (h : Host) : Nat := (h.managers.head?.map Manager.allocatedCount).getD 0

/-- `threads` threads allocate `each` times at a manager of its own region of
as many slots as it needs; then every id is freed. -/
def allocate (threads each : Nat) (maxCounters : UInt64) : Except Failure AllocationReport :=
  match ({} : Host).step (.makeBuffer (maxCounters * slotLength)) with
  | (.ok (.region r), h) =>
    match h.step (.manage r { maxCounters := maxCounters }) with
    | (.error f, _) => .error f
    | (.ok _, h) =>
      let (results, h) := allocations (threads * each) h
      let ids := results.filterMap fun
        | .ok (.slot id) => some id
        | _ => none
      let failures := results.filterMap fun
        | .error f => some f
        | .ok _ => none
      let freed := h.run (ids.map fun id => .free 0 id)
      .ok {
        ids := ids.mergeSort fun a b => a ≤ b
        failures := failures
        allocated := allocatedCount h
        afterFree := allocatedCount freed }
  | (.ok _, _) => .error .noSuch
  | (.error f, _) => .error f

/-- Whether a list of values never goes down. -/
def neverDown : List Int64 → Bool
  | v :: w :: rest => v ≤ w && neverDown (w :: rest)
  | _ => true

/-- The proposals of a thread: the remainder by `modulus` and the tenth of each
number below `rounds`, added up. -/
def proposals (rounds : Nat) (modulus : Int64) : List Int64 :=
  (List.range rounds).map fun n =>
    let v := Int64.ofNat n
    v % modulus + v / 10

/-- A slot that holds `start` is proposed to. -/
def propose (rounds : Nat) (modulus start : Int64) : ProposalReport :=
  let trace := proposeTrace start (proposals rounds modulus)
  let values := start :: trace.map Prod.snd
  { moved := trace.countP Prod.fst
    monotonic := neverDown values
    value := values.getLastD start }

end Contest
end LockFree.Counters
