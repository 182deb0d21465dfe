/-
# Queues with handles in one heap

An arena holds any number of queues, whose nodes share one heap. A queue is
reached through handles: one consumer, which alone takes values out, and any
number of producers. The handles of a queue are counted, and when the last one
is dropped the queue's nodes are freed and the values left in it are dropped.

A queue has a key and so has each of its producers; both are chosen by whoever
makes them and are not used twice.
-/
import LockFree.Event
import LockFree.Queue.Chain
import LockFree.Queue.Display

namespace LockFree.Queue

open Decimal (natText)
open Text (Rendering Sink)

variable {α : Type}

/-- What the handles of a queue share. -/
structure Shared where
  chain : Chain
  /-- How many handles there are. -/
  handles : Nat
  /-- Whether the consumer is one of them. -/
  consumer : Bool
  /-- The keys of the producers among them. -/
  producers : List Nat
  deriving DecidableEq, Repr

/-- A heap and the queues in it; a queue without handles is `none`. -/
structure Arena (α : Type) where
  heap : Heap α := {}
  queues : List (Nat × Option Shared) := []

/-- What can be done to one queue. -/
inductive Action (α : Type)
  /-- The queue is made, and its consumer. -/
  | create
  /-- The consumer makes a producer. -/
  | producer (key : Nat)
  /-- A producer makes another one. -/
  | clone (source key : Nat)
  /-- A value is added, through a producer or through the consumer. -/
  | offer (via : Option Nat) (v : α)
  | poll
  | peek
  | isEmpty
  | size
  /-- All values are taken out and dropped. -/
  | clear
  /-- The queue is written into a sink. -/
  | display (sink : Sink)
  /-- The queue is shown as a record. -/
  | inspect
  | dropConsumer
  | dropProducer (key : Nat)
  deriving Repr

/-- What a queue answers. -/
inductive Reply (α : Type)
  | done
  | accepted
  | value (v : Option α)
  | flag (b : Bool)
  | count (n : Nat)
  /-- What the sink took, and whether everything was written. -/
  | written (text : String) (ok : Bool)
  | record (r : Text.Record)
  /-- The handle or the queue does not exist. -/
  | noSuch
  /-- The heap was used as it may not be. -/
  | fault (f : Fault)
  deriving Repr

/-- An answer, the values that were dropped, the events, and the arena after
it. -/
structure Outcome (α : Type) where
  reply : Reply α
  dropped : List α := []
  events : List Event := []
  arena : Arena α

namespace Arena

/-- The queue of a key, if it has handles. -/
def shared? (a : Arena α) (q : Nat) : Option Shared := (a.queues.lookup q).join

/-- The arena with a queue put in the place of an earlier one of its key. -/
def put (a : Arena α) (q : Nat) (s : Option Shared) : Arena α :=
  { a with queues := (q, s) :: a.queues.filter fun e => e.1 ≠ q }

/-- The answer to an action that changes nothing. -/
def keep (a : Arena α) (r : Reply α) : Outcome α := { reply := r, arena := a }

/-- After a fault nothing is known of the heap, so none is left. -/
def broken (queues : List (Nat × Option Shared)) (f : Fault) : Outcome α :=
  { reply := .fault f, arena := ⟨{}, queues⟩ }

/-- The answer to an action that only looks. -/
def look (a : Arena α) {β : Type} (r : Except Fault β) (f : β → Reply α) : Outcome α :=
  match r with
  | .ok x => a.keep (f x)
  | .error f => broken a.queues f

/-- A queue changes its chain and the heap; `f` says what is answered and which
values are dropped. -/
def change (a : Arena α) (q : Nat) (s : Shared) {β : Type}
    (r : Chain → Heap α → Except Fault (β × Chain × Heap α)) (f : β → Reply α × List α) :
    Outcome α :=
  match a with
  | ⟨heap, queues⟩ =>
    match r s.chain heap with
    | .error f => broken queues f
    | .ok (x, chain, heap) =>
      { reply := (f x).1
        dropped := (f x).2
        arena := put ⟨heap, queues⟩ q (some { s with chain := chain }) }

/-- One handle of a queue goes; with the last one the queue does. -/
def dropHandle (a : Arena α) (q : Nat) (s : Shared) : Outcome α :=
  if 1 < s.handles then
    { reply := .done, arena := a.put q (some { s with handles := s.handles - 1 }) }
  else
    match s.chain.dismantle a.heap with
    | .error f => broken a.queues f
    | .ok (left, heap) =>
      { reply := .done
        dropped := left
        events := if left.isEmpty then [] else [.queueDropped left.length]
        arena := { a with heap := heap }.put q none }

/-- The record of a queue: the values that can be seen, and the handles other
than the one that looks. -/
def recordOf (size handles : Nat) : Text.Record :=
  ⟨"ManyToOneLinkedQueue", [("size", natText size), ("producers", natText (handles - 1))]⟩

/-- One more handle on a queue, a producer. -/
def addProducer (a : Arena α) (q : Nat) (s : Shared) (key : Nat) : Outcome α :=
  if key ∈ s.producers then a.keep .noSuch
  else
    { reply := .done
      arena := a.put q (some { s with handles := s.handles + 1, producers := key :: s.producers }) }

/-- An action on a queue that has handles. `show` says what a value writes
about itself. -/
def act (present : α → Rendering) (a : Arena α) (q : Nat) (s : Shared) : Action α → Outcome α
  | .create => a.keep .noSuch
  | .producer key => if s.consumer then a.addProducer q s key else a.keep .noSuch
  | .clone source key => if source ∈ s.producers then a.addProducer q s key else a.keep .noSuch
  | .offer via v =>
    if (match via with | some key => s.producers.contains key | none => s.consumer) then
      a.change q s (fun chain heap => (chain.offer heap v).map fun r => ((), r)) fun _ =>
        (.accepted, [])
    else a.keep .noSuch
  | .dropProducer key =>
    if key ∈ s.producers then a.dropHandle q { s with producers := s.producers.erase key }
    else a.keep .noSuch
  | action =>
    if !s.consumer then a.keep .noSuch
    else
      match action with
      | .poll => a.change q s Chain.poll fun v => (.value v, [])
      | .peek => a.look (s.chain.peek a.heap) .value
      | .isEmpty => a.look (s.chain.isEmpty a.heap) .flag
      | .size => a.look (s.chain.size a.heap) .count
      | .clear => a.change q s Chain.drain fun vs => (.done, vs)
      | .display sink =>
        a.look (s.chain.values a.heap) fun vs =>
          let (sink, ok) := Display.write sink (vs.map present)
          .written sink.written ok
      | .inspect => a.look (s.chain.size a.heap) fun n => .record (recordOf n s.handles)
      | .dropConsumer => a.dropHandle q { s with consumer := false }
      | _ => a.keep .noSuch

/-- A new queue under a key that was not used before. -/
def create (a : Arena α) (q : Nat) : Outcome α :=
  match a.queues.lookup q with
  | some _ => a.keep .noSuch
  | none =>
    let (chain, heap) := Chain.create a.heap
    { reply := .done, arena := { a with heap := heap }.put q (some ⟨chain, 1, true, []⟩) }

/-- One action on the queue of a key. -/
def step (present : α → Rendering) (a : Arena α) (q : Nat) (action : Action α) : Outcome α :=
  match a.shared? q, action with
  | some s, action => a.act present q s action
  | none, .create => a.create q
  | none, _ => a.keep .noSuch

/-- What producers look like as records: their fields are not shown. -/
def producerText : String := "Producer \x7b .. \x7d"

end Arena
end LockFree.Queue
