/-
# Sessions with queues

A session begins with one empty queue and no producers. It has one queue at a
time, under no name, and producers under names; a producer stays with the queue
it was made for when that queue is replaced. A handle that is replaced is
dropped after the new one was made. Values that are polled are dropped at
once, and the ends of tracked values are noted.

The values are of a few kinds (`Element`), each with what it writes about
itself.
-/
import LockFree.Decimal.Digits
import LockFree.Queue.Arena

namespace LockFree.Queue

open Decimal (intText)
open Text (Rendering)

/-! ### Values -/

/-- A value in a queue. -/
inductive Element
  | number (v : Int64)
  | text (s : String)
  /-- A value of which there is only one. -/
  | unit
  /-- Forty numbers in a row, counted up from the first. -/
  | row (first : Int64)
  /-- A number whose end is noted; a negative one cannot be written. -/
  | tracked (v : Int64)
  deriving DecidableEq, Repr

namespace Element

/-- The last number of a row. -/
def rowEnd (first : Int64) : Int64 := first + 39

/-- What a value writes about itself. -/
def present : Element → Rendering
  | number v => ⟨intText v.toInt, true⟩
  | text s => ⟨s, true⟩
  | unit => ⟨"_", true⟩
  | row first => ⟨intText first.toInt ++ ".." ++ intText (rowEnd first).toInt, true⟩
  | tracked v => if v < 0 then ⟨"", false⟩ else ⟨"#" ++ intText v.toInt, true⟩

/-- The number that is noted when the value is dropped. -/
def note? : Element → Option Int64
  | tracked v => some v
  | _ => none

end Element

/-! ### Names and steps -/

/-- A producer: its queue's key and its own. -/
structure ProducerHandle where
  queue : Nat
  key : Nat
  deriving DecidableEq, Repr

/-- An arena, and what the names stand for. -/
structure Session where
  arena : Arena Element := {}
  /-- The key of the current queue. -/
  queue : Option Nat := none
  producers : Names ProducerHandle := {}
  /-- No key from here on was used. -/
  nextKey : Nat := 0
  /-- The noted ends since they were last asked for, oldest first. -/
  noted : List Int64 := []
  /-- What happened so far, oldest first. -/
  events : List Event := []

namespace Session

/-- What a session can be asked to do. -/
inductive Step
  | renew
  | dropQueue
  | producer (name : String)
  | clone (source name : String)
  | dropProducer (name : String)
  | producerRecord (name : String)
  | offer (name : Option String) (v : Element)
  /-- Consecutive numbers are offered. -/
  | offerRange (first : Int64) (count : Nat)
  | poll
  | pollMany (count : Nat)
  | drain
  | peek
  | isEmpty
  | size
  | clear
  | display (limit : Option Nat)
  | inspect
  | notes
  deriving Repr

/-- What a session answers. -/
inductive Answer
  | done
  | noSuch
  | fault (f : Fault)
  | accepted
  | value (v : Option Element)
  | values (vs : List (Option Element))
  | flag (b : Bool)
  | count (n : Nat)
  | written (text : String) (ok : Bool)
  | record (r : Text.Record)
  | text (s : String)
  | notes (vs : List Int64)
  deriving Repr

variable (s : Session)

/-- A reply as an answer. -/
def Answer.ofReply : Reply Element → Answer
  | .done => .done
  | .accepted => .accepted
  | .value v => .value v
  | .flag b => .flag b
  | .count n => .count n
  | .written t ok => .written t ok
  | .record r => .record r
  | .noSuch => .noSuch
  | .fault f => .fault f

/-- Values are dropped. -/
def discard (vs : List Element) : Session :=
  { s with noted := s.noted ++ vs.filterMap Element.note? }

/-- An action on the queue of a key. -/
def act (q : Nat) (action : Action Element) : Reply Element × Session :=
  match s with
  | ⟨arena, queue, producers, nextKey, noted, events⟩ =>
    match arena.step Element.present q action with
    | ⟨reply, dropped, emitted, arena⟩ =>
      (reply,
        discard ⟨arena, queue, producers, nextKey, noted, events ++ emitted⟩ dropped)

/-- An action on the current queue. -/
def onQueue (action : Action Element) : Answer × Session :=
  match s.queue with
  | none => (.noSuch, s)
  | some q =>
    let (reply, s) := s.act q action
    (.ofReply reply, s)

/-- A key that was not used before. -/
def newKey : Nat × Session := (s.nextKey, { s with nextKey := s.nextKey + 1 })

/-- The producer of a name is dropped, if there is one. -/
def dropProducerOf (name : String) : Session :=
  match s.producers.find? name with
  | none => s
  | some p => { (s.act p.queue (.dropProducer p.key)).2 with producers := s.producers.erase name }

/-- A producer made by an action gets its name, and the one that had the name is
dropped. -/
def bindProducer (name : String) (q : Nat) (action : Nat → Action Element) : Answer × Session :=
  let (key, s) := s.newKey
  match s.act q (action key) with
  | (.done, s) =>
    let s := s.dropProducerOf name
    (.done, { s with producers := s.producers.bind name ⟨q, key⟩ })
  | (reply, s) => (.ofReply reply, s)

/-- A new queue replaces the current one, which is dropped after. -/
def renew : Answer × Session :=
  let (q, s) := s.newKey
  let (reply, s) := s.act q .create
  let s := match s.queue with
    | some old => (s.act old .dropConsumer).2
    | none => s
  (.ofReply reply, { s with queue := some q })

/-- A value is taken out of the current queue and dropped. -/
def poll : Answer × Session :=
  match s.onQueue .poll with
  | (.value (some v), s) => (.value (some v), s.discard [v])
  | (a, s) => (a, s)

/-- Values are taken out one after another. After a poll that finds nothing
the rest find nothing either, and `whole` says whether they are asked for all
the same. -/
def pollUpTo (whole : Bool) : Nat → Session → List (Option Element) × Session
  | 0, s => ([], s)
  | n + 1, s =>
    match s.poll with
    | (.value (some v), s) =>
      let (vs, s) := pollUpTo whole n s
      (some v :: vs, s)
    | (_, s) => if whole then (List.replicate (n + 1) none, s) else ([], s)

/-- Values are offered one after another through the queue. -/
def offerAll : List Element → Session → Answer × Session
  | [], s => (.accepted, s)
  | v :: vs, s =>
    match s.onQueue (.offer none v) with
    | (.accepted, s) => offerAll vs s
    | (a, s) => (a, s)

/-- `count` numbers counted up from the first. -/
def numbersFrom (first : Int64) (count : Nat) : List Element :=
  (List.range count).map fun i => .number (first + Int64.ofNat i)

/-- How many values the current queue holds at most. -/
def capacityBound : Nat := s.arena.heap.cells.size

/-- One step. -/
def step : Step → Answer × Session
  | .renew => s.renew
  | .dropQueue =>
    match s.onQueue .dropConsumer with
    | (.done, s) => (.done, { s with queue := none })
    | (a, s) => (a, s)
  | .producer name =>
    match s.queue with
    | none => (.noSuch, s)
    | some q => s.bindProducer name q .producer
  | .clone source name =>
    match s.producers.find? source with
    | none => (.noSuch, s)
    | some p => s.bindProducer name p.queue (.clone p.key)
  | .dropProducer name =>
    match s.producers.find? name with
    | none => (.noSuch, s)
    | some _ => (.done, s.dropProducerOf name)
  | .producerRecord name =>
    match s.producers.find? name with
    | none => (.noSuch, s)
    | some _ => (.text Arena.producerText, s)
  | .offer none v => s.onQueue (.offer none v)
  | .offer (some name) v =>
    match s.producers.find? name with
    | none => (.noSuch, s)
    | some p =>
      let (reply, s) := s.act p.queue (.offer (some p.key) v)
      (.ofReply reply, s)
  | .offerRange first count =>
    if s.queue.isNone then (.noSuch, s) else offerAll (numbersFrom first count) s
  | .poll => s.poll
  | .pollMany count =>
    if s.queue.isNone then (.noSuch, s)
    else
      let (vs, s) := pollUpTo true count s
      (.values vs, s)
  | .drain =>
    if s.queue.isNone then (.noSuch, s)
    else
      let (vs, s) := pollUpTo false s.capacityBound s
      (.values vs, s)
  | .peek => s.onQueue .peek
  | .isEmpty => s.onQueue .isEmpty
  | .size => s.onQueue .size
  | .clear => s.onQueue .clear
  | .display limit => s.onQueue (.display { room := limit })
  | .inspect => s.onQueue .inspect
  | .notes => (.notes s.noted, { s with noted := [] })

/-- Steps one after another: each one's answer, and the events during it. -/
def run (s : Session) : List Step → List (Answer × List Event)
  | [] => []
  | step :: rest =>
    let (a, t) := s.step step
    (a, t.events.drop s.events.length) :: run t rest

/-- A session with an empty queue. -/
def start : Session := ({} : Session).renew.2

end Session
end LockFree.Queue
