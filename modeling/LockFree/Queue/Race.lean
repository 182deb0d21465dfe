/-
# Producers at work side by side

An offer is not one step. A producer allocates and fills a node, loads the
tail, tries to move the tail from where it saw it onto its node, and, once that
succeeded, links the node it moved the tail away from. The attempt fails if the
tail is elsewhere by then, and may fail for no reason; the producer then goes
on with the tail it found. Between the move and the link the chain has a gap,
at which the consumer finds nothing more.

A poll is not one step either: the consumer loads the sentinel's link, and if
it finds a node there it moves the head onto it and the payload out of it, and
frees the old sentinel. Producers look at neither the head nor a payload, so
these two moves are one step. Counting takes many: the consumer loads the tail
once and follows links, one at a time, until it stands where the tail was or
finds no link. It does one thing at a time.

A `Race` holds one queue, its consumer and any number of producers, each part
way through what it does; `Race.step` takes one of the steps above. Which
address a new node gets is part of the step, so an address that was freed may
come back at any time. Three records are kept beside the machine: the values
in the order in which the tail was moved onto them, the values polled, and the
counts that were finished.
-/
import LockFree.Queue.Chain

namespace LockFree.Queue

variable {α : Type}

/-- How far a producer is with an offer. -/
inductive Phase
  | idle
  /-- Its node is filled. -/
  | filled (node : Address)
  /-- It saw the tail at `seen`. -/
  | loaded (node seen : Address)
  /-- It moved the tail from `before` onto its node. -/
  | swung (node before : Address)
  deriving DecidableEq, Repr

/-- A producer: the values it is still to offer, how far it is with the first
of them, and how many it has offered. -/
structure Producer (α : Type) where
  todo : List α
  phase : Phase := .idle
  accepted : Nat := 0
  deriving Repr

/-- A count that is under way: the tail as it was when the count began, where
the consumer stands, and how many values it has passed. -/
structure Count where
  last : Address
  current : Address
  passed : Nat
  deriving DecidableEq, Repr

/-- How far the consumer is with a poll or a count. -/
inductive Errand
  | idle
  /-- A poll saw `node` linked behind the sentinel. -/
  | seen (node : Address)
  /-- A poll moved the head away from `old`. -/
  | taken (old : Address)
  | counting (c : Count)
  deriving DecidableEq, Repr

/-- One queue with its consumer and its producers. -/
structure Race (α : Type) where
  heap : Heap α
  chain : Chain
  producers : List (Producer α)
  consumer : Errand := .idle
  /-- The values in the order in which the tail was moved onto them. -/
  swings : Array α := #[]
  /-- The values taken out, in order. -/
  polled : Array α := #[]
  /-- The results of the counts, in order. -/
  counts : List Nat := []

/-- One step of a race; a number names a producer. -/
inductive Move
  /-- A node for the first value still to be offered is placed at `address`. -/
  | allocate (i : Nat) (address : Address)
  | loadTail (i : Nat)
  /-- The attempt to move the tail; `spurious` makes it fail without reason. -/
  | swing (i : Nat) (spurious : Bool)
  | publish (i : Nat)
  /-- The sentinel's link is loaded for a poll. -/
  | look
  /-- The node that was seen becomes the sentinel, its value is polled. -/
  | take
  /-- The sentinel before it is freed. -/
  | discard
  /-- The tail is loaded for a count. -/
  | beginCount
  /-- A link is followed for the count. -/
  | advanceCount
  deriving DecidableEq, Repr

namespace Race

/-- A race for an empty queue. -/
def start (work : List (List α)) : Race α :=
  let (chain, heap) := Chain.create ({} : Heap α)
  { heap := heap, chain := chain, producers := work.map fun vs => { todo := vs } }

/-- The race with producer `i` at another phase. -/
def atPhase (r : Race α) (i : Nat) (phase : Phase) : Race α :=
  { r with producers := r.producers.modify i fun p => { p with phase := phase } }

/-- The race with a count finished. -/
def finishCount (r : Race α) (c : Count) : Race α :=
  { r with consumer := .idle, counts := r.counts ++ [c.passed] }

/-- The race with a count as far as `c`, which is finished if it has come to
where the tail was. -/
def atCount (r : Race α) (c : Count) : Race α :=
  if c.current = c.last then r.finishCount c else { r with consumer := .counting c }

/-- The steps of a poll that nobody comes between. -/
def wholePoll : List Move := [.look, .take, .discard]

/-- One step. A step that cannot be taken now changes nothing. -/
def step (r : Race α) : Move → Except Fault (Race α)
  | .allocate i address =>
    match r.producers[i]? with
    | some ⟨v :: _, .idle, _⟩ =>
      match r.heap.node? address with
      | some _ => .ok r
      | none =>
        let placed := { r with heap := r.heap.allocateAt address ⟨none, some v⟩ }
        .ok (placed.atPhase i (.filled address))
    | _ => .ok r
  | .loadTail i =>
    match r.producers[i]? with
    | some ⟨_, .filled node, _⟩ => .ok (r.atPhase i (.loaded node r.chain.tail))
    | _ => .ok r
  | .swing i spurious =>
    match r.producers[i]? with
    | some ⟨v :: _, .loaded node seen, _⟩ =>
      if spurious then .ok (r.atPhase i (.loaded node r.chain.tail))
      else
        match r.chain.swing seen node with
        | .error current => .ok (r.atPhase i (.loaded node current))
        | .ok chain =>
          let moved := { r with chain := chain, swings := r.swings.push v }
          .ok (moved.atPhase i (.swung node seen))
    | _ => .ok r
  | .publish i =>
    match r.producers[i]? with
    | some ⟨_ :: rest, .swung node before, accepted⟩ =>
      match r.heap.link before (some node) with
      | .error f => .error f
      | .ok heap =>
        .ok { r with
          heap := heap
          producers := r.producers.set i ⟨rest, .idle, accepted + 1⟩ }
    | _ => .ok r
  | .look =>
    match r.consumer with
    | .idle =>
      match r.chain.first? r.heap with
      | .error f => .error f
      | .ok none => .ok r
      | .ok (some node) => .ok { r with consumer := .seen node }
    | _ => .ok r
  | .take =>
    match r.consumer with
    | .seen node =>
      match r.heap.take node with
      | .error f => .error f
      | .ok (v, heap) =>
        .ok { r with
          heap := heap
          chain := { r.chain with head := node }
          consumer := .taken r.chain.head
          polled := r.polled.push v }
    | _ => .ok r
  | .discard =>
    match r.consumer with
    | .taken old =>
      match r.heap.free old with
      | .error f => .error f
      | .ok heap => .ok { r with heap := heap, consumer := .idle }
    | _ => .ok r
  | .beginCount =>
    match r.consumer with
    | .idle => .ok (r.atCount ⟨r.chain.tail, r.chain.head, 0⟩)
    | _ => .ok r
  | .advanceCount =>
    match r.consumer with
    | .counting c =>
      match r.heap.read c.current with
      | .error f => .error f
      | .ok ⟨none, _⟩ => .ok (r.finishCount c)
      | .ok ⟨some next, _⟩ =>
        match r.heap.payload next with
        | .error f => .error f
        | .ok _ => .ok (r.atCount { c with current := next, passed := c.passed + 1 })
    | _ => .ok r

/-- Steps one after another. -/
def run (r : Race α) : List Move → Except Fault (Race α)
  | [] => .ok r
  | move :: rest =>
    match r.step move with
    | .error f => .error f
    | .ok r => r.run rest

/-- The step that producer `i` is to take next, if it has one; a new node gets
the heap's own choice of address. -/
def next? (r : Race α) (i : Nat) : Option Move :=
  r.producers[i]?.map fun p =>
    match p.phase with
    | .idle => .allocate i r.heap.fresh
    | .filled _ => .loadTail i
    | .loaded .. => .swing i false
    | .swung .. => .publish i

/-- One round: each of `turns` takes its next step, then the consumer polls. -/
def round (r : Race α) : (turns : List Nat) → Except Fault (Race α)
  | [] => r.run wholePoll
  | i :: rest =>
    match r.run (r.next? i).toList with
    | .error f => .error f
    | .ok r => r.round rest

/-- `n` rounds in which all producers have a turn. -/
def rounds (r : Race α) : (n : Nat) → Except Fault (Race α)
  | 0 => .ok r
  | n + 1 =>
    match r.round (List.range r.producers.length) with
    | .error f => .error f
    | .ok r => r.rounds n

/-- How many rounds are enough to offer and poll everything: an offer takes
four of them when nobody interferes, a lost attempt one more, and each round
but the last few ends some step of an offer or a poll. -/
def enoughRounds (work : List (List α)) : Nat := 5 * work.flatten.length + 8

end Race
end LockFree.Queue
