/-
# A queue as a chain of nodes

A queue is a chain that begins with a sentinel and ends where its tail points.
An offer takes a node, moves the tail onto it and then links the node that was
the tail before; a poll follows the sentinel's link, takes the payload of the
node it leads to, which becomes the new sentinel, and frees the old one.

Everything that follows links is bounded by the size of the heap, since a
chain passes through a node at most once.
-/
import LockFree.Queue.Heap
import LockFree.Text.Format

namespace LockFree.Queue

variable {α : Type}

/-- The two ends of a queue. -/
structure Chain where
  /-- The sentinel. -/
  head : Address
  /-- The node that the next offer links to. -/
  tail : Address
  deriving DecidableEq, Repr

namespace Chain

/-- An empty queue: its sentinel is both ends. -/
def create (h : Heap α) : Chain × Heap α :=
  let (a, h) := h.allocate ⟨none, none⟩
  (⟨a, a⟩, h)

/-- The tail is moved from `seen` onto `node`, unless it is elsewhere by now:
then the answer is where it is. -/
def swing (c : Chain) (seen node : Address) : Except Address Chain :=
  if c.tail = seen then .ok { c with tail := node } else .error c.tail

/-- A value is added at the end. -/
def offer (c : Chain) (h : Heap α) (v : α) : Except Fault (Chain × Heap α) :=
  let (node, h) := h.allocate ⟨none, some v⟩
  match h.link c.tail (some node) with
  | .ok h => .ok ({ c with tail := node }, h)
  | .error f => .error f

/-- The node after the sentinel, if one is linked. -/
def first? (c : Chain) (h : Heap α) : Except Fault (Option Address) :=
  match h.read c.head with
  | .ok n => .ok n.next
  | .error f => .error f

/-- The first value is taken out, if there is one. -/
def poll (c : Chain) (h : Heap α) : Except Fault (Option α × Chain × Heap α) :=
  match c.first? h with
  | .error f => .error f
  | .ok none => .ok (none, c, h)
  | .ok (some node) =>
    match h.take node with
    | .error f => .error f
    | .ok (v, h) =>
      match h.free c.head with
      | .error f => .error f
      | .ok h => .ok (some v, { c with head := node }, h)

/-- The first value, left where it is. -/
def peek (c : Chain) (h : Heap α) : Except Fault (Option α) :=
  match c.first? h with
  | .error f => .error f
  | .ok none => .ok none
  | .ok (some node) =>
    match h.payload node with
    | .error f => .error f
    | .ok v => .ok (some v)

/-- Whether no value can be seen. -/
def isEmpty (c : Chain) (h : Heap α) : Except Fault Bool :=
  match c.first? h with
  | .error f => .error f
  | .ok next => .ok next.isNone

/-- The values from after `current` up to `last`, in at most `n` steps. -/
def walk (h : Heap α) (last : Address) : (n : Nat) → (current : Address) → Except Fault (List α)
  | 0, _ => .ok []
  | n + 1, current =>
    if current = last then .ok []
    else
      match h.read current with
      | .error f => .error f
      | .ok ⟨none, _⟩ => .ok []
      | .ok ⟨some next, _⟩ =>
        match h.payload next with
        | .error f => .error f
        | .ok v =>
          match walk h last n next with
          | .error f => .error f
          | .ok vs => .ok (v :: vs)

/-- The values that can be seen, the first one first. -/
def values (c : Chain) (h : Heap α) : Except Fault (List α) :=
  walk h c.tail h.cells.size c.head

/-- How many values can be seen. -/
def size (c : Chain) (h : Heap α) : Except Fault Nat :=
  match c.values h with
  | .error f => .error f
  | .ok vs => .ok vs.length

/-- At most `n` values are taken out, one after another. -/
def pollMany (c : Chain) (h : Heap α) : Nat → Except Fault (List α × Chain × Heap α)
  | 0 => .ok ([], c, h)
  | n + 1 =>
    match c.poll h with
    | .error f => .error f
    | .ok (none, c, h) => .ok ([], c, h)
    | .ok (some v, c, h) =>
      match pollMany c h n with
      | .error f => .error f
      | .ok (vs, c, h) => .ok (v :: vs, c, h)

/-- Values are taken out until none can be seen. -/
def drain (c : Chain) (h : Heap α) : Except Fault (List α × Chain × Heap α) :=
  c.pollMany h h.cells.size

/-- The nodes from `current` on are freed, in at most `n` steps; the values
they held. -/
def freeFrom (h : Heap α) : (n : Nat) → (current : Option Address) → Except Fault (List α × Heap α)
  | 0, _ => .ok ([], h)
  | _ + 1, none => .ok ([], h)
  | n + 1, some a =>
    match h.read a with
    | .error f => .error f
    | .ok ⟨_, none⟩ => .error (.noPayload a)
    | .ok ⟨next, some v⟩ =>
      match h.free a with
      | .error f => .error f
      | .ok h =>
        match freeFrom h n next with
        | .error f => .error f
        | .ok (vs, h) => .ok (v :: vs, h)

/-- The whole chain is freed, the sentinel first; the values left in it, oldest
first. -/
def dismantle (c : Chain) (h : Heap α) : Except Fault (List α × Heap α) :=
  match c.first? h with
  | .error f => .error f
  | .ok next =>
    match h.free c.head with
    | .error f => .error f
    | .ok h => freeFrom h h.cells.size next

end Chain
end LockFree.Queue
