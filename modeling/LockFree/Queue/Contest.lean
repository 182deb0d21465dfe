/-
# Contests

Several producers offer numbered values side by side while the consumer polls
until it has them all. What is reported does not depend on who was faster.
-/
import LockFree.Queue.Race

namespace LockFree.Queue

/-- A value that names its producer and counts that producer's values. -/
structure Ticket where
  producer : Nat
  number : Nat
  deriving DecidableEq, Repr

/-- What is known after a contest. -/
structure ContestReport where
  /-- How many offers of each producer were accepted. -/
  accepted : List Nat
  /-- How many values of each producer were polled. -/
  received : List Nat
  /-- Whether each producer's values were polled in the order of its offers. -/
  ordered : Bool
  isEmpty : Bool
  size : Nat
  /-- Whether a further poll finds a value. -/
  more : Bool
  deriving DecidableEq, Repr

namespace Contest

/-- The values of each producer. -/
def tickets (counts : List Nat) : List (List Ticket) :=
  counts.zipIdx.map fun (n, i) => (List.range n).map fun k => ⟨i, k⟩

/-- The numbers of one producer's values, in the order in which they were
polled. -/
def numbersOf (polled : List Ticket) (i : Nat) : List Nat :=
  (polled.filter fun t => t.producer = i).map Ticket.number

/-- The report on a race that has been run. -/
def reportOf (r : Race Ticket) : Except Fault ContestReport :=
  let polled := r.polled.toList
  let numbers := (List.range r.producers.length).map (numbersOf polled)
  match r.chain.isEmpty r.heap, r.chain.size r.heap, r.chain.peek r.heap with
  | .ok isEmpty, .ok size, .ok next =>
    .ok {
      accepted := r.producers.map Producer.accepted
      received := numbers.map List.length
      ordered := numbers.all fun ns => ns == List.range ns.length
      isEmpty := isEmpty
      size := size
      more := next.isSome }
  | .error f, _, _ | _, .error f, _ | _, _, .error f => .error f

/-- A contest in which producer `i` offers as many values as `counts` says. -/
def report (counts : List Nat) : Except Fault ContestReport :=
  let work := tickets counts
  match (Race.start work).rounds (Race.enoughRounds work) with
  | .error f => .error f
  | .ok r => reportOf r

end Contest
end LockFree.Queue
