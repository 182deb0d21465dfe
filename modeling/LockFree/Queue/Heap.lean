/-
# A heap of nodes

Queues are chains of nodes in one heap. A node has a link to the next one and,
unless it stands in front of a chain as its sentinel, a payload. An address is
given out again after its node was freed, so what a link leads to depends on
when it is followed: following one to a node that is gone, or taking a payload
that is not there, is a `Fault`.
-/
namespace LockFree.Queue

/-- Where a node stands in the heap. -/
abbrev Address := Nat

variable {α : Type}

/-- A link and a payload. -/
structure Node (α : Type) where
  next : Option Address := none
  /-- Absent in a sentinel. -/
  payload : Option α
  deriving DecidableEq, Repr

/-- A use of the heap that no queue may make. -/
inductive Fault
  /-- No node stands at the address. -/
  | dangling (a : Address)
  /-- The node at the address holds no payload. -/
  | noPayload (a : Address)
  deriving DecidableEq, Repr

/-- Nodes at addresses. -/
structure Heap (α : Type) where
  cells : Array (Option (Node α)) := #[]
  /-- Addresses that were freed, the latest first. -/
  spare : List Address := []
  deriving Repr

namespace Heap

/-- The node at an address. -/
def node? (h : Heap α) (a : Address) : Option (Node α) := h.cells.getD a none

/-- The heap with a node put at an address. -/
def put (h : Heap α) (a : Address) (n : Node α) : Heap α :=
  if a < h.cells.size then { h with cells := h.cells.setIfInBounds a (some n) }
  else { h with cells := (h.cells ++ Array.replicate (a - h.cells.size) none).push (some n) }

/-- An address without a node: the one freed last, or one never used. -/
def fresh (h : Heap α) : Address :=
  match h.spare with
  | a :: _ => if (h.node? a).isNone then a else h.cells.size
  | [] => h.cells.size

/-- A new node at an address of the caller's choice. -/
def allocateAt (h : Heap α) (a : Address) (n : Node α) : Heap α :=
  let spare := match h.spare with
    | b :: rest => if b = a then rest else b :: rest
    | [] => []
  { h with spare := spare }.put a n

/-- A new node, and where it stands. -/
def allocate (h : Heap α) (n : Node α) : Address × Heap α :=
  let a := h.fresh
  (a, h.allocateAt a n)

/-- The node at an address, which must be there. -/
def read (h : Heap α) (a : Address) : Except Fault (Node α) :=
  match h.node? a with
  | some n => .ok n
  | none => .error (.dangling a)

/-- The payload at an address, which must be there. -/
def payload (h : Heap α) (a : Address) : Except Fault α :=
  match h.node? a with
  | some ⟨_, some v⟩ => .ok v
  | some ⟨_, none⟩ => .error (.noPayload a)
  | none => .error (.dangling a)

/-- The link of a node is set. -/
def link (h : Heap α) (a : Address) (next : Option Address) : Except Fault (Heap α) :=
  match h.node? a with
  | some n => .ok (h.put a { n with next := next })
  | none => .error (.dangling a)

/-- The payload of a node is moved out of it. -/
def take (h : Heap α) (a : Address) : Except Fault (α × Heap α) :=
  match h.node? a with
  | some ⟨next, some v⟩ => .ok (v, h.put a ⟨next, none⟩)
  | some ⟨_, none⟩ => .error (.noPayload a)
  | none => .error (.dangling a)

/-- A node is freed. -/
def free (h : Heap α) (a : Address) : Except Fault (Heap α) :=
  match h.node? a with
  | some _ => .ok ⟨h.cells.setIfInBounds a none, a :: h.spare⟩
  | none => .error (.dangling a)

theorem node?_put (h : Heap α) (a : Address) (n : Node α) (b : Address) :
    (h.put a n).node? b = if b = a then some n else h.node? b := by
  unfold put node?
  simp only [Array.getD_eq_getD_getElem?]
  split
  · rename_i ha
    simp only [Array.getElem?_setIfInBounds]
    by_cases hb : b = a
    · subst hb; simp [ha]
    · have : ¬ a = b := fun e => hb e.symm
      simp [hb, this]
  · rename_i ha
    have ha : h.cells.size ≤ a := Nat.le_of_not_lt ha
    simp only [Array.getElem?_push, Array.size_append, Array.size_replicate,
      Array.getElem?_append, Array.getElem?_replicate, Nat.add_sub_cancel' ha]
    by_cases hb : b = a
    · simp [hb]
    · simp only [hb, if_false]
      by_cases hs : b < h.cells.size
      · simp [hs]
      · have hn : h.cells[b]? = none := Array.getElem?_eq_none (Nat.le_of_not_lt hs)
        simp only [hs, if_false, hn]
        split <;> rfl

theorem node?_allocateAt (h : Heap α) (a : Address) (n : Node α) (b : Address) :
    (h.allocateAt a n).node? b = if b = a then some n else h.node? b := by
  unfold allocateAt
  rw [node?_put]
  rfl

theorem node?_fresh (h : Heap α) : h.node? h.fresh = none := by
  unfold fresh
  split
  · split
    · rename_i hn; simpa using hn
    · simp [node?]
  · simp [node?]

theorem node?_free {h h' : Heap α} {a : Address} (hf : h.free a = .ok h') (b : Address) :
    h'.node? b = if b = a then none else h.node? b := by
  unfold free at hf
  split at hf
  · cases hf
    unfold node?
    simp only [Array.getD_eq_getD_getElem?, Array.getElem?_setIfInBounds]
    by_cases hb : b = a
    · subst hb
      by_cases hs : b < h.cells.size <;> simp [hs]
    · have : ¬ a = b := fun e => hb e.symm
      simp [hb, this]
  · cases hf

end Heap
end LockFree.Queue
