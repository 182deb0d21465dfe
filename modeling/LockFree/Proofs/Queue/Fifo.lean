/-
# A queue as a list

What the users of a queue go by: the values in it, the first one first, and the
handles on it. Nothing here knows of nodes or of a heap. `Fifo.act` says what
each action answers, which values it drops and what is left; `Life.step` adds
that a queue has to be made before it is used and is gone after its last
handle.
-/
import LockFree.Queue.Arena

namespace LockFree.Queue

open Text (Rendering)

variable {α : Type}

/-- A queue: its values, and its handles. -/
structure Fifo (α : Type) where
  values : List α := []
  consumer : Bool := true
  producers : List Nat := []

/-- What has become of a queue. -/
inductive Life (α : Type)
  | unmade
  | live (f : Fifo α)
  | gone

/-- What an action answers, the values it drops, and the queue after it. -/
structure Effect (α : Type) where
  reply : Reply α
  dropped : List α
  after : Life α

/-- What is reported of a queue that goes with values in it. -/
def undrained (left : List α) : List Event :=
  if left.isEmpty then [] else [.queueDropped left.length]

/-- What is reported of an action: only that a queue goes is. -/
def Effect.events (e : Effect α) : List Event :=
  match e.after with
  | .gone => undrained e.dropped
  | _ => []

theorem Effect.events_of_stays {e : Effect α} (h : e.after ≠ .gone) : e.events = [] := by
  unfold Effect.events
  split
  · exact absurd ‹_› h
  · rfl

/-- Nothing is reported where nothing is dropped. -/
theorem Effect.events_of_dropped_nil (r : Reply α) (l : Life α) :
    Effect.events ⟨r, [], l⟩ = [] := by
  cases l <;> rfl

namespace Fifo

/-- How many handles there are. -/
def handles (f : Fifo α) : Nat := f.producers.length + f.consumer.toNat

/-- Whether there is a producer of a key, or the consumer. -/
def hasHandle (f : Fifo α) : Option Nat → Bool
  | some key => f.producers.contains key
  | none => f.consumer

/-- An action that changes nothing. -/
def keep (f : Fifo α) (r : Reply α) : Effect α := ⟨r, [], .live f⟩

/-- A new producer. -/
def join (f : Fifo α) (key : Nat) : Effect α :=
  if key ∈ f.producers then f.keep .noSuch
  else ⟨.done, [], .live { f with producers := key :: f.producers }⟩

/-- A handle was dropped. With the last one the queue goes. -/
def leave (f : Fifo α) : Effect α :=
  if f.handles = 0 then ⟨.done, f.values, .gone⟩ else ⟨.done, [], .live f⟩

/-- What the consumer does. -/
def consume (present : α → Rendering) (f : Fifo α) : Action α → Effect α
  | .poll => ⟨.value f.values.head?, [], .live { f with values := f.values.tail }⟩
  | .peek => f.keep (.value f.values.head?)
  | .isEmpty => f.keep (.flag f.values.isEmpty)
  | .size => f.keep (.count f.values.length)
  | .clear => ⟨.done, f.values, .live { f with values := [] }⟩
  | .display sink =>
    let (sink, ok) := Display.write sink (f.values.map present)
    f.keep (.written sink.written ok)
  | .inspect => f.keep (.record (Arena.recordOf f.values.length f.handles))
  | .dropConsumer => leave { f with consumer := false }
  | _ => f.keep .noSuch

/-- What can be done to a queue that has handles. -/
def act (present : α → Rendering) (f : Fifo α) : Action α → Effect α
  | .create => f.keep .noSuch
  | .producer key => if f.consumer then f.join key else f.keep .noSuch
  | .clone source key => if source ∈ f.producers then f.join key else f.keep .noSuch
  | .offer via v =>
    if f.hasHandle via then ⟨.accepted, [], .live { f with values := f.values ++ [v] }⟩
    else f.keep .noSuch
  | .dropProducer key =>
    if key ∈ f.producers then leave { f with producers := f.producers.erase key }
    else f.keep .noSuch
  | action => if f.consumer then f.consume present action else f.keep .noSuch

end Fifo

namespace Life

/-- One action on a queue that may not be there. -/
def step (present : α → Rendering) : Life α → Action α → Effect α
  | .unmade, .create => ⟨.done, [], .live {}⟩
  | .live f, action => f.act present action
  | l, _ => ⟨.noSuch, [], l⟩

/-- The queue after actions one after another. -/
def run (present : α → Rendering) (l : Life α) (actions : List (Action α)) : Life α :=
  actions.foldl (fun l action => (l.step present action).after) l

/-- The values in a queue. -/
def values : Life α → List α
  | .live f => f.values
  | _ => []

end Life

/-! ### What goes in and what comes out -/

/-- What was asked of a queue, what it answered, and the values it dropped. -/
structure Exchange (α : Type) where
  action : Action α
  reply : Reply α
  dropped : List α

/-- What a queue answers to actions one after another. -/
def Life.exchanges (present : α → Rendering) : Life α → List (Action α) → List (Exchange α)
  | _, [] => []
  | l, action :: rest =>
    let e := l.step present action
    ⟨action, e.reply, e.dropped⟩ :: exchanges present e.after rest

namespace Exchange

/-- The value that was put into the queue. -/
def offered? : Exchange α → Option α
  | ⟨.offer _ v, .accepted, _⟩ => some v
  | _ => none

/-- The values that were taken out of the queue, by a poll or for good. -/
def taken : Exchange α → List α
  | ⟨.poll, .value v, _⟩ => v.toList
  | x => x.dropped

end Exchange

/-- What was there and what came in is what went out, in order, and what is
left. -/
def Effect.Balances (l : Life α) (action : Action α) (e : Effect α) : Prop :=
  l.values ++ (Exchange.offered? ⟨action, e.reply, e.dropped⟩).toList =
    Exchange.taken ⟨action, e.reply, e.dropped⟩ ++ e.after.values

namespace Fifo

variable (f : Fifo α)

theorem keep_balances (action : Action α) (r : Reply α)
    (ho : Exchange.offered? ⟨action, r, []⟩ = none) (ht : Exchange.taken ⟨action, r, []⟩ = []) :
    (f.keep r).Balances (.live f) action := by
  simp [Effect.Balances, keep, ho, ht]

/-- An action that neither offers nor polls. -/
def Idle (action : Action α) : Prop :=
  ∀ r d, Exchange.offered? ⟨action, r, d⟩ = none ∧ Exchange.taken ⟨action, r, d⟩ = d

theorem refuse_balances {action : Action α} (hi : Idle action) (r : Reply α) :
    (f.keep r).Balances (.live f) action :=
  f.keep_balances action r (hi r []).1 (hi r []).2

theorem join_balances {action : Action α} (hi : Idle action) (key : Nat) :
    (f.join key).Balances (.live f) action := by
  unfold join
  split
  · exact f.refuse_balances hi _
  · simp [Effect.Balances, (hi _ _).1, (hi _ _).2, Life.values]

theorem leave_balances {action : Action α} (hi : Idle action) {g : Fifo α}
    (hv : g.values = f.values) : g.leave.Balances (.live f) action := by
  unfold leave
  split <;> simp [Effect.Balances, (hi _ _).1, (hi _ _).2, Life.values, hv]

theorem consume_balances (present : α → Rendering) (action : Action α)
    (ho : ∀ r d, Exchange.offered? ⟨action, r, d⟩ = none) :
    (f.consume present action).Balances (.live f) action := by
  cases action with
  | poll =>
    rw [Effect.Balances, ho]
    cases hv : f.values <;> simp [consume, Exchange.taken, Life.values, hv]
  | clear => simp [Effect.Balances, consume, ho, Exchange.taken, Life.values]
  | dropConsumer => exact f.leave_balances (fun _ _ => ⟨rfl, rfl⟩) rfl
  | offer via v => exact absurd (ho .accepted []) (by simp [Exchange.offered?])
  | _ => exact f.keep_balances _ _ (ho _ _) rfl

theorem act_balances (present : α → Rendering) (action : Action α) :
    (f.act present action).Balances (.live f) action := by
  cases action with
  | create => exact f.keep_balances _ _ rfl rfl
  | producer key =>
    rw [act]
    split
    · exact f.join_balances (fun _ _ => ⟨rfl, rfl⟩) key
    · exact f.keep_balances _ _ rfl rfl
  | clone source key =>
    rw [act]
    split
    · exact f.join_balances (fun _ _ => ⟨rfl, rfl⟩) key
    · exact f.keep_balances _ _ rfl rfl
  | offer via v =>
    rw [act]
    split
    · simp [Effect.Balances, Exchange.offered?, Exchange.taken, Life.values]
    · exact f.keep_balances _ _ rfl rfl
  | dropProducer key =>
    rw [act]
    split
    · exact f.leave_balances (fun _ _ => ⟨rfl, rfl⟩) rfl
    · exact f.keep_balances _ _ rfl rfl
  | _ =>
    simp only [act]
    split
    · exact f.consume_balances present _ fun _ _ => rfl
    · exact f.keep_balances _ _ rfl rfl

end Fifo

namespace Life

/-- Nothing is lost by an action and nothing appears. -/
theorem step_balances (present : α → Rendering) (l : Life α) (action : Action α) :
    (l.step present action).Balances l action := by
  cases l with
  | live f => exact f.act_balances present action
  | _ => cases action <;> rfl

/-- What was in a queue and what was offered to it is what was taken out of it,
in order, and what is in it now. -/
theorem run_balances (present : α → Rendering) (l : Life α) (actions : List (Action α)) :
    l.values ++ (l.exchanges present actions).filterMap Exchange.offered? =
      (l.exchanges present actions).flatMap Exchange.taken ++ (l.run present actions).values := by
  induction actions generalizing l with
  | nil => simp [exchanges, run]
  | cons action rest ih =>
    have hb := l.step_balances present action
    have hrest := ih (l.step present action).after
    rw [Effect.Balances] at hb
    rw [exchanges, List.filterMap_cons, List.flatMap_cons, List.append_assoc]
    show _ = _ ++ (_ ++ ((l.step present action).after.run present rest).values)
    rw [← hrest, ← List.append_assoc, ← hb]
    cases Exchange.offered? ⟨action, (l.step present action).reply, (l.step present action).dropped⟩
      <;> simp

end Life

/-! ### A list has no faults -/

theorem Fifo.consume_reply_ne_fault (present : α → Rendering) (f : Fifo α) (action : Action α)
    (x : Fault) : (f.consume present action).reply ≠ .fault x := by
  cases action with
  | dropConsumer =>
    simp only [consume, leave]
    split <;> simp
  | _ => simp [consume, keep]

theorem Fifo.act_reply_ne_fault (present : α → Rendering) (f : Fifo α) (action : Action α)
    (x : Fault) : (f.act present action).reply ≠ .fault x := by
  have hjoin : ∀ key, (f.join key).reply ≠ .fault x := by
    intro key
    unfold join
    split <;> simp [keep]
  have hkeep : (f.keep .noSuch).reply ≠ .fault x := by simp [keep]
  cases action with
  | create => exact hkeep
  | producer key =>
    rw [act]
    split
    · exact hjoin key
    · exact hkeep
  | clone source key =>
    rw [act]
    split
    · exact hjoin key
    · exact hkeep
  | offer via v =>
    rw [act]
    split
    · simp
    · exact hkeep
  | dropProducer key =>
    rw [act]
    split
    · unfold leave
      split <;> simp
    · exact hkeep
  | _ =>
    simp only [act]
    split
    · exact f.consume_reply_ne_fault present _ x
    · exact hkeep

theorem Life.step_reply_ne_fault (present : α → Rendering) (l : Life α) (action : Action α)
    (x : Fault) : (l.step present action).reply ≠ .fault x := by
  cases l with
  | live f => exact f.act_reply_ne_fault present action x
  | _ => cases action <;> simp [step]

theorem Life.reply_ne_fault (present : α → Rendering) (l : Life α) (actions : List (Action α)) :
    ∀ e ∈ l.exchanges present actions, ∀ x, e.reply ≠ .fault x := by
  induction actions generalizing l with
  | nil => intro e he; cases he
  | cons action rest ih =>
    intro e he
    rcases List.mem_cons.mp he with rfl | he
    · exact l.step_reply_ne_fault present action
    · exact ih _ e he

end LockFree.Queue
