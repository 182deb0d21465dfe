/-
# Queues do not interfere

All queues take their nodes from one heap, so an address that one of them frees
may be the next one's. Which address it is does not show. Here a request names
the address that the allocator has in hand (`Request.address`); a node is put
there unless another one stands there, so requests tell the runs over every
allocator that gives out what is free (`Heap.fresh_offering`). What a queue
tells in such a run (`Arena.accounts`) is what a list tells to which the same
was asked (`Arena.Sound.serveAll`): the requests to other queues can be left
out, and the addresses be others.

A queue shows how many producers it has as one less than the handles that it
counts. There is always a handle to be left out (`Arena.Sound.handles_counted`),
and what is left is the producers that were made and not dropped
(`Life.record_shown`).

Key definitions: `Request`, `Arena.serve`, `Arena.accounts`, `Exchange.producers`.
Key theorems: `Life.run_producers`, `Life.record_shown`, `Arena.Sound.serveAll`,
`Arena.Sound.handles_counted`, `Arena.queues_apart`.
-/
import LockFree.Proofs.Queue.Drops

namespace LockFree.Queue

open Decimal (natText)
open Text (Rendering)

variable {α : Type}

/-! ### Producers of a list -/

namespace Exchange

/-- By how much the producers of a queue became more or fewer. -/
def producers : Exchange α → Int
  | ⟨.producer _, .done, _⟩ | ⟨.clone _ _, .done, _⟩ => 1
  | ⟨.dropProducer _, .done, _⟩ => -1
  | _ => 0

/-- The producers that are left after exchanges from the making of a queue on. -/
def aliveProducers : List (Exchange α) → Int
  | [] => 0
  | x :: xs => x.producers + aliveProducers xs

end Exchange

/-- The keys of the producers of a queue. -/
def Life.producers : Life α → List Nat
  | .live f => f.producers
  | _ => []

/-- The producers of the queue after an action are those before it and the ones
that it says. -/
def Effect.CountsProducers (l : Life α) (action : Action α) (e : Effect α) : Prop :=
  Exchange.producers ⟨action, e.reply, e.dropped⟩ + l.producers.length = e.after.producers.length

namespace Fifo

variable {f : Fifo α} {action : Action α}

theorem keep_countsProducers {r : Reply α} (hr : Exchange.producers ⟨action, r, []⟩ = 0) :
    (f.keep r).CountsProducers (.live f) action := by
  rw [Effect.CountsProducers, keep, hr, Int.zero_add]

theorem join_countsProducers (key : Nat) (hdone : Exchange.producers ⟨action, .done, []⟩ = 1)
    (hnone : Exchange.producers ⟨action, .noSuch, []⟩ = 0) :
    (f.join key).CountsProducers (.live f) action := by
  unfold join
  split
  · exact keep_countsProducers hnone
  · rw [Effect.CountsProducers, hdone, Int.add_comm]
    rfl

/-- A handle goes; `g` is the queue without it. -/
theorem leave_countsProducers {g : Fifo α} (hg : ∀ dropped,
    Exchange.producers ⟨action, .done, dropped⟩ + f.producers.length = g.producers.length) :
    g.leave.CountsProducers (.live f) action := by
  unfold leave
  split
  · -- The queue goes with its last handle, so no producer was left.
    rename_i hzero
    have hnone : g.producers.length = 0 := (Nat.add_eq_zero_iff.mp hzero).1
    exact (hg g.values).trans (congrArg Int.ofNat hnone)
  · exact hg []

theorem act_countsProducers (present : α → Rendering) (f : Fifo α) (action : Action α) :
    (f.act present action).CountsProducers (.live f) action := by
  cases action with
  | producer key =>
    rw [act]
    split
    · exact join_countsProducers key rfl rfl
    · exact keep_countsProducers rfl
  | clone source key =>
    rw [act]
    split
    · exact join_countsProducers key rfl rfl
    · exact keep_countsProducers rfl
  | dropProducer key =>
    rw [act]
    split
    · rename_i hkey
      refine leave_countsProducers fun dropped => ?_
      have hpos := List.length_pos_of_mem hkey
      simp only [Exchange.producers, List.length_erase_of_mem hkey]
      omega
    · exact keep_countsProducers rfl
  | dropConsumer =>
    simp only [act]
    split
    · exact leave_countsProducers fun dropped => Int.zero_add _
    · exact keep_countsProducers rfl
  | create => exact keep_countsProducers rfl
  | _ =>
    simp only [act]
    split
    · exact Int.zero_add _
    · exact keep_countsProducers rfl

end Fifo

namespace Life

theorem step_countsProducers (present : α → Rendering) (l : Life α) (action : Action α) :
    (l.step present action).CountsProducers l action := by
  cases l with
  | live f => exact f.act_countsProducers present action
  | _ => cases action <;> rfl

/-- The producers of a queue are those that were made and not dropped. -/
theorem run_producers (present : α → Rendering) (l : Life α) (actions : List (Action α)) :
    Exchange.aliveProducers (l.exchanges present actions) + l.producers.length =
      (l.run present actions).producers.length := by
  induction actions generalizing l with
  | nil => exact Int.zero_add _
  | cons action rest ih =>
    have hstep := l.step_countsProducers present action
    have hrest := ih (l.step present action).after
    rw [Effect.CountsProducers] at hstep
    rw [exchanges, Exchange.aliveProducers]
    show _ = (((l.step present action).after.run present rest).producers.length : Int)
    omega

/-- An exchange is what a queue says that the exchanges before it have left. -/
theorem exchanges_eq_append {present : α → Rendering} {l : Life α} {actions : List (Action α)}
    {before after : List (Exchange α)} {x : Exchange α}
    (hx : l.exchanges present actions = before ++ x :: after) :
    ∃ earlier, before = l.exchanges present earlier ∧
      x.reply = ((l.run present earlier).step present x.action).reply := by
  induction before generalizing l actions with
  | nil =>
    cases actions with
    | nil => cases hx
    | cons action rest =>
      obtain ⟨rfl, -⟩ := List.cons.inj hx
      exact ⟨[], rfl, rfl⟩
  | cons y before ih =>
    cases actions with
    | nil => cases hx
    | cons action rest =>
      obtain ⟨rfl, hrest⟩ := List.cons.inj hx
      obtain ⟨earlier, rfl, hreply⟩ := ih hrest
      exact ⟨action :: earlier, rfl, hreply⟩

/-- Only a consumer sees a queue as a record. -/
theorem step_record {present : α → Rendering} {l : Life α} {r : Text.Record}
    (hr : (l.step present .inspect).reply = .record r) : ∃ f : Fifo α, l = .live f ∧
      r = Arena.recordOf f.values.length (f.producers.length + 1) := by
  cases l with
  | live f =>
    simp only [step, Fifo.act] at hr
    split at hr
    · rename_i hc
      refine ⟨f, rfl, ?_⟩
      have hhandles : f.handles = f.producers.length + 1 := by rw [Fifo.handles, hc]; rfl
      rw [← hhandles]
      exact (Reply.record.inj hr).symm
    · cases hr
  | _ => cases hr

/-- A record shows the values that were offered and not taken, and the producers
that were made and not dropped. -/
theorem record_shown {present : α → Rendering} {actions : List (Action α)}
    {before after : List (Exchange α)} {r : Text.Record} {dropped : List α}
    (hx : exchanges present .unmade actions = before ++ ⟨.inspect, .record r, dropped⟩ :: after) :
    ∃ size producers : Nat, r = ⟨"ManyToOneLinkedQueue",
        [("size", natText size), ("producers", natText producers)]⟩ ∧
      (before.filterMap Exchange.offered?).length =
        (before.flatMap Exchange.taken).length + size ∧
      (producers : Int) = Exchange.aliveProducers before := by
  obtain ⟨earlier, rfl, hreply⟩ := exchanges_eq_append hx
  obtain ⟨f, hf, rfl⟩ := step_record hreply.symm
  have hvalues := run_balances present .unmade earlier
  have hproducers := run_producers present .unmade earlier
  rw [hf] at hvalues hproducers
  refine ⟨f.values.length, f.producers.length, rfl, ?_, ?_⟩
  · exact (congrArg List.length hvalues).trans List.length_append
  · exact hproducers.symm.trans (Int.add_zero _)

end Life

/-! ### Addresses of the allocator's choice -/

namespace Heap

/-- The heap, with this address in the allocator's hand. -/
def offering (h : Heap α) (b : Address) : Heap α := { h with spare := [b] }

/-- Whatever is free may be given out. -/
theorem fresh_offering {h : Heap α} {b : Address} (hb : h.node? b = none) :
    (h.offering b).fresh = b :=
  if_pos (Option.isNone_iff_eq_none.mpr hb)

end Heap

/-- An action that is asked of a queue, and the address that the allocator then
has in hand. -/
structure Request (α : Type) where
  queue : Nat
  action : Action α
  address : Address

/-- The request without the address. -/
def Request.work (r : Request α) : Nat × Action α := (r.queue, r.action)

/-- What is told of an action: what was answered and dropped, and what was
reported. -/
structure Account (α : Type) where
  exchange : Exchange α
  events : List Event

/-- What a queue tells of actions one after another. -/
def Life.accounts (present : α → Rendering) : Life α → List (Action α) → List (Account α)
  | _, [] => []
  | l, action :: rest =>
    let e := l.step present action
    ⟨⟨action, e.reply, e.dropped⟩, e.events⟩ :: accounts present e.after rest

theorem Life.accounts_told (present : α → Rendering) (l : Life α) (actions : List (Action α)) :
    (l.accounts present actions).map Account.exchange = l.exchanges present actions ∧
      (l.accounts present actions).flatMap Account.events = l.reports present actions := by
  induction actions generalizing l with
  | nil => exact ⟨rfl, rfl⟩
  | cons action rest ih =>
    obtain ⟨hx, hr⟩ := ih (l.step present action).after
    rw [accounts, exchanges, reports, List.map_cons, List.flatMap_cons, hx, hr]
    exact ⟨rfl, rfl⟩

namespace Arena

/-- The answer to a request. -/
def serve (present : α → Rendering) (a : Arena α) (r : Request α) : Outcome α :=
  { a with heap := a.heap.offering r.address }.step present r.queue r.action

/-- The arena after requests one after another. -/
def serveAll (present : α → Rendering) (a : Arena α) (requests : List (Request α)) : Arena α :=
  requests.foldl (fun a r => (a.serve present r).arena) a

/-- What one queue tells. -/
def accounts (present : α → Rendering) (q : Nat) : Arena α → List (Request α) → List (Account α)
  | _, [] => []
  | a, r :: rest =>
    let o := a.serve present r
    if r.queue = q then
      ⟨⟨r.action, o.reply, o.dropped⟩, o.events⟩ :: accounts present q o.arena rest
    else accounts present q o.arena rest

variable {a : Arena α} {nodes : Nat → List (Entry α)}

/-- Which address is next is not part of what an arena holds. -/
theorem Sound.offering (hs : a.Sound nodes) (b : Address) :
    ({ a with heap := a.heap.offering b } : Arena α).Sound nodes :=
  ⟨hs.keys, ⟨hs.heap.nodup, hs.heap.node?_iff⟩, hs.fits⟩

/-- Requests show each queue what its own actions make of a list, wherever its
nodes are put. -/
theorem Sound.serveAll (hs : a.Sound nodes) (present : α → Rendering)
    (requests : List (Request α)) :
    ∃ nodes', (a.serveAll present requests).Sound nodes' ∧ ∀ q,
      (a.serveAll present requests).life nodes' q =
        (a.life nodes q).run present (asked q (requests.map Request.work)) ∧
      a.accounts present q requests =
        (a.life nodes q).accounts present (asked q (requests.map Request.work)) := by
  induction requests generalizing a nodes with
  | nil => exact ⟨nodes, hs, fun q => ⟨rfl, rfl⟩⟩
  | cons r rest ih =>
    -- Soundness outlasts the allocator's choice, and from there it is one step.
    obtain ⟨k, action, b⟩ := r
    obtain ⟨hreply, hdropped, hevents, -, es, hs₁, hlife⟩ := (hs.offering b).step present k action
    obtain ⟨nodes', hs', hrest⟩ := ih hs₁
    refine ⟨nodes', hs', fun q => ?_⟩
    obtain ⟨hl, hx⟩ := hrest q
    rw [hlife] at hl hx
    rw [List.map_cons]
    by_cases hq : k = q
    · subst hq
      rw [Function.update_self] at hl hx
      rw [Request.work, asked_cons_self]
      refine ⟨hl, ?_⟩
      simp only [accounts, serve, Life.accounts, if_true, hreply, hdropped, hevents, hx]
      rfl
    · rw [Function.update_of_ne (Ne.symm hq)] at hl hx
      rw [Request.work, asked_cons_ne hq]
      refine ⟨hl, ?_⟩
      simp only [accounts, serve, hq, if_false, hx]
      rfl

/-- What a queue tells from the beginning on is what a list tells. -/
theorem accounts_eq (present : α → Rendering) (requests : List (Request α)) (q : Nat) :
    accounts present q {} requests =
      Life.accounts present .unmade (asked q (requests.map Request.work)) := by
  obtain ⟨_, -, hrest⟩ := sound_empty.serveAll present requests
  exact (hrest q).2

theorem asked_alone (q : Nat) (requests : List (Request α)) :
    asked q ((requests.filter fun r => r.queue = q).map Request.work) =
      asked q (requests.map Request.work) := by
  induction requests with
  | nil => rfl
  | cons r rest ih =>
    by_cases hq : r.queue = q
    · rw [List.filter_cons_of_pos (by simpa using hq), List.map_cons, List.map_cons, Request.work,
        hq, asked_cons_self, asked_cons_self, ih]
    · rw [List.filter_cons_of_neg (by simpa using hq), List.map_cons, Request.work,
        asked_cons_ne hq, ih]

/-- A queue counts the producers that were made and not dropped, and the
consumer. -/
theorem Sound.handles_counted (hs : a.Sound nodes) {present : α → Rendering} {q : Nat}
    {actions : List (Action α)} (hlife : a.life nodes q = Life.run present .unmade actions)
    {s : Shared} (hshared : a.shared? q = some s) :
    0 < s.handles ∧ s.handles = s.producers.length + s.consumer.toNat ∧
      (s.producers.length : Int) =
        Exchange.aliveProducers (Life.exchanges present .unmade actions) := by
  have hlook : a.queues.lookup q = some (some s) := Option.join_eq_some_iff.mp hshared
  have hhandles : s.handles = s.producers.length + s.consumer.toNat := (hs.stands hlook).2.handles
  have hrun : Life.run present .unmade actions = .live (s.toFifo (nodes q)) :=
    hlife.symm.trans (Sound.life_eq hlook)
  have hheld : 0 < s.producers.length + s.consumer.toNat := (Life.run_live present _ hrun).1
  have hproducers := Life.run_producers present .unmade actions
  rw [hrun] at hproducers
  exact ⟨hhandles ▸ hheld, hhandles, hproducers.symm.trans (Int.add_zero _)⟩

/-- **Queues do not interfere.** What a queue tells in a run, its answers, the
values it drops and what is reported of it, is what a list tells of the same
actions. So it is what the queue tells without the requests to the other queues,
or with others in their place, wherever the allocator puts the nodes, and in the
runs of the arena's own allocator. None of it is a fault. A record that it shows
has the number of the values that were offered and not taken, and of the
producers that were made and not dropped; for the handles that a queue counts
are these producers and the consumer, if there is one, and never none. -/
theorem queues_apart (present : α → Rendering) (requests : List (Request α)) (q : Nat) :
    let work := requests.map Request.work
    let told := Arena.accounts present q {} requests
    let xs := told.map Account.exchange
    told = Life.accounts present .unmade (asked q work) ∧
      Arena.accounts present q {} (requests.filter fun r => r.queue = q) = told ∧
      (∀ requests', asked q (requests'.map Request.work) = asked q work →
        Arena.accounts present q {} requests' = told) ∧
      Arena.exchanges present q {} work = xs ∧
      Arena.reports present q {} work = told.flatMap Account.events ∧
      (∀ x ∈ xs, ∀ f, x.reply ≠ .fault f) ∧
      (∀ before r dropped after, xs = before ++ ⟨.inspect, .record r, dropped⟩ :: after →
        ∃ size producers : Nat, r = ⟨"ManyToOneLinkedQueue",
            [("size", natText size), ("producers", natText producers)]⟩ ∧
          (before.filterMap Exchange.offered?).length =
            (before.flatMap Exchange.taken).length + size ∧
          (producers : Int) = Exchange.aliveProducers before) ∧
      ∀ s, (Arena.serveAll present {} requests).shared? q = some s ∨
          (Arena.run present {} work).shared? q = some s →
        0 < s.handles ∧ s.handles = s.producers.length + s.consumer.toNat ∧
          (s.producers.length : Int) = Exchange.aliveProducers xs := by
  intro work told xs
  have htold : told = Life.accounts present .unmade (asked q work) := accounts_eq present requests q
  obtain ⟨hexchanges, hreports⟩ := Life.accounts_told present .unmade (asked q work)
  have hxs : xs = Life.exchanges present .unmade (asked q work) := by
    rw [← hexchanges, ← htold]
  obtain ⟨nodes, hserved, hlife⟩ := sound_empty.serveAll present requests
  obtain ⟨nodes', hran, hrun⟩ := sound_empty.run_ledger present work
  refine ⟨htold, ?_, fun requests' hasked => ?_, ?_, ?_, ?_, fun before r dropped after hx => ?_,
    fun s hshared => ?_⟩
  · rw [accounts_eq, asked_alone, htold]
  · rw [accounts_eq, hasked, htold]
  · obtain ⟨_, -, hanswers⟩ := sound_empty.run present work
    exact (hanswers q).2.trans hxs.symm
  · rw [htold, hreports]
    exact (hrun q).2.1
  · rw [hxs]
    exact Life.reply_ne_fault present .unmade _
  · exact Life.record_shown (hxs.symm.trans hx)
  · rw [hxs]
    rcases hshared with hshared | hshared
    · exact hserved.handles_counted (hlife q).1 hshared
    · exact hran.handles_counted (hrun q).1 hshared

/-- Two queues hand each other their addresses: queue 1 puts a value where queue
0 had its sentinel, and the producer that is left of queue 0 one where queue 1
had its own. -/
def handedOver : List (Request Nat) :=
  [⟨0, .create, 0⟩, ⟨0, .producer 7, 0⟩, ⟨0, .offer none 10, 1⟩, ⟨1, .create, 2⟩, ⟨0, .poll, 0⟩,
    ⟨1, .offer none 20, 0⟩, ⟨0, .inspect, 0⟩, ⟨0, .dropConsumer, 0⟩, ⟨1, .poll, 0⟩,
    ⟨0, .offer (some 7) 30, 2⟩, ⟨1, .dropConsumer, 0⟩, ⟨0, .dropProducer 7, 0⟩]

/-- What is asked of queue 0 there, at other addresses. -/
def keptApart : List (Request Nat) :=
  [⟨0, .create, 9⟩, ⟨0, .producer 7, 0⟩, ⟨0, .offer none 10, 4⟩, ⟨0, .poll, 0⟩, ⟨0, .inspect, 0⟩,
    ⟨0, .dropConsumer, 0⟩, ⟨0, .offer (some 7) 30, 6⟩, ⟨0, .dropProducer 7, 0⟩]

theorem queues_apart_handedOver :
    asked 0 (keptApart.map Request.work) = asked 0 (handedOver.map Request.work) ∧
      Arena.accounts (fun n => ⟨natText n, true⟩) 0 {} keptApart =
        Arena.accounts (fun n => ⟨natText n, true⟩) 0 {} handedOver ∧
      (Arena.accounts (fun n => ⟨natText n, true⟩) 0 {} handedOver).map
          (fun account => account.exchange.reply) =
        [.done, .done, .accepted, .value (some 10),
          .record ⟨"ManyToOneLinkedQueue", [("size", "0"), ("producers", "1")]⟩, .done, .accepted,
          .done] ∧
      Arena.reports (fun n => ⟨natText n, true⟩) 0 {} (handedOver.map Request.work) =
        [.queueDropped 1] := by
  have hasked : asked 0 (keptApart.map Request.work) = asked 0 (handedOver.map Request.work) := rfl
  obtain ⟨htold, -, hsame, -, hreports, -⟩ :=
    queues_apart (fun n => ⟨natText n, true⟩) handedOver 0
  exact ⟨hasked, hsame _ hasked, (congrArg _ htold).trans rfl, hreports.trans rfl⟩

end Arena
end LockFree.Queue
