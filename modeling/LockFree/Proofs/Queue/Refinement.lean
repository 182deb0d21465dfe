/-
# An arena works as so many lists

`Arena.Sound` is the invariant of an arena: its heap holds the chains of its
queues side by side and nothing else, no chain has a gap, and each queue counts
its handles rightly. A sound arena shows each of its queues as a list with
handles (`Arena.life`). One action on one queue answers what the list answers
and leaves the other lists as they are (`Sound.step`), so a run does
(`Sound.run`), whatever becomes of the addresses.

The main statement is `run_refines_list`: what is asked of a queue in any run is
answered as a list answers it, what was offered is what was taken and what is
left, and the chain is whole, so that the loops over it come to their end.
-/
import LockFree.Proofs.Queue.Chain
import LockFree.Proofs.Queue.Fifo
import Mathlib.Logic.Function.Basic

namespace LockFree.Queue

open Text (Rendering)

variable {α : Type}

/-- What the handles of a queue share fits the nodes behind its sentinel. -/
structure Shared.Fits (s : Shared) (es : List (Entry α)) : Prop where
  tail : s.chain.tail = lastAddress s.chain.head es
  whole : gaps s.chain.head es = []
  handles : s.handles = s.producers.length + s.consumer.toNat

/-- A queue as its users know it. -/
def Shared.toFifo (s : Shared) (es : List (Entry α)) : Fifo α :=
  ⟨es.map Entry.value, s.consumer, s.producers⟩

namespace Arena

/-- The cells of a queue, if it has any. -/
def cellsOf (es : List (Entry α)) : Option Shared → List (Address × Node α)
  | some s => spine s.chain.head none es
  | none => []

/-- The cells of several queues. -/
def cellsOfAll (nodes : Nat → List (Entry α)) (queues : List (Nat × Option Shared)) :
    List (Address × Node α) :=
  queues.flatMap fun e => cellsOf (nodes e.1) e.2

/-- The heap of the arena holds its queues' chains and nothing else; `nodes`
are the nodes behind the sentinel of each. -/
structure Sound (a : Arena α) (nodes : Nat → List (Entry α)) : Prop where
  keys : (a.queues.map Prod.fst).Nodup
  heap : a.heap.Holds (cellsOfAll nodes a.queues)
  fits : ∀ q s, (q, some s) ∈ a.queues → s.Fits (nodes q)

/-- What has become of the queue of a key. -/
def life (a : Arena α) (nodes : Nat → List (Entry α)) (q : Nat) : Life α :=
  match a.queues.lookup q with
  | none => .unmade
  | some none => .gone
  | some (some s) => .live (s.toFifo (nodes q))

/-- The queues of the other keys. -/
def others (a : Arena α) (q : Nat) : List (Nat × Option Shared) :=
  a.queues.filter fun e => e.1 ≠ q

/-! ### Queues by key -/

theorem perm_of_lookup {β : Type} {l : List (Nat × β)} {q : Nat} {x : β}
    (hk : (l.map Prod.fst).Nodup) (hl : l.lookup q = some x) :
    l.Perm ((q, x) :: l.filter fun e => e.1 ≠ q) := by
  induction l with
  | nil => cases hl
  | cons e l ih =>
    obtain ⟨k, y⟩ := e
    obtain ⟨hn, hk⟩ := List.nodup_cons.mp hk
    by_cases hq : k = q
    · subst hq
      obtain rfl : y = x := by simpa [List.lookup_cons] using hl
      have hall : (l.filter fun e => e.1 ≠ k) = l := by
        refine List.filter_eq_self.mpr fun e he => ?_
        have hne : e.1 ≠ k := fun h => hn (h ▸ List.mem_map.mpr ⟨e, he, rfl⟩)
        simpa using hne
      rw [List.filter_cons_of_neg (by simp), hall]
    · have hb : (q == k) = false := by simpa using fun h => hq h.symm
      rw [List.lookup_cons, hb] at hl
      rw [List.filter_cons_of_pos (by simpa using hq)]
      exact ((ih hk hl).cons _).trans (.swap _ _ _)

theorem lookup_filter_ne {β : Type} (l : List (Nat × β)) {q k : Nat} (hk : k ≠ q) :
    (l.filter fun e => e.1 ≠ q).lookup k = l.lookup k := by
  induction l with
  | nil => rfl
  | cons e l ih =>
    obtain ⟨i, y⟩ := e
    by_cases hi : i = q
    · subst hi
      have hb : (k == i) = false := by simpa using hk
      rw [List.filter_cons_of_neg (by simp), ih, List.lookup_cons, hb]
    · rw [List.filter_cons_of_pos (by simpa using hi), List.lookup_cons, List.lookup_cons, ih]

theorem shared?_eq {a : Arena α} {q : Nat} {x : Option (Option Shared)}
    (hl : a.queues.lookup q = x) : a.shared? q = x.join :=
  congrArg Option.join hl

theorem lookup_put (a : Arena α) (q k : Nat) (x : Option Shared) :
    (a.put q x).queues.lookup k = if k = q then some x else a.queues.lookup k := by
  by_cases hk : k = q
  · simp [put, hk]
  · have hb : (k == q) = false := by simpa using hk
    rw [if_neg hk, put, List.lookup_cons, hb]
    exact lookup_filter_ne a.queues hk

theorem not_mem_others (a : Arena α) (q : Nat) : q ∉ (a.others q).map Prod.fst := by
  intro hm
  obtain ⟨e, he, rfl⟩ := List.mem_map.mp hm
  simpa [others] using (List.mem_filter.mp he).2

theorem others_eq_self {a : Arena α} {q : Nat} (hl : a.queues.lookup q = none) :
    a.others q = a.queues := by
  refine List.filter_eq_self.mpr fun e he => ?_
  have hne : (q != e.1) = true := List.lookup_eq_none_iff.mp hl e he
  simpa using fun h : e.1 = q => bne_iff_ne.mp hne h.symm

theorem others_put (h : Heap α) (queues : List (Nat × Option Shared)) (q : Nat)
    (x : Option Shared) : (Arena.put ⟨h, queues⟩ q x).others q = others ⟨h, queues⟩ q := by
  simp [others, Arena.put]

/-- Only the nodes of queues that are listed matter. -/
theorem cellsOfAll_update (nodes : Nat → List (Entry α)) {queues : List (Nat × Option Shared)}
    {q : Nat} (hq : q ∉ queues.map Prod.fst) (es : List (Entry α)) :
    cellsOfAll (Function.update nodes q es) queues = cellsOfAll nodes queues := by
  refine List.flatMap_congr fun e he => ?_
  have hne : e.1 ≠ q := fun h => hq (h ▸ List.mem_map.mpr ⟨e, he, rfl⟩)
  rw [Function.update_of_ne hne]

/-! ### One queue and the rest -/

variable {a : Arena α} {nodes : Nat → List (Entry α)} {q : Nat} {s : Shared}

/-- A queue stands in the heap, and the other queues are the frame. -/
theorem Sound.stands (hs : a.Sound nodes) (hl : a.queues.lookup q = some (some s)) :
    s.chain.Stands a.heap (nodes q) (cellsOfAll nodes (a.others q)) ∧ s.Fits (nodes q) := by
  have hp := perm_of_lookup hs.keys hl
  have hf := hs.fits q s (hp.mem_iff.mpr List.mem_cons_self)
  exact ⟨⟨hs.heap.perm (hp.flatMap_right _), hf.tail⟩, hf⟩

/-- A queue is put in the place of another one, or where none was. -/
theorem Sound.put (hs : a.Sound nodes) {h : Heap α} {x : Option Shared} {es : List (Entry α)}
    (hh : h.Holds (cellsOf es x ++ cellsOfAll nodes (a.others q)))
    (hx : ∀ s, x = some s → s.Fits es) :
    (Arena.put ⟨h, a.queues⟩ q x).Sound (Function.update nodes q es) ∧
      (Arena.put ⟨h, a.queues⟩ q x).life (Function.update nodes q es) =
        Function.update (a.life nodes) q
          (match x with | none => .gone | some s => .live (s.toFifo es)) := by
  refine ⟨⟨?_, ?_, fun k t hm => ?_⟩, ?_⟩
  · refine List.nodup_cons.mpr ⟨not_mem_others a q, ?_⟩
    exact hs.keys.sublist (List.filter_sublist.map Prod.fst)
  · show h.Holds (cellsOf (Function.update nodes q es q) x ++
      cellsOfAll (Function.update nodes q es) (a.others q))
    rw [Function.update_self, cellsOfAll_update nodes (not_mem_others a q)]
    exact hh
  · rcases List.mem_cons.mp hm with he | hm
    · obtain ⟨rfl, rfl⟩ := Prod.mk.inj he
      rw [Function.update_self]
      exact hx t rfl
    · obtain ⟨hm, hk⟩ := List.mem_filter.mp hm
      rw [Function.update_of_ne (by simpa using hk)]
      exact hs.fits k t hm
  · funext k
    have hl := lookup_put ⟨h, a.queues⟩ q k x
    by_cases hk : k = q
    · subst hk
      rw [if_pos rfl] at hl
      rw [life, hl, Function.update_self, Function.update_self]
      cases x <;> rfl
    · rw [if_neg hk] at hl
      rw [life, hl, Function.update_of_ne hk, Function.update_of_ne hk]
      rfl

/-- An outcome is what the list says: the same answer, the same values dropped,
the same reports and the list after it; and the other queues are as they were,
each with the nodes that it had. -/
structure Outcome.Shows (o : Outcome α) (a : Arena α) (nodes : Nat → List (Entry α)) (q : Nat)
    (e : Effect α) : Prop where
  reply : o.reply = e.reply
  dropped : o.dropped = e.dropped
  events : o.events = e.events
  others : o.arena.others q = a.others q
  after : ∃ es, o.arena.Sound (Function.update nodes q es) ∧
    o.arena.life (Function.update nodes q es) = Function.update (a.life nodes) q e.after

theorem Sound.life_eq (hl : a.queues.lookup q = some (some s)) :
    a.life nodes q = .live (s.toFifo (nodes q)) := by
  rw [life, hl]

/-- Nothing is done. -/
theorem Sound.keep (hs : a.Sound nodes) (r : Reply α) :
    Outcome.Shows (a.keep r) a nodes q ⟨r, [], a.life nodes q⟩ :=
  ⟨rfl, rfl, (Effect.events_of_dropped_nil _ _).symm, rfl, nodes q,
    (Function.update_eq_self q nodes).symm ▸ ⟨hs, (Function.update_eq_self q _).symm⟩⟩

/-- A queue has another chain, or other handles. -/
theorem Sound.replace (hs : a.Sound nodes) {h : Heap α} {t : Shared} {es : List (Entry α)}
    (ht : t.chain.Stands h es (cellsOfAll nodes (a.others q))) (hg : gaps t.chain.head es = [])
    (hn : t.handles = t.producers.length + t.consumer.toNat) (r : Reply α) (dropped : List α) :
    Outcome.Shows ⟨r, dropped, [], Arena.put ⟨h, a.queues⟩ q (some t)⟩ a nodes q
      ⟨r, dropped, .live (t.toFifo es)⟩ := by
  have hput := hs.put (q := q) (x := some t) ht.heap fun s he => by
    cases he
    exact ⟨ht.tail, hg, hn⟩
  exact ⟨rfl, rfl, rfl, others_put h a.queues q _, es, hput⟩

/-- A chain changes; the handles stay. -/
theorem Sound.change (hs : a.Sound nodes) (hl : a.queues.lookup q = some (some s)) {β : Type}
    {x : Chain → Heap α → Except Fault (β × Chain × Heap α)} {b : β} {c : Chain} {h : Heap α}
    {es : List (Entry α)} (hx : x s.chain a.heap = .ok (b, c, h))
    (hc : c.Stands h es (cellsOfAll nodes (a.others q))) (hg : gaps c.head es = [])
    (f : β → Reply α × List α) :
    Outcome.Shows (a.change q s x f) a nodes q
      ⟨(f b).1, (f b).2, .live ⟨es.map Entry.value, s.consumer, s.producers⟩⟩ := by
  rw [Arena.change, hx]
  exact hs.replace (t := { s with chain := c }) hc hg (hs.stands hl).2.handles _ _

/-- A handle goes. With the last one the queue is taken apart. -/
theorem Sound.dropHandle (hs : a.Sound nodes) (hl : a.queues.lookup q = some (some s)) {t : Shared}
    (hc : t.chain = s.chain) (hn : t.handles = t.producers.length + t.consumer.toNat + 1) :
    Outcome.Shows (a.dropHandle q t) a nodes q (t.toFifo (nodes q)).leave := by
  obtain ⟨hst, hf⟩ := hs.stands hl
  have hh : (t.toFifo (nodes q)).handles = t.handles - 1 := by rw [hn]; rfl
  rw [Arena.dropHandle, Fifo.leave, hh]
  by_cases h1 : 1 < t.handles
  · rw [if_pos h1, if_neg (by omega)]
    refine hs.replace (t := { t with handles := t.handles - 1 }) ?_ ?_ ?_ _ _
    · exact hc ▸ hst
    · exact hc ▸ hf.whole
    · show t.handles - 1 = t.producers.length + t.consumer.toNat
      omega
  · obtain ⟨h', hd, hh'⟩ := hst.dismantle hf.whole
    rw [if_neg h1, if_pos (by omega), hc, hd]
    have hput : (Arena.put ⟨h', a.queues⟩ q none).Sound (Function.update nodes q (nodes q)) ∧ _ :=
      hs.put (q := q) (x := none) hh' fun s he => by cases he
    exact ⟨rfl, rfl, rfl, others_put h' a.queues q none, nodes q, hput⟩

/-! ### Actions and runs -/

/-- Nothing is done to a queue that has handles. -/
theorem Sound.refuse (hs : a.Sound nodes) (hl : a.queues.lookup q = some (some s)) (r : Reply α) :
    Outcome.Shows (a.keep r) a nodes q ((s.toFifo (nodes q)).keep r) := by
  have hk := hs.keep (q := q) r
  rwa [life_eq hl] at hk

/-- A queue is only looked at. -/
theorem Sound.look (hs : a.Sound nodes) (hl : a.queues.lookup q = some (some s)) {β : Type}
    {x : Except Fault β} {b : β} (hx : x = .ok b) (f : β → Reply α) :
    Outcome.Shows (a.look x f) a nodes q ((s.toFifo (nodes q)).keep (f b)) := by
  rw [hx]
  exact hs.refuse hl (f b)

/-- What is done through a handle is refused when there is none. -/
theorem Sound.gate (hs : a.Sound nodes) (hl : a.queues.lookup q = some (some s)) {P : Prop}
    [Decidable P] {o : Outcome α} {e : Effect α} (ho : P → Outcome.Shows o a nodes q e) :
    Outcome.Shows (if P then o else a.keep .noSuch) a nodes q
      (if P then e else (s.toFifo (nodes q)).keep .noSuch) := by
  by_cases hp : P
  · rw [if_pos hp, if_pos hp]
    exact ho hp
  · rw [if_neg hp, if_neg hp]
    exact hs.refuse hl .noSuch

theorem Sound.gateConsumer (hs : a.Sound nodes) (hl : a.queues.lookup q = some (some s))
    {o : Outcome α} {e : Effect α} (ho : s.consumer = true → Outcome.Shows o a nodes q e) :
    Outcome.Shows (if !s.consumer then a.keep .noSuch else o) a nodes q
      (if s.consumer then e else (s.toFifo (nodes q)).keep .noSuch) := by
  cases hc : s.consumer with
  | true => exact ho hc
  | false => exact hs.refuse hl .noSuch

theorem Sound.addProducer (hs : a.Sound nodes) (hl : a.queues.lookup q = some (some s))
    (key : Nat) :
    Outcome.Shows (a.addProducer q s key) a nodes q ((s.toFifo (nodes q)).join key) := by
  obtain ⟨hst, hf⟩ := hs.stands hl
  unfold Arena.addProducer Fifo.join
  by_cases hk : key ∈ s.producers
  · have hk' : key ∈ (s.toFifo (nodes q)).producers := hk
    rw [if_pos hk, if_pos hk']
    exact hs.refuse hl _
  · have hk' : key ∉ (s.toFifo (nodes q)).producers := hk
    rw [if_neg hk, if_neg hk']
    refine hs.replace (t := { s with handles := s.handles + 1, producers := key :: s.producers })
      hst hf.whole ?_ _ _
    show s.handles + 1 = (key :: s.producers).length + s.consumer.toNat
    rw [hf.handles, List.length_cons]
    omega

theorem Sound.offer (hs : a.Sound nodes) (hl : a.queues.lookup q = some (some s)) (v : α) :
    Outcome.Shows
      (a.change q s (fun chain heap => (chain.offer heap v).map fun r => ((), r))
        fun _ => (.accepted, []))
      a nodes q
      ⟨.accepted, [], .live ⟨(nodes q).map Entry.value ++ [v], s.consumer, s.producers⟩⟩ := by
  obtain ⟨hst, hf⟩ := hs.stands hl
  obtain ⟨b, h', ho, hst'⟩ := hst.offer v
  have hg : gaps s.chain.head (nodes q ++ [⟨b, v, true⟩]) = [] := by
    rw [gaps_append, hf.whole]
    rfl
  have hx : (s.chain.offer a.heap v).map (fun r => ((), r)) = .ok ((), ⟨s.chain.head, b⟩, h') := by
    rw [ho]
    rfl
  have hch := hs.change hl (x := fun chain heap => (chain.offer heap v).map fun r => ((), r)) hx
    hst' hg fun _ => (.accepted, [])
  rwa [List.map_append] at hch

theorem Sound.poll (hs : a.Sound nodes) (hl : a.queues.lookup q = some (some s)) :
    Outcome.Shows (a.change q s Chain.poll fun v => (.value v, [])) a nodes q
      ⟨.value ((nodes q).map Entry.value).head?, [],
        .live ⟨((nodes q).map Entry.value).tail, s.consumer, s.producers⟩⟩ := by
  obtain ⟨hst, hf⟩ := hs.stands hl
  have hw := hf.whole
  cases hn : nodes q with
  | nil =>
    rw [hn] at hst hw
    exact hs.change hl (hst.poll_none rfl) hst hw _
  | cons e es =>
    obtain ⟨b, v, l⟩ := e
    rw [hn] at hst hw
    cases l with
    | false => cases hw
    | true =>
      obtain ⟨h', hp, hst'⟩ := hst.poll_some
      exact hs.change hl hp hst' hw _

theorem Sound.clear (hs : a.Sound nodes) (hl : a.queues.lookup q = some (some s)) :
    Outcome.Shows (a.change q s Chain.drain fun vs => (.done, vs)) a nodes q
      ⟨.done, (nodes q).map Entry.value, .live ⟨[], s.consumer, s.producers⟩⟩ := by
  obtain ⟨hst, hf⟩ := hs.stands hl
  obtain ⟨c, h', hd, hst'⟩ := hst.drain
  rw [visible_eq_self hf.whole] at hd
  rw [dropWhile_linked_eq_nil hf.whole] at hst'
  exact hs.change hl hd hst' rfl _

/-- An action on a queue that has handles. -/
theorem Sound.act (hs : a.Sound nodes) (hl : a.queues.lookup q = some (some s))
    (present : α → Rendering) (action : Action α) :
    Outcome.Shows (a.act present q s action) a nodes q
      ((s.toFifo (nodes q)).act present action) := by
  obtain ⟨hst, hf⟩ := hs.stands hl
  have hv := visible_eq_self hf.whole
  have hvalues : s.chain.values a.heap = .ok (s.toFifo (nodes q)).values := by
    rw [hst.values, hv]
    rfl
  have hsize : s.chain.size a.heap = .ok (s.toFifo (nodes q)).values.length := by
    rw [hst.size, hv]
    exact congrArg Except.ok (List.length_map _).symm
  cases action with
  | create => exact hs.refuse hl _
  | producer key => exact hs.gate hl fun _ => hs.addProducer hl key
  | clone source key => exact hs.gate hl fun _ => hs.addProducer hl key
  | offer via v => cases via <;> exact hs.gate hl fun _ => hs.offer hl v
  | dropProducer key =>
    refine hs.gate hl fun hk => hs.dropHandle hl rfl ?_
    show s.handles = (s.producers.erase key).length + s.consumer.toNat + 1
    have hpos := List.length_pos_of_mem hk
    rw [hf.handles, List.length_erase_of_mem hk]
    omega
  | dropConsumer =>
    refine hs.gateConsumer hl fun hc => hs.dropHandle hl rfl ?_
    show s.handles = s.producers.length + 0 + 1
    rw [hf.handles, hc]
    rfl
  | poll => exact hs.gateConsumer hl fun _ => hs.poll hl
  | clear => exact hs.gateConsumer hl fun _ => hs.clear hl
  | peek =>
    have hpeek : s.chain.peek a.heap = .ok (s.toFifo (nodes q)).values.head? := by
      rw [hst.peek, hv]
      exact congrArg Except.ok List.head?_map.symm
    exact hs.gateConsumer hl fun _ => hs.look hl hpeek _
  | isEmpty =>
    have hempty : s.chain.isEmpty a.heap = .ok (s.toFifo (nodes q)).values.isEmpty := by
      rw [hst.isEmpty, hv]
      exact congrArg Except.ok List.isEmpty_map.symm
    exact hs.gateConsumer hl fun _ => hs.look hl hempty _
  | size => exact hs.gateConsumer hl fun _ => hs.look hl hsize _
  | display sink => exact hs.gateConsumer hl fun _ => hs.look hl hvalues _
  | inspect =>
    have hhandles : s.handles = (s.toFifo (nodes q)).handles := hf.handles
    rw [Arena.act, hhandles]
    exact hs.gateConsumer hl fun _ => hs.look hl hsize _

/-- An action on the queue of a key. -/
theorem Sound.step (hs : a.Sound nodes) (present : α → Rendering) (q : Nat) (action : Action α) :
    Outcome.Shows (a.step present q action) a nodes q
      ((a.life nodes q).step present action) := by
  rcases hl : a.queues.lookup q with _ | _ | s
  · have hlife : a.life nodes q = .unmade := by rw [life, hl]
    have hshared : a.shared? q = none := shared?_eq hl
    have hkeep := hs.keep (q := q) .noSuch
    rw [hlife] at hkeep ⊢
    cases action with
    | create =>
      have hst : (Chain.create a.heap).1.Stands (Chain.create a.heap).2 []
          (cellsOfAll nodes (a.others q)) :=
        Chain.create_stands (others_eq_self hl ▸ hs.heap)
      simp only [Arena.step, hshared, Arena.create, hl]
      exact hs.replace (t := ⟨(Chain.create a.heap).1, 1, true, []⟩) hst rfl rfl _ _
    | _ =>
      simp only [Arena.step, hshared]
      exact hkeep
  · have hlife : a.life nodes q = .gone := by rw [life, hl]
    have hshared : a.shared? q = none := shared?_eq hl
    have hkeep := hs.keep (q := q) .noSuch
    rw [hlife] at hkeep ⊢
    cases action with
    | create =>
      simp only [Arena.step, hshared, Arena.create, hl]
      exact hkeep
    | _ =>
      simp only [Arena.step, hshared]
      exact hkeep
  · have hshared : a.shared? q = some s := shared?_eq hl
    simp only [Arena.step, hshared, life_eq hl]
    exact hs.act hl present action

/-- The arena after actions one after another, each on the queue of a key. -/
def run (present : α → Rendering) (a : Arena α) (work : List (Nat × Action α)) : Arena α :=
  work.foldl (fun a w => (a.step present w.1 w.2).arena) a

/-- What is asked of one queue. -/
def asked (q : Nat) (work : List (Nat × Action α)) : List (Action α) :=
  (work.filter fun w => w.1 = q).map Prod.snd

theorem asked_cons_self (q : Nat) (action : Action α) (rest : List (Nat × Action α)) :
    asked q ((q, action) :: rest) = action :: asked q rest := by
  simp [asked]

theorem asked_cons_ne {k q : Nat} (hk : k ≠ q) (action : Action α) (rest : List (Nat × Action α)) :
    asked q ((k, action) :: rest) = asked q rest := by
  simp [asked, hk]

/-- What one queue answers. -/
def exchanges (present : α → Rendering) (q : Nat) : Arena α → List (Nat × Action α) →
    List (Exchange α)
  | _, [] => []
  | a, w :: rest =>
    let o := a.step present w.1 w.2
    if w.1 = q then ⟨w.2, o.reply, o.dropped⟩ :: exchanges present q o.arena rest
    else exchanges present q o.arena rest

/-- A run shows each queue what its own actions make of a list. -/
theorem Sound.run (hs : a.Sound nodes) (present : α → Rendering) (work : List (Nat × Action α)) :
    ∃ nodes', (a.run present work).Sound nodes' ∧
      ∀ q, (a.run present work).life nodes' q = (a.life nodes q).run present (asked q work) ∧
        a.exchanges present q work = (a.life nodes q).exchanges present (asked q work) := by
  induction work generalizing a nodes with
  | nil => exact ⟨nodes, hs, fun q => ⟨rfl, rfl⟩⟩
  | cons w rest ih =>
    obtain ⟨k, action⟩ := w
    obtain ⟨hr, hd, -, -, es, hs₁, hlife⟩ := hs.step present k action
    obtain ⟨nodes', hs', hrest⟩ := ih hs₁
    refine ⟨nodes', hs', fun q => ?_⟩
    obtain ⟨hl, hx⟩ := hrest q
    rw [hlife] at hl hx
    by_cases hq : k = q
    · subst hq
      rw [Function.update_self] at hl hx
      rw [asked_cons_self]
      refine ⟨hl, ?_⟩
      simp only [exchanges, Life.exchanges, if_true, hr, hd, hx]
    · rw [Function.update_of_ne (Ne.symm hq)] at hl hx
      rw [asked_cons_ne hq]
      refine ⟨hl, ?_⟩
      simp only [exchanges, hq, if_false, hx]

theorem sound_empty : ({} : Arena α).Sound fun _ => [] :=
  ⟨List.nodup_nil, Heap.holds_empty, fun q s hm => by cases hm⟩

/-- **A queue is a list.** In every run over queues that share a heap, a queue
answers and drops what the list model does, never by a fault of the heap; what
was offered is what was taken out, in order, and what is in it; and while it has
handles its chain is whole and spells just the values of the list. -/
theorem run_refines_list (present : α → Rendering) (work : List (Nat × Action α)) (q : Nat) :
    let a := Arena.run present {} work
    let xs := Arena.exchanges present q {} work
    let l := Life.run present .unmade (asked q work)
    xs = Life.exchanges present .unmade (asked q work) ∧
      (∀ e ∈ xs, ∀ x, e.reply ≠ .fault x) ∧
      xs.filterMap Exchange.offered? = xs.flatMap Exchange.taken ++ l.values ∧
      ∀ f, l = .live f → ∃ s nodes, a.shared? q = some s ∧
        s.consumer = f.consumer ∧ s.producers = f.producers ∧
        s.chain.Spells a.heap nodes f.values ∧ s.chain.LoopsEnd a.heap f.values := by
  obtain ⟨nodes, hs, hrun⟩ := sound_empty.run present work
  obtain ⟨hl, hx⟩ := hrun q
  have hunmade : ({} : Arena α).life (fun _ => []) q = .unmade := rfl
  rw [hunmade] at hl hx
  refine ⟨hx, ?_, ?_, fun f hf => ?_⟩
  · rw [hx]
    exact Life.reply_ne_fault present _ _
  · rw [hx]
    exact Life.run_balances present .unmade (asked q work)
  · rw [hf, life] at hl
    split at hl
    · cases hl
    · cases hl
    · rename_i s hlook
      obtain ⟨hst, hfit⟩ := hs.stands hlook
      obtain rfl := Life.live.inj hl
      refine ⟨s, _, ?_, rfl, rfl, hst.spells hfit.whole, hst.loopsEnd hfit.whole⟩
      rw [shared?, hlook]
      rfl

end Arena
end LockFree.Queue
