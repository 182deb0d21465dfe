/-
# Every value and every node goes once

A value can be dropped in two places: by whoever took it out, or by the queue
itself when its last handle goes. And a node is freed in two: when a poll moves
past it, or with the whole chain. Which of them it is depends on how many
handles there are, and they may go in any order, the consumer before producers
that go on offering.

A run is told by its exchanges. Of a queue that is a list (`Life.Tally`): while
a handle is alive, what was dropped is what was taken out by polls; with the
last handle goes what is left, and then everything has been dropped, in the
order of the offers. Of the heap (`Arena.Sound.step_ledger`): what a queue's
chain had and what an action gained is what the action lost and what the chain
has then. Nothing of this depends on the other queues in the heap, though
addresses that one gives up are taken by another.

Key definitions: `Exchange.alive`, `Exchange.polled`, `Arena.allocated`,
`Arena.freed`, `Arena.reports`.
Key theorems: `Life.run_tally`, `Arena.Sound.step_ledger`, `Arena.Sound.run_ledger`,
`Arena.drops_once`.
-/
import LockFree.Proofs.Queue.Refinement

namespace LockFree.Queue

open Text (Rendering)

variable {α : Type}

/-! ### What exchanges say -/

namespace Exchange

/-- By how much the handles of a queue became more or fewer. -/
def handles : Exchange α → Int
  | ⟨.create, .done, _⟩ | ⟨.producer _, .done, _⟩ | ⟨.clone _ _, .done, _⟩ => 1
  | ⟨.dropConsumer, .done, _⟩ | ⟨.dropProducer _, .done, _⟩ => -1
  | _ => 0

/-- The handles that are left after exchanges from the making of a queue on. -/
def alive : List (Exchange α) → Int
  | [] => 0
  | x :: xs => x.handles + alive xs

/-- The values that were polled, one or all there were. -/
def polled : Exchange α → List α
  | ⟨.poll, .value v, _⟩ => v.toList
  | ⟨.clear, _, dropped⟩ => dropped
  | _ => []

end Exchange

/-! ### A queue that is a list -/

/-- The handles on a queue. -/
def Life.handles : Life α → Nat
  | .live f => f.handles
  | _ => 0

/-- A queue that is there has a handle. -/
def Life.Held (l : Life α) : Prop := ∀ f, l = .live f → 0 < f.handles

/-- How an action counts. -/
structure Effect.Counts (l : Life α) (action : Action α) (e : Effect α) : Prop where
  handles : Exchange.handles ⟨action, e.reply, e.dropped⟩ + l.handles = e.after.handles
  held : e.after.Held
  /-- What goes while the queue stays was polled. -/
  stays : e.after ≠ .gone →
    Exchange.taken ⟨action, e.reply, e.dropped⟩ = Exchange.polled ⟨action, e.reply, e.dropped⟩
  /-- What goes with the queue was not. -/
  goes : e.after = .gone → Exchange.polled ⟨action, e.reply, e.dropped⟩ = [] ∧
    Exchange.taken ⟨action, e.reply, e.dropped⟩ = e.dropped

namespace Fifo

variable {f : Fifo α}

/-- An action that changes no handle. -/
theorem live_counts {action : Action α} {r : Reply α} {dropped : List α} {g : Fifo α}
    (hf : 0 < f.handles) (hg : g.handles = f.handles)
    (hh : Exchange.handles ⟨action, r, dropped⟩ = 0)
    (ht : Exchange.taken ⟨action, r, dropped⟩ = Exchange.polled ⟨action, r, dropped⟩) :
    Effect.Counts (.live f) action ⟨r, dropped, .live g⟩ := by
  refine ⟨?_, fun f' he => ?_, fun _ => ht, fun he => by cases he⟩
  · rw [hh, Int.zero_add]
    exact congrArg Int.ofNat hg.symm
  · obtain rfl := Life.live.inj he
    exact hg ▸ hf

theorem join_counts {action : Action α} (hf : 0 < f.handles) (key : Nat)
    (hdone : Exchange.handles ⟨action, .done, []⟩ = 1)
    (hnone : Exchange.handles ⟨action, .noSuch, []⟩ = 0)
    (ht : ∀ r, Exchange.taken ⟨action, r, []⟩ = Exchange.polled ⟨action, r, []⟩) :
    (f.join key).Counts (.live f) action := by
  unfold join
  split
  · exact live_counts hf rfl hnone (ht _)
  · refine ⟨?_, fun f' he => ?_, fun _ => ht _, fun he => by cases he⟩
    · rw [hdone]
      simp only [Life.handles, handles, List.length_cons]
      omega
    · obtain rfl := Life.live.inj he
      simp only [handles, List.length_cons]
      omega

/-- A handle goes; `g` is the queue without it. -/
theorem leave_counts {action : Action α} {g : Fifo α} (hg : f.handles = g.handles + 1)
    (hh : ∀ dropped, Exchange.handles ⟨action, .done, dropped⟩ = -1)
    (hp : ∀ dropped, Exchange.polled ⟨action, .done, dropped⟩ = [])
    (ht : ∀ dropped, Exchange.taken ⟨action, .done, dropped⟩ = dropped) :
    g.leave.Counts (.live f) action := by
  unfold leave
  split
  · rename_i hzero
    refine ⟨?_, fun f' he => (by cases he), fun hne => absurd rfl hne, fun _ => ⟨hp _, ht _⟩⟩
    rw [hh]
    simp only [Life.handles]
    omega
  · rename_i hpos
    refine ⟨?_, fun f' he => ?_, fun _ => (ht _).trans (hp _).symm, fun he => by cases he⟩
    · rw [hh]
      simp only [Life.handles]
      omega
    · obtain rfl := Life.live.inj he
      omega

theorem consume_counts (present : α → Rendering) (hf : 0 < f.handles) (hc : f.consumer = true)
    (action : Action α) (ho : ∀ r d, Exchange.offered? ⟨action, r, d⟩ = none) :
    (f.consume present action).Counts (.live f) action := by
  cases action with
  | poll => exact live_counts hf rfl rfl rfl
  | clear => exact live_counts hf rfl rfl rfl
  | dropConsumer =>
    refine leave_counts ?_ (fun _ => rfl) (fun _ => rfl) fun _ => rfl
    simp [handles, hc]
  | offer via v => exact absurd (ho .accepted []) (by simp [Exchange.offered?])
  | _ => exact live_counts hf rfl rfl rfl

theorem act_counts (present : α → Rendering) (hf : 0 < f.handles) (action : Action α) :
    (f.act present action).Counts (.live f) action := by
  cases action with
  | create => exact live_counts hf rfl rfl rfl
  | producer key =>
    rw [act]
    split
    · exact join_counts hf key rfl rfl fun _ => rfl
    · exact live_counts hf rfl rfl rfl
  | clone source key =>
    rw [act]
    split
    · exact join_counts hf key rfl rfl fun _ => rfl
    · exact live_counts hf rfl rfl rfl
  | offer via v =>
    rw [act]
    split
    · exact live_counts hf rfl rfl rfl
    · exact live_counts hf rfl rfl rfl
  | dropProducer key =>
    rw [act]
    split
    · rename_i hkey
      refine leave_counts ?_ (fun _ => rfl) (fun _ => rfl) fun _ => rfl
      have hpos := List.length_pos_of_mem hkey
      simp only [handles, List.length_erase_of_mem hkey]
      omega
    · exact live_counts hf rfl rfl rfl
  | _ =>
    simp only [act]
    split
    · rename_i hc
      exact consume_counts present hf hc _ fun _ _ => rfl
    · exact live_counts hf rfl rfl rfl

end Fifo

namespace Life

theorem step_counts (present : α → Rendering) {l : Life α} (hl : l.Held) (action : Action α) :
    (l.step present action).Counts l action := by
  cases l with
  | live f => exact Fifo.act_counts present (hl f rfl) action
  | unmade =>
    cases action
    case create =>
      refine ⟨rfl, fun f he => ?_, fun _ => rfl, fun he => by cases he⟩
      obtain rfl := Life.live.inj he
      exact Nat.one_pos
    all_goals exact ⟨rfl, fun f he => (by cases he), fun _ => rfl, fun he => by cases he⟩
  | gone =>
    cases action <;>
      exact ⟨rfl, fun f he => (by cases he), fun hne => absurd rfl hne, fun _ => ⟨rfl, rfl⟩⟩

/-- What is reported of a queue in a run. -/
def reports (present : α → Rendering) : Life α → List (Action α) → List Event
  | _, [] => []
  | l, action :: rest =>
    let e := l.step present action
    e.events ++ reports present e.after rest

/-- The tally of a run, at the end of which the queue is `l'`. -/
structure Tally (l l' : Life α) (xs : List (Exchange α)) (events : List Event) : Prop where
  handles : Exchange.alive xs + l.handles = l'.handles
  held : l'.Held
  stays : l' ≠ .gone → xs.flatMap Exchange.taken = xs.flatMap Exchange.polled ∧ events = []
  /-- A queue that went took what was left with it. -/
  goes : l ≠ .gone → l' = .gone → ∃ left,
    xs.flatMap Exchange.taken = xs.flatMap Exchange.polled ++ left ∧ events = undrained left

/-- A queue that is gone answers nothing. -/
theorem gone_run (present : α → Rendering) (actions : List (Action α)) :
    (gone : Life α).run present actions = .gone ∧
      ((gone : Life α).exchanges present actions).flatMap Exchange.taken = [] ∧
      ((gone : Life α).exchanges present actions).flatMap Exchange.polled = [] ∧
      (gone : Life α).reports present actions = [] := by
  induction actions with
  | nil => exact ⟨rfl, rfl, rfl, rfl⟩
  | cons action rest ih =>
    have hstep : (gone : Life α).step present action = ⟨.noSuch, [], .gone⟩ := by
      cases action <;> rfl
    have htaken : Exchange.taken ⟨action, (.noSuch : Reply α), []⟩ = [] := by cases action <;> rfl
    have hpolled : Exchange.polled ⟨action, (.noSuch : Reply α), []⟩ = [] := by cases action <;> rfl
    obtain ⟨hrun, htakens, hpolleds, hreports⟩ := ih
    refine ⟨?_, ?_, ?_, ?_⟩
    · rw [run, List.foldl_cons, hstep]
      exact hrun
    · rw [exchanges, hstep, List.flatMap_cons, htaken, htakens]
      rfl
    · rw [exchanges, hstep, List.flatMap_cons, hpolled, hpolleds]
      rfl
    · rw [reports, hstep, hreports]
      rfl

theorem run_tally (present : α → Rendering) {l : Life α} (hl : l.Held)
    (actions : List (Action α)) :
    Tally l (l.run present actions) (l.exchanges present actions) (l.reports present actions) := by
  induction actions generalizing l with
  | nil =>
    exact ⟨Int.zero_add _, hl, fun _ => ⟨rfl, rfl⟩, fun hne he => absurd he hne⟩
  | cons action rest ih =>
    have hc := l.step_counts present hl action
    have ht := ih hc.held
    generalize he : l.step present action = e at hc ht
    have hrun : l.run present (action :: rest) = e.after.run present rest := by
      rw [run, List.foldl_cons, he]
      rfl
    have hxs : l.exchanges present (action :: rest) =
        ⟨action, e.reply, e.dropped⟩ :: e.after.exchanges present rest := by
      rw [exchanges, he]
    have hreports : l.reports present (action :: rest) =
        e.events ++ e.after.reports present rest := by
      rw [reports, he]
    rw [hrun, hxs, hreports]
    refine ⟨?_, ht.held, fun hne => ?_, fun hne hgone => ?_⟩
    · have hrest := ht.handles
      have hstep := hc.handles
      rw [Exchange.alive]
      omega
    · -- A queue that is there at the end was there all along.
      have hafter : e.after ≠ .gone := by
        intro hg
        rw [hg, (gone_run present rest).1] at hne
        exact hne rfl
      obtain ⟨htaken, hevents⟩ := ht.stays hne
      rw [List.flatMap_cons, List.flatMap_cons, hc.stays hafter, htaken,
        Effect.events_of_stays hafter, hevents]
      exact ⟨rfl, rfl⟩
    · by_cases hg : e.after = .gone
      · obtain ⟨hpolled, htaken⟩ := hc.goes hg
        obtain ⟨-, htakens, hpolleds, hreport⟩ := gone_run present rest
        have hevents : e.events = undrained e.dropped := by rw [Effect.events, hg]
        refine ⟨e.dropped, ?_, ?_⟩
        · rw [List.flatMap_cons, List.flatMap_cons, hg, htaken, hpolled, htakens, hpolleds]
          simp
        · rw [hg, hreport, hevents, List.append_nil]
      · obtain ⟨left, htaken, hevents⟩ := ht.goes hg hgone
        refine ⟨left, ?_, ?_⟩
        · rw [List.flatMap_cons, List.flatMap_cons, hc.stays hg, htaken, List.append_assoc]
        · rw [Effect.events_of_stays hg, hevents, List.nil_append]

/-- A queue that is there has dropped what was polled of it, and the rest is in
it. -/
theorem run_live (present : α → Rendering) (actions : List (Action α)) {f : Fifo α}
    (hf : run present .unmade actions = .live f) :
    let xs := exchanges present .unmade actions
    0 < f.handles ∧ Exchange.alive xs = f.handles ∧
      xs.flatMap Exchange.taken = xs.flatMap Exchange.polled ∧
      xs.filterMap Exchange.offered? = xs.flatMap Exchange.polled ++ f.values ∧
      reports present .unmade actions = [] := by
  intro xs
  have ht := run_tally present (l := .unmade) (fun f he => by cases he) actions
  have hb := run_balances present .unmade actions
  rw [hf] at ht hb
  obtain ⟨htaken, hevents⟩ := ht.stays fun he => by cases he
  refine ⟨ht.held f rfl, (Int.add_zero _).symm.trans ht.handles, htaken, ?_, hevents⟩
  rw [← htaken]
  exact hb

/-- A queue that is not there has dropped whatever was offered to it, and what
was not polled was reported. -/
theorem run_not_live (present : α → Rendering) (actions : List (Action α))
    (hl : ∀ f, run present .unmade actions ≠ .live f) :
    let xs := exchanges present .unmade actions
    let offered := xs.filterMap Exchange.offered?
    let polled := xs.flatMap Exchange.polled
    Exchange.alive xs = 0 ∧ xs.flatMap Exchange.taken = offered ∧
      reports present .unmade actions = if polled.length < offered.length then
        [.queueDropped (offered.length - polled.length)] else [] := by
  intro xs offered polled
  have ht := run_tally present (l := .unmade) (fun f he => by cases he) actions
  have hb := run_balances present .unmade actions
  cases hr : run present .unmade actions with
  | live f => exact absurd hr (hl f)
  | unmade =>
    rw [hr] at ht hb
    have hoffered : offered = xs.flatMap Exchange.taken := hb.trans (List.append_nil _)
    obtain ⟨htaken, hevents⟩ := ht.stays fun he => by cases he
    refine ⟨(Int.add_zero _).symm.trans ht.handles, hoffered.symm, ?_⟩
    rw [hevents, if_neg]
    rw [hoffered, htaken]
    exact Nat.lt_irrefl _
  | gone =>
    rw [hr] at ht hb
    have hoffered : offered = xs.flatMap Exchange.taken := hb.trans (List.append_nil _)
    obtain ⟨left, htaken, hevents⟩ := ht.goes (fun he => by cases he) rfl
    have hlength : offered.length = polled.length + left.length := by
      rw [hoffered, htaken, List.length_append]
    refine ⟨(Int.add_zero _).symm.trans ht.handles, hoffered.symm, ?_⟩
    rw [hevents, hlength, Nat.add_sub_cancel_left]
    cases left <;> simp [undrained]

end Life

/-! ### The nodes in the heap -/

namespace Arena

/-- What `f` reads off the actions on one queue: from the arena before each of
them and its outcome. -/
def gathered {β : Type} (f : Arena α → Outcome α → List β) (present : α → Rendering) (q : Nat) :
    Arena α → List (Nat × Action α) → List β
  | _, [] => []
  | a, w :: rest =>
    let o := a.step present w.1 w.2
    if w.1 = q then f a o ++ gathered f present q o.arena rest
    else gathered f present q o.arena rest

/-- What is reported of a queue. -/
def reports : (α → Rendering) → Nat → Arena α → List (Nat × Action α) → List Event :=
  gathered fun _ o => o.events

/-- Where nodes were allocated for a queue. -/
def allocated : (α → Rendering) → Nat → Arena α → List (Nat × Action α) → List Address :=
  gathered fun a o => a.heap.gained o.arena.heap

/-- Where nodes of a queue were freed. -/
def freed : (α → Rendering) → Nat → Arena α → List (Nat × Action α) → List Address :=
  gathered fun a o => o.arena.heap.gained a.heap

/-- Where the nodes of a queue stand. -/
def addresses (a : Arena α) (nodes : Nat → List (Entry α)) (q : Nat) : List Address :=
  (cellsOf (nodes q) (a.shared? q)).map Prod.fst

variable {a : Arena α} {nodes : Nat → List (Entry α)} {q : Nat}

theorem asked_eq_nil {work : List (Nat × Action α)} (hne : ∀ w ∈ work, w.1 ≠ q) :
    asked q work = [] := by
  rw [asked, List.filter_eq_nil_iff.mpr fun w hw => decide_eq_true_iff.not.mpr (hne w hw)]
  rfl

theorem lookup_of_mem {β : Type} {l : List (Nat × β)} {x : β} (hk : (l.map Prod.fst).Nodup)
    (hm : (q, x) ∈ l) : l.lookup q = some x := by
  rcases hl : l.lookup q with _ | y
  · simpa using List.lookup_eq_none_iff.mp hl _ hm
  · rcases List.mem_cons.mp ((perm_of_lookup hk hl).mem_iff.mp hm) with he | hrest
    · rw [(Prod.mk.inj he).2]
    · simpa using (List.mem_filter.mp hrest).2

theorem shared?_congr {b : Arena α} (h : b.others q = a.others q) {k : Nat} (hk : k ≠ q) :
    b.shared? k = a.shared? k := by
  rw [shared?, shared?, ← lookup_filter_ne b.queues hk, ← lookup_filter_ne a.queues hk]
  exact congrArg (fun l => (l.lookup k).join) h

/-- The cells of a queue, and those of the others. -/
theorem Sound.split (hs : a.Sound nodes) (q : Nat) :
    a.heap.Holds (cellsOf (nodes q) (a.shared? q) ++ cellsOfAll nodes (a.others q)) := by
  rcases hl : a.queues.lookup q with _ | x
  · have hshared : a.shared? q = none := shared?_eq hl
    rw [hshared, others_eq_self hl]
    exact hs.heap
  · have hshared : a.shared? q = x := shared?_eq hl
    rw [hshared]
    exact hs.heap.perm ((perm_of_lookup hs.keys hl).flatMap_right _)

/-- What a queue had and what it gained by an action is what it lost and what
it has then. -/
theorem Sound.step_ledger (hs : a.Sound nodes) {o : Outcome α} {es : List (Entry α)}
    (hothers : o.arena.others q = a.others q) (ho : o.arena.Sound (Function.update nodes q es)) :
    (a.addresses nodes q ++ a.heap.gained o.arena.heap).Perm
      (o.arena.heap.gained a.heap ++ o.arena.addresses (Function.update nodes q es) q) := by
  have hafter := ho.split q
  rw [hothers, cellsOfAll_update nodes (not_mem_others a q)] at hafter
  exact (hs.split q).ledger hafter

/-- An action on one queue leaves the nodes of another where they are. -/
theorem addresses_update {o : Outcome α} (hothers : o.arena.others q = a.others q)
    (es : List (Entry α)) {k : Nat} (hk : k ≠ q) :
    o.arena.addresses (Function.update nodes q es) k = a.addresses nodes k := by
  rw [addresses, addresses, Function.update_of_ne hk, shared?_congr hothers hk]

/-- What a run leaves of each queue: the list its own actions make, reported on
as the list is, and of its nodes those that were not freed. -/
theorem Sound.run_ledger (hs : a.Sound nodes) (present : α → Rendering)
    (work : List (Nat × Action α)) :
    ∃ nodes', (a.run present work).Sound nodes' ∧ ∀ q,
      (a.run present work).life nodes' q = (a.life nodes q).run present (asked q work) ∧
      a.reports present q work = (a.life nodes q).reports present (asked q work) ∧
      (a.addresses nodes q ++ a.allocated present q work).Perm
        (a.freed present q work ++ (a.run present work).addresses nodes' q) := by
  induction work generalizing a nodes with
  | nil =>
    refine ⟨nodes, hs, fun q => ⟨rfl, rfl, ?_⟩⟩
    exact List.perm_append_comm
  | cons w rest ih =>
    obtain ⟨k, action⟩ := w
    have hshows := hs.step present k action
    obtain ⟨es, hs₁, hlife⟩ := hshows.after
    obtain ⟨nodes', hs', hrest⟩ := ih hs₁
    refine ⟨nodes', hs', fun q => ?_⟩
    obtain ⟨hl, hr, hp⟩ := hrest q
    rw [hlife] at hl hr
    by_cases hq : k = q
    · subst hq
      have hstep := hs.step_ledger hshows.others hs₁
      rw [Function.update_self] at hl hr
      rw [asked_cons_self]
      refine ⟨hl, ?_, ?_⟩
      · rw [reports, gathered, if_pos rfl, Life.reports, ← hr, hshows.events]
        rfl
      · rw [allocated, freed, gathered, gathered, if_pos rfl, if_pos rfl, ← List.append_assoc]
        refine (hstep.append_right _).trans ?_
        rw [List.append_assoc, List.append_assoc]
        exact hp.append_left _
    · rw [Function.update_of_ne (Ne.symm hq)] at hl hr
      rw [addresses_update hshows.others es (Ne.symm hq)] at hp
      rw [asked_cons_ne hq]
      refine ⟨hl, ?_, ?_⟩
      · rw [reports, gathered, if_neg hq, ← hr]
        rfl
      · rw [allocated, freed, gathered, gathered, if_neg hq, if_neg hq]
        exact hp

/-- Where no queue has handles no node is left. -/
theorem Sound.heap_empty (hs : a.Sound nodes) (hnone : ∀ q, a.shared? q = none) (b : Address) :
    a.heap.node? b = none := by
  have hcells : cellsOfAll nodes a.queues = [] := by
    refine List.flatMap_eq_nil_iff.mpr fun e he => ?_
    obtain ⟨q, x⟩ := e
    cases x with
    | none => rfl
    | some s =>
      have hshared : a.shared? q = some s := shared?_eq (lookup_of_mem hs.keys he)
      rw [hnone q] at hshared
      cases hshared
  have hheap := hs.heap
  rw [hcells] at hheap
  exact hheap.node?_eq_none_iff.mpr List.not_mem_nil

/-- A queue that is there is the chain that it shares, and that chain is whole. -/
theorem Sound.exists_shared (hs : a.Sound nodes) {f : Fifo α} (hl : a.life nodes q = .live f) :
    ∃ s, a.shared? q = some s ∧ s.handles = f.handles ∧
      s.chain.Spells a.heap ((nodes q).map Entry.address) f.values ∧
      a.addresses nodes q = s.chain.head :: (nodes q).map Entry.address := by
  rw [life] at hl
  split at hl
  · cases hl
  · cases hl
  · rename_i s hlook
    obtain rfl := Life.live.inj hl
    obtain ⟨hst, hfit⟩ := hs.stands hlook
    have hshared : a.shared? q = some s := shared?_eq hlook
    refine ⟨s, hshared, hfit.handles, hst.spells hfit.whole, ?_⟩
    rw [addresses, hshared, cellsOf, map_fst_spine]

theorem shared?_eq_none (nodes : Nat → List (Entry α)) (hl : ∀ f, a.life nodes q ≠ .live f) :
    a.shared? q = none := by
  rcases hlook : a.queues.lookup q with _ | _ | s
  · exact shared?_eq hlook
  · exact shared?_eq hlook
  · exact absurd (Sound.life_eq hlook) (hl _)

/-- **Every value and every node goes once.** Of a queue in any run, `alive` of
whose handles are left, what was dropped begins the list of what was offered.
While a handle is alive it is what was polled, the rest is in the queue, and the
nodes that were not freed are those of its chain. When none is, it is all that
was offered, every node was freed as often as it was allocated, and that values
were left was reported once, with their number. -/
theorem drops_once (present : α → Rendering) (work : List (Nat × Action α)) (q : Nat) :
    let a := Arena.run present {} work
    let xs := Arena.exchanges present q {} work
    let offered := xs.filterMap Exchange.offered?
    let polled := xs.flatMap Exchange.polled
    let dropped := xs.flatMap Exchange.taken
    let allocated := Arena.allocated present q {} work
    let freed := Arena.freed present q {} work
    let reports := Arena.reports present q {} work
    let alive := Exchange.alive xs
    (∀ x ∈ xs, ∀ f, x.reply ≠ .fault f) ∧ dropped <+: offered ∧ 0 ≤ alive ∧
      (0 < alive → dropped = polled ∧ reports = [] ∧
        ∃ s nodes values, a.shared? q = some s ∧ (s.handles : Int) = alive ∧
          offered = polled ++ values ∧ s.chain.Spells a.heap nodes values ∧
          allocated.Perm (freed ++ s.chain.head :: nodes)) ∧
      (alive = 0 → dropped = offered ∧ a.shared? q = none ∧ allocated.Perm freed ∧
        reports = (if polled.length < offered.length then
          [.queueDropped (offered.length - polled.length)] else []) ∧
        ((∀ w ∈ work, w.1 = q) → ∀ b, a.heap.node? b = none)) := by
  intro a xs offered polled dropped allocated freed reports alive
  obtain ⟨nodes, hs, hledger⟩ := sound_empty.run_ledger present work
  have hlife : ∀ k, a.life nodes k = Life.run present .unmade (asked k work) :=
    fun k => (hledger k).1
  have hreports : reports = Life.reports present .unmade (asked q work) := (hledger q).2.1
  have hnodes : allocated.Perm (freed ++ a.addresses nodes q) := (hledger q).2.2
  have hxs : xs = Life.exchanges present .unmade (asked q work) := by
    obtain ⟨_, _, hanswers⟩ := sound_empty.run present work
    exact (hanswers q).2
  have hoffered : offered = dropped ++ (Life.run present .unmade (asked q work)).values := by
    have hb := Life.run_balances present .unmade (asked q work)
    rw [← hxs] at hb
    exact hb
  refine ⟨hxs ▸ Life.reply_ne_fault present .unmade (asked q work), ⟨_, hoffered.symm⟩, ?_⟩
  by_cases hlive : ∃ f, Life.run present .unmade (asked q work) = .live f
  · obtain ⟨f, hf⟩ := hlive
    have hlist := Life.run_live present _ hf
    simp only [← hxs, ← hreports] at hlist
    obtain ⟨hpos, hcount, hdropped, hvalues, hquiet⟩ := hlist
    have halive : alive = f.handles := hcount
    obtain ⟨s, hshared, hhandles, hspells, haddresses⟩ := hs.exists_shared ((hlife q).trans hf)
    refine ⟨by omega, fun _ => ⟨hdropped, hquiet, s, _, f.values, hshared, by omega, hvalues,
      hspells, ?_⟩, fun hz => by omega⟩
    exact haddresses ▸ hnodes
  · have hgone := Life.run_not_live present (asked q work) fun f hf => hlive ⟨f, hf⟩
    simp only [← hxs, ← hreports] at hgone
    obtain ⟨hcount, hdropped, hreport⟩ := hgone
    have halive : alive = 0 := hcount
    have hnone : a.shared? q = none :=
      shared?_eq_none nodes fun f hf => hlive ⟨f, (hlife q).symm.trans hf⟩
    rw [addresses, hnone, cellsOf, List.map_nil, List.append_nil] at hnodes
    refine ⟨by omega, fun _ => by omega,
      fun _ => ⟨hdropped, hnone, hnodes, hreport, fun honly => hs.heap_empty fun k => ?_⟩⟩
    by_cases hk : k = q
    · exact hk ▸ hnone
    · have hnever : asked k work = [] := asked_eq_nil fun w hw he => hk (he.symm.trans (honly w hw))
      refine shared?_eq_none nodes fun f hf => ?_
      rw [hlife k, hnever] at hf
      cases hf

/-- A number as it is written. -/
def numeral (n : Nat) : Rendering := ⟨Decimal.natText n, true⟩

/-- Two queues trade places: where a poll of the one has freed a node the other
puts its next one. The consumer of queue 0 goes before its producer, which
offers once more; queue 1 stays. -/
def tradedPlaces : List (Nat × Action Nat) :=
  [(0, .create), (1, .create), (0, .producer 7), (0, .offer none 10), (0, .offer (some 7) 30),
    (0, .poll), (1, .offer none 20), (1, .poll), (0, .offer none 40), (0, .dropConsumer),
    (0, .offer (some 7) 50), (0, .dropProducer 7), (1, .offer none 60)]

theorem drops_once_tradedPlaces :
    (Arena.exchanges numeral 0 {} tradedPlaces).flatMap Exchange.polled = [10] ∧
      (Arena.exchanges numeral 0 {} tradedPlaces).flatMap Exchange.taken = [10, 30, 40, 50] ∧
      Arena.reports numeral 0 {} tradedPlaces = [.queueDropped 3] ∧
      Arena.allocated numeral 0 {} tradedPlaces = [0, 2, 3, 1, 4] ∧
      [0, 2, 3, 1, 4].Perm (Arena.freed numeral 0 {} tradedPlaces) ∧
      Arena.allocated numeral 1 {} tradedPlaces = [1, 0, 4] ∧
      ∃ s nodes, (Arena.run numeral {} tradedPlaces).shared? 1 = some s ∧
        s.chain.Spells (Arena.run numeral {} tradedPlaces).heap nodes [60] ∧
        [1, 0, 4].Perm (Arena.freed numeral 1 {} tradedPlaces ++ s.chain.head :: nodes) := by
  have hpolled : (Arena.exchanges numeral 0 {} tradedPlaces).flatMap Exchange.polled = [10] := rfl
  have hplaces : Arena.allocated numeral 0 {} tradedPlaces = [0, 2, 3, 1, 4] := by decide +kernel
  have hplaces₁ : Arena.allocated numeral 1 {} tradedPlaces = [1, 0, 4] := by decide +kernel
  obtain ⟨-, -, -, -, hgone⟩ := drops_once numeral tradedPlaces 0
  obtain ⟨hdropped, -, hnodes, hreports, -⟩ := hgone rfl
  obtain ⟨-, -, -, hlive, -⟩ := drops_once numeral tradedPlaces 1
  obtain ⟨-, -, s, nodes, values, hshared, -, hvalues, hspells, hnodes₁⟩ := hlive (by decide)
  obtain rfl : values = [60] := (List.cons.inj hvalues).2.symm
  rw [hplaces] at hnodes
  rw [hplaces₁] at hnodes₁
  exact ⟨hpolled, hdropped.trans rfl, hreports.trans rfl, hplaces, hnodes, hplaces₁, s, nodes,
    hshared, hspells, hnodes₁⟩

end Arena
end LockFree.Queue
