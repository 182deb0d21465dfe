/-
# Counting while offers go on

A count loads the tail once and then follows links, one at a time, while
producers go on moving the tail and setting links. It ends where the tail was
or at the first link that is still to come, whichever it finds first.

What carries the argument is that the chain only grows meanwhile: no node of it
changes its place, and a link that is set stays (`Grows`). So the place of a
count in the chain is the number of links it has followed, the node it takes
for the last one stays at the place that it had at the start (`Count.Tracks`),
and a link that is missing when the count comes to it was missing at the start.
`Race.Progress` says how far a count is after so many of its steps; one step of
anyone keeps it.

Key definitions: `Heap.Leads`, `Race.Reachable`, `Count.Tracks`,
`Race.Progress`, `Race.Counted`.
Key theorems: `Race.Progress.step`, `Race.Orderly.count`,
`Race.count_bounds`.
-/
import LockFree.Proofs.Queue.Interleaving
import Mathlib.Logic.Relation

namespace LockFree.Queue

variable {α : Type}

/-! ### What can be reached -/

/-- The node at `a` links to `b`. -/
def Heap.Leads (h : Heap α) (a b : Address) : Prop := ∃ n, h.node? a = some n ∧ n.next = some b

/-- Links that are set lead from the sentinel to the node. -/
def Race.Reachable (r : Race α) (a : Address) : Prop :=
  Relation.TransGen r.heap.Leads r.chain.head a

namespace Chain

variable {c : Chain} {h : Heap α} {es : List (Entry α)} {frame : List (Address × Node α)}

theorem Stands.nodup (hs : c.Stands h es frame) : (c.head :: es.map Entry.address).Nodup := by
  have hall := hs.heap.nodup
  rw [List.map_append, map_fst_spine] at hall
  exact hall.of_append_left

/-- What is found where the chain is followed. -/
theorem Stands.read_at (hs : c.Stands h es frame) {k : Nat} {a : Address}
    (hk : (c.head :: es.map Entry.address)[k]? = some a) :
    ∃ q, h.read a = .ok ⟨(es[k]?.filter Entry.linked).map Entry.address, q⟩ := by
  obtain ⟨q, hq⟩ := mem_spine_at (p := (none : Option α)) hk
  exact ⟨q, hs.heap.read (List.mem_append_left _ hq)⟩

/-- A link that is set leads from a node of the chain to the next one. -/
theorem Stands.leads (hs : c.Stands h es frame) {k : Nat} {a b : Address}
    (hk : (c.head :: es.map Entry.address)[k]? = some a) (hab : h.Leads a b) :
    ∃ e, es[k]? = some e ∧ e.linked = true ∧ e.address = b := by
  obtain ⟨q, hq⟩ := mem_spine_at (p := (none : Option α)) hk
  obtain ⟨n, hn, hnext⟩ := hab
  have hnode := hs.heap.node?_eq (List.mem_append_left _ hq)
  obtain rfl := Option.some.inj (hn.symm.trans hnode)
  obtain ⟨e, he, rfl⟩ := Option.map_eq_some_iff.mp hnext
  obtain ⟨he, hl⟩ := Option.filter_eq_some_iff.mp he
  exact ⟨e, he, hl, rfl⟩

end Chain

namespace Race

variable {r : Race α} {es es₀ : List (Entry α)} {counts : List Nat} {polled k : Nat}

/-- What can be reached is linked without a gap before it. -/
theorem Orderly.place_of_reachable (ho : r.Orderly es) {a : Address} (ha : r.Reachable a) :
    ∃ k < (visible es).length, (es.map Entry.address)[k]? = some a := by
  induction ha with
  | single hab =>
    obtain ⟨e, he, hl, rfl⟩ := ho.stands.leads (k := 0) rfl hab
    refine ⟨0, le_length_visible_iff.mpr fun i hi => ?_, by rw [List.getElem?_map, he]; rfl⟩
    obtain rfl : i = 0 := by omega
    exact ⟨e, he, hl⟩
  | tail _ hbc ih =>
    obtain ⟨k, hk, hb⟩ := ih
    obtain ⟨e, he, hl, rfl⟩ := ho.stands.leads (k := k + 1) hb hbc
    refine ⟨k + 1, le_length_visible_iff.mpr fun i hi => ?_, by rw [List.getElem?_map, he]; rfl⟩
    by_cases hlast : i = k + 1
    · subst hlast
      exact ⟨e, he, hl⟩
    · exact le_length_visible_iff.mp (Nat.le_refl _) i (by omega)

/-- No more nodes can be reached than are visible. -/
theorem Orderly.length_le_of_reachable (ho : r.Orderly es) {as : List Address} (hnodup : as.Nodup)
    (has : ∀ a ∈ as, r.Reachable a) : as.length ≤ (visible es).length := by
  have hsub : as ⊆ (es.map Entry.address).take (visible es).length := by
    intro a ha
    obtain ⟨k, hk, hplace⟩ := ho.place_of_reachable (has a ha)
    exact List.mem_of_getElem? (by rw [List.getElem?_take_of_lt hk, hplace])
  calc as.length ≤ ((es.map Entry.address).take (visible es).length).length :=
        (List.subperm_of_subset hnodup hsub).length_le
    _ ≤ (visible es).length := List.length_take_le _ _

end Race

/-! ### The place of a count -/

/-- The count has passed as many linked nodes as it says, and the node that it
takes for the last one is where it was when the chain was `es₀`. -/
structure Count.Tracks (c : Count) (head : Address) (es₀ es : List (Entry α)) : Prop where
  current : (head :: es.map Entry.address)[c.passed]? = some c.current
  last : (head :: es.map Entry.address)[es₀.length]? = some c.last
  passed : c.passed ≤ es₀.length
  linked : c.passed ≤ (visible es).length
  grown : Grows es₀ es

namespace Count.Tracks

variable {c : Count} {head : Address} {es₀ es es' : List (Entry α)}

theorem grows (ht : c.Tracks head es₀ es) (hg : Grows es es') : c.Tracks head es₀ es' :=
  ⟨hg.address_at ht.current, hg.address_at ht.last, ht.passed,
    Nat.le_trans ht.linked hg.visible_le, ht.grown.trans hg⟩

/-- The count is where the tail was only after it passed all that was there. -/
theorem passed_eq (ht : c.Tracks head es₀ es) (hnodup : (head :: es.map Entry.address).Nodup)
    (hc : c.current = c.last) : c.passed = es₀.length := by
  have hlt : c.passed < (head :: es.map Entry.address).length :=
    (List.getElem?_eq_some_iff.mp ht.current).1
  exact (List.getElem?_inj hlt hnodup).mp (by rw [ht.current, ht.last, hc])

/-- Before that it is somewhere else. -/
theorem lt_of_ne (ht : c.Tracks head es₀ es) (hc : c.current ≠ c.last) :
    c.passed < es₀.length := by
  refine Nat.lt_of_le_of_ne ht.passed fun heq => hc ?_
  have hcurrent := ht.current
  rw [heq, ht.last] at hcurrent
  exact (Option.some.inj hcurrent).symm

/-- A link that is missing was missing from the start. -/
theorem visible_le (ht : c.Tracks head es₀ es)
    (hstop : es[c.passed]?.filter Entry.linked = none) :
    (visible es₀).length ≤ c.passed := by
  by_contra hlt
  obtain ⟨e, he, hl⟩ :=
    le_length_visible_iff.mp (Nat.le_refl _) c.passed (Nat.lt_of_not_le hlt)
  obtain ⟨e', he', -, hl'⟩ := ht.grown c.passed e he
  rw [he', Option.filter_eq_none_iff] at hstop
  exact hstop e' rfl (hl' hl)

/-- One more link is followed. -/
theorem next (ht : c.Tracks head es₀ es) (hc : c.current ≠ c.last) {e : Entry α}
    (he : es[c.passed]? = some e) (hl : e.linked = true) :
    Count.Tracks { c with current := e.address, passed := c.passed + 1 } head es₀ es := by
  refine ⟨?_, ht.last, ht.lt_of_ne hc, le_length_visible_iff.mpr fun i hi => ?_, ht.grown⟩
  · show (es.map Entry.address)[c.passed]? = some e.address
    rw [List.getElem?_map, he]
    rfl
  · by_cases hlast : i = c.passed
    · subst hlast
      exact ⟨e, he, hl⟩
    · have hlt : i < c.passed := by
        have : i < c.passed + 1 := hi
        omega
      exact le_length_visible_iff.mp ht.linked i hlt

end Count.Tracks

/-- The producer whose step it is. -/
def Move.producer? : Move → Option Nat
  | .allocate i _ | .loadTail i | .swing i _ | .publish i => some i
  | _ => none

namespace Race

variable {r : Race α} {es es₀ : List (Entry α)} {counts : List Nat} {polled k : Nat}

/-! ### How far a count is -/

/-- How far a count is that began on the chain `es₀`, with these counts
finished and so many values polled by then, if `k` of its steps were taken
since. -/
inductive Progress (es₀ : List (Entry α)) (counts : List Nat) (polled : Nat) (r : Race α)
    (es : List (Entry α)) (k : Nat) : Prop
  /-- Each step followed a link, and there are more links to follow. -/
  | underWay (c : Count) (consumer : r.consumer = .counting c) (finished : r.counts = counts)
      (still : r.polled.size = polled) (tracks : c.Tracks r.chain.head es₀ es)
      (steps : c.passed = k) (goesOn : c.current ≠ c.last)
  /-- It came to `n`, and others may have come after it. -/
  | finished (n : Nat) (finished : counts ++ [n] <+: r.counts) (least : (visible es₀).length ≤ n)
      (most : n ≤ es₀.length) (later : polled ≤ r.polled.size)
      (still : r.polled.size = polled → n ≤ (visible es).length)

/-- A count is finished where it stands, for there is no link or nothing more
was there. -/
theorem progress_finishCount {c : Count} (ht : c.Tracks r.chain.head es₀ es)
    (hstop : (visible es₀).length ≤ c.passed) :
    Progress es₀ r.counts r.polled.size (r.finishCount c) es k :=
  .finished c.passed (List.prefix_refl _) hstop ht.passed (Nat.le_refl _) fun _ => ht.linked

/-- A count goes on from where it stands, or is finished. -/
theorem Orderly.progress_atCount (ho : r.Orderly es) {c : Count}
    (ht : c.Tracks r.chain.head es₀ es) :
    Progress es₀ r.counts r.polled.size (r.atCount c) es c.passed := by
  unfold Race.atCount
  by_cases hc : c.current = c.last
  · rw [if_pos hc]
    refine progress_finishCount ht ?_
    rw [ht.passed_eq ho.stands.nodup hc]
    exact (List.takeWhile_prefix _).length_le
  · rw [if_neg hc]
    exact .underWay c rfl rfl rfl ht rfl hc

/-- A producer's step leaves the consumer and its records alone. -/
theorem step_producer {move : Move} {i : Nat} (hmove : move.producer? = some i) {r' : Race α}
    (hstep : r.step move = .ok r') :
    r'.consumer = r.consumer ∧ r'.counts = r.counts ∧ r'.polled = r.polled := by
  cases move with
  | allocate i address =>
    simp only [step] at hstep
    split at hstep
    · split at hstep <;> cases hstep <;> exact ⟨rfl, rfl, rfl⟩
    · cases hstep
      exact ⟨rfl, rfl, rfl⟩
  | loadTail i =>
    simp only [step] at hstep
    split at hstep <;> cases hstep <;> exact ⟨rfl, rfl, rfl⟩
  | swing i spurious =>
    simp only [step] at hstep
    split at hstep
    · split at hstep
      · cases hstep
        exact ⟨rfl, rfl, rfl⟩
      · split at hstep <;> cases hstep <;> exact ⟨rfl, rfl, rfl⟩
    · cases hstep
      exact ⟨rfl, rfl, rfl⟩
  | publish i =>
    simp only [step] at hstep
    split at hstep
    · split at hstep
      · cases hstep
      · cases hstep
        exact ⟨rfl, rfl, rfl⟩
    · cases hstep
      exact ⟨rfl, rfl, rfl⟩
  | _ => cases hmove

/-- While a count is under way the consumer does nothing else. -/
theorem step_counting {c : Count} (hc : r.consumer = .counting c) {move : Move}
    (hmove : move.producer? = none) (hne : move ≠ .advanceCount) : r.step move = .ok r := by
  cases move with
  | look => simp only [step, hc]
  | take => simp only [step, hc]
  | discard => simp only [step, hc]
  | beginCount => simp only [step, hc]
  | advanceCount => exact absurd rfl hne
  | _ => cases hmove

/-- A step of a count follows a link, or ends the count. -/
theorem Orderly.progress_advance (ho : r.Orderly es) {c : Count} (hc : r.consumer = .counting c)
    (ht : c.Tracks r.chain.head es₀ es) (hne : c.current ≠ c.last) :
    ∃ r', r.step .advanceCount = .ok r' ∧ r'.Orderly es ∧
      Progress es₀ r.counts r.polled.size r' es (c.passed + 1) := by
  have hnone : r.consumer.old? = none := by rw [hc]; rfl
  obtain ⟨q, hread⟩ := ho.stands.read_at ht.current
  cases hlink : es[c.passed]?.filter Entry.linked with
  | none =>
    rw [hlink] at hread
    refine ⟨r.finishCount c, ?_, ho.attend hnone .idle rfl trivial _,
      progress_finishCount ht (ht.visible_le hlink)⟩
    simp only [Race.step, hc, hread, Option.map_none]
  | some e =>
    obtain ⟨he, hl⟩ := Option.filter_eq_some_iff.mp hlink
    have hmem : e ∈ es := List.mem_of_getElem? he
    obtain ⟨next, hcell⟩ := mem_spine_of_mem (a := r.chain.head) (none : Option α) hmem
    have hpayload := ho.stands.heap.payload (List.mem_append_left _ hcell)
    have hplace : e.address ∈ r.chain.head :: es.map Entry.address :=
      List.mem_cons_of_mem _ (List.mem_map_of_mem hmem)
    rw [hlink] at hread
    refine ⟨r.atCount { c with current := e.address, passed := c.passed + 1 }, ?_,
      ho.atCount hnone hplace, ho.progress_atCount (ht.next hne he hl)⟩
    simp only [Race.step, hc, hread, Option.map_some, hpayload]

/-- Whoever takes the next step, the count is as far as it should be. -/
theorem Progress.step (hp : Progress es₀ counts polled r es k) (ho : r.Orderly es) (move : Move) :
    ∃ r' es', r.step move = .ok r' ∧ r'.Orderly es' ∧
      Progress es₀ counts polled r' es' (k + if move = .advanceCount then 1 else 0) := by
  cases hp with
  | finished n hcounts hleast hmost hlater hstill =>
    obtain ⟨r', es', hstep, ho', hproc⟩ := ho.step move
    have hpolled := hproc.polled
    refine ⟨r', es', hstep, ho', .finished n (hcounts.trans hproc.counts) hleast hmost
      (Nat.le_trans hlater hpolled) fun hsame => ?_⟩
    have hgrows := hproc.grows (by omega)
    exact Nat.le_trans (hstill (by omega)) hgrows.2.visible_le
  | underWay c hc hcounts hstill ht hsteps hne =>
    subst hcounts hstill hsteps
    by_cases hmove : move = .advanceCount
    · subst hmove
      obtain ⟨r', hstep, ho', hp'⟩ := ho.progress_advance hc ht hne
      exact ⟨r', es, hstep, ho', hp'⟩
    · rw [if_neg hmove, Nat.add_zero]
      cases hproducer : move.producer? with
      | none =>
        exact ⟨r, es, step_counting hc hproducer hmove, ho, .underWay c hc rfl rfl ht rfl hne⟩
      | some i =>
        obtain ⟨r', es', hstep, ho', hproc⟩ := ho.step move
        obtain ⟨hconsumer, hcounts, hpolled⟩ := step_producer hproducer hstep
        obtain ⟨hhead, hg⟩ := hproc.grows (by rw [hpolled])
        refine ⟨r', es', hstep, ho', .underWay c (hconsumer.trans hc) hcounts (by rw [hpolled]) ?_
          rfl hne⟩
        rw [hhead]
        exact ht.grows hg

theorem Progress.run (hp : Progress es₀ counts polled r es k) (ho : r.Orderly es)
    (moves : List Move) :
    ∃ r' es', r.run moves = .ok r' ∧ r'.Orderly es' ∧
      Progress es₀ counts polled r' es' (k + moves.count .advanceCount) := by
  induction moves generalizing r es k with
  | nil => exact ⟨r, es, rfl, ho, hp⟩
  | cons move moves ih =>
    obtain ⟨r', es', hstep, ho', hp'⟩ := hp.step ho move
    obtain ⟨r'', es'', hrun, ho'', hp''⟩ := ih hp' ho'
    refine ⟨r'', es'', ?_, ho'', ?_⟩
    · rw [Race.run, hstep]
      exact hrun
    · have hcount : (move :: moves).count .advanceCount =
          moves.count .advanceCount + if move = .advanceCount then 1 else 0 := by
        rw [List.count_cons]
        simp only [beq_iff_eq]
      rw [hcount]
      convert hp'' using 1
      omega

/-- A count that an idle consumer begins, and whatever happens after that. -/
theorem Orderly.count (ho : r.Orderly es) (hidle : r.consumer = .idle) (moves : List Move) :
    ∃ r' es', r.run (.beginCount :: moves) = .ok r' ∧ r'.Orderly es' ∧
      Progress es r.counts r.polled.size r' es' (moves.count .advanceCount) := by
  have hnone : r.consumer.old? = none := by rw [hidle]; rfl
  have hlast : (r.chain.head :: es.map Entry.address)[es.length]? = some r.chain.tail := by
    have hend := getLast?_eq_lastAddress r.chain.head es
    rw [List.getLast?_eq_getElem?, List.length_cons, List.length_map, Nat.add_sub_cancel] at hend
    rw [hend, ho.stands.tail]
  have ht : Count.Tracks ⟨r.chain.tail, r.chain.head, 0⟩ r.chain.head es es :=
    ⟨rfl, hlast, Nat.zero_le _, Nat.zero_le _, .refl es⟩
  have hbegin : r.step .beginCount = .ok (r.atCount ⟨r.chain.tail, r.chain.head, 0⟩) := by
    simp only [Race.step, hidle]
  have ho' := ho.atCount hnone (c := ⟨r.chain.tail, r.chain.head, 0⟩) List.mem_cons_self
  obtain ⟨r', es', hrun, ho'', hp⟩ := (ho.progress_atCount ht).run ho' moves
  rw [Nat.zero_add] at hp
  refine ⟨r', es', ?_, ho'', hp⟩
  rw [Race.run, hbegin]
  exact hrun

/-! ### Counts in a race -/

/-- A count that is finished, and what it came to. -/
theorem Progress.finished_of_getElem? (hp : Progress es₀ counts polled r es k) {n : Nat}
    (hn : r.counts[counts.length]? = some n) :
    (visible es₀).length ≤ n ∧ n ≤ es₀.length ∧
      (r.polled.size = polled → n ≤ (visible es).length) := by
  cases hp with
  | underWay c _ hcounts =>
    rw [hcounts, List.getElem?_eq_none (Nat.le_refl _)] at hn
    cases hn
  | finished m hcounts hleast hmost _ hstill =>
    obtain ⟨later, hlater⟩ := hcounts
    rw [← hlater, List.append_assoc, List.getElem?_append_right (Nat.le_refl _), Nat.sub_self] at hn
    obtain rfl : m = n := Option.some.inj hn
    exact ⟨hleast, hmost, hstill⟩

/-- The values that the tail was moved onto and that were not polled are those
of the chain. -/
theorem Orderly.length_eq (ho : r.Orderly es) : r.swings.size - r.polled.size = es.length := by
  have hlength := congrArg List.length ho.values
  rw [List.length_append, List.length_map, Array.length_toList, Array.length_toList] at hlength
  omega

/-- What is known of a count that the consumer began at `r`, by the time that it
and the producers have taken the steps `during` and come to `r'`. -/
structure Counted (r : Race α) (during : List Move) (r' : Race α) : Prop where
  /-- It ends after as many of its own steps as there were values that the tail
  had been moved onto and that were not polled, however many come meanwhile. -/
  ends : r.swings.size - r.polled.size ≤ during.count .advanceCount →
    r.counts.length < r'.counts.length
  /-- It comes to no fewer than could be reached when it began. -/
  least : ∀ n, r'.counts[r.counts.length]? = some n →
    ∀ as : List Address, as.Nodup → (∀ a ∈ as, r.Reachable a) → as.length ≤ n
  /-- It comes to no more than those values. -/
  most : ∀ n, r'.counts[r.counts.length]? = some n → n ≤ r.swings.size - r.polled.size
  /-- If no value is polled before the next count begins, that one comes to no
  less. -/
  grows : ∀ n, r'.counts = r.counts ++ [n] → r'.polled = r.polled → r'.consumer = .idle →
    ∀ more r'' m, r'.run (.beginCount :: more) = .ok r'' →
      r''.counts[r'.counts.length]? = some m → n ≤ m

/-- A count is a snapshot between what can be reached and what is there, whatever
the producers do meanwhile, and counts grow as long as nothing is polled. -/
theorem count_bounds (work : List (List α)) (before during : List Move) (r : Race α)
    (hbefore : (start work).run before = .ok r) (hidle : r.consumer = .idle) :
    ∃ r', r.run (.beginCount :: during) = .ok r' ∧ r.Counted during r' := by
  obtain ⟨r₀, es, hrun, ho⟩ := (start_orderly work).run before
  obtain rfl := Except.ok.inj (hbefore.symm.trans hrun)
  obtain ⟨r', es', hduring, ho', hp⟩ := ho.count hidle during
  refine ⟨r', hduring, ⟨fun henough => ?_, fun n hn as hnodup has => ?_, fun n hn => ?_, ?_⟩⟩
  · cases hp with
    | underWay c _ _ _ ht hsteps hne =>
      have hlt := ht.lt_of_ne hne
      have hlength := ho.length_eq
      omega
    | finished n hcounts =>
      have hle := hcounts.length_le
      rw [List.length_append, List.length_singleton] at hle
      omega
  · exact Nat.le_trans (ho.length_le_of_reachable hnodup has) (hp.finished_of_getElem? hn).1
  · rw [ho.length_eq]
    exact (hp.finished_of_getElem? hn).2.1
  · intro n hn hpolled hidle' more r'' m hmore hm
    have hfirst : r'.counts[r.counts.length]? = some n := by
      rw [hn, List.getElem?_append_right (Nat.le_refl _), Nat.sub_self]
      rfl
    have hvisible : n ≤ (visible es').length :=
      (hp.finished_of_getElem? hfirst).2.2 (by rw [hpolled])
    obtain ⟨r₂, es₂, hrun₂, -, hp₂⟩ := ho'.count hidle' more
    obtain rfl := Except.ok.inj (hmore.symm.trans hrun₂)
    exact Nat.le_trans hvisible (hp₂.finished_of_getElem? hm).1

/-- Two producers have moved the tail and only the second has set its link, so
that nothing can be reached. -/
def gapAtFront : List Move :=
  [.allocate 0 7, .loadTail 0, .swing 0 false, .allocate 1 8, .loadTail 1, .swing 1 false,
    .publish 1]

/-- While the count is under way the first producer sets its link, and the second
one hands in another value. -/
def gapCloses : List Move :=
  [.publish 0, .advanceCount, .allocate 1 9, .loadTail 1, .swing 1 false, .publish 1, .advanceCount]

theorem count_bounds_gap :
    ∃ r r', (start [[10], [20, 30]]).run gapAtFront = .ok r ∧ r.consumer = .idle ∧
      r.run (.beginCount :: gapCloses) = .ok r' ∧ r.Counted gapCloses r' ∧
      r'.counts = [2] ∧ r'.swings.size = 3 := by
  have hconsumer : ((start [[10], [20, 30]]).run gapAtFront).toOption.map Race.consumer =
      some .idle := by decide +kernel
  have hcounts : (((start [[10], [20, 30]]).run gapAtFront).toOption.bind fun r =>
      (r.run (.beginCount :: gapCloses)).toOption.map fun r' => (r'.counts, r'.swings.size)) =
      some ([2], 3) := by decide +kernel
  obtain ⟨r, -, hbefore, -⟩ := (start_orderly [[10], [20, 30]]).run gapAtFront
  rw [hbefore] at hconsumer hcounts
  have hidle : r.consumer = .idle := Option.some.inj hconsumer
  obtain ⟨r', hrun, hcounted⟩ := count_bounds [[10], [20, 30]] gapAtFront gapCloses r hbefore hidle
  simp only [Except.toOption, Option.bind_some, hrun, Option.map_some] at hcounts
  obtain ⟨hcounts, hswings⟩ := Prod.mk.inj (Option.some.inj hcounts)
  exact ⟨r, r', hbefore, hidle, hrun, hcounted, hcounts, hswings⟩

end Race
end LockFree.Queue
