/-
# Producers and the consumer, one step at a time

While offers are under way a chain has gaps, and beside it stand nodes that are
no part of it: those that producers have filled and not handed in, and the
sentinel that the consumer has moved away from. `Race.Orderly` says which nodes
these are, that every gap belongs to the producer that is to close it, and that
the values in the chain are those whose turn it still is. Each step keeps it,
whoever takes it, so it holds after any steps in any order.

A tail that a producer saw may have been freed and be in use again when the
producer tries to move the tail away from it. That does no harm: what an
attempt that succeeds moves the tail from is the node the tail is at, so
nothing is asked of a tail that was merely seen.
-/
import LockFree.Proofs.Queue.Chain
import LockFree.Queue.Race

namespace LockFree.Queue

variable {α : Type}

/-! ### Who holds what -/

/-- The node that a producer has filled and not handed in. -/
def Producer.staged? : Producer α → Option (Address × Node α)
  | ⟨v :: _, .filled node, _⟩ => some (node, ⟨none, some v⟩)
  | ⟨v :: _, .loaded node _, _⟩ => some (node, ⟨none, some v⟩)
  | _ => none

/-- The link that a producer is to set: its node, and where it moved the tail
from. -/
def Producer.gap? : Producer α → Option (Address × Address)
  | ⟨_, .swung node before, _⟩ => some (node, before)
  | _ => none

/-- A producer in the middle of an offer has the value it offers. -/
def Producer.Busy (p : Producer α) : Prop := p.phase ≠ .idle → p.todo ≠ []

/-- The sentinel that a poll has moved the head away from. -/
def Errand.old? : Errand → Option Address
  | .taken old => some old
  | _ => none

/-- What is left of it: its link leads to the head. -/
def Errand.leftover (head : Address) (e : Errand) : List (Address × Node α) :=
  e.old?.toList.map fun old => (old, ⟨some head, none⟩)

/-- What the consumer has seen is in the chain. -/
def Errand.Fits (head : Address) (es : List (Entry α)) : Errand → Prop
  | .seen node => ∃ v rest, es = ⟨node, v, true⟩ :: rest
  | .counting c => c.current ∈ head :: es.map Entry.address
  | _ => True

namespace Race

/-- The nodes beside the chain. -/
def frame (r : Race α) : List (Address × Node α) :=
  r.producers.filterMap Producer.staged? ++ r.consumer.leftover r.chain.head

/-- The chain of a race has these nodes behind its sentinel. -/
structure Orderly (r : Race α) (es : List (Entry α)) : Prop where
  stands : r.chain.Stands r.heap es r.frame
  owed : (r.producers.filterMap Producer.gap?).Perm (gaps r.chain.head es)
  busy : ∀ p ∈ r.producers, p.Busy
  fits : r.consumer.Fits r.chain.head es
  values : r.swings.toList = r.polled.toList ++ es.map Entry.value

/-- Before the first step nobody has begun anything. -/
theorem start_orderly (work : List (List α)) : (start work).Orderly [] := by
  have hnone : ∀ p ∈ (start work).producers, p.phase = .idle := by
    intro p hp
    obtain ⟨vs, -, rfl⟩ := List.mem_map.mp hp
    rfl
  have hstaged : (start work).producers.filterMap Producer.staged? = [] := by
    refine List.filterMap_eq_nil_iff.mpr fun p hp => ?_
    obtain ⟨vs, -, rfl⟩ := List.mem_map.mp hp
    cases vs <;> rfl
  have hgap : (start work).producers.filterMap Producer.gap? = [] := by
    refine List.filterMap_eq_nil_iff.mpr fun p hp => ?_
    obtain ⟨vs, -, rfl⟩ := List.mem_map.mp hp
    rfl
  refine ⟨?_, ?_, fun p hp hb => absurd (hnone p hp) hb, trivial, rfl⟩
  · rw [frame, hstaged]
    exact Chain.create_stands Heap.holds_empty
  · rw [hgap]
    exact List.Perm.refl _

variable {r : Race α} {es : List (Entry α)}

/-- What a step leaves as it was: counts that were finished and values that
were polled; and the chain, which only grows unless a value is polled. -/
structure Proceeds (r : Race α) (es : List (Entry α)) (r' : Race α) (es' : List (Entry α)) :
    Prop where
  counts : r.counts <+: r'.counts
  polled : r.polled.size ≤ r'.polled.size
  grows : r'.polled.size = r.polled.size → r'.chain.head = r.chain.head ∧ Grows es es'

theorem Proceeds.refl (r : Race α) (es : List (Entry α)) : r.Proceeds es r es :=
  ⟨List.prefix_refl _, Nat.le_refl _, fun _ => ⟨rfl, .refl es⟩⟩

theorem Proceeds.grown {r' : Race α} {es' : List (Entry α)} (hcounts : r'.counts = r.counts)
    (hpolled : r'.polled = r.polled) (hhead : r'.chain.head = r.chain.head)
    (hg : Grows es es') : r.Proceeds es r' es' :=
  ⟨hcounts ▸ List.prefix_refl _, Nat.le_of_eq (by rw [hpolled]), fun _ => ⟨hhead, hg⟩⟩

theorem Proceeds.same {r' : Race α} (hcounts : r'.counts = r.counts)
    (hpolled : r'.polled = r.polled) (hhead : r'.chain.head = r.chain.head)
    (es : List (Entry α)) : r.Proceeds es r' es :=
  .grown hcounts hpolled hhead (.refl es)

/-- A value is polled. -/
theorem Proceeds.taken {r' : Race α} {es' : List (Entry α)} (hcounts : r'.counts = r.counts)
    (hpolled : r'.polled.size = r.polled.size + 1) : r.Proceeds es r' es' :=
  ⟨hcounts ▸ List.prefix_refl _, by omega, fun hsame => by omega⟩

theorem Proceeds.finishCount (c : Count) (es : List (Entry α)) :
    r.Proceeds es (r.finishCount c) es :=
  ⟨List.prefix_append _ _, Nat.le_refl _, fun _ => ⟨rfl, .refl es⟩⟩

theorem Proceeds.atCount (c : Count) (es : List (Entry α)) : r.Proceeds es (r.atCount c) es := by
  unfold Race.atCount
  split
  · exact .finishCount c es
  · exact .same (by rfl) (by rfl) (by rfl) es

/-! ### One producer's step

A step of producer `i` changes the list of producers at one place, and at the
two sides of it everything the others hold stays. -/

theorem exists_sides {ps : List (Producer α)} {i : Nat} {p : Producer α} (hi : ps[i]? = some p) :
    ∃ as bs, ps = as ++ p :: bs ∧
      (∀ phase, ps.modify i (fun p => { p with phase := phase }) =
        as ++ { p with phase := phase } :: bs) ∧
      ∀ q, ps.set i q = as ++ q :: bs := by
  obtain ⟨hlt, hp⟩ := List.getElem?_eq_some_iff.mp hi
  refine ⟨ps.take i, ps.drop (i + 1), ?_, fun phase => ?_, fun q => ?_⟩
  · rw [← hp, ← List.drop_eq_getElem_cons hlt, List.take_append_drop]
  · rw [List.modify_eq_take_cons_drop hlt, hp]
  · exact List.set_eq_take_cons_drop q hlt

/-- What the producers hold of one kind, the one in the middle first. -/
theorem filterMap_sides {β : Type} (f : Producer α → Option β) (as bs : List (Producer α))
    (p : Producer α) :
    ((as ++ p :: bs).filterMap f).Perm ((f p).toList ++ (as ++ bs).filterMap f) := by
  refine (List.perm_middle.filterMap f).trans ?_
  rw [List.filterMap_cons]
  cases f p <;> exact List.Perm.refl _

/-- A race in order, seen from one of its producers. -/
theorem orderly_iff {as bs : List (Producer α)} {p : Producer α}
    (hps : r.producers = as ++ p :: bs) : r.Orderly es ↔
      r.chain.Stands r.heap es (p.staged?.toList ++
        ((as ++ bs).filterMap Producer.staged? ++ r.consumer.leftover r.chain.head)) ∧
      (p.gap?.toList ++ (as ++ bs).filterMap Producer.gap?).Perm (gaps r.chain.head es) ∧
      p.Busy ∧ (∀ q ∈ as ++ bs, q.Busy) ∧ r.consumer.Fits r.chain.head es ∧
      r.swings.toList = r.polled.toList ++ es.map Entry.value := by
  have hstaged := filterMap_sides Producer.staged? as bs p
  have hgap := filterMap_sides Producer.gap? as bs p
  have hframe := hstaged.append_right (r.consumer.leftover r.chain.head)
  have hbusy : (∀ q ∈ as ++ p :: bs, q.Busy) ↔ p.Busy ∧ ∀ q ∈ as ++ bs, q.Busy := by
    simp only [List.perm_middle.mem_iff, List.mem_cons, forall_eq_or_imp]
  rw [← hps] at hstaged hgap hframe hbusy
  rw [List.append_assoc] at hframe
  constructor
  · intro ho
    obtain ⟨hp, hb⟩ := hbusy.mp ho.busy
    exact ⟨ho.stands.perm hframe, hgap.symm.trans ho.owed, hp, hb, ho.fits, ho.values⟩
  · rintro ⟨hs, hg, hp, hb, hf, hv⟩
    exact ⟨hs.perm hframe.symm, hgap.trans hg, hbusy.mpr ⟨hp, hb⟩, hf, hv⟩

theorem Orderly.allocate (ho : r.Orderly es) (i : Nat) (address : Address) :
    ∃ r' es', r.step (.allocate i address) = .ok r' ∧ r'.Orderly es' ∧ r.Proceeds es r' es' := by
  simp only [step]
  split
  · rename_i v todo n hi
    obtain ⟨as, bs, hps, hmod, -⟩ := exists_sides hi
    obtain ⟨hs, hg, -, hb, hf, hv⟩ := (orderly_iff hps).mp ho
    split
    · exact ⟨r, es, rfl, ho, .refl r es⟩
    · rename_i hfree
      refine ⟨_, es, rfl, (orderly_iff (p := ⟨v :: todo, .filled address, n⟩) (hmod _)).mpr ?_,
        .same (by rfl) (by rfl) (by rfl) es⟩
      exact ⟨hs.allocate hfree _, hg, fun _ => List.cons_ne_nil v todo, hb, hf, hv⟩
  · exact ⟨r, es, rfl, ho, .refl r es⟩

theorem Orderly.loadTail (ho : r.Orderly es) (i : Nat) :
    ∃ r' es', r.step (.loadTail i) = .ok r' ∧ r'.Orderly es' ∧ r.Proceeds es r' es' := by
  simp only [step]
  split
  · rename_i todo node n hi
    obtain ⟨as, bs, hps, hmod, -⟩ := exists_sides hi
    obtain ⟨hs, hg, hp, hb, hf, hv⟩ := (orderly_iff hps).mp ho
    have hne : todo ≠ [] := hp (by intro he; cases he)
    obtain ⟨v, todo, rfl⟩ := List.exists_cons_of_ne_nil hne
    refine ⟨_, es, rfl, (orderly_iff (p := ⟨v :: todo, .loaded node _, n⟩) (hmod _)).mpr ?_,
      .same (by rfl) (by rfl) (by rfl) es⟩
    exact ⟨hs, hg, fun _ => hne, hb, hf, hv⟩
  · exact ⟨r, es, rfl, ho, .refl r es⟩

/-- A node behind the others does not change what the consumer has seen. -/
theorem fits_append {a : Address} {es fs : List (Entry α)} {e : Errand} (hf : e.Fits a es) :
    e.Fits a (es ++ fs) := by
  cases e with
  | idle => trivial
  | seen node =>
    obtain ⟨v, rest, rfl⟩ := hf
    exact ⟨v, rest ++ fs, rfl⟩
  | taken old => trivial
  | counting c =>
    have hm : c.current ∈ a :: es.map Entry.address := hf
    have hsub : a :: es.map Entry.address ⊆ a :: (es ++ fs).map Entry.address := by
      rw [List.map_append]
      exact List.cons_subset_cons a (List.subset_append_left _ _)
    exact hsub hm

/-- Nor does a link that is set. -/
theorem fits_link {a b : Address} {v : α} {l m : List (Entry α)} {e : Errand}
    (hf : e.Fits a (l ++ ⟨b, v, false⟩ :: m)) : e.Fits a (l ++ ⟨b, v, true⟩ :: m) := by
  cases e with
  | idle => trivial
  | seen node =>
    obtain ⟨w, rest, he⟩ := hf
    cases l with
    | nil => cases he
    | cons f l =>
      obtain ⟨rfl, -⟩ := List.cons.inj he
      exact ⟨w, _, rfl⟩
  | taken old => trivial
  | counting c =>
    have hm : c.current ∈ a :: (l ++ ⟨b, v, false⟩ :: m).map Entry.address := hf
    show c.current ∈ a :: (l ++ ⟨b, v, true⟩ :: m).map Entry.address
    rwa [List.map_append, List.map_cons] at hm ⊢

/-- An attempt that succeeds hands the producer's node in, behind a gap that
the producer is to close. One that fails only tells it where the tail is. -/
theorem Orderly.swing (ho : r.Orderly es) (i : Nat) (spurious : Bool) :
    ∃ r' es', r.step (.swing i spurious) = .ok r' ∧ r'.Orderly es' ∧ r.Proceeds es r' es' := by
  simp only [step]
  split
  · rename_i v todo node seen n hi
    obtain ⟨as, bs, hps, hmod, -⟩ := exists_sides hi
    obtain ⟨hs, hg, hp, hb, hf, hv⟩ := (orderly_iff hps).mp ho
    have hbusy : v :: todo ≠ [] := List.cons_ne_nil v todo
    have hagain : ∀ seen', (r.atPhase i (.loaded node seen')).Orderly es := by
      intro seen'
      refine (orderly_iff (p := ⟨v :: todo, .loaded node seen', n⟩) (hmod _)).mpr ?_
      exact ⟨hs, hg, fun _ => hbusy, hb, hf, hv⟩
    cases spurious with
    | true => exact ⟨_, es, rfl, hagain _, .same (by rfl) (by rfl) (by rfl) es⟩
    | false =>
      by_cases ht : r.chain.tail = seen
      · subst ht
        simp only [Chain.swing, if_pos]
        refine ⟨_, es ++ [⟨node, v, false⟩], rfl,
          (orderly_iff (p := ⟨v :: todo, .swung node r.chain.tail, n⟩) (hmod _)).mpr ?_,
          .grown rfl rfl rfl (grows_append es _)⟩
        refine ⟨hs.append, ?_, fun _ => hbusy, hb, fits_append hf, ?_⟩
        · rw [gaps_append, hs.tail]
          exact (hg.cons _).trans (List.perm_append_singleton _ _).symm
        · show (r.swings.push v).toList = _ ++ (es ++ [⟨node, v, false⟩] : List (Entry α)).map _
          rw [Array.toList_push, hv, List.map_append, List.append_assoc]
          rfl
      · simp only [Chain.swing, if_neg ht]
        exact ⟨_, es, rfl, hagain _, .same (by rfl) (by rfl) (by rfl) es⟩
  · exact ⟨r, es, rfl, ho, .refl r es⟩

/-- A producer between its swing and its link finds the node it moved the tail
from in the chain, and the link to its own node still to come. -/
theorem Orderly.publish (ho : r.Orderly es) (i : Nat) :
    ∃ r' es', r.step (.publish i) = .ok r' ∧ r'.Orderly es' ∧ r.Proceeds es r' es' := by
  simp only [step]
  split
  · rename_i w todo node before n hi
    obtain ⟨as, bs, hps, -, hset⟩ := exists_sides hi
    obtain ⟨hs, hg, -, hb, hf, hv⟩ := (orderly_iff hps).mp ho
    have hmem : (node, before) ∈ gaps r.chain.head es :=
      hg.subset List.mem_cons_self
    obtain ⟨l, v, m, rfl, rfl⟩ := exists_entry_of_mem_gaps hmem
    obtain ⟨h', hl, hs'⟩ := hs.publish
    rw [hl]
    refine ⟨_, l ++ ⟨node, v, true⟩ :: m, rfl, (orderly_iff (hset _)).mpr
      ⟨?_, ?_, fun hne => absurd rfl hne, hb, fits_link hf, by simpa using hv⟩,
      .grown rfl rfl rfl (grows_link l m node v)⟩
    · cases todo <;> exact hs'
    · rw [gaps_append] at hg ⊢
      exact (hg.trans List.perm_middle).cons_inv
  · exact ⟨r, es, rfl, ho, .refl r es⟩

/-! ### The consumer's step -/

/-- The consumer turns to something for which it holds no node. -/
theorem Orderly.attend (ho : r.Orderly es) (hc : r.consumer.old? = none) (e : Errand)
    (he : e.old? = none) (hf : e.Fits r.chain.head es) (counts : List Nat) :
    Orderly { r with consumer := e, counts := counts } es := by
  refine ⟨?_, ho.owed, ho.busy, hf, ho.values⟩
  have hs := ho.stands
  rw [frame, Errand.leftover, hc] at hs
  rw [frame, Errand.leftover, he]
  exact hs

theorem Orderly.look (ho : r.Orderly es) :
    ∃ r' es', r.step .look = .ok r' ∧ r'.Orderly es' ∧ r.Proceeds es r' es' := by
  simp only [step]
  split
  · rename_i hc
    have hfirst := ho.stands.first?
    have hnone : r.consumer.old? = none := by rw [hc]; rfl
    rcases es with _ | ⟨⟨node, v, linked⟩, rest⟩
    · rw [hfirst]
      exact ⟨r, [], rfl, ho, .refl r _⟩
    · cases linked with
      | false =>
        rw [hfirst]
        exact ⟨r, _, rfl, ho, .refl r _⟩
      | true =>
        rw [hfirst]
        exact ⟨_, _, rfl, ho.attend hnone (.seen node) rfl ⟨v, rest, rfl⟩ r.counts,
          .same (by rfl) (by rfl) (by rfl) _⟩
  · exact ⟨r, es, rfl, ho, .refl r es⟩

/-- The value taken is the first of those whose turn it still is. -/
theorem Orderly.take (ho : r.Orderly es) :
    ∃ r' es', r.step .take = .ok r' ∧ r'.Orderly es' ∧ r.Proceeds es r' es' := by
  simp only [step]
  split
  · rename_i node hc
    have hf := ho.fits
    have hs := ho.stands
    have hv := ho.values
    rw [hc] at hf
    obtain ⟨v, rest, rfl⟩ := hf
    obtain ⟨h', ht, hs'⟩ := hs.advance
    rw [ht]
    refine ⟨_, rest, rfl, ⟨?_, ho.owed, ho.busy, trivial, ?_⟩, .taken rfl (Array.size_push _)⟩
    · refine hs'.perm ?_
      rw [frame, hc]
      show ((r.chain.head, ⟨some node, none⟩) ::
          (r.producers.filterMap Producer.staged? ++ [])).Perm
        (r.producers.filterMap Producer.staged? ++ [(r.chain.head, ⟨some node, none⟩)])
      rw [List.append_nil]
      exact (List.perm_append_singleton _ _).symm
    · show r.swings.toList = (r.polled.push v).toList ++ rest.map Entry.value
      rw [hv, Array.toList_push, List.append_assoc]
      rfl
  · exact ⟨r, es, rfl, ho, .refl r es⟩

theorem Orderly.discard (ho : r.Orderly es) :
    ∃ r' es', r.step .discard = .ok r' ∧ r'.Orderly es' ∧ r.Proceeds es r' es' := by
  simp only [step]
  split
  · rename_i old hc
    have hs := ho.stands
    rw [frame, hc] at hs
    obtain ⟨h', hf, hs'⟩ := (hs.perm (List.perm_append_singleton _ _)).discard
    rw [hf]
    refine ⟨_, es, rfl, ⟨?_, ho.owed, ho.busy, trivial, ho.values⟩,
      .same (by rfl) (by rfl) (by rfl) es⟩
    rw [← List.append_nil (r.producers.filterMap Producer.staged?)] at hs'
    exact hs'
  · exact ⟨r, es, rfl, ho, .refl r es⟩

/-- A count that stands in the chain goes on there, or is finished. -/
theorem Orderly.atCount (ho : r.Orderly es) (hc : r.consumer.old? = none) {c : Count}
    (hm : c.current ∈ r.chain.head :: es.map Entry.address) : (r.atCount c).Orderly es := by
  unfold Race.atCount
  split
  · exact ho.attend hc .idle rfl trivial _
  · exact ho.attend hc (.counting c) rfl hm _

theorem Orderly.beginCount (ho : r.Orderly es) :
    ∃ r' es', r.step .beginCount = .ok r' ∧ r'.Orderly es' ∧ r.Proceeds es r' es' := by
  simp only [step]
  split
  · rename_i hc
    have hnone : r.consumer.old? = none := by rw [hc]; rfl
    exact ⟨_, es, rfl, ho.atCount hnone List.mem_cons_self, .atCount _ es⟩
  · exact ⟨r, es, rfl, ho, .refl r es⟩

theorem Orderly.advanceCount (ho : r.Orderly es) :
    ∃ r' es', r.step .advanceCount = .ok r' ∧ r'.Orderly es' ∧ r.Proceeds es r' es' := by
  simp only [step]
  split
  · rename_i c hc
    have hnone : r.consumer.old? = none := by rw [hc]; rfl
    have hm := ho.fits
    rw [hc] at hm
    obtain ⟨next, q, hcell, hnext⟩ := exists_link_of_mem (p := (none : Option α)) hm
    rw [ho.stands.heap.read (List.mem_append_left _ hcell)]
    cases next with
    | none => exact ⟨_, es, rfl, ho.attend hnone .idle rfl trivial _, .finishCount c es⟩
    | some b =>
      obtain ⟨e, he, rfl⟩ := hnext b rfl
      obtain ⟨next, hpay⟩ := mem_spine_of_mem (a := r.chain.head) (none : Option α) he
      simp only [ho.stands.heap.payload (List.mem_append_left _ hpay)]
      exact ⟨_, es, rfl, ho.atCount hnone
        (List.mem_cons_of_mem _ (List.mem_map.mpr ⟨e, he, rfl⟩)), .atCount _ es⟩
  · exact ⟨r, es, rfl, ho, .refl r es⟩

/-! ### All steps -/

/-- Every step can be taken, and keeps the race in order. -/
theorem Orderly.step (ho : r.Orderly es) (move : Move) :
    ∃ r' es', r.step move = .ok r' ∧ r'.Orderly es' ∧ r.Proceeds es r' es' := by
  cases move with
  | allocate i address => exact ho.allocate i address
  | loadTail i => exact ho.loadTail i
  | swing i spurious => exact ho.swing i spurious
  | publish i => exact ho.publish i
  | look => exact ho.look
  | take => exact ho.take
  | discard => exact ho.discard
  | beginCount => exact ho.beginCount
  | advanceCount => exact ho.advanceCount

theorem Orderly.run (ho : r.Orderly es) (moves : List Move) :
    ∃ r' es', r.run moves = .ok r' ∧ r'.Orderly es' := by
  induction moves generalizing r es with
  | nil => exact ⟨r, es, rfl, ho⟩
  | cons move moves ih =>
    obtain ⟨r', es', hstep, ho', -⟩ := ho.step move
    rw [Race.run, hstep]
    exact ih ho'

/-! ### Polls that nobody comes between

Three steps of an idle consumer are one poll of the chain. -/

theorem run_append (r : Race α) (ms ns : List Move) :
    r.run (ms ++ ns) = match r.run ms with
      | .error f => .error f
      | .ok r' => r'.run ns := by
  induction ms generalizing r with
  | nil => rfl
  | cons m ms ih =>
    rw [List.cons_append, Race.run, Race.run]
    cases r.step m with
    | error f => rfl
    | ok r' => exact ih r'

theorem run_wholePoll (hc : r.consumer = .idle) :
    r.run wholePoll = match r.chain.poll r.heap with
      | .error f => .error f
      | .ok (v?, c, h) =>
        .ok { r with heap := h, chain := c, polled := r.polled ++ v?.toList.toArray } := by
  obtain ⟨heap, chain, producers, consumer, swings, polled, counts⟩ := r
  obtain rfl : consumer = .idle := hc
  simp only [wholePoll, Race.run, Race.step, Chain.poll]
  rcases chain.first? heap with f | (_ | node)
  · rfl
  · simp
  · rcases ht : heap.take node with f | ⟨v, heap'⟩
    · simp [ht]
    · cases hf : heap'.free chain.head <;> simp [ht, hf]

/-- Several polls, one after another. -/
def polls (n : Nat) : List Move := (List.replicate n wholePoll).flatten

theorem run_polls {n : Nat} : ∀ {r : Race α}, r.consumer = .idle →
    r.run (polls n) = match r.chain.pollMany r.heap n with
      | .error f => .error f
      | .ok (vs, c, h) =>
        .ok { r with heap := h, chain := c, polled := r.polled ++ vs.toArray } := by
  induction n with
  | zero =>
    intro r _
    simp [polls, Race.run, Chain.pollMany]
  | succ n ih =>
    intro r hc
    have hpolls : polls (n + 1) = wholePoll ++ polls n := by
      rw [polls, List.replicate_succ, List.flatten_cons]
      rfl
    rw [hpolls, run_append, run_wholePoll hc, Chain.pollMany]
    rcases hp : r.chain.poll r.heap with f | ⟨_ | v, c, h⟩
    · rfl
    · obtain ⟨rfl, rfl⟩ := Chain.poll_eq_none hp
      have hagain := ih (r := r) hc
      rw [Chain.pollMany_eq_nil hp] at hagain
      simpa using hagain
    · have hrest := ih
        (r := { r with heap := h, chain := c, polled := r.polled ++ (some v).toList.toArray }) hc
      simp only [hrest]
      rcases c.pollMany h n with f | ⟨vs, c', h'⟩
      · rfl
      · simp

/-! ### The order of the values -/

/-- A producer between its swing and its link has a gap of the chain to close. -/
theorem Orderly.mem_gaps (ho : r.Orderly es) {p : Producer α} (hp : p ∈ r.producers)
    {node before : Address} (hphase : p.phase = .swung node before) :
    (node, before) ∈ gaps r.chain.head es := by
  have hgap : p.gap? = some (node, before) := by
    obtain ⟨todo, phase, n⟩ := p
    obtain rfl : phase = .swung node before := hphase
    rfl
  exact ho.owed.subset (List.mem_filterMap.mpr ⟨p, hp, hgap⟩)

/-- When no producer is between its swing and its link there are no gaps. -/
theorem Orderly.gaps_eq_nil (ho : r.Orderly es)
    (hnone : ∀ p ∈ r.producers, ∀ node before, p.phase ≠ .swung node before) :
    gaps r.chain.head es = [] := by
  have hgap : r.producers.filterMap Producer.gap? = [] := by
    refine List.filterMap_eq_nil_iff.mpr fun p hp => ?_
    obtain ⟨todo, phase, n⟩ := p
    cases phase with
    | swung node before => exact absurd rfl (hnone _ hp node before)
    | idle => rfl
    | filled node => rfl
    | loaded node seen => rfl
  exact List.perm_nil.mp (hgap ▸ ho.owed).symm

/-- Values come out in the order in which the tail was moved onto them. After
any steps of the producers and the consumer in any order: the values polled are
the first of those; the node that a producer moved the tail from is there, and
has no link, until the producer sets it; and when no link is to come, polls
find all the other values, in order, and then nothing. -/
theorem polled_in_swing_order (work : List (List α)) (moves : List Move) :
    ∃ r, (start work).run moves = .ok r ∧
      r.polled.toList <+: r.swings.toList ∧
      (∀ p ∈ r.producers, ∀ node before, p.phase = .swung node before →
        ∃ n, r.heap.node? before = some n ∧ n.next = none) ∧
      ((∀ p ∈ r.producers, ∀ node before, p.phase ≠ .swung node before) →
        ∀ k, r.swings.size - r.polled.size ≤ k →
          ∃ c h, r.chain.pollMany r.heap k = .ok (r.swings.toList.drop r.polled.size, c, h) ∧
            c.poll h = .ok (none, c, h) ∧
            (r.consumer = .idle →
              r.run (polls k) = .ok { r with heap := h, chain := c, polled := r.swings })) := by
  obtain ⟨r, es, hrun, ho⟩ := (start_orderly work).run moves
  have hsplit := ho.values
  refine ⟨r, hrun, ⟨_, hsplit.symm⟩, ?_, ?_⟩
  · intro p hp node before hphase
    obtain ⟨q, hm⟩ := mem_spine_of_mem_gaps none (ho.mem_gaps hp hphase)
    exact ⟨_, ho.stands.heap.node?_eq (List.mem_append_left _ hm), rfl⟩
  · intro hnone k hk
    have hrest : r.swings.toList.drop r.polled.size = es.map Entry.value := by
      rw [hsplit, ← Array.length_toList, List.drop_left]
    have hlen : (es.map Entry.value).length ≤ k := by
      rw [← hrest, List.length_drop, Array.length_toList]
      exact hk
    obtain ⟨-, c, h, hmany, hpoll⟩ := ho.stands.loopsEnd (ho.gaps_eq_nil hnone) k hlen
    refine ⟨c, h, hrest ▸ hmany, hpoll, fun hc => ?_⟩
    have hall : r.polled ++ (es.map Entry.value).toArray = r.swings := by
      rw [← Array.toList_inj, Array.toList_append, hsplit]
    rw [run_polls hc, hmany]
    simp only [hall]

/-- The first value comes and goes. Then both producers see the tail at its
node; the first one puts its next node where the sentinel was that has been
freed, moves the tail onto it and stops there. The second one loses its attempt,
fails once more for no reason, and sets a link behind the gap, over which a poll
finds nothing. -/
def overFreed : List Move :=
  [.allocate 0 7, .loadTail 0, .swing 0 false, .publish 0] ++ wholePoll ++
    [.allocate 1 8, .loadTail 1, .allocate 0 0, .loadTail 0, .swing 0 false, .swing 1 false,
      .swing 1 true, .swing 1 false, .publish 1] ++ wholePoll

theorem polled_in_swing_order_overFreed :
    (∃ r n, (start [[10, 30], [20]]).run overFreed = .ok r ∧ r.swings = #[10, 30, 20] ∧
      r.polled = #[10] ∧ r.producers.map Producer.phase = [.swung 0 7, .idle] ∧
      r.heap.node? 7 = some n ∧ n.next = none) ∧
    ∃ r c h, (start [[10, 30], [20]]).run (overFreed ++ [.publish 0]) = .ok r ∧
      r.swings = #[10, 30, 20] ∧ r.chain.pollMany r.heap 2 = .ok ([30, 20], c, h) ∧
      c.poll h = .ok (none, c, h) ∧
      r.run (polls 2) = .ok { r with heap := h, chain := c, polled := r.swings } := by
  constructor
  · obtain ⟨r, hrun, -, hgap, -⟩ := polled_in_swing_order [[10, 30], [20]] overFreed
    have hstate : ((start [[10, 30], [20]]).run overFreed).toOption.map (fun r =>
        (r.swings, r.polled, r.producers.map Producer.phase)) =
        some (#[10, 30, 20], #[10], [.swung 0 7, .idle]) := by
      decide +kernel
    simp only [hrun, Except.toOption, Option.map_some, Option.some.injEq, Prod.mk.injEq] at hstate
    obtain ⟨hswings, hpolled, hphases⟩ := hstate
    have hfirst : Phase.swung 0 7 ∈ r.producers.map Producer.phase := hphases ▸ List.mem_cons_self
    obtain ⟨p, hp, hphase⟩ := List.mem_map.mp hfirst
    obtain ⟨n, hn, hnext⟩ := hgap p hp 0 7 hphase
    exact ⟨r, n, hrun, hswings, hpolled, hphases, hn, hnext⟩
  · obtain ⟨r, hrun, -, -, hrest⟩ :=
      polled_in_swing_order [[10, 30], [20]] (overFreed ++ [.publish 0])
    have hstate : ((start [[10, 30], [20]]).run (overFreed ++ [.publish 0])).toOption.map (fun r =>
        (r.swings, r.polled, r.producers.map Producer.phase, r.consumer)) =
        some (#[10, 30, 20], #[10], [.idle, .idle], .idle) := by
      decide +kernel
    simp only [hrun, Except.toOption, Option.map_some, Option.some.injEq, Prod.mk.injEq] at hstate
    obtain ⟨hswings, hpolled, hphases, hidle⟩ := hstate
    have hnone : ∀ p ∈ r.producers, ∀ node before, p.phase ≠ .swung node before := by
      intro p hp node before hphase
      have hmem : p.phase ∈ [Phase.idle, .idle] := hphases ▸ List.mem_map_of_mem hp
      simp [hphase] at hmem
    obtain ⟨c, h, hmany, hpoll, hpolls⟩ := hrest hnone 2 (by rw [hswings, hpolled]; decide)
    rw [hswings, hpolled] at hmany
    exact ⟨r, c, h, hrun, hswings, hmany, hpoll, hpolls hidle⟩

end Race
end LockFree.Queue
