/-
# The events as an audit trail

Whoever has only the events can keep a ledger of a manager's slots: a slot that
was handed out is allocated under its label, one that was freed is reclaimed and
has none, and no other event matters (`Ledger.replay`). The ledger knows nothing
of registries, queues or times.

The events of one manager's slots are those of the operations that turn to it
(`Host.trail`): direct ones, and closes of positions that give it their slot
back. At every moment of a run the ledger of these events shows what the manager
answers (`Ledger.Audits`), for what is reported is what was done to the manager
(`Host.Does.told_eq`). Where there is one manager only, its ledger can be kept
from all events that the host has.

Key definitions: `Ledger.replay`, `Ledger.Admits`, `Ledger.verdict`,
`Ledger.Audits`, `Host.trail`, `Host.Audited`.
Key theorems: `Ledger.Audits.follows`, `Host.Does.told_eq`, `Host.audits_run`,
`Host.events_run`, `Host.audited_in_every_run`.
-/
import LockFree.Proofs.Counters.Lifecycle
import LockFree.Proofs.Counters.Resolution
import Mathlib.Logic.Function.Basic

namespace LockFree

namespace Event

/-- The event says what became of a slot, or of a free. -/
def isOfSlot : Event → Bool
  | .allocated .. | .freed _ | .freeOutside _ | .freeUnallocated .. => true
  | _ => false

/-- A slot was handed out. -/
def isAllocated : Event → Bool
  | .allocated .. => true
  | _ => false

/-- A slot was freed. -/
def isFreed : Event → Bool
  | .freed _ => true
  | _ => false

theorem isOfSlot_of_isAllocated {e : Event} (he : e.isAllocated = true) : e.isOfSlot = true := by
  cases e <;> first | rfl | cases he

theorem isOfSlot_of_isFreed {e : Event} (he : e.isFreed = true) : e.isOfSlot = true := by
  cases e <;> first | rfl | cases he

theorem countP_filter_isOfSlot {f : Event → Bool} (hf : ∀ e, f e = true → e.isOfSlot = true)
    (log : List Event) : (log.filter isOfSlot).countP f = log.countP f := by
  rw [List.countP_filter]
  refine List.countP_congr fun e _ => ?_
  rw [Bool.and_eq_true]
  exact ⟨And.left, fun he => ⟨he, hf e he⟩⟩

end Event
end LockFree

namespace LockFree.Counters

/-! ### The ledger -/

/-- The id is one of the first `n` slots'. -/
def IsSlot (n : Nat) (id : SlotId) : Prop := 0 ≤ id.toInt ∧ id.toInt < n

instance (n : Nat) (id : SlotId) : Decidable (IsSlot n id) := inferInstanceAs (Decidable (_ ∧ _))

/-- What is shown of a slot. -/
structure Shown where
  state : SlotState := .unused
  label : Option String := none
  deriving DecidableEq, Repr

/-- What a slot's record shows. -/
def Slot.shown (s : Slot) : Shown := ⟨s.state, s.label?⟩

/-- What is shown of each id, be it a slot's or not. -/
abbrev Ledger := SlotId → Shown

namespace Ledger

/-- The ledger after an event. -/
def enter (l : Ledger) : Event → Ledger
  | .allocated id label => Function.update l id ⟨.allocated, some label⟩
  | .freed id => Function.update l id ⟨.reclaimed, none⟩
  | _ => l

/-- The ledger of events, oldest first; before them no id was ever used. -/
def replay (log : List Event) : Ledger := log.foldl enter fun _ => {}

/-- What is to be said of a free when the ledger stands so. -/
def verdict (l : Ledger) (n : Nat) (id : SlotId) : Event :=
  if IsSlot n id then
    if (l id).state = .allocated then .freed id else .freeUnallocated id (l id).state
  else .freeOutside id

/-- The event may come when the ledger stands so. -/
def Admits (l : Ledger) (n : Nat) : Event → Prop
  | .allocated id _ => IsSlot n id ∧ (l id).state ≠ .allocated
  | .freed id => IsSlot n id ∧ (l id).state = .allocated
  | .freeUnallocated id state => IsSlot n id ∧ state ≠ .allocated ∧ (l id).state = state
  | .freeOutside id => ¬ IsSlot n id
  | _ => True

theorem replay_concat (log : List Event) (e : Event) : replay (log ++ [e]) = enter (replay log) e :=
  List.foldl_append

theorem enter_of_silent (l : Ledger) {e : Event} (he : e.isOfSlot = false) : enter l e = l := by
  cases e <;> first | rfl | cases he

theorem admits_of_silent (l : Ledger) (n : Nat) {e : Event} (he : e.isOfSlot = false) :
    l.Admits n e := by
  cases e <;> trivial

end Ledger

/-! ### A registry and its ledger -/

namespace Registry

/-- One slot's record counts or does not. -/
theorem allocatedCount_set {r : Registry} {i : Nat} {s : Slot} (hi : r.slot? i = some s)
    (s' : Slot) (queue : List Nat) :
    allocatedCount ⟨r.slots.set i s', queue⟩ + (if s.state = .allocated then 1 else 0) =
      r.allocatedCount + if s'.state = .allocated then 1 else 0 := by
  obtain ⟨hlt, hget⟩ := List.getElem?_eq_some_iff.mp hi
  have hle : (if s.state = .allocated then 1 else 0) ≤ r.allocatedCount := by
    split
    · rename_i halloc
      exact List.countP_pos_iff.mpr ⟨s, List.mem_of_getElem? hi, decide_eq_true halloc⟩
    · exact Nat.zero_le _
  unfold allocatedCount at hle ⊢
  rw [List.countP_set hlt, hget]
  simp only [decide_eq_true_eq] at hle ⊢
  omega

end Registry

theorem isSlot_ofNat {n i : Nat} (hn : n ≤ maxSlotId) (hi : i < n) : IsSlot n (Int32.ofNat i) := by
  have hmax : maxSlotId = 2147483647 := rfl
  have hnat : (Int32.ofNat i).toInt = i := Int32.toInt_ofNat_of_lt (by omega)
  exact ⟨by omega, by omega⟩

namespace Ledger

/-- The ledger of the events shows the registry of `n` slots as it is, counts as
many slots as are allocated, and no event came when it could not. -/
structure Audits (log : List Event) (n : Nat) (r : Registry) : Prop where
  shows : ∀ i s, r.slot? i = some s → replay log (Int32.ofNat i) = s.shown
  count : r.allocatedCount + log.countP Event.isFreed = log.countP Event.isAllocated
  admits : ∀ before e after, log = before ++ e :: after → (replay before).Admits n e

variable {log : List Event} {n now quarantine frontier : Nat} {r r' : Registry}

/-- One more event, if it may come and is the one that tells of the change. -/
theorem Audits.concat (ha : Audits log n r) {e : Event} (hadmits : (replay log).Admits n e)
    (hshows : ∀ i s, r'.slot? i = some s → enter (replay log) e (Int32.ofNat i) = s.shown)
    (hcount : r'.allocatedCount + [e].countP Event.isFreed =
      r.allocatedCount + [e].countP Event.isAllocated) : Audits (log ++ [e]) n r' := by
  refine ⟨fun i s hi => ?_, ?_, fun before e' after hsplit => ?_⟩
  · rw [replay_concat]
    exact hshows i s hi
  · have hold := ha.count
    rw [List.countP_append, List.countP_append]
    omega
  · rcases List.eq_nil_or_concat after with rfl | ⟨after', e'', rfl⟩
    · obtain ⟨rfl, hlast⟩ := List.append_inj' hsplit rfl
      obtain rfl := List.singleton_inj.mp hlast
      exact hadmits
    · have hsplit' : log ++ [e] = (before ++ e' :: after') ++ [e''] := by
        rw [hsplit, List.concat_eq_append, List.append_assoc]
        rfl
      obtain ⟨rfl, -⟩ := List.append_inj' hsplit' rfl
      exact ha.admits before e' after' rfl

/-- Events that say nothing about slots may be left out. -/
theorem replay_filter (log : List Event) : replay (log.filter Event.isOfSlot) = replay log := by
  have henter : enter = fun (l : Ledger) (e : Event) => if e.isOfSlot then enter l e else l := by
    funext l e
    cases he : e.isOfSlot with
    | true => rfl
    | false => exact enter_of_silent l he
  rw [replay, replay, List.foldl_filter, ← henter]

theorem Audits.of_filter (ha : Audits (log.filter Event.isOfSlot) n r) : Audits log n r := by
  refine ⟨fun i s hi => ?_, ?_, fun before e after hsplit => ?_⟩
  · rw [← replay_filter]
    exact ha.shows i s hi
  · have hcount := ha.count
    rw [Event.countP_filter_isOfSlot fun _ => Event.isOfSlot_of_isFreed,
      Event.countP_filter_isOfSlot fun _ => Event.isOfSlot_of_isAllocated] at hcount
    exact hcount
  · cases he : e.isOfSlot with
    | false => exact admits_of_silent _ n he
    | true =>
      rw [← replay_filter]
      refine ha.admits _ e (after.filter Event.isOfSlot) ?_
      rw [hsplit, List.filter_append, List.filter_cons_of_pos he]

/-- Before the first event no slot was used. -/
theorem audits_fresh (n : Nat) : Audits [] n (Registry.fresh n) := by
  refine ⟨fun i s hi => ?_, ?_, fun before e after hsplit => ?_⟩
  · rw [List.eq_of_mem_replicate (List.mem_of_getElem? hi)]
    rfl
  · simp [Registry.allocatedCount, Registry.fresh]
  · simp at hsplit

/-- A slot gets another record, and an event says which. -/
theorem Audits.set (ha : Audits log n r) (hs : r.Sound n frontier now) (hn : n ≤ maxSlotId)
    {i : Nat} {s s' : Slot} (hi : r.slot? i = some s) (queue : List Nat) {e : Event}
    (hadmits : (replay log).Admits n e)
    (henter : enter (replay log) e = Function.update (replay log) (Int32.ofNat i) s'.shown)
    (hcount : [e].countP Event.isFreed + (if s'.state = .allocated then 1 else 0) =
      [e].countP Event.isAllocated + if s.state = .allocated then 1 else 0) :
    Audits (log ++ [e]) n ⟨r.slots.set i s', queue⟩ := by
  refine ha.concat hadmits (fun j t hj => ?_) ?_
  · have hilt := hs.slot?_lt hi
    rw [Registry.slot?_set hi] at hj
    rw [henter]
    by_cases hji : j = i
    · subst hji
      rw [if_pos rfl] at hj
      obtain rfl := Option.some.inj hj
      exact Function.update_self _ _ _
    · rw [if_neg hji] at hj
      have hjlt := hs.slot?_lt hj
      have hne : Int32.ofNat j ≠ Int32.ofNat i :=
        mt (ofNat_slotId_inj (by omega) (by omega)).mp hji
      rw [Function.update_of_ne hne]
      exact ha.shows j t hj
  · have hset := Registry.allocatedCount_set hi s' queue
    omega

/-- An owner does not show. -/
theorem Audits.own (ha : Audits log n r) {i : Nat} {s : Slot} (hi : r.slot? i = some s) :
    Audits log n (r.own i) := by
  rw [Registry.own, Registry.modify_eq_set hi]
  refine ⟨fun j t hj => ?_, ?_, ha.admits⟩
  · rw [Registry.slot?_set hi] at hj
    split at hj
    · rename_i hji
      subst hji
      obtain rfl := Option.some.inj hj
      exact ha.shows j s hi
    · exact ha.shows j t hj
  · have hcount := Registry.allocatedCount_set hi { s with owned := true } r.freeList
    have hold := ha.count
    dsimp only at hcount
    omega

end Ledger

/-! ### A manager and its ledger -/

namespace Manager

variable {m : Manager} {frontier now : Nat} {id : SlotId}

/-- Each of the manager's slots has a record. -/
theorem Sound.exists_slot (hm : m.Sound frontier now) (hid : IsSlot m.maxCounters.toNat id) :
    ∃ i s, m.index id = .ok i ∧ Int32.ofNat i.toNat = id ∧ m.registry.slot? i.toNat = some s ∧
      m.state? id = some s.state ∧ m.label? id = s.label? := by
  obtain ⟨i, hindex, -⟩ := exists_index_of_toInt hid.1 hid.2
  obtain ⟨hi, hlt⟩ := index_eq_ok_iff.mp hindex
  obtain ⟨s, hslot⟩ : ∃ s, m.registry.slot? i.toNat = some s :=
    ⟨_, List.getElem?_eq_getElem (hm.sound.length.symm ▸ hlt)⟩
  refine ⟨i, s, hindex, ofNat_toNat_of_slotIndex? hi, hslot, ?_, ?_⟩
  · rw [state?, hi, Option.bind_some, hslot]
    rfl
  · rw [label?, hi, Option.bind_some, hslot]
    rfl

/-- Of other ids the manager knows nothing. -/
theorem Sound.no_slot (hm : m.Sound frontier now) (hid : ¬ IsSlot m.maxCounters.toNat id) :
    (∃ e, m.index id = .error e) ∧ m.state? id = none ∧ m.label? id = none := by
  have hout : id.toInt < 0 ∨ (m.maxCounters.toNat : Int) ≤ id.toInt := by
    unfold IsSlot at hid
    omega
  have hslot : ∀ i, slotIndex? id = some i → m.registry.slot? i.toNat = none := by
    intro i hi
    have hnat := toNat_toInt_of_slotIndex? hi
    have hlength := hm.sound.length
    exact List.getElem?_eq_none (by omega)
  refine ⟨⟨_, index_eq_error hm.placed hout⟩, ?_, ?_⟩
  · refine Option.bind_eq_none_iff.mpr fun i hi => ?_
    rw [hslot i hi]
    rfl
  · refine Option.bind_eq_none_iff.mpr fun i hi => ?_
    rw [hslot i hi]
    rfl

theorem Sound.not_isSlot (hm : m.Sound frontier now)
    (hno : ∀ i, m.index id = .ok i → m.registry.slot? i.toNat = none) :
    ¬ IsSlot m.maxCounters.toNat id := by
  intro hid
  obtain ⟨i, s, hi, -, hslot, -⟩ := hm.exists_slot hid
  cases (hno i hi).symm.trans hslot

/-- A manager says to a free what its records say. -/
theorem Sound.event_eq (hm : m.Sound frontier now) {outcome : FreeOutcome} {m' : Manager}
    (hf : m.Follows now (some (.free id outcome)) m') :
    outcome.event id =
      match m.state? id with
      | none => .freeOutside id
      | some .allocated => .freed id
      | some state => .freeUnallocated id state := by
  cases hf with
  | freed hi hslot halloc =>
    rw [state?_of_slot (slotIndex?_of_index hi) hslot, halloc]
    rfl
  | @unallocated _ i s hi hslot hstate =>
    rw [state?_of_slot (slotIndex?_of_index hi) hslot]
    cases hs : s.state with
    | allocated => exact absurd hs hstate
    | _ => rfl
  | outside hno =>
    rw [(hm.no_slot (hm.not_isSlot hno)).2.1]
    rfl

end Manager

namespace Ledger

variable {log : List Event} {m : Manager} {frontier now : Nat}

/-- The ledger shows the states and the labels that the manager answers. -/
theorem Audits.lookup (ha : Audits log m.maxCounters.toNat m.registry) (hm : m.Sound frontier now)
    (id : SlotId) :
    m.state? id = (if IsSlot m.maxCounters.toNat id then some (replay log id).state else none) ∧
      m.label? id = if IsSlot m.maxCounters.toNat id then (replay log id).label else none := by
  by_cases hid : IsSlot m.maxCounters.toNat id
  · obtain ⟨i, s, -, hnat, hslot, hstate, hlabel⟩ := hm.exists_slot hid
    have hshown : replay log id = s.shown := hnat ▸ ha.shows i.toNat s hslot
    rw [if_pos hid, if_pos hid, hshown, hstate, hlabel]
    exact ⟨rfl, rfl⟩
  · obtain ⟨-, hstate, hlabel⟩ := hm.no_slot hid
    rw [if_neg hid, if_neg hid]
    exact ⟨hstate, hlabel⟩

/-- What the manager says to a free is what the ledger says. -/
theorem Audits.verdict_eq (ha : Audits log m.maxCounters.toNat m.registry)
    (hm : m.Sound frontier now) {id : SlotId} {outcome : FreeOutcome} {m' : Manager}
    (hf : m.Follows now (some (.free id outcome)) m') :
    outcome.event id = (replay log).verdict m.maxCounters.toNat id := by
  rw [hm.event_eq hf, (ha.lookup hm id).1, verdict]
  by_cases hid : IsSlot m.maxCounters.toNat id
  · rw [if_pos hid, if_pos hid]
    cases (replay log id).state <;> rfl
  · rw [if_neg hid, if_neg hid]

/-- Whatever is done to a manager, its ledger follows. -/
theorem Audits.follows {m' : Manager} {a : Option Manager.Action}
    (ha : Audits log m.maxCounters.toNat m.registry) (hm : m.Sound frontier now)
    (hf : m.Follows now a m') :
    Audits (log ++ (a.bind Manager.Action.event?).toList) m.maxCounters.toNat m'.registry := by
  have hn := hm.placed.ids
  have hsame : Audits (log ++ []) m.maxCounters.toNat m.registry := by rwa [List.append_nil]
  have hslot : ∀ {i : Nat} {s : Slot}, m.registry.slot? i = some s →
      IsSlot m.maxCounters.toNat (Int32.ofNat i) ∧
        (replay log (Int32.ofNat i)).state = s.state := by
    intro i s hi
    exact ⟨isSlot_ofNat hn (hm.sound.slot?_lt hi), congrArg Shown.state (ha.shows i s hi)⟩
  cases hf with
  | same => exact hsame
  | own hi hslot halloc hfree => exact hsame.own hslot
  | @grant i rest label hnext =>
    obtain ⟨hslots, s, hi, hstate⟩ := hm.sound.next?_slot hnext
    obtain ⟨hin, hshown⟩ := hslot hi
    rw [Registry.grant, hslots]
    refine ha.set hm.sound hn hi rest.freeList ⟨hin, hshown ▸ hstate⟩ rfl ?_
    rw [if_neg hstate]
    rfl
  | @freed id i s hidx hi halloc =>
    obtain ⟨hin, hshown⟩ := hslot hi
    rw [ofNat_toNat_of_slotIndex? (Manager.slotIndex?_of_index hidx)] at hin hshown
    rw [Registry.reclaim, Registry.modify_eq_set hi]
    refine ha.set hm.sound hn hi (m.registry.freeList ++ [i.toNat]) ⟨hin, hshown.trans halloc⟩ ?_ ?_
    · rw [ofNat_toNat_of_slotIndex? (Manager.slotIndex?_of_index hidx)]
      rfl
    · rw [if_pos halloc]
      rfl
  | outside hno => exact ha.concat (hm.not_isSlot hno) ha.shows rfl
  | @unallocated id i s hidx hi hstate =>
    obtain ⟨hin, hshown⟩ := hslot hi
    rw [ofNat_toNat_of_slotIndex? (Manager.slotIndex?_of_index hidx)] at hin hshown
    exact ha.concat ⟨hin, hstate, hshown⟩ ha.shows rfl

end Ledger

/-! ### What operations report -/

namespace Host

/-- What an operation reports of slots. -/
def reported (h : Host) (op : Op) : List Event :=
  ((h.step op).2.events.drop h.events.length).filter Event.isOfSlot

/-- The manager that an operation turns to, directly or through a position. -/
def turnsTo? (h : Host) : Op → Option Nat
  | .allocate k _ | .free k _ | .own k _ => some k
  | .close p =>
    match h.calls? (.close p) with
    | some (.manager k, _) => some k
    | _ => none
  | _ => none

/-- What was reported of the slots of manager `k`. -/
def trail (h : Host) (k : Nat) (ops : List Op) : List Event :=
  List.flatten <|
    h.collect (fun h op => if h.turnsTo? op = some k then some (h.reported op) else none) ops

theorem trail_concat (h : Host) (k : Nat) (ops : List Op) (op : Op) :
    h.trail k (ops ++ [op]) = h.trail k ops ++
      if (h.run ops).turnsTo? op = some k then (h.run ops).reported op else [] := by
  rw [trail, collect_concat, List.flatten_append, trail]
  split
  · rw [Option.toList_some, List.flatten_singleton]
  · rfl

variable {h : Host} {k : Nat} {m : Manager} {frontier : Nat}

theorem reported_eq {op : Op} {es : List Event} (he : (h.step op).2.events = h.events ++ es) :
    h.reported op = es.filter Event.isOfSlot := by
  rw [reported, he, List.drop_left]

variable {op : Op} {d : Option (Nat × Manager.Action)}

/-- What is reported of what is done to a manager is about a slot. -/
theorem filter_event? (d : Option (Nat × Manager.Action)) :
    (d.bind fun act => act.2.event?).toList.filter Event.isOfSlot =
      (d.bind fun act => act.2.event?).toList := by
  rcases d with _ | ⟨k, _ | _ | ⟨id, outcome⟩⟩
  · rfl
  · rfl
  · rfl
  · cases outcome <;> rfl

/-- What an operation reports of slots is what it did to a manager, unless it
failed after that. -/
theorem Does.told {o : Outcome} (hd : h.Does op d o) :
    ∃ es, o.2.events = h.events ++ es ∧ ((∀ f, o.1 = .error f → d = none) →
      es.filter Event.isOfSlot = (d.bind fun act => act.2.event?).toList) := by
  cases hd with
  | bytes hb =>
    cases hb with
    | created hlength he hreserve => exact ⟨_, rfl, fun _ => rfl⟩
    | opened hfind hb hreserve => exact ⟨_, rfl, fun _ => rfl⟩
    | _ => exact ⟨[], (List.append_nil _).symm, fun _ => rfl⟩
  | manage hm => exact ⟨_, rfl, fun _ => rfl⟩
  | allocate hk hm hc => exact ⟨_, rfl, fun _ => rfl⟩
  | lacks hk hm hc =>
    exact ⟨[], (List.append_nil _).symm, fun hclean => by cases hclean _ rfl⟩
  | free hlt hback => exact ⟨_, hback.events, fun _ => filter_event? _⟩
  | @close p q d h' hp hopen hback =>
    refine ⟨(d.bind fun act => act.2.event?).toList ++ [.positionClosed q.id], ?_, fun _ => ?_⟩
    · rw [emit, hback.events, List.append_assoc]
    · rw [List.filter_append, filter_event?]
      exact List.append_nil _
  | _ => exact ⟨[], (List.append_nil _).symm, fun _ => rfl⟩

/-- An operation turns to the manager that it does something to. -/
theorem Does.turnsTo?_eq {a : Manager.Action} {o : Outcome} (hd : h.Does op (some (k, a)) o) :
    h.turnsTo? op = some k := by
  cases hd with
  | allocate hk hm hc => rfl
  | lacks hk hm hc => rfl
  | own hk hm hc => rfl
  | free hlt hback => cases hback with | manager hk hm => rfl
  | @close p q _ h' hp hopen hback =>
    generalize hr : q.reclaimer = reclaimer at hback
    cases hback with
    | manager hk hm =>
      simp [turnsTo?, calls?, shuts?_of_open hp hopen, Construction.call?, hr]

/-- What an operation adds to the trail of a manager is what it does to the
manager. -/
theorem Does.told_eq (hd : h.Does op d (h.step op)) (hs : h.SoundAt k) :
    (if h.turnsTo? op = some k then h.reported op else []) =
      ((onto k d).bind Manager.Action.event?).toList := by
  obtain ⟨es, hevents, htold⟩ := hd.told
  rcases d with _ | ⟨j, a⟩
  · rw [reported_eq hevents, htold fun _ _ => rfl]
    exact ite_self _
  · rw [hd.turnsTo?_eq]
    by_cases hjk : j = k
    · subst hjk
      obtain ⟨r, hr⟩ := hd.exists_ok hs
      have hclean : ∀ f, (h.step op).1 = .error f → some (j, a) = none := fun f hf => by
        cases hr.symm.trans hf
      rw [if_pos rfl, reported_eq hevents, htold hclean, onto_self]
      rfl
    · rw [if_neg fun he => hjk (Option.some.inj he), onto_of_ne hjk]
      rfl

/-- An operation that turns to no manager reports nothing of slots. -/
theorem reported_eq_nil (hop : ∀ k, h.turnsTo? op = some k → h.managers[k]? = none) :
    h.reported op = [] := by
  obtain ⟨d, hd⟩ := h.step_does op
  obtain ⟨es, hevents, htold⟩ := hd.told
  rcases d with _ | ⟨k, a⟩
  · rw [reported_eq hevents, htold fun _ _ => rfl]
    rfl
  · obtain ⟨m, -, hk, -⟩ := hd.managers.exists_follows
    cases (hop k hd.turnsTo?_eq).symm.trans hk

theorem events_step (h : Host) (op : Op) :
    (h.step op).2.events.filter Event.isOfSlot =
      h.events.filter Event.isOfSlot ++ h.reported op := by
  obtain ⟨d, hd⟩ := h.step_does op
  obtain ⟨es, hevents, -⟩ := hd.told
  rw [reported_eq hevents, hevents, List.filter_append]

/-! ### The ledger of a run -/

/-- In every run the trail of a manager shows its registry. -/
theorem audits_run (ops : List Op) (k : Nat) :
    ((run {} ops).managers[k]? = none → trail {} k ops = []) ∧
      ∀ m, (run {} ops).managers[k]? = some m → m.region.Addressable →
        Ledger.Audits (trail {} k ops) m.maxCounters.toNat m.registry := by
  induction ops using List.reverseRecOn with
  | nil => exact ⟨fun _ => rfl, fun m hk => by cases hk⟩
  | append_singleton ops op ih =>
    rw [run_concat, trail_concat]
    obtain ⟨d, hd⟩ := (run {} ops).step_does op
    cases hk₀ : (run {} ops).managers[k]? with
    | none =>
      rw [ih.1 hk₀, hd.told_eq (soundAt_of_none hk₀), hd.managers.onto_eq_none hk₀]
      refine ⟨fun _ => rfl, fun m hk _ => ?_⟩
      obtain ⟨region, settings, -, hmake⟩ := hd.managers.fresh hk₀ hk
      rw [Manager.make_registry hmake]
      exact Ledger.audits_fresh _
    | some m₀ =>
      obtain ⟨m', hk', hf⟩ := hd.managers.getElem? hk₀
      refine ⟨fun hnone => absurd (hnone.symm.trans hk') nofun, fun m hk hr => ?_⟩
      obtain rfl := Option.some.inj (hk'.symm.trans hk)
      rw [hf.alike.region] at hr
      obtain ⟨frontier, hm₀⟩ := manager_sound_run hk₀ hr
      rw [hd.told_eq (soundAt_of_sound hk₀ hm₀), hf.alike.maxCounters]
      exact (ih.2 m₀ hk₀ hr).follows hm₀ hf

/-- Where there is only one manager, all that is reported of slots is of its. -/
theorem events_run (ops : List Op) (hone : (run {} ops).managers.length ≤ 1) :
    (run {} ops).events.filter Event.isOfSlot = trail {} 0 ops := by
  induction ops using List.reverseRecOn with
  | nil => rfl
  | append_singleton ops op ih =>
    rw [run_concat] at hone
    obtain ⟨d, hd⟩ := (run {} ops).step_does op
    have hle := hd.managers.length_le
    rw [run_concat, trail_concat, events_step, ih (by omega)]
    split
    · rfl
    · rename_i hop
      have hnothing : (run {} ops).reported op = [] := by
        refine reported_eq_nil fun j hj => List.getElem?_eq_none ?_
        have hne : j ≠ 0 := by
          rintro rfl
          exact hop hj
        omega
      rw [hnothing]

/-- The log is a faithful account of manager `k`, which is `m`. -/
structure Audited (h : Host) (k : Nat) (m : Manager) (log : List Event) : Prop where
  /-- The manager answers for each id what the log shows. -/
  states : ∀ id, m.state? id =
    if IsSlot m.maxCounters.toNat id then some (Ledger.replay log id).state else none
  labels : ∀ id, m.label? id =
    if IsSlot m.maxCounters.toNat id then (Ledger.replay log id).label else none
  count : m.allocatedCount + log.countP Event.isFreed = log.countP Event.isAllocated
  /-- No event came when it could not. -/
  admits : ∀ before e after, log = before ++ e :: after →
    (Ledger.replay before).Admits m.maxCounters.toNat e
  /-- A free is answered once, as the log says. -/
  frees : ∀ id, (h.step (.free k id)).1 = .ok .done ∧
    (h.step (.free k id)).2.events =
      h.events ++ [(Ledger.replay log).verdict m.maxCounters.toNat id]
  /-- So is one by the close of a position. -/
  closes : ∀ p q, h.positions[p]? = some q → q.closed = false →
    q.reclaimer = some (.manager k) → (h.step (.close p)).1 = .ok .done ∧
      (h.step (.close p)).2.events = h.events ++
        [(Ledger.replay log).verdict m.maxCounters.toNat q.id, .positionClosed q.id]
  /-- An allocation reports what it hands out, or it fails and reports nothing. -/
  allocates : ∀ label,
    (∃ id, (h.step (.allocate k label)).1 = .ok (.slot id) ∧
      (h.step (.allocate k label)).2.events = h.events ++ [.allocated id label]) ∨
    ∃ e, (h.step (.allocate k label)).1 = .error e ∧
      (h.step (.allocate k label)).2.events = h.events

/-- A slot that goes back to a manager is answered as the log says. -/
theorem GivesBack.verdict {h' : Host} {id : SlotId} {log : List Event}
    (hb : h.GivesBack id (some (.manager k)) d h') (hk : h.managers[k]? = some m)
    (hm : m.Sound frontier h.clock) (ha : Ledger.Audits log m.maxCounters.toNat m.registry) :
    h'.events = h.events ++ [(Ledger.replay log).verdict m.maxCounters.toNat id] := by
  cases hb with
  | absent hnone => cases hk.symm.trans hnone
  | manager hk' hf =>
    obtain rfl := Option.some.inj (hk.symm.trans hk')
    rw [← ha.verdict_eq hm hf]
    rfl

theorem audited_of_audits {log : List Event} (hk : h.managers[k]? = some m)
    (hm : m.Sound frontier h.clock) (ha : Ledger.Audits log m.maxCounters.toNat m.registry) :
    h.Audited k m log := by
  refine ⟨fun id => (ha.lookup hm id).1, fun id => (ha.lookup hm id).2, ha.count, ha.admits,
    fun id => ?_, fun p q hp hopen hr => ?_, fun label => ?_⟩
  · obtain ⟨d, hd⟩ := h.step_does (.free k id)
    generalize h.step (.free k id) = o at hd ⊢
    cases hd with
    | fails f hop => cases hop
    | bytes hb => cases hb
    | freeNone hnone => cases hk.symm.trans hnone
    | free hlt hback => exact ⟨rfl, hback.verdict hk hm ha⟩
  · obtain ⟨d, hd⟩ := h.step_does (.close p)
    generalize h.step (.close p) = o at hd ⊢
    cases hd with
    | fails f hop => cases hop
    | bytes hb => cases hb
    | closeNone hnone => cases hp.symm.trans hnone
    | again hp' hclosed =>
      obtain rfl := Option.some.inj (hp.symm.trans hp')
      cases hopen.symm.trans hclosed
    | close hp' _ hback =>
      obtain rfl := Option.some.inj (hp.symm.trans hp')
      rw [hr] at hback
      refine ⟨rfl, ?_⟩
      rw [emit, hback.verdict hk hm ha, List.append_assoc]
      rfl
  · obtain ⟨d, hd⟩ := h.step_does (.allocate k label)
    generalize h.step (.allocate k label) = o at hd ⊢
    cases hd with
    | fails f hop => exact Or.inr ⟨f, rfl, rfl⟩
    | bytes hb => cases hb
    | allocate hk' hf hc => exact Or.inl ⟨_, rfl, rfl⟩
    | lacks hk' hf hc =>
      obtain rfl := Option.some.inj (hk.symm.trans hk')
      cases hc.symm.trans (hm.follows_cell hf)

/-- At every moment of every run the events of a manager are a faithful account
of it; and if it is the only one, so are all events. -/
theorem audited_in_every_run (ops : List Op) (k : Nat) (m : Manager)
    (hk : (run {} ops).managers[k]? = some m) (hr : m.region.Addressable) :
    (run {} ops).Audited k m (trail {} k ops) ∧
      ((run {} ops).managers.length = 1 → (run {} ops).Audited k m (run {} ops).events) := by
  obtain ⟨frontier, hm⟩ := manager_sound_run hk hr
  have ha := (audits_run ops k).2 m hk hr
  refine ⟨audited_of_audits hk hm ha, fun hone => audited_of_audits hk hm ?_⟩
  have hlt : k < (run {} ops).managers.length := (List.getElem?_eq_some_iff.mp hk).1
  obtain rfl : k = 0 := by omega
  rw [← events_run ops (by omega)] at ha
  exact ha.of_filter

/-- Two slots that are handed out, a third that is not there to be; a slot that
is freed twice, ids that are no slot's, a slot that its owner gives back, and
one that is handed out again. -/
def bothTaken : List Op :=
  [.manage ⟨128, 256, 0, 0⟩ ⟨2, 0⟩, .allocate 0 "a", .allocate 0 "b", .allocate 0 "c", .own 0 1,
    .free 0 0, .free 0 0, .free 0 2, .free 0 (-1), .close 0, .allocate 0 "d"]

theorem audited_in_every_run_bothTaken :
    (run {} bothTaken).events =
      [.managerReady 2 256, .allocated 0 "a", .allocated 1 "b", .freed 0,
        .freeUnallocated 0 .reclaimed, .freeOutside 2, .freeOutside (-1), .freed 1,
        .positionClosed 1, .allocated 0 "d"] ∧
    ∃ m, (run {} bothTaken).managers[0]? = some m ∧ m.region.Addressable ∧
      (run {} bothTaken).managers.length = 1 ∧
        (run {} bothTaken).Audited 0 m (run {} bothTaken).events := by
  have hk : (run {} bothTaken).managers[0]? = some ⟨⟨128, 256, 0, 0⟩, 2, ⟨0⟩,
      ⟨[.granted "d", { (Slot.granted "b") with owned := true }.reclaimed 0], [1]⟩⟩ := by
    decide
  have hone : (run {} bothTaken).managers.length = 1 := by decide
  exact ⟨by decide, _, hk, by decide, hone,
    (audited_in_every_run bothTaken 0 _ hk (by decide)).2 hone⟩

end Host
end LockFree.Counters
