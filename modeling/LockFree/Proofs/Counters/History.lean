/-
# What a manager has handed out and freed

Beside a run stands the log of one manager: every slot that it handed out and
every free that found its slot allocated, with their times (`Host.history`).
Frees come from three sides, direct ones, closes and drops; a free that is
ignored, and a close of a position that is closed or has another reclaimer,
enter nothing.

The queue of freed slots is what the log leaves over: the frees, in their
order, are those that have been answered by a reuse and then those that wait
(`History.Accounts`). Each reuse takes the free at the front, which is at least
the quarantine old, so no reuse can overtake another or come too early.

Key definitions: `Entry`, `History.frees`, `History.reuses`, `Host.history`.
Key theorems: `Host.Does.logged?_eq`, `History.Accounts.follows`,
`Host.accounts_run`.
-/
import Mathlib.Data.List.Forall2
import Mathlib.Data.List.Induction
import LockFree.Proofs.Counters.Failure

namespace LockFree.Counters

/-! ### Logs -/

/-- A slot was handed out or freed, at some time. -/
inductive Entry
  | granted (id : SlotId) (time : Nat)
  | freed (id : SlotId) (time : Nat)
  deriving DecidableEq, Repr

/-- What is entered of what is done to a manager at a time. -/
def Manager.Action.entry? (now : Nat) : Manager.Action → Option Entry
  | .grant i _ => some (.granted (Int32.ofNat i) now)
  | .free id .freed => some (.freed id now)
  | _ => none

/-- Entries, oldest first. -/
abbrev History := List Entry

namespace History

/-- The slots that were handed out. -/
def grants (log : History) : List SlotId := log.filterMap fun
  | .granted id _ => some id
  | .freed _ _ => none

/-- The frees and their times. -/
def frees (log : History) : List (SlotId × Nat) := log.filterMap fun
  | .granted _ _ => none
  | .freed id time => some (id, time)

@[simp] theorem grants_granted (log : History) (id : SlotId) (time : Nat) :
    grants (log ++ [.granted id time]) = grants log ++ [id] := by
  simp [grants]

@[simp] theorem grants_freed (log : History) (id : SlotId) (time : Nat) :
    grants (log ++ [.freed id time]) = grants log := by
  simp [grants]

@[simp] theorem frees_granted (log : History) (id : SlotId) (time : Nat) :
    frees (log ++ [.granted id time]) = frees log := by
  simp [frees]

@[simp] theorem frees_freed (log : History) (id : SlotId) (time : Nat) :
    frees (log ++ [.freed id time]) = frees log ++ [(id, time)] := by
  simp [frees]

/-- The slots that were handed out again, and when. Those of `seen` had been
handed out before. -/
def reuses : (seen : List SlotId) → History → List (SlotId × Nat)
  | _, [] => []
  | seen, .granted id time :: log =>
    (if id ∈ seen then [(id, time)] else []) ++ reuses (id :: seen) log
  | seen, .freed _ _ :: log => reuses seen log

theorem reuses_granted (seen : List SlotId) (log : History) (id : SlotId) (time : Nat) :
    reuses seen (log ++ [.granted id time]) =
      reuses seen log ++ if id ∈ seen ∨ id ∈ grants log then [(id, time)] else [] := by
  induction log generalizing seen with
  | nil => simp [reuses, grants]
  | cons e log ih =>
    cases e with
    | granted id' time' =>
      have hseen : (id ∈ id' :: seen ∨ id ∈ grants log) ↔
          (id ∈ seen ∨ id ∈ grants (.granted id' time' :: log)) := by
        simp only [List.mem_cons, grants, List.filterMap_cons]
        tauto
      simp only [List.cons_append, reuses, ih, List.append_assoc, hseen]
    | freed id' time' =>
      have hgrants : grants (.freed id' time' :: log) = grants log := rfl
      simp only [List.cons_append, reuses, ih, hgrants]

theorem reuses_freed (seen : List SlotId) (log : History) (id : SlotId) (time : Nat) :
    reuses seen (log ++ [.freed id time]) = reuses seen log := by
  induction log generalizing seen with
  | nil => rfl
  | cons e log ih => cases e <;> simp only [List.cons_append, reuses, ih]

/-- A free was answered by a reuse of the same slot, the quarantine later. -/
structure Rested (quarantine : Nat) (reuse free : SlotId × Nat) : Prop where
  slot : reuse.1 = free.1
  rested : free.2 + quarantine ≤ reuse.2

end History

/-! ### The queue and the log -/

namespace Registry

/-- The freed slots that wait, and the times of their frees. -/
def waiting (r : Registry) : List (SlotId × Nat) :=
  r.freeList.filterMap fun i => (r.freedAt? i).map fun time => (Int32.ofNat i, time)

/-- The slot has been handed out at some time. -/
def Used (r : Registry) (i : Nat) : Prop := ∃ s, r.slot? i = some s ∧ s.state ≠ .unused

variable {r : Registry} {n frontier now : Nat}

/-- A slot that waits carries the time of its free. -/
theorem Sound.stamp (hs : r.Sound n frontier now) {i : Nat} (hi : i ∈ r.freeList) :
    ∃ s time, r.slot? i = some s ∧ s.state = .reclaimed ∧ s.freedAt = some time ∧ time ≤ now := by
  obtain ⟨s, hslot, hstate⟩ := (hs.waiting i).mp hi
  have hsound := hs.slots i s hslot
  obtain ⟨time, htime⟩ := Option.isSome_iff_exists.mp (hsound.stamped.mpr hstate)
  exact ⟨s, time, hslot, hstate, htime, hsound.past time htime⟩

theorem freedAt?_eq {i : Nat} {s : Slot} (hi : r.slot? i = some s) :
    r.freedAt? i = s.freedAt := by
  rw [freedAt?, hi, Option.bind_some]

/-- The record of a slot that does not wait is not looked at. -/
theorem waiting_set {i : Nat} {s : Slot} (hi : r.slot? i = some s) (s' : Slot) {queue : List Nat}
    (hq : i ∉ queue) : waiting ⟨r.slots.set i s', queue⟩ = waiting ⟨r.slots, queue⟩ := by
  refine List.filterMap_congr fun j hj => ?_
  have hne : j ≠ i := fun h => hq (h ▸ hj)
  rw [freedAt?, slot?_set hi, if_neg hne]
  rfl

theorem exists_of_mem_waiting {id : SlotId} {time : Nat}
    (hw : (id, time) ∈ r.waiting) : ∃ i ∈ r.freeList, id = Int32.ofNat i := by
  obtain ⟨i, hi, htime⟩ := List.mem_filterMap.mp hw
  obtain ⟨_, -, he⟩ := Option.map_eq_some_iff.mp htime
  exact ⟨i, hi, (Prod.mk.inj he).1.symm⟩

/-- The slot at the front was freed before those behind it. -/
theorem waiting_cons {i : Nat} {s : Slot} {time : Nat} {queue : List Nat}
    (hf : r.freeList = i :: queue) (hslot : r.slot? i = some s) (htime : s.freedAt = some time) :
    r.waiting = (Int32.ofNat i, time) :: waiting ⟨r.slots, queue⟩ := by
  rw [waiting, hf, List.filterMap_cons, freedAt?_eq hslot, htime]
  rfl

theorem used_set {i : Nat} {s : Slot} (hi : r.slot? i = some s) (s' : Slot) (queue : List Nat)
    (j : Nat) :
    Used ⟨r.slots.set i s', queue⟩ j ↔ if j = i then s'.state ≠ .unused else r.Used j := by
  unfold Used
  rw [slot?_set hi]
  split
  · simp
  · rfl

theorem used_of_slot {i : Nat} {s : Slot} (hi : r.slot? i = some s) :
    r.Used i ↔ s.state ≠ .unused := by
  unfold Used
  rw [hi]
  simp

end Registry

namespace History

/-- The registry of `n` slots is what the log says: the slots that were handed
out are those that are not unused, and the frees are those that were answered
by a reuse and then those that wait. -/
structure Accounts (log : History) (n quarantine : Nat) (r : Registry) : Prop where
  used : ∀ i < n, Int32.ofNat i ∈ grants log ↔ r.Used i
  queue : ∃ answered, frees log = answered ++ r.waiting ∧
    List.Forall₂ (Rested quarantine) (reuses [] log) answered

theorem fresh_accounts (n quarantine : Nat) : Accounts [] n quarantine (.fresh n) where
  used := by
    intro i hi
    have hslot : (Registry.fresh n).slot? i = some {} := by
      simp [Registry.slot?, Registry.fresh, hi]
    rw [Registry.used_of_slot hslot]
    simp [grants]
  queue := ⟨[], rfl, .nil⟩

variable {log : History} {r : Registry} {n quarantine frontier now : Nat}

/-- A slot that was handed out is one of the used ones from then on. -/
theorem Accounts.used_grant (ha : Accounts log n quarantine r) (hn : n ≤ maxSlotId) {i : Nat}
    {s : Slot} (hslot : r.slot? i = some s) (hi : i < n) (label : String) (queue : List Nat)
    (time j : Nat) (hj : j < n) :
    Int32.ofNat j ∈ grants (log ++ [.granted (Int32.ofNat i) time]) ↔
      Registry.Used ⟨r.slots.set i (.granted label), queue⟩ j := by
  rw [grants_granted, List.mem_append, List.mem_singleton, ha.used j hj, Registry.used_set hslot,
    ofNat_slotId_inj (by omega) (by omega)]
  split
  · rename_i he
    simp [he, Slot.granted]
  · rename_i hne
    simp [hne]

/-- The free at the front is answered. -/
theorem Accounts.grantFreed (ha : Accounts log n quarantine r) (hs : r.Sound n frontier now)
    (hn : n ≤ maxSlotId) {i : Nat} {queue : List Nat} (hf : r.freeList = i :: queue)
    (hready : r.isReady now quarantine i = true) (label : String) :
    Accounts (log ++ [.granted (Int32.ofNat i) now]) n quarantine
      (.grant { r with freeList := queue } i label) := by
  obtain ⟨s, time, hslot, hstate, htime, hpast⟩ := hs.stamp (hf ▸ List.mem_cons_self)
  have hi := hs.slot?_lt hslot
  have hnot : i ∉ queue := (List.nodup_cons.mp (hf ▸ hs.nodup)).1
  refine ⟨fun j hj => ha.used_grant hn hslot hi label queue now j hj, ?_⟩
  obtain ⟨answered, hfrees, hrests⟩ := ha.queue
  have hknown : Int32.ofNat i ∈ grants log := by
    rw [ha.used i hi, Registry.used_of_slot hslot, hstate]
    decide
  have hwaiting : r.waiting =
      (Int32.ofNat i, time) :: Registry.waiting ⟨r.slots.set i (.granted label), queue⟩ := by
    rw [Registry.waiting_set hslot _ hnot, Registry.waiting_cons hf hslot htime]
  have hrested : Rested quarantine (Int32.ofNat i, now) (Int32.ofNat i, time) := by
    have hquarantine : quarantine ≤ now - time := by
      simpa [Registry.isReady, hslot, htime] using hready
    exact ⟨rfl, show time + quarantine ≤ now by omega⟩
  refine ⟨answered ++ [(Int32.ofNat i, time)], ?_, ?_⟩
  · rw [frees_granted, hfrees, hwaiting, List.append_assoc]
    rfl
  · rw [reuses_granted, if_pos (Or.inr hknown)]
    exact List.rel_append hrests (.cons hrested .nil)

/-- A slot that was never used answers no free. -/
theorem Accounts.grantUnused (ha : Accounts log n quarantine r) (hs : r.Sound n frontier now)
    (hn : n ≤ maxSlotId) {i : Nat} (hi : r.firstUnused? = some i) (label : String) :
    Accounts (log ++ [.granted (Int32.ofNat i) now]) n quarantine (r.grant i label) := by
  obtain ⟨-, s, hslot, hstate⟩ := hs.firstUnused? hi
  have hlt := hs.slot?_lt hslot
  have hnot : i ∉ r.freeList := hs.not_mem_freeList hslot (by rw [hstate]; decide)
  refine ⟨fun j hj => ha.used_grant hn hslot hlt label r.freeList now j hj, ?_⟩
  obtain ⟨answered, hfrees, hrests⟩ := ha.queue
  have hnew : ¬ (Int32.ofNat i ∈ ([] : List SlotId) ∨ Int32.ofNat i ∈ grants log) := by
    rw [ha.used i hlt, Registry.used_of_slot hslot, hstate]
    simp
  refine ⟨answered, ?_, ?_⟩
  · rw [frees_granted, hfrees, Registry.grant, Registry.waiting_set hslot _ hnot]
  · rw [reuses_granted, if_neg hnew, List.append_nil]
    exact hrests

/-- A free waits behind all others. -/
theorem Accounts.reclaim (ha : Accounts log n quarantine r) (hs : r.Sound n frontier now) {i : Nat}
    {s : Slot} (hslot : r.slot? i = some s) (halloc : s.state = .allocated) :
    Accounts (log ++ [.freed (Int32.ofNat i) now]) n quarantine (r.reclaim i now) := by
  obtain ⟨hnot, -⟩ := hs.allocated_sides hslot halloc
  rw [Registry.reclaim, Registry.modify_eq_set hslot]
  obtain ⟨answered, hfrees, hrests⟩ := ha.queue
  refine ⟨fun j hj => ?_, answered, ?_, ?_⟩
  · rw [grants_freed, ha.used j hj, Registry.used_set hslot]
    split
    · rename_i he
      rw [he, Registry.used_of_slot hslot, halloc]
      simp [Slot.reclaimed]
    · rfl
  · have hlast : Registry.freedAt? ⟨r.slots.set i (s.reclaimed now), r.freeList ++ [i]⟩ i =
        some now := by
      rw [Registry.freedAt?, Registry.slot?_set hslot, if_pos rfl]
      rfl
    have hwaiting : Registry.waiting ⟨r.slots.set i (s.reclaimed now), r.freeList ++ [i]⟩ =
        r.waiting ++ [(Int32.ofNat i, now)] := by
      have hold := Registry.waiting_set hslot (s.reclaimed now) hnot
      rw [Registry.waiting] at hold ⊢
      rw [List.filterMap_append, List.filterMap_cons, hlast]
      exact congrArg (· ++ [(Int32.ofNat i, now)]) hold
    rw [frees_freed, hfrees, hwaiting, List.append_assoc]
  · rw [reuses_freed]
    exact hrests

/-- An owner changes nothing of what the log is about. -/
theorem Accounts.own (ha : Accounts log n quarantine r) (hs : r.Sound n frontier now) {i : Nat}
    {s : Slot} (hslot : r.slot? i = some s) (halloc : s.state = .allocated) :
    Accounts log n quarantine (r.own i) := by
  obtain ⟨hnot, -⟩ := hs.allocated_sides hslot halloc
  obtain ⟨answered, hfrees, hrests⟩ := ha.queue
  rw [Registry.own, Registry.modify_eq_set hslot]
  refine ⟨fun j hj => ?_, answered, ?_, hrests⟩
  · rw [ha.used j hj, Registry.used_set hslot]
    split
    · rename_i he
      rw [he, Registry.used_of_slot hslot]
    · rfl
  · rw [hfrees, Registry.waiting_set hslot _ hnot]

/-- A registry and its log stay in step. -/
theorem Accounts.follows {m m' : Manager} {a : Option Manager.Action}
    (ha : Accounts log n m.quarantine.nanoseconds m.registry)
    (hs : m.registry.Sound n frontier now) (hn : n ≤ maxSlotId) (hf : m.Follows now a m') :
    Accounts (log ++ (a.bind (Manager.Action.entry? now)).toList) n m.quarantine.nanoseconds
      m'.registry := by
  have hsame : Accounts (log ++ []) n m.quarantine.nanoseconds m.registry := by
    rwa [List.append_nil]
  cases hf with
  | same => exact hsame
  | outside hno => exact hsame
  | unallocated hi hslot hstate => exact hsame
  | own hi hslot halloc hfree => exact hsame.own hs hslot halloc
  | freed hi hslot halloc =>
    have hentered := ha.reclaim hs hslot halloc
    rw [ofNat_toNat_of_slotIndex? (Manager.slotIndex?_of_index hi)] at hentered
    exact hentered
  | grant label hnext =>
    rcases Registry.next?_cases hnext with ⟨queue, hf, hready, rfl⟩ | ⟨hu, rfl⟩
    · exact ha.grantFreed hs hn hf hready label
    · exact ha.grantUnused hs hn hu label

end History

/-! ### The log of a run -/

namespace Host

/-- What an operation enters into the log of manager `k`. -/
def logged? (h : Host) (k : Nat) (op : Op) : Option Entry :=
  match op with
  | .allocate j _ =>
    match (h.step op).1 with
    | .ok (.slot id) => if j = k then some (.granted id h.clock) else none
    | _ => none
  | .free j id => if j = k ∧ h.Allocated k id then some (.freed id h.clock) else none
  | .close p => h.positions[p]?.bind fun q =>
    if q.closed = false ∧ q.reclaimer = some (.manager k) ∧ h.Allocated k q.id then
      some (.freed q.id h.clock)
    else none
  | _ => none

/-- The log of manager `k`. -/
def history (h : Host) (k : Nat) : (ops : List Op) → History
  | [] => []
  | op :: ops => (h.logged? k op).toList ++ (h.step op).2.history k ops

theorem history_append (h : Host) (k : Nat) (ops more : List Op) :
    h.history k (ops ++ more) = h.history k ops ++ (h.run ops).history k more := by
  induction ops generalizing h with
  | nil => rfl
  | cons op ops ih =>
    rw [List.cons_append, history, history, ih, List.append_assoc]
    rfl

theorem history_concat (h : Host) (k : Nat) (ops : List Op) (op : Op) :
    h.history k (ops ++ [op]) = h.history k ops ++ ((h.run ops).logged? k op).toList := by
  rw [history_append, history, history, List.append_nil]

variable {h : Host} {k : Nat}

/-- What is entered of a free: nothing, if the slot is not allocated. -/
theorem GivesBack.entry?_eq {h' : Host} {id : SlotId} {reclaimer : Option Reclaimer}
    {d : Option (Nat × Manager.Action)} (hb : h.GivesBack id reclaimer d h') (hs : h.SoundAt k) :
    (onto k d).bind (Manager.Action.entry? h.clock) =
      if reclaimer = some (.manager k) ∧ h.Allocated k id then some (.freed id h.clock)
      else none := by
  cases hb with
  | nobody => rfl
  | recorder j => rfl
  | @absent j hj =>
    refine (if_neg ?_).symm
    rintro ⟨he, ha⟩
    obtain rfl := Reclaimer.manager.inj (Option.some.inj he)
    exact not_allocated_of_none hj id ha
  | @manager j m m' outcome hj hf =>
    by_cases hjk : j = k
    · subst hjk
      obtain ⟨frontier, hm⟩ := hs m hj
      have hfreed : h.Allocated j id ↔ outcome = .freed :=
        (allocated_iff hj).trans (hm.freed_iff hf).symm
      rw [onto_self, Option.bind_some]
      cases outcome <;> simp [Manager.Action.entry?, hfreed]
    · rw [onto_of_ne hjk]
      exact (if_neg fun hand => hjk (Reclaimer.manager.inj (Option.some.inj hand.1))).symm

/-- What an operation enters into the log of a manager is what it does to the
manager. -/
theorem Does.logged?_eq {op : Op} {d : Option (Nat × Manager.Action)}
    (hd : h.Does op d (h.step op)) (hs : h.SoundAt k) :
    h.logged? k op = (onto k d).bind (Manager.Action.entry? h.clock) := by
  unfold logged?
  generalize h.step op = o at hd ⊢
  cases hd with
  | fails f hop => cases op <;> first | rfl | cases hop
  | bytes hb => cases hb <;> rfl
  | @allocate j i label m m' c hj hf hc =>
    by_cases hjk : j = k
    · simp [hjk, onto, Manager.Action.entry?]
    · simp [hjk, onto]
  | @lacks j i label m m' e hj hf hc =>
    refine (Option.bind_eq_none_iff.mpr fun a ha => ?_).symm
    obtain ⟨rfl, -⟩ := Prod.mk.inj (Option.some.inj (onto_eq_some_iff.mp ha))
    obtain ⟨frontier, hm⟩ := hs m hj
    cases hc.symm.trans (hm.follows_cell hf)
  | @own j id m m' c hj hf hc =>
    cases hentry : onto k (some (j, .own id)) with
    | none => rfl
    | some a =>
      obtain ⟨-, rfl⟩ := Prod.mk.inj (Option.some.inj (onto_eq_some_iff.mp hentry))
      rfl
  | freeNone hj =>
    refine if_neg ?_
    rintro ⟨rfl, ha⟩
    exact not_allocated_of_none hj _ ha
  | free hlt hback =>
    rw [hback.entry?_eq hs]
    simp only [Option.some.injEq, Reclaimer.manager.injEq]
  | closeNone hp => simp [hp, onto]
  | again hp hclosed => simp [hp, hclosed, onto]
  | close hp hopen hback =>
    have hentry := hback.entry?_eq hs
    simp only [hp, hopen, Option.bind_some, true_and]
    exact hentry.symm
  | _ => rfl

/-- A manager that is not there enters nothing. -/
theorem logged?_eq_none (hk : h.managers[k]? = none) (op : Op) : h.logged? k op = none := by
  obtain ⟨d, hd⟩ := h.step_does op
  rw [hd.logged?_eq (soundAt_of_none hk), hd.managers.onto_eq_none hk]
  rfl

/-- In every run a manager's log and its registry agree. -/
theorem accounts_run (ops : List Op) (k : Nat) :
    ((run {} ops).managers[k]? = none → history {} k ops = []) ∧
      ∀ m, (run {} ops).managers[k]? = some m → m.region.Addressable →
        History.Accounts (history {} k ops) m.maxCounters.toNat m.quarantine.nanoseconds
          m.registry := by
  induction ops using List.reverseRecOn with
  | nil => exact ⟨fun _ => rfl, fun m hk => by cases hk⟩
  | append_singleton ops op ih =>
    have hrun : run {} (ops ++ [op]) = ((run {} ops).step op).2 := by simp [run]
    rw [hrun, history_concat]
    obtain ⟨d, hd⟩ := (run {} ops).step_does op
    cases hk₀ : (run {} ops).managers[k]? with
    | none =>
      rw [ih.1 hk₀, logged?_eq_none hk₀]
      refine ⟨fun _ => rfl, fun m hk _ => ?_⟩
      obtain ⟨region, settings, -, hmake⟩ := hd.managers.fresh hk₀ hk
      rw [Manager.make_registry hmake]
      exact History.fresh_accounts _ _
    | some m₀ =>
      obtain ⟨m', hk', hf⟩ := hd.managers.getElem? hk₀
      refine ⟨fun hnone => absurd (hnone.symm.trans hk') nofun, fun m hk hr => ?_⟩
      obtain rfl := Option.some.inj (hk'.symm.trans hk)
      rw [hf.alike.region] at hr
      obtain ⟨frontier, hm₀⟩ := manager_sound_run hk₀ hr
      rw [hd.logged?_eq (soundAt_of_sound hk₀ hm₀), hf.alike.maxCounters, hf.alike.quarantine]
      exact (ih.2 m₀ hk₀ hr).follows hm₀.sound hm₀.placed.ids hf

end Host
end LockFree.Counters
