/-
# What holds of a registry

A registry keeps one thing in two places: a slot's record says whether it was
freed and when, and the queue of freed slots says in which order. `Registry.Sound`
is what ties them together, and that slots are used for the first time in the
order of their ids. Three things are ever done to a registry: a slot is handed
out, freed, or gets an owner. Each keeps it sound where it may be done.

Key definition: `Registry.Sound`.
Key theorems: `Registry.Sound.grant`, `Registry.Sound.reclaim`,
`Registry.Sound.own`.
-/
import LockFree.Counters.Registry
import Mathlib.Data.List.Nodup

namespace LockFree.Counters

/-- The fields of a slot's record agree with its state. -/
structure Slot.Sound (s : Slot) (now : Nat) : Prop where
  stamped : s.freedAt.isSome ↔ s.state = .reclaimed
  past : ∀ t ∈ s.freedAt, t ≤ now
  owned : s.owned → s.state = .allocated

theorem Slot.unused_sound (now : Nat) : Slot.Sound {} now :=
  ⟨by simp, by simp, by simp⟩

theorem Slot.granted_sound (label : String) (now : Nat) : (Slot.granted label).Sound now :=
  ⟨by simp [granted], by simp [granted], by simp [granted]⟩

theorem Slot.reclaimed_sound (s : Slot) (now : Nat) : (s.reclaimed now).Sound now :=
  ⟨by simp [reclaimed], by simp [reclaimed], by simp [reclaimed]⟩

theorem Slot.Sound.own {s : Slot} {now : Nat} (hs : s.Sound now) (ha : s.state = .allocated) :
    Slot.Sound { s with owned := true } now :=
  ⟨hs.stamped, hs.past, fun _ => ha⟩

theorem Slot.Sound.later {s : Slot} {now after : Nat} (hs : s.Sound now) (hle : now ≤ after) :
    s.Sound after :=
  ⟨hs.stamped, fun t ht => Nat.le_trans (hs.past t ht) hle, hs.owned⟩

namespace Registry

/-- When the slot at an index was freed, if it waits for reuse. -/
def freedAt? (r : Registry) (i : Nat) : Option Nat := (r.slot? i).bind Slot.freedAt

/-- The registry has `n` slots, those from `frontier` on were never used, and
the queue of freed slots is what the slots' records say. -/
structure Sound (r : Registry) (n frontier now : Nat) : Prop where
  length : r.slots.length = n
  slots : ∀ i s, r.slot? i = some s → s.Sound now
  nodup : r.freeList.Nodup
  waiting : ∀ i, i ∈ r.freeList ↔ ∃ s, r.slot? i = some s ∧ s.state = .reclaimed
  /-- The one freed first stands in front. -/
  times : (r.freeList.filterMap r.freedAt?).Pairwise (· ≤ ·)
  frontier_le : frontier ≤ n
  unused : ∀ i s, r.slot? i = some s → (s.state = .unused ↔ frontier ≤ i)

variable {r : Registry} {n frontier now : Nat}

theorem fresh_sound (n now : Nat) : (fresh n).Sound n 0 now := by
  have hslot : ∀ i s, (fresh n).slot? i = some s → s = {} := by
    intro i s hs
    exact List.eq_of_mem_replicate (List.mem_of_getElem? hs)
  refine ⟨List.length_replicate, ?_, List.nodup_nil, ?_, List.Pairwise.nil, Nat.zero_le n, ?_⟩
  · intro i s hs
    rw [hslot i s hs]
    exact Slot.unused_sound now
  · intro i
    constructor
    · intro hi
      cases hi
    · rintro ⟨s, hs, hr⟩
      rw [hslot i s hs] at hr
      cases hr
  · intro i s hs
    rw [hslot i s hs]
    exact ⟨fun _ => Nat.zero_le i, fun _ => rfl⟩

/-- Time passes. -/
theorem Sound.later (hs : r.Sound n frontier now) {after : Nat} (hle : now ≤ after) :
    r.Sound n frontier after :=
  { hs with slots := fun i s hi => (hs.slots i s hi).later hle }

/-! ### One slot's record is replaced -/

theorem slot?_set {i : Nat} {s : Slot} (hi : r.slot? i = some s) (s' : Slot) (free : List Nat)
    (j : Nat) : slot? ⟨r.slots.set i s', free⟩ j = if j = i then some s' else r.slot? j := by
  have hlt : i < r.slots.length := (List.getElem?_eq_some_iff.mp hi).1
  rw [slot?, List.getElem?_set]
  by_cases hj : i = j
  · subst hj
    rw [if_pos rfl, if_pos hlt, if_pos rfl]
  · rw [if_neg hj, if_neg fun h => hj h.symm, slot?]

theorem modify_eq_set {i : Nat} {s : Slot} (hi : r.slot? i = some s) (f : Slot → Slot) :
    r.slots.modify i f = r.slots.set i (f s) := by
  have hi : r.slots[i]? = some s := hi
  rw [List.modify_eq_set_getElem?, hi]
  rfl

/-- The times of the others in the queue stay. -/
theorem times_set {i : Nat} {s : Slot} (hi : r.slot? i = some s) (s' : Slot) (free queue : List Nat)
    (hq : i ∉ queue) :
    queue.filterMap (freedAt? ⟨r.slots.set i s', free⟩) = queue.filterMap r.freedAt? := by
  refine List.filterMap_congr fun j hj => ?_
  have hne : j ≠ i := fun h => hq (h ▸ hj)
  rw [freedAt?, slot?_set hi, if_neg hne, freedAt?]

/-- A slot gets another record, and the queue is changed to fit it. -/
theorem Sound.set (hs : r.Sound n frontier now) {i : Nat} {s s' : Slot} (hi : r.slot? i = some s)
    (hs' : s'.Sound now) {free : List Nat} (hn : free.Nodup)
    (hw : ∀ j, j ∈ free ↔ if j = i then s'.state = .reclaimed else j ∈ r.freeList)
    (ht : (free.filterMap (freedAt? ⟨r.slots.set i s', free⟩)).Pairwise (· ≤ ·))
    {frontier' : Nat} (hle : frontier' ≤ n)
    (hu : ∀ j,
      if j = i then (s'.state = .unused ↔ frontier' ≤ j) else (frontier ≤ j ↔ frontier' ≤ j)) :
    Sound ⟨r.slots.set i s', free⟩ n frontier' now := by
  refine ⟨by rw [List.length_set, hs.length], ?_, hn, ?_, ht, hle, ?_⟩
  · intro j t hj
    rw [slot?_set hi] at hj
    split at hj
    · obtain rfl := Option.some.inj hj
      exact hs'
    · exact hs.slots j t hj
  · intro j
    show j ∈ free ↔ _
    rw [hw j, slot?_set hi]
    split
    · simp
    · exact hs.waiting j
  · intro j t hj
    have huj := hu j
    rw [slot?_set hi] at hj
    split at hj
    · rename_i he
      rw [if_pos he] at huj
      obtain rfl := Option.some.inj hj
      exact huj
    · rename_i he
      rw [if_neg he] at huj
      exact (hs.unused j t hj).trans huj

theorem Sound.slot?_lt (hs : r.Sound n frontier now) {i : Nat} {s : Slot}
    (hi : r.slot? i = some s) : i < n :=
  hs.length ▸ (List.getElem?_eq_some_iff.mp hi).1

/-- Only a slot that was freed waits. -/
theorem Sound.not_mem_freeList (hs : r.Sound n frontier now) {i : Nat} {s : Slot}
    (hi : r.slot? i = some s) (hne : s.state ≠ .reclaimed) : i ∉ r.freeList := by
  intro hm
  obtain ⟨t, ht, hr⟩ := (hs.waiting i).mp hm
  obtain rfl := Option.some.inj (hi.symm.trans ht)
  exact hne hr

/-- A slot that is not unused lies before the frontier. -/
theorem Sound.lt_frontier (hs : r.Sound n frontier now) {i : Nat} {s : Slot}
    (hi : r.slot? i = some s) (hne : s.state ≠ .unused) : i < frontier :=
  Nat.lt_of_not_le fun hle => hne ((hs.unused i s hi).mpr hle)

/-- An allocated slot is neither waiting nor beyond the frontier. -/
theorem Sound.allocated_sides (hs : r.Sound n frontier now) {i : Nat} {s : Slot}
    (hi : r.slot? i = some s) (halloc : s.state = .allocated) : i ∉ r.freeList ∧ i < frontier :=
  ⟨hs.not_mem_freeList hi (by rw [halloc]; decide), hs.lt_frontier hi (by rw [halloc]; decide)⟩

/-! ### What is done to a registry -/

/-- The smallest index that was never used is the frontier. -/
theorem Sound.firstUnused? (hs : r.Sound n frontier now) {j : Nat} (hj : r.firstUnused? = some j) :
    j = frontier ∧ ∃ s, r.slot? j = some s ∧ s.state = .unused := by
  obtain ⟨hlt, hp, hmin⟩ := List.findIdx?_eq_some_iff_getElem.mp hj
  have hslot : r.slot? j = some r.slots[j] := List.getElem?_eq_getElem hlt
  have hstate : r.slots[j].state = .unused := of_decide_eq_true hp
  have hle : frontier ≤ j := (hs.unused j _ hslot).mp hstate
  refine ⟨Nat.le_antisymm (Nat.le_of_not_lt fun hf => ?_) hle, _, hslot, hstate⟩
  have hlt' : frontier < r.slots.length := Nat.lt_trans hf hlt
  have hfirst := (hs.unused frontier _ (List.getElem?_eq_getElem hlt')).mpr (Nat.le_refl _)
  exact hmin frontier hf (decide_eq_true hfirst)

/-- A slot that was never used is handed out: the frontier moves on. -/
theorem Sound.grantUnused (hs : r.Sound n frontier now) {i : Nat} (hi : r.firstUnused? = some i)
    (label : String) : (r.grant i label).Sound n (frontier + 1) now := by
  obtain ⟨rfl, s, hslot, hstate⟩ := hs.firstUnused? hi
  have hnot : i ∉ r.freeList := hs.not_mem_freeList hslot (by rw [hstate]; decide)
  have hlt : i < r.slots.length := (List.getElem?_eq_some_iff.mp hslot).1
  have hlen := hs.length
  refine hs.set hslot (Slot.granted_sound label now) hs.nodup (fun j => ?_) ?_ (by omega)
    fun j => ?_
  · split
    · rename_i he
      subst he
      simp [Slot.granted, hnot]
    · rfl
  · rw [times_set hslot _ _ _ hnot]
    exact hs.times
  · split
    · rename_i he
      simp only [Slot.granted, reduceCtorEq, false_iff]
      omega
    · rename_i he
      omega

/-- The slot that has waited longest is handed out again. -/
theorem Sound.grantFreed (hs : r.Sound n frontier now) {i : Nat} {rest : List Nat}
    (hf : r.freeList = i :: rest) (label : String) :
    Sound (grant { r with freeList := rest } i label) n frontier now := by
  have hmem : i ∈ r.freeList := hf ▸ List.mem_cons_self
  obtain ⟨s, hslot, hstate⟩ := (hs.waiting i).mp hmem
  have hlt : i < frontier := hs.lt_frontier hslot (by rw [hstate]; decide)
  have hnodup := hs.nodup
  have htimes := hs.times
  rw [hf] at hnodup htimes
  obtain ⟨hnot, hrest⟩ := List.nodup_cons.mp hnodup
  refine hs.set hslot (Slot.granted_sound label now) hrest (fun j => ?_) ?_ hs.frontier_le
    fun j => ?_
  · rw [hf, List.mem_cons]
    split
    · rename_i he
      subst he
      simp [Slot.granted, hnot]
    · rename_i he
      exact (or_iff_right he).symm
  · rw [times_set hslot _ _ _ hnot]
    exact htimes.sublist ((List.sublist_cons_self i rest).filterMap _)
  · split
    · rename_i he
      simp only [Slot.granted, reduceCtorEq, false_iff]
      omega
    · rfl

/-- Whose turn it is: the slot that has waited longest, if it has waited long
enough, or else the smallest one that was never used. -/
theorem next?_cases {quarantine i : Nat} {rest : Registry}
    (hnext : r.next? now quarantine = some (i, rest)) :
    (∃ queue, r.freeList = i :: queue ∧ r.isReady now quarantine i = true ∧
        rest = { r with freeList := queue }) ∨
      (r.firstUnused? = some i ∧ rest = r) := by
  have hunused : (r.firstUnused?.map fun j => (j, r)) = some (i, rest) →
      r.firstUnused? = some i ∧ rest = r := by
    intro hu
    obtain ⟨j, hj, he⟩ := Option.map_eq_some_iff.mp hu
    obtain ⟨rfl, rfl⟩ := Prod.mk.inj he
    exact ⟨hj, rfl⟩
  unfold next? at hnext
  split at hnext
  · rename_i j queue hf
    split at hnext
    · rename_i hready
      obtain ⟨rfl, rfl⟩ := Prod.mk.inj (Option.some.inj hnext)
      exact Or.inl ⟨queue, hf, hready, rfl⟩
    · exact Or.inr (hunused hnext)
  · exact Or.inr (hunused hnext)

theorem Sound.grant (hs : r.Sound n frontier now) {quarantine i : Nat} {rest : Registry}
    (hnext : r.next? now quarantine = some (i, rest)) (label : String) :
    ∃ frontier', frontier ≤ frontier' ∧ (rest.grant i label).Sound n frontier' now := by
  rcases next?_cases hnext with ⟨queue, hf, -, rfl⟩ | ⟨hu, rfl⟩
  · exact ⟨frontier, Nat.le_refl frontier, hs.grantFreed hf label⟩
  · exact ⟨frontier + 1, Nat.le_succ frontier, hs.grantUnused hu label⟩

/-- A freed slot joins the end of the queue: no one there was freed later. -/
theorem Sound.reclaim (hs : r.Sound n frontier now) {i : Nat} {s : Slot}
    (hslot : r.slot? i = some s) (halloc : s.state = .allocated) :
    (r.reclaim i now).Sound n frontier now := by
  obtain ⟨hnot, hlt⟩ := hs.allocated_sides hslot halloc
  rw [Registry.reclaim, modify_eq_set hslot]
  refine hs.set hslot (s.reclaimed_sound now) ?_ (fun j => ?_) ?_ hs.frontier_le fun j => ?_
  · exact hs.nodup.append (List.nodup_singleton i) (by simpa using hnot)
  · rw [List.mem_append, List.mem_singleton]
    split
    · rename_i he
      simp [he, Slot.reclaimed]
    · rename_i he
      exact or_iff_left he
  · have hlast : [i].filterMap (freedAt? ⟨r.slots.set i (s.reclaimed now), r.freeList ++ [i]⟩) =
        [now] := by
      rw [List.filterMap_cons, freedAt?, slot?_set hslot, if_pos rfl]
      rfl
    rw [List.filterMap_append, times_set hslot _ _ _ hnot, hlast, List.pairwise_append]
    refine ⟨hs.times, List.pairwise_singleton _ _, fun t ht b hb => ?_⟩
    obtain rfl := List.mem_singleton.mp hb
    obtain ⟨j, -, hj⟩ := List.mem_filterMap.mp ht
    obtain ⟨w, hw, hwt⟩ := Option.bind_eq_some_iff.mp hj
    exact (hs.slots j w hw).past t hwt
  · split
    · rename_i he
      simp only [Slot.reclaimed, reduceCtorEq, false_iff]
      omega
    · rfl

theorem Sound.own (hs : r.Sound n frontier now) {i : Nat} {s : Slot} (hslot : r.slot? i = some s)
    (halloc : s.state = .allocated) : (r.own i).Sound n frontier now := by
  obtain ⟨hnot, hlt⟩ := hs.allocated_sides hslot halloc
  rw [Registry.own, modify_eq_set hslot]
  refine hs.set hslot ((hs.slots i s hslot).own halloc) hs.nodup (fun j => ?_) ?_ hs.frontier_le
    fun j => ?_
  · split
    · rename_i he
      subst he
      simp [halloc, hnot]
    · rfl
  · rw [times_set hslot _ _ _ hnot]
    exact hs.times
  · split
    · rename_i he
      simp only [halloc, reduceCtorEq, false_iff]
      omega
    · rfl

/-- No slot is handed out while it is allocated. -/
theorem Sound.next?_slot (hs : r.Sound n frontier now) {quarantine i : Nat} {rest : Registry}
    (hnext : r.next? now quarantine = some (i, rest)) :
    rest.slots = r.slots ∧ ∃ s, r.slot? i = some s ∧ s.state ≠ .allocated := by
  rcases next?_cases hnext with ⟨queue, hf, -, rfl⟩ | ⟨hu, rfl⟩
  · obtain ⟨s, hslot, hstate⟩ := (hs.waiting i).mp (hf ▸ List.mem_cons_self)
    exact ⟨rfl, s, hslot, by rw [hstate]; decide⟩
  · obtain ⟨-, s, hslot, hstate⟩ := hs.firstUnused? hu
    exact ⟨rfl, s, hslot, by rw [hstate]; decide⟩

end Registry
end LockFree.Counters
