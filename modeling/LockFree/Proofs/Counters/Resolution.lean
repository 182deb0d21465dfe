/-
# One cell for each slot

The cell of a slot is computed in two ways: a manager multiplies the index it
has checked, a position checks the multiplication. And it is asked for in many:
when a slot is handed out, when its value is asked for, by an owner, by a reader
and by a position that knows no manager. The manager itself was made after a
look at its first slot's cell alone.

On a region whose addresses do not wrap, that look was enough: at every moment
of every run each of the manager's slots has one cell, whichever way it is asked
for (`Host.LeadsTo`), with eight bytes at its own place of the region
(`Cell.LiesAt`); and an id that is not a slot's is refused in one way
(`Host.Refuses`), whatever the region has room for.

Key definitions: `Host.LeadsTo`, `Host.Refuses`, `Host.FindsSlots`.
Key theorems: `Manager.index_eq_error`, `Host.leadsTo_of_index`,
`Host.finds_slots_in_every_run`.
-/
import LockFree.Proofs.Counters.Placement

namespace LockFree.Counters

/-! ### Slots by number -/

/-- The slot's number, as a number that may be compared with another. -/
theorem toNat_toInt_of_slotIndex? {id : SlotId} {i : UInt64} (hi : slotIndex? id = some i) :
    (i.toNat : Int) = id.toInt := by
  have hclamp := slotIndex?_toNat hi
  unfold slotIndex? at hi
  split at hi
  · cases hi
  · rename_i hnonneg
    have hle := Int32.le_iff_toInt_le.mp (Int32.not_lt.mp hnonneg)
    rw [Int32.toInt_zero] at hle
    rw [hclamp, Int32.toNatClampNeg]
    exact Int.toNat_of_nonneg hle

/-- An id that is not negative is a number of a slot. -/
theorem exists_slotIndex? {id : SlotId} (hid : 0 ≤ id.toInt) : ∃ i, slotIndex? id = some i := by
  have hnonneg : ¬ id < 0 := by
    rw [Int32.lt_iff_toInt_lt, Int32.toInt_zero]
    omega
  exact ⟨_, if_neg hnonneg⟩

/-- What is said of an id that none of `n` slots has. -/
def noSlot (n : UInt64) (id : SlotId) : Error :=
  if id < 0 then .invalidArgument (.negativeId id)
  else .outOfBounds (UInt64.ofNat (128 * id.toNatClampNeg)) valueLength
    (UInt64.ofNat (128 * n.toNat))

/-- The cell is the eight bytes at the place of slot `i` of a region. -/
structure Cell.LiesAt (c : Cell) (r : Region) (i : Nat) : Prop where
  address : c.address.toNat = r.base.toNat + 128 * i
  aligned : c.address.toNat % 8 = 0
  nonnull : c.address ≠ 0
  inside : c.address.toNat + 8 ≤ r.base.toNat + r.capacity.toNat

namespace Manager

/-- Whether a position owns the slot, if the manager has it. -/
def owned? (m : Manager) (id : SlotId) : Option Bool :=
  (slotIndex? id).bind fun i => (m.registry.slot? i.toNat).map Slot.owned

variable {m : Manager} {id : SlotId} {i : UInt64}

/-- The product in the manager's message never reaches the largest word. -/
theorem index_eq_error (hm : m.Placed)
    (hid : id.toInt < 0 ∨ (m.maxCounters.toNat : Int) ≤ id.toInt) :
    m.index id = .error (noSlot m.maxCounters id) := by
  have hids := hm.ids
  have hmax : maxSlotId = 2147483647 := rfl
  have hlength : slotLength.toNat = 128 := rfl
  have hsize : UInt64.size = 18446744073709551616 := rfl
  unfold index noSlot
  cases hi : slotIndex? id with
  | none =>
    have hneg : id < 0 := by
      by_contra hnonneg
      rw [slotIndex?, if_neg hnonneg] at hi
      cases hi
    simp only [if_pos hneg]
  | some i =>
    have hnat := toNat_toInt_of_slotIndex? hi
    have hlt := slotIndex?_lt hi
    have hnonneg : ¬ id < 0 := by
      rw [Int32.lt_iff_toInt_lt, Int32.toInt_zero]
      omega
    have hout : ¬ i < m.maxCounters := by
      rw [UInt64.lt_iff_toNat_lt]
      omega
    have hoffset : Word.saturatingMul i slotLength = UInt64.ofNat (128 * id.toNatClampNeg) := by
      rw [Word.saturatingMul, hlength, if_pos (by omega), ← slotIndex?_toNat hi,
        ← toNat_mul_slotLength hlt, UInt64.ofNat_toNat]
    have hcapacity : m.maxCounters * slotLength = UInt64.ofNat (128 * m.maxCounters.toNat) := by
      rw [← toNat_mul_slotLength (by omega), UInt64.ofNat_toNat]
    simp only [if_neg hnonneg, if_neg hout, hoffset, hcapacity]

theorem exists_index_of_toInt (hid : 0 ≤ id.toInt) (hlt : id.toInt < m.maxCounters.toNat) :
    ∃ i, m.index id = .ok i ∧ i.toNat = id.toNatClampNeg := by
  obtain ⟨i, hi⟩ := exists_slotIndex? hid
  have hnat := toNat_toInt_of_slotIndex? hi
  exact ⟨i, index_eq_ok_iff.mpr ⟨hi, by omega⟩, slotIndex?_toNat hi⟩

/-- The cell of a slot lies at its place. -/
theorem Placed.slotAt_liesAt (hm : m.Placed) (hr : m.region.Addressable) {j : Nat}
    (hj : j < m.maxCounters.toNat) : (m.region.slotAt j).LiesAt m.region j := by
  have hfits := hm.fits
  have haligned := hm.aligned
  have hids := hm.ids
  have hmax : maxSlotId = 2147483647 := rfl
  have hsize : UInt64.size = 18446744073709551616 := rfl
  have hoffset : (UInt64.ofNat (128 * j)).toNat = 128 * j :=
    UInt64.toNat_ofNat_of_lt' (by omega)
  have hin : (UInt64.ofNat (128 * j)).toNat < m.region.capacity.toNat := by omega
  have haddress : (m.region.slotAt j).address.toNat = m.region.base.toNat + 128 * j := by
    rw [← hoffset]
    exact hr.toNat_addressAt hin
  exact ⟨haddress, by omega, hr.addressAt_ne_zero hin, by omega⟩

end Manager

namespace Host

/-- A position owns the slot's present allocation. -/
def Owned (h : Host) (k : Nat) (id : SlotId) : Prop :=
  (h.managers[k]?.bind fun m => m.owned? id) = some true

instance (h : Host) (k : Nat) (id : SlotId) : Decidable (h.Owned k id) :=
  inferInstanceAs (Decidable (_ = _))

/-- Whichever way manager `k` or a position of its region is asked for the
slot, it is the one cell that is found. -/
structure LeadsTo (h : Host) (k : Nat) (region : Region) (id : SlotId) (cell : Cell) : Prop where
  value : h.slotValue k id = .ok (h.memory.load cell)
  /-- When the slot is handed out, this cell is set to zero. -/
  granted : ∀ label h', h.step (.allocate k label) = (.ok (.slot id), h') →
    h'.memory = h.memory.store cell 0
  reader : h.step (.watch k id) = h.addPosition (.onCell id cell none)
  /-- An owner is refused for no other reason than the slot's state. -/
  owner : h.Allocated k id → ¬ h.Owned k id →
    ∃ m, h.step (.own k id) =
      addPosition { h with managers := h.managers.set k m } (.onCell id cell (some (.manager k)))
  /-- And every owner there is was made over this cell. -/
  owned : ∀ p h', h.step (.own k id) = (.ok (.made p), h') →
    h'.positions[p]? = some (.onCell id cell (some (.manager k)))
  position : ∀ reclaimer,
    h.step (.place region id reclaimer) = h.addPosition (.onCell id cell reclaimer)

/-- Whichever way manager `k` is asked for the slot, it answers with the one
error and leaves everything as it is. -/
structure Refuses (h : Host) (k : Nat) (id : SlotId) (e : Error) : Prop where
  value : h.slotValue k id = .error (.error e)
  reader : h.step (.watch k id) = h.fail e
  owner : h.step (.own k id) = h.fail e

/-- Manager `k` of `n` slots at the start of a region finds each of them where
it lies, and nothing else. -/
structure FindsSlots (h : Host) (k : Nat) (region : Region) (n : UInt64) : Prop where
  /-- What is handed out is one of them. -/
  handed : ∀ label, h.step (.allocate k label) = h.fail (.capacityExhausted n) ∨
    ∃ (id : SlotId) (h' : Host), 0 ≤ id.toInt ∧ id.toInt < n.toNat ∧
      h.step (.allocate k label) = (.ok (.slot id), h')
  found : ∀ id : SlotId, 0 ≤ id.toInt → id.toInt < n.toNat →
    h.LeadsTo k region id (region.slotAt id.toNatClampNeg)
  place : ∀ id : SlotId, 0 ≤ id.toInt → id.toInt < n.toNat →
    (region.slotAt id.toNatClampNeg).LiesAt region id.toNatClampNeg
  /-- The cells of two slots are a slot's length apart. -/
  apart : ∀ i j : Nat, i < j → j < n.toNat →
    (region.slotAt i).address.toNat + 128 ≤ (region.slotAt j).address.toNat
  /-- However large the region is. -/
  refused : ∀ id : SlotId, id.toInt < 0 ∨ (n.toNat : Int) ≤ id.toInt → h.Refuses k id (noSlot n id)

variable {h : Host} {k : Nat} {m : Manager} {id : SlotId} {i : UInt64}

/-- An id that is no slot's is looked at before anything else is. -/
theorem refuses_of_index (hk : h.managers[k]? = some m) {e : Error} (hi : m.index id = .error e) :
    h.Refuses k id e := by
  refine ⟨?_, ?_, ?_⟩
  · simp only [slotValue, hk, Manager.cell, hi]
  · simp only [step, watch, hk, Manager.readerCell, hi]
  · simp only [step, own, hk, Manager.claim, hi]

/-- An allocation never fails for want of a cell. -/
theorem allocate_in_range {frontier : Nat} (hk : h.managers[k]? = some m)
    (hm : m.Sound frontier h.clock) (label : String) :
    h.step (.allocate k label) = h.fail (.capacityExhausted m.maxCounters) ∨
      ∃ (id : SlotId) (h' : Host), 0 ≤ id.toInt ∧ id.toInt < m.maxCounters.toNat ∧
        h.step (.allocate k label) = (.ok (.slot id), h') := by
  rw [step, allocate_eq hk hm]
  cases hnext : m.registry.next? h.clock m.quarantine.nanoseconds with
  | none => exact Or.inl rfl
  | some out =>
    obtain ⟨j, rest⟩ := out
    have hids := hm.placed.ids
    have hmax : maxSlotId = 2147483647 := rfl
    have hj := hm.next?_lt hnext
    have hint : (Int32.ofNat j).toInt = j := Int32.toInt_ofNat_of_lt (by omega)
    exact Or.inr ⟨Int32.ofNat j, _, by omega, by omega, rfl⟩

/-- The cell that is set to zero is that of the slot that was handed out. -/
theorem memory_allocate {frontier : Nat} (hk : h.managers[k]? = some m)
    (hm : m.Sound frontier h.clock) (hi : m.index id = .ok i) {label : String} {h' : Host}
    (hstep : h.step (.allocate k label) = (.ok (.slot id), h')) :
    h'.memory = h.memory.store (m.region.slotAt i.toNat) 0 := by
  rw [step, allocate_eq hk hm] at hstep
  cases hnext : m.registry.next? h.clock m.quarantine.nanoseconds with
  | none =>
    rw [hnext] at hstep
    cases hstep
  | some out =>
    obtain ⟨j, rest⟩ := out
    rw [hnext] at hstep
    obtain ⟨hid, rfl⟩ := Prod.mk.inj hstep
    have hid : Int32.ofNat j = id := Result.slot.inj (Except.ok.inj hid)
    obtain ⟨hidx, hlt⟩ := Manager.index_eq_ok_iff.mp hi
    have hids := hm.placed.ids
    have hj := hm.next?_lt hnext
    rw [← ofNat_toNat_of_slotIndex? hidx, ofNat_slotId_inj (by omega) (by omega)] at hid
    rw [hid]
    rfl

/-- A slot of a sound manager has one cell. -/
theorem leadsTo_of_index {frontier : Nat} (hk : h.managers[k]? = some m)
    (hm : m.Sound frontier h.clock) (hi : m.index id = .ok i) :
    h.LeadsTo k m.region id (m.region.slotAt i.toNat) := by
  have hcell := hm.placed.cell_eq hm.addressable hi
  have hslotCell := hm.placed.slotCell_eq hm.addressable hi
  have hidx := Manager.slotIndex?_of_index hi
  refine ⟨?_, ?_, ?_, ?_, ?_, ?_⟩
  · simp only [slotValue, hk, hcell]
  · exact fun label h' => memory_allocate hk hm hi
  · simp only [step, watch, hk, Manager.readerCell, hi, hslotCell]
  · intro halloc hfree
    simp only [Allocated, hk, Option.bind_some, Manager.state?, hidx] at halloc
    simp only [Owned, hk, Option.bind_some, Manager.owned?, hidx] at hfree
    obtain ⟨s, hs, hstate⟩ := Option.map_eq_some_iff.mp halloc
    have howned : s.owned = false := by
      rw [hs] at hfree
      simpa using hfree
    refine ⟨{ m with registry := m.registry.own i.toNat }, ?_⟩
    simp only [step, own, hk, hm.claim_eq hi hs hstate howned]
  · intro p h' hown
    obtain ⟨m₁, m', cell, hk₁, -, hc, rfl, rfl⟩ := own_eq_made hown
    obtain rfl := Option.some.inj (hk.symm.trans hk₁)
    obtain rfl := Except.ok.inj (hc.symm.trans hslotCell)
    exact List.getElem?_concat_length
  · intro reclaimer
    simp only [step, place, Position.make, hslotCell]

theorem findsSlots_of_sound {frontier : Nat} (hk : h.managers[k]? = some m)
    (hm : m.Sound frontier h.clock) : h.FindsSlots k m.region m.maxCounters := by
  refine ⟨allocate_in_range hk hm, ?_, ?_, ?_, ?_⟩
  · intro id hid hlt
    obtain ⟨i, hi, hnat⟩ := Manager.exists_index_of_toInt hid hlt
    rw [← hnat]
    exact leadsTo_of_index hk hm hi
  · intro id hid hlt
    obtain ⟨i, hi, hnat⟩ := Manager.exists_index_of_toInt hid hlt
    rw [← hnat]
    exact hm.placed.slotAt_liesAt hm.addressable (Manager.index_eq_ok_iff.mp hi).2
  · intro i j hij hj
    have hfirst := (hm.placed.slotAt_liesAt hm.addressable (Nat.lt_trans hij hj)).address
    have hsecond := (hm.placed.slotAt_liesAt hm.addressable hj).address
    omega
  · intro id hid
    exact refuses_of_index hk (Manager.index_eq_error hm.placed hid)

/-- The look at the first slot's cell sees that the region does not begin at
address zero. -/
theorem addressable_of_make {region : Region} {settings : Settings}
    (hends : region.base.toNat + region.capacity.toNat ≤ UInt64.size)
    (hmake : Manager.make region settings = .ok m) : region.Addressable := by
  obtain ⟨-, c, -, -, -, hcell, -⟩ := Manager.make_eq_ok hmake
  obtain ⟨⟨-, -, hne⟩, -⟩ := Region.cell_eq_ok_iff.mp hcell
  rw [Region.addressAt, UInt64.add_zero] at hne
  exact ⟨hne, hends⟩

/-- A manager that was made is there. -/
theorem manage_eq_made {h₀ : Host} {region : Region} {settings : Settings}
    (hmake : h₀.step (.manage region settings) = (.ok (.made k), h)) :
    ∃ m, Manager.make region settings = .ok m ∧ h.managers[k]? = some m := by
  rw [step, manage] at hmake
  cases hm : Manager.make region settings with
  | error e =>
    simp only [hm] at hmake
    cases hmake
  | ok m =>
    simp only [hm] at hmake
    obtain ⟨hmade, rfl⟩ := Prod.mk.inj hmake
    obtain rfl : h₀.managers.length = k := Result.made.inj (Except.ok.inj hmade)
    exact ⟨m, rfl, List.getElem?_concat_length⟩

/-- Whatever was done before a manager was made and whatever is done after: if
the region's addresses do not wrap, every slot that the settings ask for is
found at its place in every way, and every other id is refused in every way. -/
theorem finds_slots_in_every_run {h₀ h : Host} {k : Nat} {region : Region} {settings : Settings}
    (hends : region.base.toNat + region.capacity.toNat ≤ UInt64.size)
    (hmake : h₀.step (.manage region settings) = (.ok (.made k), h)) (ops : List Op) :
    (h.run ops).FindsSlots k region settings.maxCounters := by
  obtain ⟨m₀, hm₀, hk₀⟩ := manage_eq_made hmake
  have hserves : h.Serves k m₀ 0 :=
    ⟨hk₀, Manager.make_registry hm₀ ▸ Registry.fresh_sound _ _⟩
  obtain ⟨m, frontier, hserves', -, -⟩ := hserves.run ops
  obtain ⟨m', hk', halike⟩ := exists_alike_run hk₀ ops
  obtain rfl := Option.some.inj (hserves'.manager.symm.trans hk')
  have hregion : m.region = region := halike.region.trans (Manager.make_region hm₀)
  have hmax : m.maxCounters = settings.maxCounters := by
    obtain ⟨-, -, -, -, -, -, hmade⟩ := Manager.make_eq_ok hm₀
    rw [halike.maxCounters, hmade]
  have hsound : m.Sound frontier (h.run ops).clock :=
    ⟨halike.placed (Manager.make_placed hm₀), hregion ▸ addressable_of_make hends hm₀,
      hserves'.sound⟩
  exact hregion ▸ hmax ▸ findsSlots_of_sound hk' hsound

/-- Two slots in a region that has room for four, of which one is handed out:
slot 2 would have bytes of its own. -/
theorem finds_two_of_four :
    ((4096 : UInt64).toNat + (512 : UInt64).toNat ≤ UInt64.size ∧
      ({} : Host).step (.manage ⟨4096, 512, 0, 0⟩ ⟨2, 0⟩) =
        (.ok (.made 0), run {} [.manage ⟨4096, 512, 0, 0⟩ ⟨2, 0⟩])) ∧
    (run {} [.manage ⟨4096, 512, 0, 0⟩ ⟨2, 0⟩, .allocate 0 "a"]).step (.watch 0 1) =
      (run {} [.manage ⟨4096, 512, 0, 0⟩ ⟨2, 0⟩, .allocate 0 "a"]).addPosition
        (.onCell 1 ⟨4224, 0, 128⟩ none) ∧
    (run {} [.manage ⟨4096, 512, 0, 0⟩ ⟨2, 0⟩, .allocate 0 "a"]).step (.watch 0 2) =
      (run {} [.manage ⟨4096, 512, 0, 0⟩ ⟨2, 0⟩, .allocate 0 "a"]).fail
        (.outOfBounds 256 8 256) := by
  have hends : (4096 : UInt64).toNat + (512 : UInt64).toNat ≤ UInt64.size := by decide
  have hmake : ({} : Host).step (.manage ⟨4096, 512, 0, 0⟩ ⟨2, 0⟩) =
      (.ok (.made 0), run {} [.manage ⟨4096, 512, 0, 0⟩ ⟨2, 0⟩]) := rfl
  have hfinds := finds_slots_in_every_run hends hmake [.allocate 0 "a"]
  exact ⟨⟨hends, hmake⟩, (hfinds.found 1 (by decide) (by decide)).reader,
    (hfinds.refused 2 (by decide)).reader⟩

end Host
end LockFree.Counters
