/-
# Where slots lie

A manager is made over a region only if the region holds all of its slots and
the address of the first is a multiple of the alignment and not null. Nothing
that happens later takes that back (`Manager.Placed`), and on a region whose
addresses do not wrap (`Region.Addressable`, which a region must promise to be
one at all) it is all that finding a slot's cell asks for. So there every
look-up of a slot that the manager has succeeds, through the manager as through
a position, and gives the eight bytes at the slot's place.

Key definitions: `Region.Addressable`, `Region.slotAt`, `Manager.Placed`.
Key theorems: `Region.cell_eq_ok_iff`, `Manager.Placed.cell_eq`,
`Manager.Placed.slotCell_eq`, `Host.Placed.run`.
-/
import LockFree.Proofs.Counters.Tenure

namespace LockFree.Counters

/-! ### Slot ids -/

theorem slotIndex?_ofNat {i : Nat} (hi : i ≤ maxSlotId) :
    slotIndex? (Int32.ofNat i) = some (UInt64.ofNat i) := by
  have hmax : maxSlotId = 2147483647 := rfl
  have hlt : i < 2147483648 := by omega
  have hnonneg : ¬ Int32.ofNat i < 0 := by
    rw [Int32.lt_iff_toInt_lt, Int32.toInt_ofNat_of_lt hlt, Int32.toInt_zero]
    omega
  rw [slotIndex?, if_neg hnonneg, Int32.toNatClampNeg_ofNat_of_lt hlt]

/-- A slot id is the number of its place in the slots' order. -/
theorem ofNat_toNat_of_slotIndex? {id : SlotId} {i : UInt64} (hi : slotIndex? id = some i) :
    Int32.ofNat i.toNat = id := by
  rw [slotIndex?_toNat hi]
  unfold slotIndex? at hi
  split at hi
  · cases hi
  · rename_i hnonneg
    exact Int32.ofNat_toNatClampNeg id (Int32.not_lt.mp hnonneg)

theorem ofNat_slotId_inj {i j : Nat} (hi : i ≤ maxSlotId) (hj : j ≤ maxSlotId) :
    Int32.ofNat i = Int32.ofNat j ↔ i = j := by
  have hmax : maxSlotId = 2147483647 := rfl
  refine ⟨fun he => ?_, fun he => he ▸ rfl⟩
  have hclamp := congrArg Int32.toNatClampNeg he
  rwa [Int32.toNatClampNeg_ofNat_of_lt (by omega), Int32.toNatClampNeg_ofNat_of_lt (by omega)]
    at hclamp

theorem slotIndex?_lt {id : SlotId} {i : UInt64} (hi : slotIndex? id = some i) :
    i.toNat < 2147483648 := by
  rw [slotIndex?_toNat hi]
  exact id.toNatClampNeg_lt

/-- No product of an index and the slot length wraps. -/
theorem toNat_mul_slotLength {i : UInt64} (hi : i.toNat < 2147483648) :
    (i * slotLength).toNat = 128 * i.toNat := by
  have hlength : slotLength.toNat = 128 := rfl
  rw [UInt64.toNat_mul, hlength, Nat.mod_eq_of_lt (by omega), Nat.mul_comm]

theorem slotOffset?_of_slotIndex? {id : SlotId} {i : UInt64} (hi : slotIndex? id = some i) :
    slotOffset? id = some (i * slotLength) := by
  have hlength : slotLength.toNat = 128 := rfl
  rw [slotOffset?, hi, Option.bind_some, Word.checkedMul?_eq_some_iff,
    toNat_mul_slotLength (slotIndex?_lt hi), hlength, Nat.mul_comm]

/-! ### Cells of a region -/

namespace Region

theorem boundsCheck_eq_ok_iff {r : Region} {offset length : UInt64} :
    r.boundsCheck offset length = .ok () ↔ offset.toNat + length.toNat ≤ r.capacity.toNat := by
  unfold boundsCheck
  cases hadd : Word.checkedAdd? offset length with
  | none =>
    have hbeyond : ¬ offset.toNat + length.toNat < UInt64.size := by
      intro hlt
      simp [Word.checkedAdd?, hlt] at hadd
    have hcapacity := r.capacity.toNat_lt_size
    simp only [reduceCtorEq, false_iff]
    omega
  | some last =>
    rw [Word.checkedAdd?_eq_some_iff.mp hadd]
    simp [UInt64.le_iff_toNat_le]

/-- What finding a cell asks for, and what it gives. -/
theorem cell_eq_ok_iff {r : Region} {offset : UInt64} {c : Cell} :
    r.cell offset = .ok c ↔
      (offset.toNat + 8 ≤ r.capacity.toNat ∧ (r.addressAt offset).toNat % 8 = 0 ∧
        r.addressAt offset ≠ 0) ∧
      c = ⟨r.addressAt offset, r.backing, r.start + offset.toNat⟩ := by
  have haligned : r.addressAt offset % valueAlignment = 0 ↔
      (r.addressAt offset).toNat % 8 = 0 := by
    rw [← UInt64.toNat_inj, UInt64.toNat_mod]
    rfl
  have hbounds : r.boundsCheck offset valueLength = .ok () ↔
      offset.toNat + valueLength.toNat ≤ r.capacity.toNat := boundsCheck_eq_ok_iff
  have hlength : valueLength.toNat = 8 := rfl
  rw [hlength] at hbounds
  unfold cell
  cases hcheck : r.boundsCheck offset valueLength with
  | error e =>
    rw [hcheck] at hbounds
    have hout : ¬ offset.toNat + 8 ≤ r.capacity.toNat := fun hle => by cases hbounds.mpr hle
    simp [hout]
  | ok _ =>
    have hin := hbounds.mp hcheck
    by_cases ha : r.addressAt offset % valueAlignment = 0
    · have ha' := haligned.mp ha
      by_cases hz : r.addressAt offset = 0
      · simp [hz]
      · simp [ha, ha', hz, hin, eq_comm]
    · have ha' : ¬ (r.addressAt offset).toNat % 8 = 0 := fun he => ha (haligned.mpr he)
      simp [ha, ha']

/-- Every byte of the region has an address of its own: the first one's is not
null, and the addresses do not wrap. -/
structure Addressable (r : Region) : Prop where
  base_ne : r.base ≠ 0
  ends : r.base.toNat + r.capacity.toNat ≤ UInt64.size

instance (r : Region) : Decidable r.Addressable :=
  decidable_of_iff (r.base ≠ 0 ∧ r.base.toNat + r.capacity.toNat ≤ UInt64.size)
    ⟨fun h => ⟨h.1, h.2⟩, fun h => ⟨h.base_ne, h.ends⟩⟩

/-- Eight bytes at the place of the slot with an index. -/
def slotAt (r : Region) (i : Nat) : Cell :=
  ⟨r.base + UInt64.ofNat (128 * i), r.backing, r.start + 128 * i⟩

theorem Addressable.toNat_addressAt {r : Region} (hr : r.Addressable) {offset : UInt64}
    (hin : offset.toNat < r.capacity.toNat) :
    (r.addressAt offset).toNat = r.base.toNat + offset.toNat := by
  have hends := hr.ends
  have hsize : UInt64.size = 18446744073709551616 := rfl
  rw [addressAt, UInt64.toNat_add, Nat.mod_eq_of_lt (by omega)]

theorem Addressable.addressAt_ne_zero {r : Region} (hr : r.Addressable) {offset : UInt64}
    (hin : offset.toNat < r.capacity.toNat) : r.addressAt offset ≠ 0 := by
  have hbase : r.base.toNat ≠ 0 := fun he => hr.base_ne (UInt64.toNat_inj.mp he)
  intro hz
  have haddress := hr.toNat_addressAt hin
  rw [hz, UInt64.toNat_zero] at haddress
  omega

end Region

/-- The cell of a slot is one of the region's. -/
theorem Region.slotCell_eq_ok {r : Region} {id : SlotId} {c : Cell} (hc : r.slotCell id = .ok c) :
    ∃ offset, r.cell offset = .ok c := by
  unfold slotCell at hc
  split at hc
  · cases hc
  · rename_i offset _
    exact ⟨offset, hc⟩

theorem Manager.cell_eq_ok {m : Manager} {id : SlotId} {c : Cell} (hc : m.cell id = .ok c) :
    ∃ offset, m.region.cell offset = .ok c := by
  unfold cell at hc
  split at hc
  · cases hc
  · rename_i i _
    exact ⟨i * slotLength, hc⟩

/-! ### Slots of a manager -/

/-- What a manager was made over. -/
structure Manager.Placed (m : Manager) : Prop where
  pos : 0 < m.maxCounters.toNat
  /-- Every slot has an id. -/
  ids : m.maxCounters.toNat ≤ maxSlotId
  /-- The region holds every slot. -/
  fits : 128 * m.maxCounters.toNat ≤ m.region.capacity.toNat
  aligned : m.region.base.toNat % 8 = 0

namespace Manager

theorem make_region {region : Region} {settings : Settings} {m : Manager}
    (hm : make region settings = .ok m) : m.region = region := by
  obtain ⟨-, -, -, -, -, -, rfl⟩ := make_eq_ok hm
  rfl

theorem make_placed {region : Region} {settings : Settings} {m : Manager}
    (hm : make region settings = .ok m) : m.Placed := by
  obtain ⟨required, c, hcheck, hrequired, hbounds, hcell, rfl⟩ := make_eq_ok hm
  have hlength : slotLength.toNat = 128 := rfl
  have hsize := Word.checkedMul?_eq_some_iff.mp hrequired
  have hfits := Region.boundsCheck_eq_ok_iff.mp hbounds
  obtain ⟨⟨-, haligned, -⟩, -⟩ := Region.cell_eq_ok_iff.mp hcell
  unfold Settings.check at hcheck
  split at hcheck
  · cases hcheck
  · rename_i hpos
    split at hcheck
    · cases hcheck
    · rename_i hids
      refine ⟨Nat.pos_of_ne_zero fun he => hpos (UInt64.toNat_inj.mp he),
        Nat.le_of_not_lt hids, ?_, ?_⟩
      · rw [hlength] at hsize
        rw [UInt64.toNat_zero] at hfits
        show 128 * settings.maxCounters.toNat ≤ region.capacity.toNat
        omega
      · rwa [Region.addressAt, UInt64.add_zero] at haligned

variable {m : Manager} {id : SlotId} {i : UInt64}

theorem index_eq_ok_iff :
    m.index id = .ok i ↔ slotIndex? id = some i ∧ i.toNat < m.maxCounters.toNat := by
  constructor
  · intro hi
    refine ⟨slotIndex?_of_index hi, ?_⟩
    unfold index at hi
    split at hi
    · cases hi
    · split at hi
      · rename_i hlt
        obtain rfl := Except.ok.inj hi
        exact UInt64.lt_iff_toNat_lt.mp hlt
      · cases hi
  · rintro ⟨hidx, hlt⟩
    simp only [index, hidx, if_pos (UInt64.lt_iff_toNat_lt.mpr hlt)]

/-- A manager is placed for good. -/
theorem Alike.placed {m' : Manager} (ha : m.Alike m') (hm : m.Placed) : m'.Placed := by
  refine ⟨?_, ?_, ?_, ?_⟩
  · rw [ha.maxCounters]
    exact hm.pos
  · rw [ha.maxCounters]
    exact hm.ids
  · rw [ha.maxCounters, ha.region]
    exact hm.fits
  · rw [ha.region]
    exact hm.aligned

theorem Placed.index_ofNat (hm : m.Placed) {j : Nat} (hj : j < m.maxCounters.toNat) :
    m.index (Int32.ofNat j) = .ok (UInt64.ofNat j) := by
  have hids := hm.ids
  have hmax : maxSlotId = 2147483647 := rfl
  rw [index_eq_ok_iff, UInt64.toNat_ofNat_of_lt' (Nat.lt_trans hj m.maxCounters.toNat_lt_size)]
  exact ⟨slotIndex?_ofNat (by omega), hj⟩

/-- The slot's eight bytes are found where they lie. -/
theorem Placed.region_cell_eq (hm : m.Placed) (hr : m.region.Addressable)
    (hi : m.index id = .ok i) : m.region.cell (i * slotLength) = .ok (m.region.slotAt i.toNat) := by
  obtain ⟨hidx, hlt⟩ := index_eq_ok_iff.mp hi
  have hoffset := toNat_mul_slotLength (slotIndex?_lt hidx)
  have hfits := hm.fits
  have haligned := hm.aligned
  have hin : (i * slotLength).toNat < m.region.capacity.toNat := by omega
  have haddress := hr.toNat_addressAt hin
  have hword : UInt64.ofNat (128 * i.toNat) = i * slotLength := by
    rw [← hoffset, UInt64.ofNat_toNat]
  rw [Region.cell_eq_ok_iff]
  refine ⟨⟨by omega, by omega, hr.addressAt_ne_zero hin⟩, ?_⟩
  rw [Region.slotAt, hword, hoffset, Region.addressAt]

theorem Placed.cell_eq (hm : m.Placed) (hr : m.region.Addressable) (hi : m.index id = .ok i) :
    m.cell id = .ok (m.region.slotAt i.toNat) := by
  simp only [cell, hi, hm.region_cell_eq hr hi]

theorem Placed.cell_ofNat (hm : m.Placed) (hr : m.region.Addressable) {j : Nat}
    (hj : j < m.maxCounters.toNat) : m.cell (Int32.ofNat j) = .ok (m.region.slotAt j) := by
  have hnat : (UInt64.ofNat j).toNat = j :=
    UInt64.toNat_ofNat_of_lt' (Nat.lt_trans hj m.maxCounters.toNat_lt_size)
  rw [hm.cell_eq hr (hm.index_ofNat hj), hnat]

theorem Placed.slotCell_eq (hm : m.Placed) (hr : m.region.Addressable) (hi : m.index id = .ok i) :
    m.region.slotCell id = .ok (m.region.slotAt i.toNat) := by
  have hidx := slotIndex?_of_index hi
  simp only [Region.slotCell, slotOffset?_of_slotIndex? hidx, hm.region_cell_eq hr hi]

/-! ### No operation lacks a cell -/

/-- A manager with an addressable region and a sound registry. -/
structure Sound (m : Manager) (frontier now : Nat) : Prop where
  placed : m.Placed
  addressable : m.region.Addressable
  sound : m.registry.Sound m.maxCounters.toNat frontier now

theorem Sound.next?_lt {frontier now : Nat} (hm : m.Sound frontier now) {quarantine j : Nat}
    {rest : Registry} (hnext : m.registry.next? now quarantine = some (j, rest)) :
    j < m.maxCounters.toNat := by
  obtain ⟨-, s, hslot, -⟩ := hm.sound.next?_slot hnext
  exact hm.sound.slot?_lt hslot

/-- The cell of a slot that is handed out is found. -/
theorem Sound.granted_cell {frontier now : Nat} (hm : m.Sound frontier now) {quarantine j : Nat}
    {rest : Registry} (hnext : m.registry.next? now quarantine = some (j, rest)) (label : String) :
    cell { m with registry := rest.grant j label } (Int32.ofNat j) = .ok (m.region.slotAt j) := by
  have hplaced : Placed { m with registry := rest.grant j label } := { hm.placed with }
  exact hplaced.cell_ofNat hm.addressable (hm.next?_lt hnext)

theorem Sound.follows_cell {frontier now j : Nat} {label : String} {m' : Manager}
    (hm : m.Sound frontier now) (hf : m.Follows now (some (.grant j label)) m') :
    m'.cell (Int32.ofNat j) = .ok (m.region.slotAt j) := by
  cases hf with
  | grant label hnext => exact hm.granted_cell hnext label

/-- So an allocation either finds no slot and changes nothing, or succeeds. -/
theorem Sound.allocate_eq {frontier now : Nat} (hm : m.Sound frontier now) (label : String) :
    m.allocate now label =
      match m.registry.next? now m.quarantine.nanoseconds with
      | none => (.error (.capacityExhausted m.maxCounters), m)
      | some (j, rest) =>
        (.ok (Int32.ofNat j, m.region.slotAt j), { m with registry := rest.grant j label }) := by
  unfold allocate
  cases hnext : m.registry.next? now m.quarantine.nanoseconds with
  | none => rfl
  | some out =>
    obtain ⟨j, rest⟩ := out
    simp only [hm.granted_cell hnext label]

/-- Only a slot that has no allocation, or has an owner, cannot get one. -/
theorem Sound.claim_eq {frontier now : Nat} (hm : m.Sound frontier now)
    (hi : m.index id = .ok i) {s : Slot} (hs : m.registry.slot? i.toNat = some s)
    (halloc : s.state = .allocated) (hfree : s.owned = false) :
    m.claim id = .ok (m.region.slotAt i.toNat, { m with registry := m.registry.own i.toNat }) := by
  have hcell := hm.placed.slotCell_eq hm.addressable hi
  simp [claim, hi, hs, halloc, hfree, hcell]

/-- A free frees exactly the slots that are allocated. -/
theorem Sound.freed_iff {frontier now : Nat} (hm : m.Sound frontier now) {outcome : FreeOutcome}
    {m' : Manager} (hf : m.Follows now (some (.free id outcome)) m') :
    outcome = .freed ↔ m.state? id = some .allocated := by
  cases hf with
  | freed hi hslot halloc =>
    refine iff_of_true rfl ?_
    rw [state?_of_slot (slotIndex?_of_index hi) hslot, halloc]
  | outside hno =>
    refine iff_of_false nofun fun hstate => ?_
    obtain ⟨i, hidx, hsome⟩ := Option.bind_eq_some_iff.mp hstate
    obtain ⟨s, hslot, -⟩ := Option.map_eq_some_iff.mp hsome
    cases (hno i (index_eq_ok_iff.mpr ⟨hidx, hm.sound.slot?_lt hslot⟩)).symm.trans hslot
  | unallocated hi hslot hstate =>
    refine iff_of_false nofun fun hall => hstate ?_
    rw [state?_of_slot (slotIndex?_of_index hi) hslot] at hall
    exact Option.some.inj hall

end Manager

/-! ### Managers and positions of a host -/

namespace Host

/-- Every manager is placed. -/
def Placed (h : Host) : Prop := ∀ m ∈ h.managers, m.Placed

theorem Placed.step {h : Host} (hp : h.Placed) (op : Op) : (h.step op).2.Placed := by
  intro m hm
  obtain ⟨d, hd⟩ := h.step_does op
  rcases hd.managers.mem hm with ⟨m₀, hm₀, hm'⟩ | ⟨region, settings, -, hmake⟩
  · exact hm'.placed (hp m₀ hm₀)
  · exact Manager.make_placed hmake

theorem Placed.run {h : Host} (hp : h.Placed) (ops : List Op) : (h.run ops).Placed := by
  induction ops generalizing h with
  | nil => exact hp
  | cons op ops ih => exact ih (hp.step op)

/-- What holds of every region that the operations are given holds of every
manager's region. -/
theorem region_run {P : Region → Prop} {h : Host} (hP : ∀ m ∈ h.managers, P m.region)
    {ops : List Op} (hgiven : ∀ op ∈ ops, ∀ r ∈ op.region?, P r) :
    ∀ m ∈ (h.run ops).managers, P m.region := by
  induction ops generalizing h with
  | nil => exact hP
  | cons op ops ih =>
    refine ih (fun m hm => ?_) fun op' hop' => hgiven op' (List.mem_cons_of_mem op hop')
    obtain ⟨d, hd⟩ := h.step_does op
    rcases hd.managers.mem hm with ⟨m₀, hm₀, hm'⟩ | ⟨region, settings, hregion, hmake⟩
    · rw [hm'.region]
      exact hP m₀ hm₀
    · rw [Manager.make_region hmake]
      exact hgiven op List.mem_cons_self region hregion

/-- In every run a manager of an addressable region is sound. -/
theorem manager_sound_run {ops : List Op} {k : Nat} {m : Manager}
    (hk : (run {} ops).managers[k]? = some m) (hr : m.region.Addressable) :
    ∃ frontier, m.Sound frontier (run {} ops).clock := by
  have hsound : Sound {} := fun k m hk => by cases hk
  have hplaced : Placed {} := fun m hm => by cases hm
  obtain ⟨frontier, hserves⟩ := hsound.run ops k m hk
  exact ⟨frontier, hplaced.run ops m (List.mem_of_getElem? hk), hr, hserves.sound⟩

/-- If there is a manager `k`, it is sound. -/
def SoundAt (h : Host) (k : Nat) : Prop :=
  ∀ m, h.managers[k]? = some m → ∃ frontier, m.Sound frontier h.clock

theorem soundAt_of_sound {h : Host} {k frontier : Nat} {m : Manager} (hk : h.managers[k]? = some m)
    (hm : m.Sound frontier h.clock) : h.SoundAt k := fun m' hk' => by
  obtain rfl := Option.some.inj (hk.symm.trans hk')
  exact ⟨frontier, hm⟩

theorem soundAt_of_none {h : Host} {k : Nat} (hk : h.managers[k]? = none) : h.SoundAt k :=
  fun m hm => by cases hk.symm.trans hm

/-- What is done to a sound manager has a result: no operation that has begun to
change something lacks a cell. -/
theorem Does.exists_ok {h : Host} {op : Op} {k : Nat} {a : Manager.Action} {o : Outcome}
    (hd : h.Does op (some (k, a)) o) (hs : h.SoundAt k) : ∃ r, o.1 = .ok r := by
  cases hd with
  | lacks hk hf hc =>
    obtain ⟨frontier, hm⟩ := hs _ hk
    cases hc.symm.trans (hm.follows_cell hf)
  | _ => exact ⟨_, rfl⟩

/-- A manager of an addressable region hands out a slot and sets its value to
zero, or has no slot to hand out. -/
theorem allocate_eq {h : Host} {k : Nat} {m : Manager} {frontier : Nat}
    (hk : h.managers[k]? = some m) (hm : m.Sound frontier h.clock) (label : String) :
    h.allocate k label =
      match m.registry.next? h.clock m.quarantine.nanoseconds with
      | none => h.fail (.capacityExhausted m.maxCounters)
      | some (i, rest) =>
        (.ok (.slot (Int32.ofNat i)),
          { h with
            managers := h.managers.set k { m with registry := rest.grant i label }
            memory := h.memory.store (m.region.slotAt i) 0 }.emit
            (.allocated (Int32.ofNat i) label)) := by
  simp only [allocate, hk, hm.allocate_eq]
  cases m.registry.next? h.clock m.quarantine.nanoseconds with
  | none => simp only [set_eq_self hk]
  | some out => rfl

end Host
end LockFree.Counters
