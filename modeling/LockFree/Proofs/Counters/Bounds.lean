/-
# What is told of bounds

That something is out of bounds is told with three numbers: so many bytes at
such an offset do not fit into so many bytes. Two different looks lead there. A
region adds the offset and the length up and looks whether the sum is a word
within its capacity. A manager compares a slot's number with the number of its
slots and works out the three numbers only for the answer, by one product that
stops at the largest word and by one that wraps.

Whatever the words are, what is told is true of natural numbers, the numbers are
those of what was asked for, and it is told whenever the bytes do not fit and
never else (`TellsBounds`). For a manager this rests on the settings that it was
made with: its slots have ids, so neither product comes near the largest word
(`Manager.Placed.index_settled`), and since its region holds all its slots, the
region never has anything to add (`Manager.Placed.cell_inside`). Nothing is
asked of the addresses, which may wrap.

Key definitions: `TellsBounds`, `TellsSlot`, `Host.TellsSlots`.
Key theorems: `TellsBounds.of_settle`, `Manager.index_agrees`,
`Host.tellsSlots_of_placed`, `Host.out_of_bounds_told_exactly`.
-/
import LockFree.Proofs.Counters.Construction

namespace LockFree.Counters

/-- How it is told that `length` bytes at `offset` are beyond `capacity` bytes:
`answers e` is that the answer is the error `e`, and `reached` that nothing else
was amiss before the bounds were looked at. -/
structure TellsBounds (answers : Error → Prop) (reached : Prop) (offset length capacity : Int) :
    Prop where
  /-- The bytes that are told of do not fit: the sum is one of natural numbers. -/
  truthful : ∀ o l c : UInt64, answers (.outOfBounds o l c) → c.toNat < o.toNat + l.toNat
  /-- The numbers told are those of what was asked for, neither wrapped nor cut
  off at the largest word. -/
  numbers : ∀ o l c : UInt64, answers (.outOfBounds o l c) →
    (o.toNat : Int) = offset ∧ (l.toNat : Int) = length ∧ (c.toNat : Int) = capacity
  /-- It is told whenever the bytes do not fit, and never when they do. -/
  told_iff : (∃ o l c : UInt64, answers (.outOfBounds o l c)) ↔
    reached ∧ capacity < offset + length

/-- How it is told that the value of a slot is beyond `capacity` bytes. A
negative id is refused before. -/
abbrev TellsSlot (answers : Error → Prop) (id : SlotId) (capacity : Int) : Prop :=
  TellsBounds answers (0 ≤ id.toInt) (128 * id.toInt) 8 capacity

namespace TellsBounds

variable {answers answers' : Error → Prop} {reached : Prop} {offset length capacity : Int}

/-- Who leaves the look at the bounds to another tells what the other tells. -/
theorem congr (ht : TellsBounds answers reached offset length capacity)
    (hsame : ∀ o l c, answers' (.outOfBounds o l c) ↔ answers (.outOfBounds o l c)) :
    TellsBounds answers' reached offset length capacity := by
  refine ⟨fun o l c h => ht.truthful o l c ((hsame o l c).mp h),
    fun o l c h => ht.numbers o l c ((hsame o l c).mp h), ?_⟩
  simp only [hsame]
  exact ht.told_iff

/-- A demand that the bytes fit, which stands among others that tell of other
things, tells of the bounds if its three words are the three numbers. -/
theorem of_settle {α : Type} {answer : Except Error α} (before : Demands) {after : Demands}
    {p : Prop} {o l c : UInt64}
    (hs : Demands.Settle (before ++ (p, .outOfBounds o l c) :: after) answer)
    (helse : ∀ d ∈ before ++ after, ∀ o l c, d.2 ≠ .outOfBounds o l c)
    (hreached : (∀ d ∈ before, d.1) ↔ reached)
    (hp : reached → (p ↔ offset + length ≤ capacity))
    (hwords : reached →
      (o.toNat : Int) = offset ∧ (l.toNat : Int) = length ∧ (c.toNat : Int) = capacity) :
    TellsBounds (fun e => answer = .error e) reached offset length capacity := by
  -- no other demand tells of bounds, so it is told just when this one fails first
  have htold : ∀ o' l' c', answer = .error (.outOfBounds o' l' c') ↔
      reached ∧ ¬ p ∧ Error.outOfBounds o l c = .outOfBounds o' l' c' := by
    intro o' l' c'
    rw [hs.error_iff, Demands.failsFirst_at_iff fun d hd => helse d hd o' l' c', hreached]
  refine ⟨fun o' l' c' h => ?_, fun o' l' c' h => ?_, ?_⟩
  · obtain ⟨hr, hout, hsame⟩ := (htold o' l' c').mp h
    obtain ⟨rfl, rfl, rfl⟩ := Error.outOfBounds.inj hsame
    obtain ⟨ho, hl, hc⟩ := hwords hr
    rw [hp hr] at hout
    omega
  · obtain ⟨hr, -, hsame⟩ := (htold o' l' c').mp h
    obtain ⟨rfl, rfl, rfl⟩ := Error.outOfBounds.inj hsame
    exact hwords hr
  · constructor
    · rintro ⟨o', l', c', h⟩
      obtain ⟨hr, hout, -⟩ := (htold o' l' c').mp h
      rw [hp hr, Int.not_le] at hout
      exact ⟨hr, hout⟩
    · rintro ⟨hr, hlt⟩
      have hout : ¬ p := by rwa [hp hr, Int.not_le]
      exact ⟨o, l, c, (htold o l c).mpr ⟨hr, hout, rfl⟩⟩

end TellsBounds

/-! ### Regions -/

/-- The offset of a slot is a word. -/
theorem toNat_slotOffset {id : SlotId} (hid : 0 ≤ id.toInt) :
    ((UInt64.ofNat (128 * id.toNatClampNeg)).toNat : Int) = 128 * id.toInt := by
  have hnat : (id.toNatClampNeg : Int) = id.toInt := Int.toNat_of_nonneg hid
  have hlt := id.toNatClampNeg_lt
  have hsize : UInt64.size = 18446744073709551616 := rfl
  rw [UInt64.toNat_ofNat_of_lt' (by omega)]
  omega

namespace Region

theorem boundsCheck_tells (r : Region) (offset length : UInt64) :
    TellsBounds (fun e => r.boundsCheck offset length = .error e) True offset.toNat length.toNat
      r.capacity.toNat := by
  apply TellsBounds.of_settle [] (r.boundsCheck_settled offset length)
  · nofun
  · simp
  · omega
  · exact fun _ => ⟨rfl, rfl, rfl⟩

/-- As a word the sum would be 7. -/
example : (Region.ofSpan 4096 16).boundsCheck 18446744073709551615 8 =
    .error (.outOfBounds 18446744073709551615 8 16) := rfl

theorem cell_tells (r : Region) (offset : UInt64) :
    TellsBounds (fun e => r.cell offset = .error e) True offset.toNat 8 r.capacity.toNat := by
  apply TellsBounds.of_settle [] (r.cell_settled offset)
  · simp
  · simp
  · omega
  · exact fun _ => ⟨rfl, rfl, rfl⟩

theorem slotCell_tells (r : Region) (id : SlotId) :
    TellsSlot (fun e => r.slotCell id = .error e) id r.capacity.toNat := by
  apply TellsBounds.of_settle [(0 ≤ id.toInt, .invalidArgument (.noSlotOffset id))]
    (r.slotCell_settled id)
  · simp
  · simp
  · intro hid
    have hnat : (id.toNatClampNeg : Int) = id.toInt := Int.toNat_of_nonneg hid
    omega
  · exact fun hid => ⟨toNat_slotOffset hid, rfl, rfl⟩

end Region

/-! ### Managers -/

namespace Manager

/-- Settings that are sound have so few slots that their bytes are counted. -/
theorem make_tells (r : Region) (s : Settings) :
    TellsBounds (fun e => make r s = .error e)
      (1 ≤ s.maxCounters.toNat ∧ s.maxCounters.toNat ≤ maxSlotId) 0 (128 * s.maxCounters.toNat)
      r.capacity.toNat := by
  apply TellsBounds.of_settle
    [(1 ≤ s.maxCounters.toNat, .invalidSettings .noCounters),
      (s.maxCounters.toNat ≤ maxSlotId, .invalidSettings (.beyondIds s.maxCounters))]
    (make_settled r s)
  · simp
  · simp
  · omega
  · rintro ⟨-, hids⟩
    obtain ⟨hlength, -⟩ := Settings.requiredCapacity?_eq hids
    exact ⟨rfl, by omega, rfl⟩

variable {m : Manager} {id : SlotId} {i : UInt64}

/-- What a slot's number asks of a manager. -/
theorem Placed.index_settled (hm : m.Placed) (id : SlotId) :
    Demands.Settle
      [(0 ≤ id.toInt, .invalidArgument (.negativeId id)),
        (id.toInt < m.maxCounters.toNat, .outOfBounds (UInt64.ofNat (128 * id.toNatClampNeg)) 8
          (UInt64.ofNat (128 * m.maxCounters.toNat)))]
      (m.index id) := by
  have hsign : id < 0 ↔ ¬ 0 ≤ id.toInt := by
    rw [Int32.lt_iff_toInt_lt, Int32.toInt_zero, Int.not_le]
  refine Demands.settle_first (fun hid => ?_) fun hneg => ?_
  · refine Demands.settle_first (fun hlt => ?_) fun hbeyond => ?_
    · obtain ⟨i, hi, -⟩ := exists_index_of_toInt hid hlt
      rw [hi]
      exact Demands.settle_nil i
    · rw [index_eq_error hm (Or.inr (Int.not_lt.mp hbeyond)), noSlot, if_neg (by simpa [hsign])]
      rfl
  · rw [index_eq_error hm (Or.inl (Int.not_le.mp hneg)), noSlot, if_pos (hsign.mpr hneg)]

/-- The three numbers are worked out without reaching the largest word. -/
theorem Placed.index_tells (hm : m.Placed) (id : SlotId) :
    TellsSlot (fun e => m.index id = .error e) id (128 * m.maxCounters.toNat) := by
  apply TellsBounds.of_settle [(0 ≤ id.toInt, .invalidArgument (.negativeId id))]
    (hm.index_settled id)
  · simp
  · simp
  · omega
  · intro hid
    have hids := hm.ids
    have hmax : maxSlotId = 2147483647 := rfl
    have hsize : UInt64.size = 18446744073709551616 := rfl
    have hcapacity : (UInt64.ofNat (128 * m.maxCounters.toNat)).toNat =
        128 * m.maxCounters.toNat := UInt64.toNat_ofNat_of_lt' (by omega)
    exact ⟨toNat_slotOffset hid, rfl, by omega⟩

/-- The look at a slot's number and a region's look at its bytes agree over the
bytes of the manager's slots. -/
theorem index_agrees {r : Region} (hr : r.capacity.toNat = 128 * m.maxCounters.toNat)
    (id : SlotId) :
    (∃ i, m.index id = .ok i) ↔
      ∃ offset, slotOffset? id = some offset ∧ r.boundsCheck offset valueLength = .ok () := by
  have hlength : valueLength.toNat = 8 := rfl
  simp only [index_eq_ok_iff, Region.boundsCheck_eq_ok_iff, hr, hlength]
  constructor
  · rintro ⟨i, hi, hlt⟩
    have hoffset := toNat_mul_slotLength (slotIndex?_lt hi)
    exact ⟨i * slotLength, slotOffset?_of_slotIndex? hi, by omega⟩
  · rintro ⟨offset, hoffset, hfits⟩
    obtain ⟨i, hi, -⟩ := Option.bind_eq_some_iff.mp hoffset
    obtain rfl := Option.some.inj ((slotOffset?_of_slotIndex? hi).symm.trans hoffset)
    rw [toNat_mul_slotLength (slotIndex?_lt hi)] at hfits
    exact ⟨i, hi, by omega⟩

/-- The region holds every slot that the manager has. -/
theorem Placed.cell_inside (hm : m.Placed) (hi : m.index id = .ok i) (o l c : UInt64) :
    m.region.cell (i * slotLength) ≠ .error (.outOfBounds o l c) := by
  obtain ⟨hidx, hlt⟩ := index_eq_ok_iff.mp hi
  have hoffset := toNat_mul_slotLength (slotIndex?_lt hidx)
  have hfits := hm.fits
  intro he
  obtain ⟨-, hout⟩ := (m.region.cell_tells (i * slotLength)).told_iff.mp ⟨o, l, c, he⟩
  omega

theorem Placed.slotCell_inside (hm : m.Placed) (hi : m.index id = .ok i) (o l c : UInt64) :
    m.region.slotCell id ≠ .error (.outOfBounds o l c) := by
  have hinside := hm.cell_inside hi o l c
  rwa [Region.slotCell, slotOffset?_of_slotIndex? (slotIndex?_of_index hi)]

/-- Who looks at the slot's number first, and at the slot after that, tells of
bounds what the manager tells of the number. -/
theorem Placed.tells_of_index (hm : m.Placed) {α : Type} {answer : Except Error α}
    (hrefused : ∀ e, m.index id = .error e → answer = .error e)
    (hinside : ∀ i, m.index id = .ok i → ∀ o l c, answer ≠ .error (.outOfBounds o l c)) :
    TellsSlot (fun e => answer = .error e) id (128 * m.maxCounters.toNat) := by
  refine (hm.index_tells id).congr fun o l c => ?_
  cases hi : m.index id with
  | error e =>
    rw [hrefused e hi]
    simp
  | ok i => simp [hinside i hi o l c]

theorem Placed.cell_tells (hm : m.Placed) (id : SlotId) :
    TellsSlot (fun e => m.cell id = .error e) id (128 * m.maxCounters.toNat) := by
  apply hm.tells_of_index
  · intro e hi
    simp only [cell, hi]
  · intro i hi o l c
    simp only [cell, hi]
    exact hm.cell_inside hi o l c

theorem Placed.readerCell_tells (hm : m.Placed) (id : SlotId) :
    TellsSlot (fun e => m.readerCell id = .error e) id (128 * m.maxCounters.toNat) := by
  apply hm.tells_of_index
  · intro e hi
    simp only [readerCell, hi]
  · intro i hi o l c
    simp only [readerCell, hi]
    exact hm.slotCell_inside hi o l c

/-- The slot's state and owner are looked at in between, and are told of in other
words. -/
theorem Placed.claim_tells (hm : m.Placed) (id : SlotId) :
    TellsSlot (fun e => m.claim id = .error e) id (128 * m.maxCounters.toNat) := by
  apply hm.tells_of_index
  · intro e hi
    simp only [claim, hi]
  · intro i hi o l c
    have hcell := hm.slotCell_inside hi o l c
    simp only [claim, hi]
    cases m.registry.slot? i.toNat with
    | none => simp
    | some s =>
      by_cases halloc : s.state = .allocated
      · by_cases howned : s.owned
        · simp [halloc, howned]
        · cases hc : m.region.slotCell id with
          | error e =>
            rw [hc] at hcell
            simpa [halloc, howned] using hcell
          | ok c => simp [halloc, howned]
      · simp [halloc]

end Manager

/-! ### Operations of a host -/

namespace Host

/-- How manager `k`, of `n` slots, tells that a slot is out of bounds. -/
structure TellsSlots (h : Host) (k : Nat) (n : UInt64) : Prop where
  value : ∀ id, TellsSlot (fun e => h.slotValue k id = .error (.error e)) id (128 * n.toNat)
  reader : ∀ id,
    TellsSlot (fun e => (h.step (.watch k id)).1 = .error (.error e)) id (128 * n.toNat)
  owner : ∀ id,
    TellsSlot (fun e => (h.step (.own k id)).1 = .error (.error e)) id (128 * n.toNat)
  /-- The manager's look at a slot's number finds what a look at the slot's
  bytes finds in a region of just as many bytes as the manager's slots have. -/
  agrees : ∃ m, h.managers[k]? = some m ∧ ∀ id,
    ((∃ i, m.index id = .ok i) ↔ 0 ≤ id.toInt ∧ id.toInt < n.toNat) ∧
    ∀ r : Region, r.capacity.toNat = 128 * n.toNat →
      ((∃ i, m.index id = .ok i) ↔
        ∃ offset, slotOffset? id = some offset ∧ r.boundsCheck offset valueLength = .ok ())

variable {h : Host} {k : Nat} {m : Manager} {id : SlotId} {e : Error}

theorem manage_error_iff {r : Region} {s : Settings} :
    (h.step (.manage r s)).1 = .error (.error e) ↔ Manager.make r s = .error e := by
  cases hm : Manager.make r s <;> simp [step, manage, hm, fail]

theorem place_error_iff {r : Region} {reclaimer : Option Reclaimer} :
    (h.step (.place r id reclaimer)).1 = .error (.error e) ↔ r.slotCell id = .error e := by
  cases hc : r.slotCell id <;> simp [step, place, Position.make, hc, fail, addPosition]

theorem slotValue_error_iff (hk : h.managers[k]? = some m) :
    h.slotValue k id = .error (.error e) ↔ m.cell id = .error e := by
  cases hc : m.cell id <;> simp [slotValue, hk, hc]

theorem watch_error_iff (hk : h.managers[k]? = some m) :
    (h.step (.watch k id)).1 = .error (.error e) ↔ m.readerCell id = .error e := by
  cases hc : m.readerCell id <;> simp [step, watch, hk, hc, fail, addPosition]

theorem own_error_iff (hk : h.managers[k]? = some m) :
    (h.step (.own k id)).1 = .error (.error e) ↔ m.claim id = .error e := by
  cases hc : m.claim id <;> simp [step, own, hk, hc, fail, addPosition]

theorem tellsSlots_of_placed (hk : h.managers[k]? = some m) (hm : m.Placed) :
    h.TellsSlots k m.maxCounters := by
  refine ⟨fun id => ?_, fun id => ?_, fun id => ?_, m, hk, fun id => ⟨?_, fun r hr => ?_⟩⟩
  · exact (hm.cell_tells id).congr fun o l c => slotValue_error_iff hk
  · exact (hm.readerCell_tells id).congr fun o l c => watch_error_iff hk
  · exact (hm.claim_tells id).congr fun o l c => own_error_iff hk
  · simpa using (hm.index_settled id).ok_iff
  · exact Manager.index_agrees hr id

/-- **What is told of bounds.** On every host, whatever its regions, settings and
words are: that something is out of bounds is told by a look at bounds, by the
making of a manager and of a position whenever it is so and never else, of the
bytes that were asked for. And whatever was done before a manager was made and
whatever is done after, the manager tells it, for a value, a reader and an owner
alike, of just the slots that lie beyond the bytes of its own. -/
theorem out_of_bounds_told_exactly (h₀ : Host) :
    (∀ (r : Region) (offset length : UInt64),
      TellsBounds (fun e => r.boundsCheck offset length = .error e) True offset.toNat length.toNat
        r.capacity.toNat) ∧
    (∀ (r : Region) (s : Settings),
      TellsBounds (fun e => (h₀.step (.manage r s)).1 = .error (.error e))
        (1 ≤ s.maxCounters.toNat ∧ s.maxCounters.toNat ≤ maxSlotId) 0 (128 * s.maxCounters.toNat)
        r.capacity.toNat) ∧
    (∀ (r : Region) (id : SlotId) (reclaimer : Option Reclaimer),
      TellsSlot (fun e => (h₀.step (.place r id reclaimer)).1 = .error (.error e)) id
        r.capacity.toNat) ∧
    ∀ (r : Region) (s : Settings) (k : Nat) (h : Host),
      h₀.step (.manage r s) = (.ok (.made k), h) →
        ∀ ops : List Op, (h.run ops).TellsSlots k s.maxCounters := by
  refine ⟨Region.boundsCheck_tells, fun r s => ?_, fun r id reclaimer => ?_, ?_⟩
  · exact (Manager.make_tells r s).congr fun o l c => manage_error_iff
  · exact (r.slotCell_tells id).congr fun o l c => place_error_iff
  · intro r s k h hmake ops
    obtain ⟨m₀, hm₀, hk₀⟩ := manage_eq_made hmake
    obtain ⟨m, hk, halike⟩ := exists_alike_run hk₀ ops
    have hmax : m.maxCounters = s.maxCounters := by
      obtain ⟨-, -, -, -, -, -, rfl⟩ := Manager.make_eq_ok hm₀
      exact halike.maxCounters
    rw [← hmax]
    exact tellsSlots_of_placed hk (halike.placed (Manager.make_placed hm₀))

/-- A manager of as many slots as there are ids, in a region that holds just
these. -/
def manageEveryId : Op := .manage ⟨4096, 274877906816, 0, 0⟩ ⟨2147483647, 0⟩

/-- The largest id is one too many, and is told with its own offset; whatever is
amiss with the one before it, its bounds are not. -/
theorem bounds_told_of_largest_ids :
    ({} : Host).step manageEveryId = (.ok (.made 0), run {} [manageEveryId]) ∧
      (run {} [manageEveryId]).slotValue 0 2147483647 =
        .error (.error (.outOfBounds 274877906816 8 274877906816)) ∧
      ∀ o l c : UInt64, (run {} [manageEveryId]).slotValue 0 2147483646 ≠
        .error (.error (.outOfBounds o l c)) := by
  have hmake : ({} : Host).step manageEveryId = (.ok (.made 0), run {} [manageEveryId]) := rfl
  obtain ⟨-, -, -, hmanager⟩ := out_of_bounds_told_exactly {}
  have htells := hmanager _ _ _ _ hmake []
  refine ⟨hmake, ?_, fun o l c htold => ?_⟩
  · have hvalue := htells.value 2147483647
    obtain ⟨o, l, c, htold⟩ := hvalue.told_iff.mpr ⟨by decide, by decide⟩
    obtain ⟨ho, hl, hc⟩ := hvalue.numbers o l c htold
    obtain rfl : o = 274877906816 := UInt64.toNat_inj.mp (Int.ofNat.inj ho)
    obtain rfl : l = 8 := UInt64.toNat_inj.mp (Int.ofNat.inj hl)
    obtain rfl : c = 274877906816 := UInt64.toNat_inj.mp (Int.ofNat.inj hc)
    exact htold
  · have hout := ((htells.value 2147483646).told_iff.mp ⟨o, l, c, htold⟩).2
    exact absurd hout (by decide)

end Host
end LockFree.Counters
