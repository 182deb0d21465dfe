/-
# What a construction asks for

A position is made over a slot of a region, and a manager over the slots at its
start. Both look at several things one after another, in words that may wrap,
and fail at the first that is amiss. Here each of them is said to go by a list of
demands on natural numbers: it succeeds exactly if every demand is met, and the
error is that of the first one that is not (`Demands.Settle`).

Since a slot is a whole number of alignments long, and the addresses wrap after
a whole number of them, neither the slot nor the wrapping matters to the
alignment: all the cells of a region are aligned, or none is
(`Region.addressAt_aligned_iff`).

Key definitions: `Demands.FailsFirst`, `Demands.Settle`, `Region.slotDemands`,
`Manager.demands`.
Key theorems: `Region.cell_settled`, `Region.slotCell_settled`,
`Manager.make_settled`, `construction_settled`.
-/
import LockFree.Proofs.Counters.Resolution

namespace LockFree.Counters

/-- What is asked for, in the order in which it is looked at, each with what is
said where it is not so. -/
abbrev Demands := List (Prop × Error)

namespace Demands

/-- This is said of the first demand that is not met. -/
inductive FailsFirst : Demands → Error → Prop
  | here {p : Prop} {e : Error} {rest : Demands} (hp : ¬ p) : FailsFirst ((p, e) :: rest) e
  | later {p : Prop} {e e' : Error} {rest : Demands} (hp : p) (hrest : FailsFirst rest e') :
    FailsFirst ((p, e) :: rest) e'

/-- The demands settle an answer: whether there is one, and else which error. -/
structure Settle {α : Type} (ds : Demands) (answer : Except Error α) : Prop where
  ok_iff : (∃ a, answer = .ok a) ↔ ∀ d ∈ ds, d.1
  error_iff : ∀ e, answer = .error e ↔ ds.FailsFirst e

variable {α β : Type} {ds : Demands} {p : Prop} {e : Error} {answer : Except Error α}

theorem settle_nil (a : α) : Settle [] (.ok a) :=
  ⟨⟨nofun, fun _ => ⟨a, rfl⟩⟩, fun _ => ⟨nofun, nofun⟩⟩

/-- A demand that is not met is answered with its error, whatever else is asked
for. -/
theorem settle_refuse (hp : ¬ p) (ds : Demands) : Settle (α := α) ((p, e) :: ds) (.error e) := by
  refine ⟨⟨nofun, fun hall => absurd (hall _ List.mem_cons_self) hp⟩, fun e' => ⟨?_, ?_⟩⟩
  · intro he
    obtain rfl := Except.error.inj he
    exact .here hp
  · intro hf
    cases hf with
    | here => rfl
    | later hp' => exact absurd hp' hp

/-- A demand that is met leaves the answer to the others. -/
theorem settle_cons (hp : p) : Settle ((p, e) :: ds) answer ↔ ds.Settle answer := by
  have hall : (∀ d ∈ (p, e) :: ds, d.1) ↔ ∀ d ∈ ds, d.1 := by
    rw [List.forall_mem_cons]
    exact and_iff_right hp
  have hfirst : ∀ e', FailsFirst ((p, e) :: ds) e' ↔ ds.FailsFirst e' := by
    intro e'
    constructor
    · intro hf
      cases hf with
      | here hp' => exact absurd hp hp'
      | later _ hrest => exact hrest
    · exact .later hp
  constructor
  · exact fun hs => ⟨hs.ok_iff.trans hall, fun e' => (hs.error_iff e').trans (hfirst e')⟩
  · exact fun hs => ⟨hs.ok_iff.trans hall.symm, fun e' => (hs.error_iff e').trans (hfirst e').symm⟩

/-- The first demand is looked at before the others. -/
theorem settle_first (hmet : p → ds.Settle answer) (hunmet : ¬ p → answer = .error e) :
    Settle ((p, e) :: ds) answer := by
  by_cases hp : p
  · exact (settle_cons hp).mpr (hmet hp)
  · rw [hunmet hp]
    exact settle_refuse hp ds

theorem FailsFirst.exists_mem (hf : ds.FailsFirst e) : ∃ d ∈ ds, d.2 = e := by
  induction hf with
  | here => exact ⟨_, List.mem_cons_self, rfl⟩
  | later _ _ ih =>
    obtain ⟨d, hd, he⟩ := ih
    exact ⟨d, List.mem_cons_of_mem _ hd, he⟩

/-- What only one demand says is said exactly if this demand is not met, and all
those before it are. -/
theorem failsFirst_at_iff {before after : Demands} {e' : Error}
    (helse : ∀ d ∈ before ++ after, d.2 ≠ e') :
    FailsFirst (before ++ (p, e) :: after) e' ↔ (∀ d ∈ before, d.1) ∧ ¬ p ∧ e = e' := by
  induction before with
  | nil =>
    constructor
    · intro hf
      cases hf with
      | here hp => exact ⟨nofun, hp, rfl⟩
      | later _ hrest =>
        obtain ⟨d, hd, he⟩ := hrest.exists_mem
        exact absurd he (helse d hd)
    · rintro ⟨-, hp, rfl⟩
      exact .here hp
  | cons first before ih =>
    obtain ⟨q, f⟩ := first
    have ih := ih fun d hd => helse d (List.mem_cons_of_mem _ hd)
    rw [List.forall_mem_cons]
    constructor
    · intro hf
      cases hf with
      | here => exact absurd rfl (helse _ List.mem_cons_self)
      | later hq hrest =>
        obtain ⟨hbefore, hlast⟩ := ih.mp hrest
        exact ⟨⟨hq, hbefore⟩, hlast⟩
    · rintro ⟨⟨hq, hbefore⟩, hlast⟩
      exact .later hq (ih.mpr ⟨hbefore, hlast⟩)

/-- What is made of an answer has the same demands. -/
theorem Settle.map (hs : ds.Settle answer) (f : α → β) : ds.Settle (answer.map f) := by
  refine ⟨Iff.trans ?_ hs.ok_iff, fun e => Iff.trans ?_ (hs.error_iff e)⟩
  · cases answer <;> simp [Except.map]
  · cases answer <;> simp [Except.map]

end Demands

/-! ### Cells of a region -/

namespace Region

theorem boundsCheck_eq_error {r : Region} {offset length : UInt64}
    (hout : ¬ offset.toNat + length.toNat ≤ r.capacity.toNat) :
    r.boundsCheck offset length = .error (.outOfBounds offset length r.capacity) := by
  have hnot : r.boundsCheck offset length ≠ .ok () := mt boundsCheck_eq_ok_iff.mp hout
  unfold boundsCheck at hnot ⊢
  cases hadd : Word.checkedAdd? offset length with
  | none => rfl
  | some last =>
    by_cases hle : last ≤ r.capacity
    · simp [hadd, hle] at hnot
    · simp [hle]

/-- What so many bytes at an offset ask for. -/
theorem boundsCheck_settled (r : Region) (offset length : UInt64) :
    Demands.Settle
      [(offset.toNat + length.toNat ≤ r.capacity.toNat, .outOfBounds offset length r.capacity)]
      (r.boundsCheck offset length) := by
  refine Demands.settle_first (fun hin => ?_) boundsCheck_eq_error
  rw [boundsCheck_eq_ok_iff.mpr hin]
  exact Demands.settle_nil ()

/-- What the cell at an offset asks for. -/
theorem cell_settled (r : Region) (offset : UInt64) :
    Demands.Settle
      [(offset.toNat + 8 ≤ r.capacity.toNat, .outOfBounds offset 8 r.capacity),
        ((r.addressAt offset).toNat % 8 = 0, .misaligned offset 8),
        (r.addressAt offset ≠ 0, .invalidArgument .nullBase)]
      (r.cell offset) := by
  have haligned : r.addressAt offset % valueAlignment = 0 ↔
      (r.addressAt offset).toNat % 8 = 0 := by
    rw [← UInt64.toNat_inj, UInt64.toNat_mod]
    rfl
  unfold cell
  refine Demands.settle_first (fun hin => ?_) fun hout => ?_
  · rw [boundsCheck_eq_ok_iff.mpr hin]
    refine Demands.settle_first (fun ha => ?_) fun hodd => if_pos (mt haligned.mp hodd)
    rw [if_neg (not_not.mpr (haligned.mpr ha))]
    refine Demands.settle_first (fun hz => ?_) fun hz => if_pos (not_not.mp hz)
    rw [if_neg hz]
    exact Demands.settle_nil _
  · rw [boundsCheck_eq_error hout]
    rfl

/-- Alignment is a matter of the base. -/
theorem addressAt_aligned_iff (r : Region) {offset : UInt64} (ho : offset.toNat % 8 = 0) :
    (r.addressAt offset).toNat % 8 = 0 ↔ r.base.toNat % 8 = 0 := by
  rw [addressAt, UInt64.toNat_add]
  omega

/-- What a slot asks of a region. -/
def slotDemands (r : Region) (id : SlotId) : Demands :=
  let offset := 128 * id.toNatClampNeg
  [(0 ≤ id.toInt, .invalidArgument (.noSlotOffset id)),
    (offset + 8 ≤ r.capacity.toNat, .outOfBounds (UInt64.ofNat offset) 8 r.capacity),
    (r.base.toNat % 8 = 0, .misaligned (UInt64.ofNat offset) 8),
    ((r.base.toNat + offset) % UInt64.size ≠ 0, .invalidArgument .nullBase)]

theorem slotCell_settled (r : Region) (id : SlotId) :
    (r.slotDemands id).Settle (r.slotCell id) := by
  unfold slotDemands slotCell
  refine Demands.settle_first (fun hid => ?_) fun hnot => ?_
  · obtain ⟨i, hi⟩ := exists_slotIndex? hid
    have hoffset : (i * slotLength).toNat = 128 * id.toNatClampNeg := by
      rw [toNat_mul_slotLength (slotIndex?_lt hi), slotIndex?_toNat hi]
    have hword : i * slotLength = UInt64.ofNat (128 * id.toNatClampNeg) := by
      rw [← hoffset, UInt64.ofNat_toNat]
    have hmultiple : (i * slotLength).toNat % 8 = 0 := by omega
    have haligned := r.addressAt_aligned_iff hmultiple
    have hnonnull : r.addressAt (i * slotLength) ≠ 0 ↔
        (r.base.toNat + 128 * id.toNatClampNeg) % UInt64.size ≠ 0 := by
      rw [← hoffset, Ne, ← UInt64.toNat_inj, addressAt, UInt64.toNat_add]
      rfl
    have hcell := r.cell_settled (i * slotLength)
    rw [propext haligned, propext hnonnull, hoffset, hword] at hcell
    rw [slotOffset?_of_slotIndex? hi, hword]
    exact hcell
  · have hneg : id < 0 := by
      rw [Int32.lt_iff_toInt_lt, Int32.toInt_zero]
      omega
    have hnone : slotOffset? id = none := by rw [slotOffset?, slotIndex?, if_pos hneg]; rfl
    rw [hnone]

end Region

/-! ### Managers -/

namespace Settings

/-- The bytes of slots that have ids are counted. -/
theorem requiredCapacity?_eq {s : Settings} (hids : s.maxCounters.toNat ≤ maxSlotId) :
    (UInt64.ofNat (128 * s.maxCounters.toNat)).toNat = 128 * s.maxCounters.toNat ∧
      s.requiredCapacity? = some (UInt64.ofNat (128 * s.maxCounters.toNat)) := by
  have hmax : maxSlotId = 2147483647 := rfl
  have hrequired : (s.maxCounters * slotLength).toNat = 128 * s.maxCounters.toNat :=
    toNat_mul_slotLength (by omega)
  rw [← hrequired, UInt64.ofNat_toNat]
  refine ⟨rfl, ?_⟩
  rw [requiredCapacity?, Word.checkedMul?_eq_some_iff, hrequired, Nat.mul_comm]
  rfl

/-- What settings ask for in order to be sound. That the slots' bytes can be
counted is asked in vain: so few slots have ids. -/
theorem check_eq (s : Settings) : s.check =
    if s.maxCounters.toNat < 1 then .error .noCounters
    else if maxSlotId < s.maxCounters.toNat then .error (.beyondIds s.maxCounters)
    else .ok () := by
  have hzero : s.maxCounters = 0 ↔ s.maxCounters.toNat < 1 := by
    rw [← UInt64.toNat_inj, UInt64.toNat_zero, Nat.lt_one_iff]
  unfold check
  simp only [hzero]
  by_cases hids : maxSlotId < s.maxCounters.toNat
  · simp only [hids, if_true]
  · have hsome : s.requiredCapacity?.isNone = false := by
      rw [(requiredCapacity?_eq (Nat.le_of_not_lt hids)).2]
      rfl
    simp only [hids, if_false, hsome, Bool.false_eq_true]

/-- Settings are sound if there is a slot and every slot has an id. -/
theorem check_eq_ok_iff {s : Settings} :
    s.check = .ok () ↔ 1 ≤ s.maxCounters.toNat ∧ s.maxCounters.toNat ≤ maxSlotId := by
  rw [check_eq]
  split
  · simp
    omega
  · split
    · simp
      omega
    · simp
      omega

end Settings

namespace Manager

/-- What a manager asks of its settings and its region. -/
def demands (r : Region) (s : Settings) : Demands :=
  let length := 128 * s.maxCounters.toNat
  [(1 ≤ s.maxCounters.toNat, .invalidSettings .noCounters),
    (s.maxCounters.toNat ≤ maxSlotId, .invalidSettings (.beyondIds s.maxCounters)),
    (length ≤ r.capacity.toNat, .outOfBounds 0 (UInt64.ofNat length) r.capacity),
    (r.base.toNat % 8 = 0, .misaligned 0 8),
    (r.base ≠ 0, .invalidArgument .nullBase)]

theorem make_settled (r : Region) (s : Settings) : (demands r s).Settle (make r s) := by
  unfold demands make
  rw [s.check_eq]
  refine Demands.settle_first (fun hpos => ?_) fun hnot => ?_
  · rw [if_neg (Nat.not_lt.mpr hpos)]
    refine Demands.settle_first (fun hids => ?_) fun hnot => ?_
    · rw [if_neg (Nat.not_lt.mpr hids)]
      obtain ⟨hrequired, hcapacity⟩ := Settings.requiredCapacity?_eq hids
      rw [hcapacity]
      refine Demands.settle_first (fun hfits => ?_) fun hout => ?_
      · have hbounds : r.boundsCheck 0 (UInt64.ofNat (128 * s.maxCounters.toNat)) = .ok () :=
          Region.boundsCheck_eq_ok_iff.mpr (by rw [hrequired, UInt64.toNat_zero]; omega)
        have hcell := (Demands.settle_cons (by rw [UInt64.toNat_zero]; omega)).mp (r.cell_settled 0)
        rw [Region.addressAt, UInt64.add_zero] at hcell
        have hmade := hcell.map fun _ => (⟨r, s.maxCounters, s.quarantine,
          Registry.fresh s.maxCounters.toNat⟩ : Manager)
        simp only [hbounds]
        cases hc : r.cell 0 <;> rw [hc] at hmade <;> exact hmade
      · have hbounds : r.boundsCheck 0 (UInt64.ofNat (128 * s.maxCounters.toNat)) = .error _ :=
          Region.boundsCheck_eq_error (by rw [hrequired, UInt64.toNat_zero]; omega)
        simp only [hbounds]
    · rw [if_pos (Nat.lt_of_not_le hnot)]
  · rw [if_pos (Nat.lt_of_not_le hnot)]

end Manager

/-- **What construction accepts.** On every region, whatever its words are, a
position over a slot is made exactly if the id is not negative, the slot's value
lies inside, the base is aligned and the address, which may wrap, is not zero; a
manager exactly if its slots have ids, lie inside, and begin at an aligned
address that is not zero. The error is that of the first of these that fails.
That alignment is what fails does not depend on the slot. -/
theorem construction_settled (r : Region) (id : SlotId) (reclaimer : Option Reclaimer)
    (s : Settings) :
    (r.slotDemands id).Settle (Position.make r id reclaimer) ∧
    (Manager.demands r s).Settle (Manager.make r s) ∧
    ((∃ offset alignment, Position.make r id reclaimer = .error (.misaligned offset alignment)) ↔
      (0 ≤ id.toInt ∧ 128 * id.toNatClampNeg + 8 ≤ r.capacity.toNat) ∧ r.base.toNat % 8 ≠ 0) := by
  have hslot := r.slotCell_settled id
  have hposition : (r.slotDemands id).Settle (Position.make r id reclaimer) := by
    have hmade := hslot.map fun c => Position.onCell id c reclaimer
    unfold Position.make
    cases hc : r.slotCell id <;> rw [hc] at hmade <;> exact hmade
  refine ⟨hposition, Manager.make_settled r s, ?_⟩
  constructor
  · rintro ⟨offset, alignment, herror⟩
    cases (hposition.error_iff _).mp herror with
    | later hid hrest =>
      cases hrest with
      | later hin hrest =>
        cases hrest with
        | here ha => exact ⟨⟨hid, hin⟩, ha⟩
        | later _ hrest => cases hrest with | later _ hrest => cases hrest
  · rintro ⟨⟨hid, hin⟩, ha⟩
    exact ⟨_, _, (hposition.error_iff _).mpr (.later hid (.later hin (.here ha)))⟩

/-- An address that wraps to zero is refused, though the base is not zero. -/
example : Position.make (.ofSpan 18446744073709551488 256) 1 none =
    .error (.invalidArgument .nullBase) := rfl

end LockFree.Counters
