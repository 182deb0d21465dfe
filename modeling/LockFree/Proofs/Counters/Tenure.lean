/-
# What the close of an owning position ends

A position that owns its slot was made for one allocation of it. If that
allocation is freed by another way and the slot is handed out again, the slot
has a new allocation, which the position was not made for. A position knows the
slot by its id only, so its close is fair (`Host.ClosesFairly`: it ends the
allocation it was made for, or nothing) exactly if it has been closed before,
or that allocation has lasted, or the slot is not allocated at that moment.
-/
import LockFree.Proofs.Counters.Runs

namespace LockFree.Counters

/-! ### Slots by id -/

theorem slotIndex?_toNat {id : SlotId} {i : UInt64} (hi : slotIndex? id = some i) :
    i.toNat = id.toNatClampNeg := by
  unfold slotIndex? at hi
  split at hi
  · cases hi
  · obtain rfl := Option.some.inj hi
    have hlt := id.toNatClampNeg_lt
    exact UInt64.toNat_ofNat_of_lt' (Nat.lt_trans hlt (by decide))

namespace Manager

variable {m : Manager} {id : SlotId} {i : UInt64}

theorem slotIndex?_of_index (hi : m.index id = .ok i) : slotIndex? id = some i := by
  unfold index at hi
  split at hi
  · cases hi
  · rename_i j hj
    split at hi
    · obtain rfl := Except.ok.inj hi
      exact hj
    · cases hi

theorem index_congr {m' : Manager} (hm : m'.maxCounters = m.maxCounters) (id : SlotId) :
    m'.index id = m.index id := by
  unfold index
  rw [hm]

theorem state?_of_slot (hi : slotIndex? id = some i) {s : Slot}
    (hs : m.registry.slot? i.toNat = some s) : m.state? id = some s.state := by
  rw [state?, hi, Option.bind_some, hs]
  rfl

theorem state?_eq (hi : m.index id = .ok i) :
    m.state? id = (m.registry.slot? id.toNatClampNeg).map Slot.state := by
  have hidx := slotIndex?_of_index hi
  rw [state?, hidx, ← slotIndex?_toNat hidx]
  rfl

/-- An allocated slot that is given back is freed. -/
theorem free_allocated (hi : m.index id = .ok i) (ha : m.state? id = some .allocated) (now : Nat) :
    m.free now id = (.freed, { m with registry := m.registry.reclaim id.toNatClampNeg now }) := by
  rw [state?_eq hi] at ha
  obtain ⟨s, hs, hstate⟩ := Option.map_eq_some_iff.mp ha
  simp only [free, hi, slotIndex?_toNat (slotIndex?_of_index hi), hs, if_pos hstate]

/-- Another one is not. -/
theorem free_ignored (hi : m.index id = .ok i) (ha : m.state? id ≠ some .allocated) (now : Nat) :
    ∃ outcome, m.free now id = (outcome, m) ∧ outcome ≠ .freed := by
  rw [state?_eq hi] at ha
  simp only [free, hi, slotIndex?_toNat (slotIndex?_of_index hi)]
  cases hs : m.registry.slot? id.toNatClampNeg with
  | none => exact ⟨.outside, rfl, by decide⟩
  | some s =>
    have hstate : s.state ≠ .allocated := fun he => ha (by rw [hs, Option.map_some, he])
    exact ⟨.unallocated s.state, if_neg hstate, by simp⟩

end Manager

/-- What is seen of each slot but the time of its free. -/
def Registry.shown (r : Registry) : List (SlotState × String × Bool) :=
  r.slots.map fun s => (s.state, s.label, s.owned)

/-- A free shows. -/
theorem Registry.shown_reclaim_ne {r : Registry} {i : Nat} {s : Slot} (hi : r.slot? i = some s)
    (halloc : s.state = .allocated) (now : Nat) : (r.reclaim i now).shown ≠ r.shown := by
  intro he
  have hat := congrArg (fun l => l[i]?) he
  simp only [shown, reclaim, modify_eq_set hi, List.getElem?_map] at hat
  have hset := slot?_set hi (s.reclaimed now) [] i
  rw [if_pos rfl] at hset
  rw [slot?] at hset hi
  rw [hset, hi] at hat
  have hstate := congrArg Prod.fst (Option.some.inj hat)
  have hne : SlotState.reclaimed = .allocated := hstate.trans halloc
  cases hne

namespace Host

/-- The registry of a manager. -/
def registryOf (h : Host) (k : Nat) : Option Registry := h.managers[k]?.map Manager.registry

/-- The slot is allocated now. -/
def Allocated (h : Host) (k : Nat) (id : SlotId) : Prop :=
  (h.managers[k]?.bind fun m => m.state? id) = some .allocated

instance (h : Host) (k : Nat) (id : SlotId) : Decidable (h.Allocated k id) :=
  inferInstanceAs (Decidable (_ = _))

/-- The slot's present allocation lasts through the operations. An allocation
that ends leaves the slot reclaimed until an operation hands it out again, so
none ends if the slot is allocated after each operation. -/
def HeldThrough (h : Host) (k : Nat) (id : SlotId) : (ops : List Op) → Prop
  | [] => h.Allocated k id
  | op :: ops => h.Allocated k id ∧ (h.step op).2.HeldThrough k id ops

instance decidableHeldThrough (h : Host) (k : Nat) (id : SlotId) :
    (ops : List Op) → Decidable (h.HeldThrough k id ops)
  | [] => inferInstanceAs (Decidable (h.Allocated k id))
  | op :: ops =>
    have := decidableHeldThrough (h.step op).2 k id ops
    inferInstanceAs (Decidable (h.Allocated k id ∧ (h.step op).2.HeldThrough k id ops))

/-- The position has been closed. -/
def Shut (h : Host) (p : Nat) : Prop := ∃ q, h.positions[p]? = some q ∧ q.closed = true

/-- The close of position `p`, made for an allocation of a slot of manager `k`
that does or does not still last, ends that allocation or leaves every slot
alone. -/
structure ClosesFairly (h : Host) (k : Nat) (id : SlotId) (p : Nat) (lasts : Prop) : Prop where
  own : (h.step (.close p)).2.registryOf k ≠ h.registryOf k →
    lasts ∧ h.Allocated k id ∧ (h.step (.close p)).2.registryOf k =
      (h.registryOf k).map fun r => r.reclaim id.toNatClampNeg h.clock
  stale : ¬ lasts →
    ((h.step (.close p)).2.registryOf k).map Registry.shown = (h.registryOf k).map Registry.shown

/-! ### Positions and managers in a run -/

/-- A position stays what it is until it is closed. -/
theorem exists_position_run {h : Host} {p : Nat} {q : Position} (hp : h.positions[p]? = some q)
    (ops : List Op) : ∃ q', (h.run ops).positions[p]? = some q' ∧ (q' = q ∨ q' = q.close) := by
  induction ops generalizing h q with
  | nil => exact ⟨q, hp, Or.inl rfl⟩
  | cons op ops ih =>
    obtain ⟨d, hd⟩ := h.step_does op
    obtain ⟨q₁, hp₁, hq₁⟩ := hd.positions.getElem? hp
    obtain ⟨q', hp', hq'⟩ := ih hp₁
    refine ⟨q', hp', ?_⟩
    rcases hq₁ with rfl | rfl
    · exact hq'
    · rcases hq' with rfl | rfl
      · exact Or.inr rfl
      · exact Or.inr rfl

/-- So does a manager, but for its registry. -/
theorem exists_alike_run {h : Host} {k : Nat} {m : Manager} (hk : h.managers[k]? = some m)
    (ops : List Op) : ∃ m', (h.run ops).managers[k]? = some m' ∧ m.Alike m' := by
  induction ops generalizing h m with
  | nil => exact ⟨m, hk, .refl m⟩
  | cons op ops ih =>
    obtain ⟨a, m₁, hk₁, hf⟩ := h.exists_follows op hk
    obtain ⟨m', hk', hm'⟩ := ih hk₁
    exact ⟨m', hk', hf.alike.trans hm'⟩

theorem exists_manager_run {h : Host} {k : Nat} {m : Manager} (hk : h.managers[k]? = some m)
    (ops : List Op) :
    ∃ m', (h.run ops).managers[k]? = some m' ∧ m'.maxCounters = m.maxCounters := by
  obtain ⟨m', hk', hm'⟩ := exists_alike_run hk ops
  exact ⟨m', hk', hm'.maxCounters⟩

theorem Allocated.exists_slot {h : Host} {k : Nat} {id : SlotId} (ha : h.Allocated k id) :
    ∃ m i s, h.managers[k]? = some m ∧ slotIndex? id = some i ∧
      m.registry.slot? i.toNat = some s ∧ s.state = .allocated := by
  obtain ⟨m, hk, hm⟩ := Option.bind_eq_some_iff.mp ha
  obtain ⟨i, hi, hslot⟩ := Option.bind_eq_some_iff.mp hm
  obtain ⟨s, hs, hstate⟩ := Option.map_eq_some_iff.mp hslot
  exact ⟨m, i, s, hk, hi, hs, hstate⟩

theorem allocated_iff {h : Host} {k : Nat} {m : Manager} (hk : h.managers[k]? = some m)
    {id : SlotId} : h.Allocated k id ↔ m.state? id = some .allocated := by
  rw [Allocated, hk]
  rfl

theorem not_allocated_of_none {h : Host} {k : Nat} (hk : h.managers[k]? = none) (id : SlotId) :
    ¬ h.Allocated k id := by
  rw [Allocated, hk]
  exact nofun

/-! ### The close -/

/-- An owner is a position that gives its slot back to the manager. -/
theorem exists_owner {h₀ h : Host} {k p : Nat} {id : SlotId}
    (hown : h₀.own k id = (.ok (.made p), h)) :
    ∃ m i cell, h.managers[k]? = some m ∧ m.index id = .ok i ∧
      h.positions[p]? = some (.onCell id cell (some (.manager k))) := by
  obtain ⟨m, m', cell, hk, hm, hc, rfl, rfl⟩ := own_eq_made hown
  cases hm with
  | own hi hslot halloc hfree =>
    have hlt : k < h₀.managers.length := (List.getElem?_eq_some_iff.mp hk).1
    exact ⟨_, _, cell, List.getElem?_set_self hlt, hi, List.getElem?_concat_length⟩

/-- A manager that is given a slot frees it if it is allocated. -/
theorem release_registryOf {h : Host} {k : Nat} {m : Manager} {id : SlotId} {i : UInt64}
    (hk : h.managers[k]? = some m) (hi : m.index id = .ok i) :
    (h.release k id).registryOf k =
      if h.Allocated k id then (h.registryOf k).map fun r => r.reclaim id.toNatClampNeg h.clock
      else h.registryOf k := by
  have hlt : k < h.managers.length := (List.getElem?_eq_some_iff.mp hk).1
  have hall : h.Allocated k id ↔ m.state? id = some .allocated := allocated_iff hk
  by_cases ha : m.state? id = some .allocated
  · rw [if_pos (hall.mpr ha)]
    simp only [release, hk, Manager.free_allocated hi ha, registryOf, emit,
      List.getElem?_set_self hlt, Option.map_some]
  · rw [if_neg fun h => ha (hall.mp h)]
    obtain ⟨outcome, hfree, hne⟩ := Manager.free_ignored hi ha h.clock
    simp only [release, hk, hfree]
    cases outcome with
    | freed => exact absurd rfl hne
    | outside => rfl
    | unallocated state => rfl

/-- The first close of an owner gives the slot back, whichever allocation it
has by then. -/
theorem close_registryOf {h : Host} {k p : Nat} {m : Manager} {id : SlotId} {i : UInt64}
    {cell : Cell} (hk : h.managers[k]? = some m) (hi : m.index id = .ok i)
    (hp : h.positions[p]? = some (.onCell id cell (some (.manager k)))) :
    (h.step (.close p)).2.registryOf k =
      if h.Allocated k id then (h.registryOf k).map fun r => r.reclaim id.toNatClampNeg h.clock
      else h.registryOf k := by
  have hlt : p < h.positions.length := (List.getElem?_eq_some_iff.mp hp).1
  have hstep : (h.step (.close p)).2 = h.shut p := by
    simp only [step, close, if_pos hlt]
  rw [hstep]
  simp only [shut, hp]
  exact release_registryOf (h := { h with positions := _ }) hk hi

/-- Later closes do nothing. -/
theorem close_again {h : Host} {p : Nat} (hp : h.Shut p) : (h.step (.close p)).2 = h := by
  obtain ⟨q, hq, hc⟩ := hp
  rw [step_close_shut hq hc]

/-- The exact condition under which the close of an owner is fair, after any
operations since it was made. -/
theorem closesFairly_iff {h₀ h : Host} {k p : Nat} {id : SlotId}
    (hown : h₀.own k id = (.ok (.made p), h)) (during : List Op) :
    (h.run during).ClosesFairly k id p (h.HeldThrough k id during) ↔
      (h.run during).Shut p ∨ h.HeldThrough k id during ∨ ¬ (h.run during).Allocated k id := by
  obtain ⟨m, i, cell, hk, hi, hp⟩ := exists_owner hown
  obtain ⟨m', hk', hm'⟩ := exists_manager_run hk during
  obtain ⟨q, hq, hopen | hshut⟩ := exists_position_run hp during
  · subst hopen
    have hi' := (Manager.index_congr hm' id).trans hi
    have hclose := close_registryOf hk' hi' hq
    have hnot : ¬ (h.run during).Shut p := by
      rintro ⟨q, hq', hc⟩
      obtain rfl := Option.some.inj (hq.symm.trans hq')
      cases hc
    by_cases ha : (h.run during).Allocated k id
    · rw [if_pos ha] at hclose
      constructor
      · intro hfair
        refine Or.inr (Or.inl (by_contra fun hended => ?_))
        have hshown := hfair.stale hended
        rw [hclose, registryOf, hk'] at hshown
        rw [Allocated, hk', Option.bind_some, Manager.state?_eq hi'] at ha
        obtain ⟨s, hs, halloc⟩ := Option.map_eq_some_iff.mp ha
        exact Registry.shown_reclaim_ne hs halloc _ (Option.some.inj hshown)
      · rintro (hs | hheld | hna)
        · exact absurd hs hnot
        · exact ⟨fun _ => ⟨hheld, ha, hclose⟩, fun hended => absurd hheld hended⟩
        · exact absurd ha hna
    · rw [if_neg ha] at hclose
      refine iff_of_true ⟨fun hne => absurd hclose hne, fun _ => ?_⟩ (Or.inr (Or.inr ha))
      rw [hclose]
  · have hs : (h.run during).Shut p := ⟨q, hq, hshut ▸ rfl⟩
    have hclose := close_again hs
    refine iff_of_true ⟨fun hne => ?_, fun _ => ?_⟩ (Or.inl hs)
    · rw [hclose] at hne
      exact absurd rfl hne
    · rw [hclose]

/-- A manager of one slot, which is handed out and has an owner. -/
def ownedOnce : Host :=
  run {} [.manage ⟨128, 128, 0, 0⟩ ⟨1, 0⟩, .allocate 0 "a", .own 0 0]

/-- While nothing but time has passed, the close of the owner is fair. -/
theorem closesFairly_after_wait :
    (run {} [.manage ⟨128, 128, 0, 0⟩ ⟨1, 0⟩, .allocate 0 "a"]).own 0 0 =
        (.ok (.made 0), ownedOnce) ∧
      (ownedOnce.run [.wait 5]).ClosesFairly 0 0 0 (ownedOnce.HeldThrough 0 0 [.wait 5]) := by
  have hown : (run {} [.manage ⟨128, 128, 0, 0⟩ ⟨1, 0⟩, .allocate 0 "a"]).own 0 0 =
      (.ok (.made 0), ownedOnce) := rfl
  have hheld : ownedOnce.HeldThrough 0 0 [.wait 5] := by decide
  exact ⟨hown, (closesFairly_iff hown [.wait 5]).mpr (Or.inr (Or.inl hheld))⟩

/-- When the slot was freed and handed out again, it is not: the close ends
the new allocation. -/
theorem stale_close_ends_new_allocation :
    (run {} [.manage ⟨128, 128, 0, 0⟩ ⟨1, 0⟩, .allocate 0 "a"]).own 0 0 =
        (.ok (.made 0), ownedOnce) ∧
      (ownedOnce.run [.free 0 0, .allocate 0 "b"]).registryOf 0 = some ⟨[.granted "b"], []⟩ ∧
      (ownedOnce.run [.free 0 0, .allocate 0 "b", .close 0]).registryOf 0 =
        some ⟨[(Slot.granted "b").reclaimed 0], [0]⟩ ∧
      ¬ (ownedOnce.run [.free 0 0, .allocate 0 "b"]).ClosesFairly 0 0 0
        (ownedOnce.HeldThrough 0 0 [.free 0 0, .allocate 0 "b"]) := by
  have hended : ¬ ownedOnce.HeldThrough 0 0 [.free 0 0, .allocate 0 "b"] := by decide
  exact ⟨rfl, by decide, by decide, fun hfair => absurd (hfair.stale hended) (by decide)⟩

end Host
end LockFree.Counters
