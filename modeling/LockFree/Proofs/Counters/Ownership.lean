/-
# The owned mark and the live owner

Whether a slot has an owner is kept in two places: as a mark in the slot's
record, which is set when an owner is made and taken off when the slot is freed
or handed out again, and as a position somewhere outside, which is open or
closed. The manager looks only at the mark.

If slots of a manager come back only when their owners are closed, so that
nobody else calls its free, the two agree: the mark is there exactly while one
open position exists that was made as the slot's owner (`Host.liveOwners`).
Then to make an owner fails for no hidden reason, and no close of an owner is
ever ignored.

Key definitions: `Host.liveOwners`, `Op.isOrderly`, `Host.Mirrored`.
Key theorems: `Host.owned_step`, `Host.liveOwners_length`,
`Host.owned_mirrors_live_owner`.
-/
import LockFree.Proofs.Counters.Lifecycle
import LockFree.Proofs.Counters.Resolution

namespace LockFree.Counters

/-! ### The mark in a registry -/

namespace Registry

variable {r : Registry} {n frontier now : Nat}

/-- Slot `i` is marked as owned. -/
def Owned (r : Registry) (i : Nat) : Prop := ∃ s, r.slot? i = some s ∧ s.owned = true

theorem owned_set {i : Nat} {s : Slot} (hi : r.slot? i = some s) (s' : Slot) (queue : List Nat)
    (j : Nat) :
    Owned ⟨r.slots.set i s', queue⟩ j ↔ if j = i then s'.owned = true else r.Owned j := by
  unfold Owned
  rw [slot?_set hi]
  split
  · simp
  · rfl

/-- A slot that is handed out was not owned and is not. -/
theorem Sound.owned_grant (hs : r.Sound n frontier now) {quarantine i : Nat} {rest : Registry}
    (hnext : r.next? now quarantine = some (i, rest)) (label : String) (j : Nat) :
    (rest.grant i label).Owned j ↔ r.Owned j := by
  obtain ⟨hslots, s, hslot, hstate⟩ := hs.next?_slot hnext
  rw [Registry.grant, hslots, owned_set hslot]
  split
  · rename_i he
    subst he
    have hfree : ¬ r.Owned j := by
      rintro ⟨t, ht, howned⟩
      obtain rfl := Option.some.inj (hslot.symm.trans ht)
      exact hstate ((hs.slots j s hslot).owned howned)
    exact iff_of_false Bool.false_ne_true hfree
  · rfl

theorem owned_reclaim {i : Nat} {s : Slot} (hi : r.slot? i = some s) (now j : Nat) :
    (r.reclaim i now).Owned j ↔ r.Owned j ∧ j ≠ i := by
  rw [reclaim, modify_eq_set hi, owned_set hi]
  by_cases he : j = i
  · simp [he, Slot.reclaimed]
  · simp [he]

theorem owned_own {i : Nat} {s : Slot} (hi : r.slot? i = some s) (j : Nat) :
    (r.own i).Owned j ↔ r.Owned j ∨ j = i := by
  rw [own, modify_eq_set hi, owned_set hi]
  by_cases he : j = i <;> simp [he]

end Registry

/-! ### The mark of a slot by its id -/

/-- Two ids of one slot are the same. -/
theorem slotIndex?_inj {id id' : SlotId} {i j : UInt64} (hi : slotIndex? id = some i)
    (hj : slotIndex? id' = some j) : i.toNat = j.toNat ↔ id = id' := by
  constructor
  · intro he
    rw [← ofNat_toNat_of_slotIndex? hi, ← ofNat_toNat_of_slotIndex? hj, he]
  · rintro rfl
    rw [Option.some.inj (hi.symm.trans hj)]

namespace Manager

variable {m : Manager} {id : SlotId}

theorem owned?_iff : m.owned? id = some true ↔
    ∃ i, slotIndex? id = some i ∧ m.registry.Owned i.toNat := by
  unfold owned? Registry.Owned
  cases slotIndex? id with
  | none => simp
  | some i => simp

/-- An owned slot is one of the manager's, and allocated. -/
theorem owned?_slot {frontier now : Nat} (hs : m.registry.Sound m.maxCounters.toNat frontier now)
    (ho : m.owned? id = some true) :
    ∃ i s, m.index id = .ok i ∧ m.registry.slot? i.toNat = some s ∧ s.state = .allocated := by
  obtain ⟨i, hi, s, hslot, howned⟩ := owned?_iff.mp ho
  have hindex : m.index id = .ok i := index_eq_ok_iff.mpr ⟨hi, hs.slot?_lt hslot⟩
  exact ⟨i, s, hindex, hslot, (hs.slots _ s hslot).owned howned⟩

/-- A change at one slot does not show at another. -/
theorem owned?_of_ne {r : Registry} {id' : SlotId} {i : UInt64} (hi : slotIndex? id' = some i)
    (hne : id ≠ id') (hr : ∀ j, j ≠ i.toNat → (r.Owned j ↔ m.registry.Owned j)) :
    owned? { m with registry := r } id = some true ↔ m.owned? id = some true := by
  rw [owned?_iff, owned?_iff]
  refine exists_congr fun j => and_congr_right fun hj => hr _ fun he => ?_
  exact hne ((slotIndex?_inj hj hi).mp he)

theorem owned?_reclaim {id' : SlotId} {i : UInt64} {s : Slot} (hi : slotIndex? id' = some i)
    (hs : m.registry.slot? i.toNat = some s) (now : Nat) :
    owned? { m with registry := m.registry.reclaim i.toNat now } id = some true ↔
      m.owned? id = some true ∧ id ≠ id' := by
  by_cases he : id = id'
  · subst he
    rw [owned?_iff, hi]
    simp [Registry.owned_reclaim hs]
  · rw [owned?_of_ne hi he fun j hj => by simp [Registry.owned_reclaim hs, hj]]
    exact (and_iff_left he).symm

theorem owned?_own {id' : SlotId} {i : UInt64} {s : Slot} (hi : slotIndex? id' = some i)
    (hs : m.registry.slot? i.toNat = some s) :
    owned? { m with registry := m.registry.own i.toNat } id = some true ↔
      m.owned? id = some true ∨ id = id' := by
  by_cases he : id = id'
  · subst he
    rw [owned?_iff, hi]
    simp [Registry.owned_own hs]
  · rw [owned?_of_ne hi he fun j hj => by simp [Registry.owned_own hs, hj]]
    exact (or_iff_left he).symm

/-- A mark is set when a slot gets an owner, and taken off by a free of the
slot. -/
theorem Follows.mark_iff {m' : Manager} {frontier now : Nat} {a : Option Action}
    (hf : m.Follows now a m') (hs : m.registry.Sound m.maxCounters.toNat frontier now) :
    m'.owned? id = some true ↔
      (m.owned? id = some true ∧ ∀ outcome, a ≠ some (.free id outcome)) ∨ a = some (.own id) := by
  -- A free that leaves its slot alone is of a slot that is not allocated, so not owned.
  have hignored : ∀ {id'} {outcome : FreeOutcome}, m.owned? id' ≠ some true →
      (m.owned? id = some true ↔ (m.owned? id = some true ∧
        ∀ outcome', some (Action.free id' outcome) ≠ some (.free id outcome')) ∨
          some (Action.free id' outcome) = some (.own id)) := by
    intro id' outcome hnot
    rw [or_iff_left (by simp)]
    refine (and_iff_left_of_imp fun ho outcome' he => ?_).symm
    obtain ⟨rfl, -⟩ := Action.free.inj (Option.some.inj he)
    exact hnot ho
  cases hf with
  | same => simp
  | @grant i rest label hnext =>
    have hgranted : owned? { m with registry := rest.grant i label } id = some true ↔
        m.owned? id = some true := by
      rw [owned?_iff, owned?_iff]
      exact exists_congr fun j => and_congr_right fun _ => hs.owned_grant hnext label j.toNat
    rw [hgranted]
    simp
  | @own id' i s hi hslot halloc hfree =>
    rw [owned?_own (slotIndex?_of_index hi) hslot]
    simp [eq_comm]
  | @freed id' i s hi hslot halloc =>
    rw [owned?_reclaim (slotIndex?_of_index hi) hslot]
    simp [eq_comm]
  | outside hno =>
    refine hignored fun ho => ?_
    obtain ⟨i, s, hi, hslot, -⟩ := owned?_slot hs ho
    cases (hno i hi).symm.trans hslot
  | unallocated hi hslot hstate =>
    refine hignored fun ho => ?_
    obtain ⟨j, t, hj, ht, halloc⟩ := owned?_slot hs ho
    obtain rfl := Except.ok.inj (hi.symm.trans hj)
    obtain rfl := Option.some.inj (hslot.symm.trans ht)
    exact hstate halloc

/-- An owner is made only of a slot that is not marked. -/
theorem Follows.not_owned {m' : Manager} {now : Nat} (hf : m.Follows now (some (.own id)) m') :
    m.owned? id ≠ some true := by
  intro ho
  cases hf with
  | own hi hslot halloc hfree =>
    obtain ⟨j, hj, t, ht, howned⟩ := owned?_iff.mp ho
    obtain rfl := Option.some.inj ((slotIndex?_of_index hi).symm.trans hj)
    obtain rfl := Option.some.inj (hslot.symm.trans ht)
    exact Bool.false_ne_true (hfree.symm.trans howned)

end Manager

/-! ### The mark in a host -/

namespace Host

/-- The position that an operation makes as the owner of a slot of manager
`k`. -/
def owner? (k : Nat) (id : SlotId) (h : Host) (op : Op) : Option Nat :=
  match op, (h.step op).1 with
  | .own j id', .ok (.made p) => if j = k ∧ id' = id then some p else none
  | _, _ => none

/-- The free that an operation comes to, directly or through a position. -/
def frees? (h : Host) (op : Op) : Option (Nat × SlotId) :=
  match op, h.calls? op with
  | .free k id, _ => some (k, id)
  | _, some (.manager k, id) => some (k, id)
  | _, _ => none

variable {h : Host} {k : Nat} {m : Manager} {id : SlotId}

theorem owned_iff (hk : h.managers[k]? = some m) : h.Owned k id ↔ m.owned? id = some true := by
  rw [Owned, hk]
  rfl

/-- No slot of a manager that is not there, or is new, is owned. -/
theorem not_owned_of_none (hk : h.managers[k]? = none) : ¬ h.Owned k id := by
  rw [Owned, hk]
  intro h
  cases h

theorem not_owned_of_make {region : Region} {settings : Settings}
    (hm : Manager.make region settings = .ok m) : m.owned? id ≠ some true := by
  intro ho
  obtain ⟨i, -, s, hslot, howned⟩ := Manager.owned?_iff.mp ho
  rw [Manager.make_registry hm] at hslot
  obtain rfl := List.eq_of_mem_replicate (List.mem_of_getElem? hslot)
  cases howned

variable {op : Op} {d : Option (Nat × Manager.Action)}

/-- To give a slot back makes no owner. -/
theorem GivesBack.not_own {h' : Host} {id' : SlotId} {reclaimer : Option Reclaimer}
    (hb : h.GivesBack id' reclaimer d h') : d ≠ some (k, .own id) := by
  cases hb <;> simp

/-- It is a free of a slot of the manager that is the reclaimer. -/
theorem GivesBack.free_iff {h' : Host} {id' : SlotId} {reclaimer : Option Reclaimer}
    (hb : h.GivesBack id' reclaimer d h') (hk : k < h.managers.length) :
    (∃ outcome, d = some (k, .free id outcome)) ↔ reclaimer = some (.manager k) ∧ id' = id := by
  cases hb with
  | @absent j hj =>
    refine iff_of_false (by simp) ?_
    rintro ⟨he, -⟩
    obtain rfl := Reclaimer.manager.inj (Option.some.inj he)
    exact Nat.not_le_of_lt hk (List.getElem?_eq_none_iff.mp hj)
  | _ => simp

/-- An operation makes an owner of a slot if that is what it does to the
manager. -/
theorem Does.owner?_iff (hd : h.Does op d (h.step op)) :
    (∃ p, h.owner? k id op = some p) ↔ d = some (k, .own id) := by
  unfold owner?
  generalize h.step op = o at hd ⊢
  cases hd with
  | fails f hop => cases op <;> simp
  | bytes hb => cases hb <;> simp
  | own hk hm hc => simp [addPosition]
  | free hlt hback => simp [hback.not_own]
  | close hp hopen hback => simp [hback.not_own]
  | _ => simp

theorem frees?_eq_none (hop : op.isReturn = false) : h.frees? op = none := by
  cases op with
  | free j id => cases hop
  | close p => cases hop
  | _ => rfl

/-- It comes to a free of a slot if that is what it does. -/
theorem Does.frees?_iff {o : Outcome} (hd : h.Does op d o) (hk : k < h.managers.length) :
    h.frees? op = some (k, id) ↔ ∃ outcome, d = some (k, .free id outcome) := by
  cases hd with
  | fails f hop => simp [frees?_eq_none hop]
  | bytes hb => cases hb <;> simp [frees?, calls?, shuts?]
  | @freeNone j id' hj =>
    have hne : j ≠ k := by
      rintro rfl
      exact Nat.not_le_of_lt hk (List.getElem?_eq_none_iff.mp hj)
    simp [frees?, hne]
  | free hlt hback =>
    rw [hback.free_iff hk]
    simp [frees?]
  | closeNone hp => simp [frees?, calls?_eq_none (shuts?_of_none hp)]
  | again hp hclosed => simp [frees?, calls?_eq_none (shuts?_of_closed hp hclosed)]
  | @close p q d h' hp hopen hback =>
    refine Iff.trans ?_ (hback.free_iff hk).symm
    simp only [frees?, calls?, shuts?_of_open hp hopen, Option.bind_some, Construction.call?]
    rcases q.reclaimer with _ | (j | j) <;> simp
  | _ => simp [frees?, calls?, shuts?]

/-- A mark is set by the making of an owner and taken off by a free. -/
theorem owned_step (hs : h.Sound) (k : Nat) (id : SlotId) (op : Op) :
    (h.step op).2.Owned k id ↔
      (h.Owned k id ∧ h.frees? op ≠ some (k, id)) ∨ ∃ p, h.owner? k id op = some p := by
  obtain ⟨d, hd⟩ := h.step_does op
  rw [hd.owner?_iff]
  cases hk : h.managers[k]? with
  | none =>
    have hnew : ¬ (h.step op).2.Owned k id := by
      cases hk' : (h.step op).2.managers[k]? with
      | none => exact not_owned_of_none hk'
      | some m =>
        obtain ⟨region, settings, -, hmake⟩ := hd.managers.fresh hk hk'
        rw [owned_iff hk']
        exact not_owned_of_make hmake
    have hnothing : d ≠ some (k, .own id) := by
      rintro rfl
      obtain ⟨m, -, hk', -⟩ := hd.managers.exists_follows
      cases hk.symm.trans hk'
    exact iff_of_false hnew (by simp [not_owned_of_none hk, hnothing])
  | some m =>
    obtain ⟨frontier, hserves⟩ := hs k m hk
    obtain ⟨m', hk', hf⟩ := hd.managers.getElem? hk
    have hfrees : h.frees? op = some (k, id) ↔ ∃ outcome, d = some (k, .free id outcome) :=
      hd.frees?_iff (List.getElem?_eq_some_iff.mp hk).1
    rw [owned_iff hk', owned_iff hk, hf.mark_iff hserves.sound, ne_eq, hfrees]
    simp only [onto_eq_some_iff, ne_eq, not_exists]

theorem not_owned_of_owner? {p : Nat} (hp : h.owner? k id op = some p) : ¬ h.Owned k id := by
  obtain ⟨d, hd⟩ := h.step_does op
  obtain rfl := hd.owner?_iff.mp ⟨p, hp⟩
  obtain ⟨m, m', hk, hf⟩ := hd.managers.exists_follows
  rw [owned_iff hk]
  exact hf.not_owned

/-! ### Owners in a run -/

/-- The positions that were made as owners of a slot of manager `k`. -/
def owners (ops : List Op) (k : Nat) (id : SlotId) : List Nat := collect (owner? k id) {} ops

/-- Those of them that have not been closed. -/
def liveOwners (ops : List Op) (k : Nat) (id : SlotId) : List Nat :=
  (owners ops k id).filter fun p => p ∉ closings ops

/-- The operation neither calls manager `k`'s free nor makes a position, other
than an owner, that would. -/
def Op.isOrderly (k : Nat) : Op → Bool
  | .free j _ => j ≠ k
  | .place _ _ (some (.manager j)) => j ≠ k
  | _ => true

/-- What is made as an owner is a position that gives the slot back. -/
theorem owner?_eq_some {op : Op} {p : Nat} (hp : h.owner? k id op = some p) :
    h.built? op = some ⟨id, some (.manager k)⟩ ∧ p = h.positions.length ∧
      h.closed? op = none := by
  cases op with
  | own j id' =>
    unfold owner? at hp
    split at hp
    · rename_i q heq hmade
      obtain ⟨rfl, rfl⟩ := Op.own.inj heq
      split at hp
      · rename_i he
        obtain ⟨rfl, rfl⟩ := he
        obtain rfl := Option.some.inj hp
        have hbuilt : h.built? (.own j id') = some ⟨id', some (.manager j)⟩ := by
          unfold built?
          rw [hmade]
          rfl
        have hnumber := (answer_of_built hbuilt).symm.trans hmade
        exact ⟨hbuilt, (Result.made.inj (Except.ok.inj hnumber)).symm, rfl⟩
      · cases hp
    · cases hp
  | _ => cases hp

/-- In an orderly run there is no other position that gives the slot back. -/
theorem owner?_of_built {op : Op} (hop : op.isOrderly k = true)
    (hb : h.built? op = some ⟨id, some (.manager k)⟩) :
    h.owner? k id op = some h.positions.length := by
  have hmade := answer_of_built hb
  unfold built? at hb
  rw [hmade] at hb
  cases op with
  | own j id' =>
    obtain ⟨rfl, hk⟩ := Construction.mk.inj (Option.some.inj hb)
    obtain rfl := Reclaimer.manager.inj (Option.some.inj hk)
    simp only [owner?, hmade, and_self, if_true]
  | watch j id' => cases hb
  | place region id' reclaimer =>
    obtain ⟨rfl, rfl⟩ := Construction.mk.inj (Option.some.inj hb)
    simp [Op.isOrderly] at hop
  | _ => cases hb

theorem mem_owners_iff {ops : List Op} (hops : ∀ op ∈ ops, op.isOrderly k = true) {p : Nat} :
    p ∈ owners ops k id ↔ (constructions ops)[p]? = some ⟨id, some (.manager k)⟩ := by
  induction ops using List.reverseRecOn with
  | nil => exact iff_of_false (by simp [owners, collect]) (by simp [constructions, collect])
  | append_singleton ops op ih =>
    have hop := hops op (by simp)
    have ih := ih fun op' hop' => hops op' (List.mem_append_left [op] hop')
    have hlength := (standing_run ops).length
    rw [owners, collect_concat, List.mem_append, ← owners, ih, constructions_concat,
      List.getElem?_append]
    by_cases hlt : p < (constructions ops).length
    · rw [if_pos hlt]
      refine or_iff_left fun hnew => ?_
      obtain ⟨-, rfl, -⟩ := owner?_eq_some (Option.mem_toList.mp hnew)
      omega
    · have hold : (constructions ops)[p]? = none := List.getElem?_eq_none (Nat.le_of_not_lt hlt)
      rw [if_neg hlt, hold, or_iff_right fun hp => by cases hp]
      constructor
      · intro hnew
        obtain ⟨hb, rfl, -⟩ := owner?_eq_some (Option.mem_toList.mp hnew)
        rw [hb, hlength, Nat.sub_self]
        rfl
      · intro hb
        cases hbuilt : (run {} ops).built? op with
        | none =>
          rw [hbuilt] at hb
          cases hb
        | some b =>
          rw [hbuilt, Option.toList_some, List.getElem?_singleton] at hb
          split at hb
          · rename_i hzero
            obtain rfl := Option.some.inj hb
            have hp : p = (run {} ops).positions.length := by omega
            rw [owner?_of_built hop hbuilt, hp]
            exact List.mem_singleton.mpr rfl
          · cases hb

theorem liveOwners_concat (ops : List Op) (op : Op) :
    liveOwners (ops ++ [op]) k id =
      ((liveOwners ops k id).filter fun p => (run {} ops).closed? op ≠ some p) ++
        ((run {} ops).owner? k id op).toList := by
  have hs := standing_run ops
  have hnew : ((run {} ops).owner? k id op).toList.filter (fun p => p ∉ closings (ops ++ [op])) =
      ((run {} ops).owner? k id op).toList := by
    cases hp : (run {} ops).owner? k id op with
    | none => rfl
    | some p =>
      obtain ⟨-, rfl, hclosed⟩ := owner?_eq_some hp
      have hnot : (run {} ops).positions.length ∉ closings ops := fun hmem =>
        absurd (hs.shut_lt _ hmem) (by rw [hs.length]; exact Nat.lt_irrefl _)
      simp [mem_closings_concat, hclosed, hnot]
  have hold : (owners ops k id).filter (fun p => p ∉ closings (ops ++ [op])) =
      (liveOwners ops k id).filter fun p => (run {} ops).closed? op ≠ some p := by
    rw [liveOwners, List.filter_filter]
    refine List.filter_congr fun p _ => ?_
    simp [mem_closings_concat, Bool.and_comm]
  rw [liveOwners, owners, collect_concat, List.filter_append, hnew, ← owners, hold]

/-- A live owner is open, and its close gives its slot back. -/
theorem position_of_live {ops : List Op} (hops : ∀ op ∈ ops, op.isOrderly k = true) {p : Nat}
    (hp : p ∈ liveOwners ops k id) :
    ∃ cell, (run {} ops).positions[p]? =
      some (Construction.position ⟨id, some (.manager k)⟩ cell false) := by
  obtain ⟨howner, hopen⟩ := List.mem_filter.mp hp
  obtain ⟨cell, hpos⟩ := (standing_run ops).entry p _ ((mem_owners_iff hops).mp howner)
  rw [decide_eq_false (of_decide_eq_true hopen)] at hpos
  exact ⟨cell, hpos⟩

/-- A close comes to a free of the slot exactly if it is of a live owner. -/
theorem frees?_iff_live {ops : List Op} (hops : ∀ op ∈ ops, op.isOrderly k = true) (id : SlotId)
    {op : Op} (hop : op.isOrderly k = true) :
    (run {} ops).frees? op = some (k, id) ↔
      ∃ p ∈ liveOwners ops k id, (run {} ops).closed? op = some p := by
  have hs := standing_run ops
  cases op with
  | free j id' =>
    refine iff_of_false (fun he => ?_) (by simp [closed?])
    obtain ⟨rfl, -⟩ := Prod.mk.inj (Option.some.inj he)
    simp [Op.isOrderly] at hop
  | close p =>
    have hcall : (run {} ops).frees? (.close p) = some (k, id) ↔
        (run {} ops).shuts? (.close p) = some ⟨id, some (.manager k)⟩ := by
      simp only [frees?, calls?]
      cases (run {} ops).shuts? (.close p) with
      | none => simp
      | some b =>
        obtain ⟨id', reclaimer⟩ := b
        cases reclaimer with
        | none => simp [Construction.call?]
        | some r => cases r <;> simp [Construction.call?, and_comm]
    rw [hcall, hs.shuts?_eq]
    simp only [Option.bind_eq_some_iff, Option.filter_eq_some_iff, decide_eq_true_eq, liveOwners,
      List.mem_filter, mem_owners_iff hops]
    constructor
    · rintro ⟨q, ⟨hclosed, hopen⟩, hb⟩
      exact ⟨q, ⟨hb, hopen⟩, hclosed⟩
    · rintro ⟨q, ⟨hb, hopen⟩, hclosed⟩
      exact ⟨q, ⟨hclosed, hopen⟩, hb⟩
  | _ => exact iff_of_false (by simp [frees?, calls?, shuts?]) (by simp [closed?])

/-- There is one live owner while the slot is marked, and none otherwise. -/
theorem liveOwners_length {ops : List Op} (hops : ∀ op ∈ ops, op.isOrderly k = true)
    (id : SlotId) :
    (liveOwners ops k id).length = if (run {} ops).Owned k id then 1 else 0 := by
  induction ops using List.reverseRecOn with
  | nil => rfl
  | append_singleton ops op ih =>
    have hop := hops op (by simp)
    have hops := fun op' hop' => hops op' (List.mem_append_left [op] hop')
    have ih := ih hops
    have hsound : (run {} ops).Sound := Sound.run (fun k m hk => by cases hk) ops
    have hmark := owned_step hsound k id op
    have hfrees := frees?_iff_live hops id hop
    rw [run_concat, liveOwners_concat, List.length_append]
    cases hnew : (run {} ops).owner? k id op with
    | some p =>
      obtain ⟨-, -, hclosed⟩ := owner?_eq_some hnew
      have hafter := hmark.mpr (Or.inr ⟨p, hnew⟩)
      rw [if_neg (not_owned_of_owner? hnew)] at ih
      rw [if_pos hafter, List.eq_nil_of_length_eq_zero ih]
      rfl
    | none =>
      rw [Option.toList_none, List.length_nil, Nat.add_zero]
      have hmark' := hmark.trans (or_iff_left (by simp [hnew]))
      by_cases hgiven : (run {} ops).frees? op = some (k, id)
      · -- The close is of the only live owner.
        obtain ⟨p, hp, hclosed⟩ := hfrees.mp hgiven
        have hafter : ¬ ((run {} ops).step op).2.Owned k id := fun ho => (hmark'.mp ho).2 hgiven
        rw [if_neg hafter]
        have hone : (liveOwners ops k id).length = 1 := by
          have hpos := List.length_pos_of_mem hp
          split at ih <;> omega
        obtain ⟨q, hq⟩ := List.length_eq_one_iff.mp hone
        rw [hq, List.mem_singleton] at hp
        subst hp
        simp [hq, hclosed]
      · have hsame : ((run {} ops).step op).2.Owned k id ↔ (run {} ops).Owned k id :=
          hmark'.trans (and_iff_left hgiven)
        have hkept : (liveOwners ops k id).filter (fun p => (run {} ops).closed? op ≠ some p) =
            liveOwners ops k id :=
          List.filter_eq_self.mpr fun p hp =>
            decide_eq_true fun hclosed => hgiven (hfrees.mpr ⟨p, hp, hclosed⟩)
        rw [hkept, ih]
        exact if_congr hsame.symm rfl rfl

/-- Manager `k` is `m`, and its marks are where the live owners are. -/
structure Mirrored (ops : List Op) (k : Nat) (m : Manager) : Prop where
  marked : ∀ id, m.owned? id = some true ↔ ∃ p, liveOwners ops k id = [p]
  single : ∀ id, (liveOwners ops k id).length ≤ 1
  allocated : ∀ id, liveOwners ops k id ≠ [] → m.state? id = some .allocated
  /-- When an owner is made. -/
  made : ∀ id, (∃ p h', (run {} ops).step (.own k id) = (.ok (.made p), h')) ↔
    0 ≤ id.toInt ∧ id.toInt < m.maxCounters.toNat ∧ m.state? id = some .allocated ∧
      liveOwners ops k id = []
  /-- What the close of a live owner does to its slot. -/
  closed : ∀ id, ∀ p ∈ liveOwners ops k id, ∃ m' h',
    (run {} ops).step (.close p) = (.ok .done, h') ∧
      h'.managers = (run {} ops).managers.set k m' ∧
      m' = { m with registry := m.registry.reclaim id.toNatClampNeg (run {} ops).clock } ∧
      m'.state? id = some .reclaimed ∧
      h'.events = (run {} ops).events ++ [.freed id, .positionClosed id]
  /-- A position that gives nothing back changes no slot. -/
  readers : ∀ p id, (constructions ops)[p]? = some ⟨id, none⟩ →
    ((run {} ops).step (.close p)).2.managers = (run {} ops).managers

/-- What an owner is made of, and that nothing else stands in its way. -/
theorem own_made_iff {frontier : Nat} (hk : h.managers[k]? = some m)
    (hm : m.Sound frontier h.clock) :
    (∃ p h', h.step (.own k id) = (.ok (.made p), h')) ↔
      0 ≤ id.toInt ∧ id.toInt < m.maxCounters.toNat ∧ m.state? id = some .allocated ∧
        ¬ h.Owned k id := by
  constructor
  · rintro ⟨p, h', hown⟩
    obtain ⟨m₁, m', cell, hk₁, hf, -, -, -⟩ := own_eq_made hown
    obtain rfl := Option.some.inj (hk.symm.trans hk₁)
    have hfree := hf.not_owned
    cases hf with
    | own hi hslot halloc _ =>
      obtain ⟨hidx, hlt⟩ := Manager.index_eq_ok_iff.mp hi
      have hnat := toNat_toInt_of_slotIndex? hidx
      refine ⟨by omega, by omega, ?_, mt (owned_iff hk).mp hfree⟩
      rw [Manager.state?_of_slot hidx hslot, halloc]
  · rintro ⟨hid, hlt, hstate, hfree⟩
    obtain ⟨i, hi, -⟩ := Manager.exists_index_of_toInt hid hlt
    have halloc : h.Allocated k id := (allocated_iff hk).mpr hstate
    obtain ⟨m', hown⟩ := (leadsTo_of_index hk hm hi).owner halloc hfree
    exact ⟨_, _, hown⟩

/-- The close of an owner of an allocated slot frees the slot, and says so
before it says that the position was closed. -/
theorem close_frees {p : Nat} {cell : Cell} {i : UInt64} (hk : h.managers[k]? = some m)
    (hi : m.index id = .ok i) (ha : m.state? id = some .allocated)
    (hp : h.positions[p]? = some (Construction.position ⟨id, some (.manager k)⟩ cell false)) :
    ∃ m' h', h.step (.close p) = (.ok .done, h') ∧ h'.managers = h.managers.set k m' ∧
      m' = { m with registry := m.registry.reclaim id.toNatClampNeg h.clock } ∧
      m'.state? id = some .reclaimed ∧ h'.events = h.events ++ [.freed id, .positionClosed id] := by
  have hstate : Manager.state?
      { m with registry := m.registry.reclaim id.toNatClampNeg h.clock } id = some .reclaimed := by
    rw [Manager.state?_eq hi] at ha
    obtain ⟨s, hs, -⟩ := Option.map_eq_some_iff.mp ha
    have hi' : Manager.index
        { m with registry := m.registry.reclaim id.toNatClampNeg h.clock } id = .ok i :=
      (Manager.index_congr rfl id).trans hi
    rw [Manager.state?_eq hi', Registry.reclaim, Registry.modify_eq_set hs,
      Registry.slot?_set hs, if_pos rfl]
    rfl
  refine ⟨_, _, step_close_open hp, ?_, rfl, hstate, ?_⟩
  · simp only [emit, returned, giveBack, release, hk, Manager.free_allocated hi ha]
  · simp only [emit, returned, giveBack, release, hk, Manager.free_allocated hi ha,
      List.append_assoc]
    rfl

/-- Whatever else is done to managers, positions and recorders: while the slots
of manager `k` come back only by closes of their owners, a slot is marked as
owned exactly while it has a live owner. -/
theorem owned_mirrors_live_owner (ops : List Op) (k : Nat) (m : Manager)
    (hk : (run {} ops).managers[k]? = some m) (hregion : m.region.Addressable)
    (hops : ∀ op ∈ ops, op.isOrderly k = true) : Mirrored ops k m := by
  obtain ⟨frontier, hm⟩ := manager_sound_run hk hregion
  have hlength := fun id => liveOwners_length hops id
  have howned : ∀ id, (run {} ops).Owned k id ↔ m.owned? id = some true :=
    fun id => owned_iff hk
  have hlive : ∀ id, liveOwners ops k id ≠ [] → (run {} ops).Owned k id := by
    intro id hne
    by_contra hnot
    have hzero := hlength id
    rw [if_neg hnot] at hzero
    exact hne (List.eq_nil_of_length_eq_zero hzero)
  have hslot : ∀ id, liveOwners ops k id ≠ [] →
      ∃ i, m.index id = .ok i ∧ m.state? id = some .allocated := by
    intro id hne
    obtain ⟨i, s, hi, hs, halloc⟩ := Manager.owned?_slot hm.sound ((howned id).mp (hlive id hne))
    refine ⟨i, hi, ?_⟩
    rw [Manager.state?_of_slot (Manager.slotIndex?_of_index hi) hs, halloc]
  refine ⟨fun id => ?_, fun id => ?_, fun id hne => ?_, fun id => ?_, fun id p hp => ?_,
    fun p id hb => ?_⟩
  · rw [← howned id, ← List.length_eq_one_iff, hlength id]
    by_cases ho : (run {} ops).Owned k id <;> simp [ho]
  · rw [hlength id]
    split <;> omega
  · exact (hslot id hne).choose_spec.2
  · have hempty : ¬ (run {} ops).Owned k id ↔ liveOwners ops k id = [] := by
      rw [← List.length_eq_zero_iff, hlength id]
      by_cases ho : (run {} ops).Owned k id <;> simp [ho]
    rw [own_made_iff hk hm, hempty]
  · obtain ⟨i, hi, ha⟩ := hslot id (List.ne_nil_of_mem hp)
    obtain ⟨cell, hpos⟩ := position_of_live hops hp
    exact close_frees hk hi ha hpos
  · obtain ⟨cell, hpos⟩ := (standing_run ops).entry p _ hb
    by_cases hshut : p ∈ closings ops
    · rw [step_close_shut hpos (decide_eq_true hshut)]
    · rw [decide_eq_false hshut] at hpos
      rw [step_close_open hpos]
      rfl

/-- A slot that had an owner, was freed by it and handed out again; a second
owner is asked for twice, and a reader is closed in between. -/
def reowned : List Op :=
  [.manage ⟨4096, 256, 0, 0⟩ ⟨2, 0⟩, .allocate 0 "a", .own 0 0, .close 0, .allocate 0 "b",
    .own 0 0, .own 0 0, .watch 0 0, .close 2]

theorem reowned_mirrored :
    (∃ m, (run {} reowned).managers[0]? = some m ∧ m.region.Addressable ∧
      m.owned? 0 = some true) ∧
    (∀ op ∈ reowned, op.isOrderly 0 = true) ∧ liveOwners reowned 0 0 = [1] ∧
    ∃ h', (run {} reowned).step (.close 1) = (.ok .done, h') ∧
      h'.events = (run {} reowned).events ++ [.freed 0, .positionClosed 0] := by
  have hops : ∀ op ∈ reowned, op.isOrderly 0 = true := by decide
  have hlive : liveOwners reowned 0 0 = [1] := by decide
  obtain ⟨m, hk⟩ : ∃ m, (run {} reowned).managers[0]? = some m := ⟨_, rfl⟩
  have hregion : m.region.Addressable := by
    obtain rfl := Option.some.inj hk
    decide
  have hmirrored := owned_mirrors_live_owner reowned 0 m hk hregion hops
  obtain ⟨m', h', hstep, -, -, -, hevents⟩ := hmirrored.closed 0 1 (by simp [hlive])
  exact ⟨⟨m, hk, hregion, (hmirrored.marked 0).mpr ⟨1, hlive⟩⟩, hops, hlive, h', hstep, hevents⟩

end Host
end LockFree.Counters
