/-
# What runs do to managers and positions

Most operations of a host leave its managers and positions alone. Those that do
not do one thing to one manager, make a manager, make a position or close one:
`Host.Does.managers` and `Host.Does.positions` say so once for all of them, and
what holds of managers and positions in a run is derived from it.

The first thing derived is that every registry is sound at every moment of
every run, and that what was handed out once never becomes unused.

Key definitions: `Host.ManagersStep`, `Host.PositionsStep`, `Host.Sound`.
Key theorems: `Manager.Follows.sound`, `Host.registry_sound_in_every_run`.
-/
import LockFree.Proofs.Counters.Slots
import LockFree.Proofs.Counters.Steps

namespace LockFree.Counters

/-- Whatever is done to a manager keeps its registry sound, and never moves the
frontier back. -/
theorem Manager.Follows.sound {now n frontier : Nat} {m m' : Manager} {a : Option Action}
    (hf : m.Follows now a m') (hs : m.registry.Sound n frontier now) :
    ∃ frontier', frontier ≤ frontier' ∧ m'.registry.Sound n frontier' now := by
  cases hf with
  | grant label hnext => exact hs.grant hnext label
  | own hi hslot halloc hfree => exact ⟨frontier, Nat.le_refl frontier, hs.own hslot halloc⟩
  | freed hi hslot halloc => exact ⟨frontier, Nat.le_refl frontier, hs.reclaim hslot halloc⟩
  | _ => exact ⟨frontier, Nat.le_refl frontier, hs⟩

/-- What a position is built with. -/
structure Construction where
  id : SlotId
  reclaimer : Option Reclaimer
  deriving DecidableEq, Repr

namespace Host

open Manager (Action)

/-! ### One operation -/

/-- The region that an operation is given. -/
def Op.region? : Op → Option Region
  | .manage region _ | .place region _ _ => some region
  | _ => none

/-- With what a position would be built by an operation. -/
def Op.construction? : Op → Option Construction
  | .own k id => some ⟨id, some (.manager k)⟩
  | .watch _ id => some ⟨id, none⟩
  | .place _ id reclaimer => some ⟨id, reclaimer⟩
  | _ => none

/-- The position that an operation builds. -/
def built? (h : Host) (op : Op) : Option Construction :=
  match (h.step op).1 with
  | .ok (.made _) => op.construction?
  | _ => none

/-- The position that an operation closes, be it closed already or not. -/
def closed? (h : Host) : Op → Option Nat
  | .close p => if p < h.positions.length then some p else none
  | _ => none

/-- What an operation may do to the managers. -/
inductive ManagersStep (now : Nat) (given : Option Region) (ms : List Manager) :
    Option (Nat × Action) → List Manager → Prop
  | same : ManagersStep now given ms none ms
  | act {k : Nat} {a : Action} {m m' : Manager} (hk : ms[k]? = some m)
      (hm : m.Follows now (some a) m') : ManagersStep now given ms (some (k, a)) (ms.set k m')
  | make {region : Region} {settings : Settings} {m : Manager} (hgiven : given = some region)
      (hm : Manager.make region settings = .ok m) : ManagersStep now given ms none (ms ++ [m])

/-- What an operation may do to the positions, with what it builds or closes. A
new one lies in the region of a manager or in the one that was given. -/
inductive PositionsStep (ms : List Manager) (given : Option Region) (ps : List Position) :
    Option Construction → Option Nat → List Position → Prop
  | same : PositionsStep ms given ps none none ps
  | build (b : Construction) {region : Region} {cell : Cell}
      (hregion : given = some region ∨ ∃ m ∈ ms, m.region = region)
      (hcell : region.slotCell b.id = .ok cell) :
      PositionsStep ms given ps (some b) none (ps ++ [.onCell b.id cell b.reclaimer])
  | close {p : Nat} {q : Position} (hp : ps[p]? = some q) (hopen : q.closed = false) :
      PositionsStep ms given ps none (some p) (ps.set p q.close)
  /-- A later close. -/
  | again {p : Nat} {q : Position} (hp : ps[p]? = some q) (hclosed : q.closed = true) :
      PositionsStep ms given ps none (some p) ps

section

variable {h h' : Host} {op : Op} {d : Option (Nat × Action)} {o : Outcome} {id : SlotId}
  {reclaimer : Option Reclaimer}

theorem GivesBack.managers (hb : h.GivesBack id reclaimer d h') (given : Option Region) :
    ManagersStep h.clock given h.managers d h'.managers := by
  cases hb with
  | manager hk hm => exact .act hk hm
  | _ => exact .same

theorem GivesBack.positions (hb : h.GivesBack id reclaimer d h') : h'.positions = h.positions := by
  cases hb <;> rfl

theorem GivesBack.memory (hb : h.GivesBack id reclaimer d h') : h'.memory = h.memory := by
  cases hb <;> rfl

theorem GivesBack.disk (hb : h.GivesBack id reclaimer d h') : h'.disk = h.disk := by
  cases hb <;> rfl

theorem GivesBack.clock (hb : h.GivesBack id reclaimer d h') : h'.clock = h.clock := by
  cases hb <;> rfl

/-- What is reported is what was done to a manager. -/
theorem GivesBack.events (hb : h.GivesBack id reclaimer d h') :
    h'.events = h.events ++ (d.bind fun act => act.2.event?).toList := by
  cases hb with
  | manager hk hm => rfl
  | _ => exact (List.append_nil _).symm

theorem Does.managers (hd : h.Does op d o) :
    ManagersStep h.clock op.region? h.managers d o.2.managers := by
  cases hd with
  | manage hm => exact .make rfl hm
  | allocate hk hm hc => exact .act hk hm
  | lacks hk hm hc => exact .act hk hm
  | own hk hm hc => exact .act hk hm
  | free hk hback => exact hback.managers _
  | close hp hopen hback => exact hback.managers _
  | _ => exact .same

theorem Does.clock (hd : h.Does op d o) : h.clock ≤ o.2.clock := by
  cases hd with
  | wait n => exact Nat.le_add_right _ _
  | free hk hback => exact Nat.le_of_eq hback.clock.symm
  | close hp hopen hback => exact Nat.le_of_eq hback.clock.symm
  | _ => exact Nat.le_refl _

theorem closed?_eq_none (hop : op.isReturn = false) : h.closed? op = none := by
  cases op with
  | close p => cases hop
  | _ => rfl

/-- Positions are built and closed, and nothing else happens to them. -/
theorem Does.positions (hd : h.Does op d (h.step op)) :
    PositionsStep h.managers op.region? h.positions (h.built? op) (h.closed? op)
      (h.step op).2.positions := by
  unfold built?
  generalize h.step op = o at hd ⊢
  cases hd with
  | fails f hop =>
    rw [closed?_eq_none hop]
    exact .same
  | bytes hb => cases hb <;> exact .same
  | own hk hm hc =>
    exact .build ⟨_, some (.manager _)⟩ (Or.inr ⟨_, List.mem_of_getElem? hk, rfl⟩) hc
  | watch hk hc => exact .build ⟨_, none⟩ (Or.inr ⟨_, List.mem_of_getElem? hk, rfl⟩) hc
  | place hc => exact .build ⟨_, _⟩ (Or.inl rfl) hc
  | free hk hback =>
    rw [hback.positions]
    exact .same
  | closeNone hp =>
    rw [closed?, if_neg (Nat.not_lt.mpr (List.getElem?_eq_none_iff.mp hp))]
    exact .same
  | again hp hclosed =>
    rw [closed?, if_pos (List.getElem?_eq_some_iff.mp hp).1]
    exact .again hp hclosed
  | close hp hopen hback =>
    rw [closed?, if_pos (List.getElem?_eq_some_iff.mp hp).1, emit, hback.positions]
    exact .close hp hopen
  | _ => exact .same

/-- What is built gets the next number. -/
theorem answer_of_built {h : Host} {op : Op} {b : Construction} (hb : h.built? op = some b) :
    (h.step op).1 = .ok (.made h.positions.length) := by
  obtain ⟨d, hd⟩ := h.step_does op
  unfold built? at hb
  generalize h.step op = o at hd hb ⊢
  cases hd with
  | own hk hm hc => rfl
  | watch hk hc => rfl
  | place hc => rfl
  | bytes hbytes => cases hbytes <;> cases hb
  | _ => cases hb

end

/-- To close a position again does nothing. -/
theorem step_close_shut {h : Host} {p : Nat} {q : Position} (hp : h.positions[p]? = some q)
    (hclosed : q.closed = true) : h.step (.close p) = (.ok .done, h) := by
  have hlt : p < h.positions.length := (List.getElem?_eq_some_iff.mp hp).1
  simp only [step, close, if_pos hlt, shut, hp, hclosed, if_true]

/-! ### Managers and positions in a run -/

/-- What is done to manager `k`, of what an operation does to managers. -/
def onto (k : Nat) (d : Option (Nat × Action)) : Option Action :=
  d.bind fun act => if act.1 = k then some act.2 else none

theorem onto_eq_some_iff {k : Nat} {d : Option (Nat × Action)} {a : Action} :
    onto k d = some a ↔ d = some (k, a) := by
  cases d with
  | none => simp [onto]
  | some act =>
    obtain ⟨j, b⟩ := act
    simp [onto]

theorem onto_self (k : Nat) (a : Action) : onto k (some (k, a)) = some a :=
  onto_eq_some_iff.mpr rfl

theorem onto_of_ne {j k : Nat} (hne : j ≠ k) (a : Action) : onto k (some (j, a)) = none :=
  if_neg hne

/-- A manager stays where it is, and what is done to it is done there. -/
theorem ManagersStep.getElem? {now : Nat} {given : Option Region} {ms ms' : List Manager}
    {d : Option (Nat × Action)} (hs : ManagersStep now given ms d ms') {k : Nat} {m : Manager}
    (hk : ms[k]? = some m) : ∃ m', ms'[k]? = some m' ∧ m.Follows now (onto k d) m' := by
  cases hs with
  | same => exact ⟨m, hk, .same⟩
  | @act j a m₁ m₁' hj hm =>
    refine ⟨_, getElem?_set_some hk j m₁', ?_⟩
    by_cases hjk : j = k
    · subst hjk
      obtain rfl := Option.some.inj (hk.symm.trans hj)
      rw [if_pos rfl, onto_self]
      exact hm
    · rw [if_neg hjk, onto_of_ne hjk]
      exact .same
  | make hgiven hm =>
    rw [List.getElem?_append_left (List.getElem?_eq_some_iff.mp hk).1]
    exact ⟨m, hk, .same⟩

/-- A manager that was not there before is new. -/
theorem ManagersStep.fresh {now : Nat} {given : Option Region} {ms ms' : List Manager}
    {d : Option (Nat × Action)} (hs : ManagersStep now given ms d ms') {k : Nat} {m : Manager}
    (hnone : ms[k]? = none) (hk : ms'[k]? = some m) :
    ∃ region settings, given = some region ∧ Manager.make region settings = .ok m := by
  have hle : ms.length ≤ k := List.getElem?_eq_none_iff.mp hnone
  cases hs with
  | same => cases hnone.symm.trans hk
  | act hj hm =>
    rw [List.getElem?_eq_none (by rw [List.length_set]; exact hle)] at hk
    cases hk
  | @make region settings _ hgiven hm =>
    rw [List.getElem?_append_right hle] at hk
    obtain rfl := List.mem_singleton.mp (List.mem_of_getElem? hk)
    exact ⟨region, settings, hgiven, hm⟩

/-- What is done is done to a manager that is there. -/
theorem ManagersStep.exists_follows {now : Nat} {given : Option Region} {ms ms' : List Manager}
    {k : Nat} {a : Action} (hs : ManagersStep now given ms (some (k, a)) ms') :
    ∃ m m', ms[k]? = some m ∧ m.Follows now (some a) m' := by
  cases hs with
  | act hk hm => exact ⟨_, _, hk, hm⟩

/-- Nothing is done to a manager that is not there. -/
theorem ManagersStep.onto_eq_none {now : Nat} {given : Option Region} {ms ms' : List Manager}
    {d : Option (Nat × Action)} (hs : ManagersStep now given ms d ms') {k : Nat}
    (hnone : ms[k]? = none) : onto k d = none := by
  refine Option.eq_none_iff_forall_ne_some.mpr fun a ha => ?_
  obtain rfl := onto_eq_some_iff.mp ha
  obtain ⟨m, -, hk, -⟩ := hs.exists_follows
  cases hnone.symm.trans hk

/-- Where a manager comes from. -/
theorem ManagersStep.mem {now : Nat} {given : Option Region} {ms ms' : List Manager}
    {d : Option (Nat × Action)} (hs : ManagersStep now given ms d ms') {m : Manager}
    (hm : m ∈ ms') : (∃ m₀ ∈ ms, m₀.Alike m) ∨
      ∃ region settings, given = some region ∧ Manager.make region settings = .ok m := by
  obtain ⟨k, hk⟩ := List.mem_iff_getElem?.mp hm
  cases hold : ms[k]? with
  | none => exact Or.inr (hs.fresh hold hk)
  | some m₀ =>
    obtain ⟨m', hk', hf⟩ := hs.getElem? hold
    obtain rfl := Option.some.inj (hk.symm.trans hk')
    exact Or.inl ⟨m₀, List.mem_of_getElem? hold, hf.alike⟩

theorem ManagersStep.length_le {now : Nat} {given : Option Region} {ms ms' : List Manager}
    {d : Option (Nat × Action)} (hs : ManagersStep now given ms d ms') :
    ms.length ≤ ms'.length := by
  cases hs with
  | same => exact Nat.le_refl _
  | act hk hm => exact Nat.le_of_eq List.length_set.symm
  | make hgiven hm => simp

/-- A position stays where it is, open or closed. -/
theorem PositionsStep.getElem? {ms : List Manager} {given : Option Region}
    {ps ps' : List Position} {b : Option Construction} {c : Option Nat}
    (hs : PositionsStep ms given ps b c ps') {p : Nat} {q : Position} (hp : ps[p]? = some q) :
    ∃ q', ps'[p]? = some q' ∧ (q' = q ∨ q' = q.close) := by
  cases hs with
  | same => exact ⟨q, hp, Or.inl rfl⟩
  | again => exact ⟨q, hp, Or.inl rfl⟩
  | @close j q₁ hj hopen =>
    refine ⟨_, getElem?_set_some hp j q₁.close, ?_⟩
    split
    · rename_i he
      subst he
      obtain rfl := Option.some.inj (hp.symm.trans hj)
      exact Or.inr rfl
    · exact Or.inl rfl
  | build b hregion hcell =>
    rw [List.getElem?_append_left (List.getElem?_eq_some_iff.mp hp).1]
    exact ⟨q, hp, Or.inl rfl⟩

/-- Where a position comes from. -/
theorem PositionsStep.mem {ms : List Manager} {given : Option Region} {ps ps' : List Position}
    {b : Option Construction} {c : Option Nat} (hs : PositionsStep ms given ps b c ps')
    {p : Position} (hp : p ∈ ps') :
    (∃ p₀ ∈ ps, p = p₀ ∨ p = p₀.close) ∨
      ∃ region, (given = some region ∨ ∃ m ∈ ms, m.region = region) ∧
        region.slotCell p.id = .ok p.cell := by
  cases hs with
  | same => exact Or.inl ⟨p, hp, Or.inl rfl⟩
  | again => exact Or.inl ⟨p, hp, Or.inl rfl⟩
  | @close k p₀ hk hopen =>
    rcases List.mem_or_eq_of_mem_set hp with hold | rfl
    · exact Or.inl ⟨p, hold, Or.inl rfl⟩
    · exact Or.inl ⟨p₀, List.mem_of_getElem? hk, Or.inr rfl⟩
  | @build b region cell hregion hcell =>
    rcases List.mem_append.mp hp with hold | hnew
    · exact Or.inl ⟨p, hold, Or.inl rfl⟩
    · obtain rfl := List.mem_singleton.mp hnew
      exact Or.inr ⟨region, hregion, hcell⟩

/-- What an operation does to a manager that is there. -/
theorem exists_follows (h : Host) (op : Op) {k : Nat} {m : Manager} (hk : h.managers[k]? = some m) :
    ∃ a m', (h.step op).2.managers[k]? = some m' ∧ m.Follows h.clock a m' := by
  obtain ⟨d, hd⟩ := h.step_does op
  obtain ⟨m', hk', hf⟩ := hd.managers.getElem? hk
  exact ⟨onto k d, m', hk', hf⟩

theorem clock_le (h : Host) (op : Op) : h.clock ≤ (h.step op).2.clock := by
  obtain ⟨d, hd⟩ := h.step_does op
  exact hd.clock

/-- Manager `k` is `m`, and its registry is sound. -/
structure Serves (h : Host) (k : Nat) (m : Manager) (frontier : Nat) : Prop where
  manager : h.managers[k]? = some m
  sound : m.registry.Sound m.maxCounters.toNat frontier h.clock

/-- An operation keeps a manager's registry sound. -/
theorem Serves.step {h : Host} {k frontier : Nat} {m : Manager} (hs : h.Serves k m frontier)
    (op : Op) : ∃ m' frontier', (h.step op).2.Serves k m' frontier' ∧
      m'.maxCounters = m.maxCounters ∧ frontier ≤ frontier' := by
  obtain ⟨a, m', hm', hf⟩ := h.exists_follows op hs.manager
  obtain ⟨frontier', hle, hsound⟩ := hf.sound hs.sound
  refine ⟨m', frontier', ⟨hm', ?_⟩, hf.alike.maxCounters, hle⟩
  rw [hf.alike.maxCounters]
  exact hsound.later (h.clock_le op)

theorem Serves.run {h : Host} {k frontier : Nat} {m : Manager} (hs : h.Serves k m frontier)
    (ops : List Op) : ∃ m' frontier', (h.run ops).Serves k m' frontier' ∧
      m'.maxCounters = m.maxCounters ∧ frontier ≤ frontier' := by
  induction ops generalizing h m frontier with
  | nil => exact ⟨m, frontier, hs, rfl, Nat.le_refl frontier⟩
  | cons op ops ih =>
    obtain ⟨m₁, frontier₁, hs₁, hmax₁, hle₁⟩ := hs.step op
    obtain ⟨m', frontier', hs', hmax', hle'⟩ := ih hs₁
    exact ⟨m', frontier', hs', hmax'.trans hmax₁, Nat.le_trans hle₁ hle'⟩

/-- Every registry of the host is sound. -/
def Sound (h : Host) : Prop := ∀ k m, h.managers[k]? = some m → ∃ frontier, h.Serves k m frontier

theorem Sound.step {h : Host} (hs : h.Sound) (op : Op) : (h.step op).2.Sound := by
  intro k m hm
  cases hk : h.managers[k]? with
  | some m₀ =>
    obtain ⟨frontier, hserves⟩ := hs k m₀ hk
    obtain ⟨m', frontier', hs', -, -⟩ := hserves.step op
    obtain rfl := Option.some.inj (hm.symm.trans hs'.manager)
    exact ⟨frontier', hs'⟩
  | none =>
    obtain ⟨d, hd⟩ := h.step_does op
    obtain ⟨region, settings, -, hmake⟩ := hd.managers.fresh hk hm
    exact ⟨0, hm, Manager.make_registry hmake ▸ Registry.fresh_sound _ _⟩

theorem Sound.run {h : Host} (hs : h.Sound) (ops : List Op) : (h.run ops).Sound := by
  induction ops generalizing h with
  | nil => exact hs
  | cons op ops ih => exact ih (hs.step op)

/-- In every run a manager's registry is sound after each operation, and the
slots that were never used are those from some slot on, which is never an
earlier slot than before. -/
theorem registry_sound_in_every_run (ops : List Op) (k : Nat) (m : Manager)
    (hm : (run {} ops).managers[k]? = some m) :
    ∃ frontier, m.registry.Sound m.maxCounters.toNat frontier (run {} ops).clock ∧
      ∀ more, ∃ m' frontier', ((run {} ops).run more).managers[k]? = some m' ∧
        m'.maxCounters = m.maxCounters ∧ frontier ≤ frontier' ∧
        m'.registry.Sound m.maxCounters.toNat frontier' ((run {} ops).run more).clock := by
  have hempty : Sound {} := fun k m hk => by cases hk
  obtain ⟨frontier, hs⟩ := hempty.run ops k m hm
  refine ⟨frontier, hs.sound, fun more => ?_⟩
  obtain ⟨m', frontier', hs', hmax, hle⟩ := hs.run more
  exact ⟨m', frontier', hs'.manager, hmax, hle, hmax ▸ hs'.sound⟩

/-- A run in which a slot was owned and freed. -/
theorem registry_sound_after_close :
    (run {} [.manage ⟨128, 256, 0, 0⟩ ⟨2, 0⟩, .allocate 0 "a", .allocate 0 "b", .own 0 0,
        .wait 7, .close 0]).managers[0]? =
      some ⟨⟨128, 256, 0, 0⟩, 2, ⟨0⟩, ⟨[(Slot.granted "a").reclaimed 7, .granted "b"], [0]⟩⟩ ∧
    ∃ frontier,
      Registry.Sound ⟨[(Slot.granted "a").reclaimed 7, .granted "b"], [0]⟩ 2 frontier 7 := by
  have hm : (run {} [.manage ⟨128, 256, 0, 0⟩ ⟨2, 0⟩, .allocate 0 "a", .allocate 0 "b", .own 0 0,
      .wait 7, .close 0]).managers[0]? =
      some ⟨⟨128, 256, 0, 0⟩, 2, ⟨0⟩, ⟨[(Slot.granted "a").reclaimed 7, .granted "b"], [0]⟩⟩ := by
    decide
  obtain ⟨frontier, hs, -⟩ := registry_sound_in_every_run _ 0 _ hm
  exact ⟨hm, frontier, hs⟩

end Host
end LockFree.Counters
