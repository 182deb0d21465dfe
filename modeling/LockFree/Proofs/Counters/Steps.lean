/-
# What one operation comes to

Operations are many, and most of them may end in several ways. All of these are
listed once, each with what must hold for it to come about: for a manager
(`Manager.Follows`), for a slot that goes back to a reclaimer
(`Host.GivesBack`), for bytes and files (`Host.OnBytes`), and for a host
(`Host.Does`). The functions that carry operations out are opened here, to
prove that the lists are complete (`Host.step_does`); what is proved of
operations elsewhere is read off the lists, by cases.

An operation does at most one thing to one manager. The lists are labelled with
it (`Manager.Action`), so that what is entered into a log, reported or marked as
owned is a function of the label.

Key definitions: `Manager.Action`, `Manager.Follows`, `Host.GivesBack`,
`Host.OnBytes`, `Host.Does`.
Key theorem: `Host.step_does`.
-/
import LockFree.Counters.Host
import Mathlib.Logic.Basic

namespace LockFree.Counters

/-- What is reported of a free. -/
def FreeOutcome.event (id : SlotId) : FreeOutcome → Event
  | .freed => .freed id
  | .outside => .freeOutside id
  | .unallocated state => .freeUnallocated id state

/-! ### One manager -/

/-- What is done to the slots of a manager. -/
inductive Manager.Action
  /-- The slot at an index is handed out. -/
  | grant (i : Nat) (label : String)
  /-- A slot gets an owner. -/
  | own (id : SlotId)
  /-- A slot is given back, and this becomes of it. -/
  | free (id : SlotId) (outcome : FreeOutcome)
  deriving DecidableEq

namespace Manager

/-- What is reported of it. -/
def Action.event? : Action → Option Event
  | .grant i label => some (.allocated (Int32.ofNat i) label)
  | .own _ => none
  | .free id outcome => some (outcome.event id)

/-- What may become of a manager at a time: nothing is done to it, or one
thing. -/
inductive Follows (now : Nat) (m : Manager) : Option Action → Manager → Prop
  | same : Follows now m none m
  /-- The slot whose turn it is is handed out. -/
  | grant {i : Nat} {rest : Registry} (label : String)
      (hnext : m.registry.next? now m.quarantine.nanoseconds = some (i, rest)) :
      Follows now m (some (.grant i label)) { m with registry := rest.grant i label }
  /-- An allocated slot without an owner gets one. -/
  | own {id : SlotId} {i : UInt64} {s : Slot} (hi : m.index id = .ok i)
      (hslot : m.registry.slot? i.toNat = some s) (halloc : s.state = .allocated)
      (hfree : s.owned = false) :
      Follows now m (some (.own id)) { m with registry := m.registry.own i.toNat }
  /-- An allocated slot is freed. -/
  | freed {id : SlotId} {i : UInt64} {s : Slot} (hi : m.index id = .ok i)
      (hslot : m.registry.slot? i.toNat = some s) (halloc : s.state = .allocated) :
      Follows now m (some (.free id .freed)) { m with registry := m.registry.reclaim i.toNat now }
  /-- The manager has no such slot to free. -/
  | outside {id : SlotId} (hno : ∀ i, m.index id = .ok i → m.registry.slot? i.toNat = none) :
      Follows now m (some (.free id .outside)) m
  /-- The slot is not allocated. -/
  | unallocated {id : SlotId} {i : UInt64} {s : Slot} (hi : m.index id = .ok i)
      (hslot : m.registry.slot? i.toNat = some s) (hstate : s.state ≠ .allocated) :
      Follows now m (some (.free id (.unallocated s.state))) m

/-- The manager has the same slots at the same place. -/
structure Alike (m m' : Manager) : Prop where
  region : m'.region = m.region
  maxCounters : m'.maxCounters = m.maxCounters
  quarantine : m'.quarantine = m.quarantine

theorem Alike.refl (m : Manager) : m.Alike m := ⟨rfl, rfl, rfl⟩

theorem Alike.trans {m₁ m₂ m₃ : Manager} (h : m₁.Alike m₂) (h' : m₂.Alike m₃) : m₁.Alike m₃ :=
  ⟨h'.region.trans h.region, h'.maxCounters.trans h.maxCounters, h'.quarantine.trans h.quarantine⟩

/-- Only the registry ever changes. -/
theorem Follows.alike {now : Nat} {m m' : Manager} {a : Option Action} (hf : m.Follows now a m') :
    m.Alike m' := by
  cases hf <;> exact ⟨rfl, rfl, rfl⟩

theorem free_follows (m : Manager) (now : Nat) (id : SlotId) :
    m.Follows now (some (.free id (m.free now id).1)) (m.free now id).2 := by
  unfold free
  split
  · rename_i e hi
    exact .outside fun i hi' => by cases hi.symm.trans hi'
  · rename_i i hi
    split
    · rename_i hnone
      refine .outside fun j hj => ?_
      obtain rfl := Except.ok.inj (hi.symm.trans hj)
      exact hnone
    · rename_i s hslot
      split
      · rename_i halloc
        exact .freed hi hslot halloc
      · rename_i hstate
        exact .unallocated hi hslot hstate

/-- An allocation finds no slot, or hands one out and then looks for its
cell. -/
theorem allocate_cases (m : Manager) (now : Nat) (label : String) :
    m.allocate now label = (.error (.capacityExhausted m.maxCounters), m) ∨
      ∃ i m', m.Follows now (some (.grant i label)) m' ∧
        ((∃ e, m'.cell (Int32.ofNat i) = .error e ∧ m.allocate now label = (.error e, m')) ∨
          ∃ c, m'.cell (Int32.ofNat i) = .ok c ∧
            m.allocate now label = (.ok (Int32.ofNat i, c), m')) := by
  unfold allocate
  split
  · exact Or.inl rfl
  · rename_i i rest hnext
    refine Or.inr ⟨i, _, .grant label hnext, ?_⟩
    dsimp only
    split
    · rename_i e hcell
      exact Or.inl ⟨e, hcell, rfl⟩
    · rename_i c hcell
      exact Or.inr ⟨c, hcell, rfl⟩

/-- What an owner asks for: an allocated slot without one. -/
theorem claim_eq_ok {m m' : Manager} {id : SlotId} {c : Cell} (hc : m.claim id = .ok (c, m')) :
    ∃ i s, m.index id = .ok i ∧ m.registry.slot? i.toNat = some s ∧ s.state = .allocated ∧
      s.owned = false ∧ m.region.slotCell id = .ok c ∧
      m' = { m with registry := m.registry.own i.toNat } := by
  unfold claim at hc
  split at hc
  · cases hc
  · rename_i i hi
    split at hc
    · cases hc
    · rename_i s hslot
      split at hc
      · cases hc
      · rename_i halloc
        split at hc
        · cases hc
        · rename_i hfree
          split at hc
          · cases hc
          · rename_i c' hcell
            obtain ⟨rfl, rfl⟩ := Prod.mk.inj (Except.ok.inj hc)
            exact ⟨i, s, hi, hslot, not_not.mp halloc, by simpa using hfree, hcell, rfl⟩

/-- The cell of a reader is the slot's. -/
theorem readerCell_eq {m : Manager} {id : SlotId} {c : Cell} (hc : m.readerCell id = .ok c) :
    m.region.slotCell id = .ok c := by
  unfold readerCell at hc
  split at hc
  · cases hc
  · exact hc

/-- What a manager is made after: all that is looked at is the settings, the
size of the region and the first slot's cell. -/
theorem make_eq_ok {region : Region} {settings : Settings} {m : Manager}
    (hm : make region settings = .ok m) :
    ∃ required c, settings.check = .ok () ∧ settings.requiredCapacity? = some required ∧
      region.boundsCheck 0 required = .ok () ∧ region.cell 0 = .ok c ∧
      m = ⟨region, settings.maxCounters, settings.quarantine,
        Registry.fresh settings.maxCounters.toNat⟩ := by
  unfold make at hm
  split at hm
  · cases hm
  · rename_i hcheck
    split at hm
    · cases hm
    · rename_i required hrequired
      split at hm
      · cases hm
      · rename_i hbounds
        split at hm
        · cases hm
        · rename_i c hcell
          exact ⟨required, c, hcheck, hrequired, hbounds, hcell, (Except.ok.inj hm).symm⟩

/-- A new manager's slots were never used. -/
theorem make_registry {region : Region} {settings : Settings} {m : Manager}
    (hm : make region settings = .ok m) : m.registry = Registry.fresh m.maxCounters.toNat := by
  obtain ⟨-, -, -, -, -, -, rfl⟩ := make_eq_ok hm
  rfl

end Manager

/-! ### One position -/

/-- A position lies over the cell of its slot. -/
theorem Position.make_eq_ok {region : Region} {id : SlotId} {reclaimer : Option Reclaimer}
    {p : Position} (hp : make region id reclaimer = .ok p) :
    ∃ c, region.slotCell id = .ok c ∧ p = .onCell id c reclaimer := by
  unfold make at hp
  split at hp
  · cases hp
  · rename_i c hc
    exact ⟨c, hc, (Except.ok.inj hp).symm⟩

theorem Position.write_eq_ok {p : Position} {m m' : Memory} {tier : WriteTier} {v : Int64}
    (hp : p.write m tier v = .ok m') : p.closed = false ∧ m' = m.store p.cell v := by
  unfold write at hp
  split at hp
  · cases hp
  · rename_i hopen
    exact ⟨Bool.eq_false_iff.mpr hopen, (Except.ok.inj hp).symm⟩

theorem proposeMax_taken {current proposed value : Int64}
    (hp : proposeMax current proposed = (value, true)) : value = proposed := by
  unfold proposeMax at hp
  split at hp
  · exact (Prod.mk.inj hp).1.symm
  · cases (Prod.mk.inj hp).2

/-- A proposal is taken and writes its value, or changes nothing. -/
theorem Position.propose_eq_ok {p : Position} {m m' : Memory} {tier : ProposalTier} {v : Int64}
    {moved : Bool} (hp : p.propose m tier v = .ok (moved, m')) :
    (moved = true ∧ m' = m.store p.cell v) ∨ (moved = false ∧ m' = m) := by
  unfold propose at hp
  split at hp
  · cases hp
  · split at hp
    · rename_i value hvalue
      obtain ⟨rfl, rfl⟩ := Prod.mk.inj (Except.ok.inj hp)
      rw [proposeMax_taken hvalue]
      exact Or.inl ⟨rfl, rfl⟩
    · obtain ⟨rfl, rfl⟩ := Prod.mk.inj (Except.ok.inj hp)
      exact Or.inr ⟨rfl, rfl⟩

namespace Host

open Manager (Action)

/-! ### Reclaimers -/

/-- What a slot comes to that is given to a reclaimer, if there is one. -/
inductive GivesBack (h : Host) (id : SlotId) :
    Option Reclaimer → Option (Nat × Action) → Host → Prop
  | nobody : GivesBack h id none none h
  | recorder (k : Nat) : GivesBack h id (some (.recorder k)) none
      { h with recorders := h.recorders.modify k (· ++ [id]) }
  | absent {k : Nat} (hk : h.managers[k]? = none) :
      GivesBack h id (some (.manager k)) none h
  | manager {k : Nat} {m m' : Manager} {outcome : FreeOutcome} (hk : h.managers[k]? = some m)
      (hm : m.Follows h.clock (some (.free id outcome)) m') :
      GivesBack h id (some (.manager k)) (some (k, .free id outcome))
        ({ h with managers := h.managers.set k m' }.emit (outcome.event id))

/-- What stands in a list after one entry is replaced. -/
theorem getElem?_set_some {β : Type} {l : List β} {k : Nat} {a : β} (hk : l[k]? = some a) (j : Nat)
    (x : β) : (l.set j x)[k]? = some (if j = k then x else a) := by
  have hlt : k < l.length := (List.getElem?_eq_some_iff.mp hk).1
  rw [List.getElem?_set]
  by_cases he : j = k
  · subst he
    rw [if_pos rfl, if_pos hlt, if_pos rfl]
  · rw [if_neg he, if_neg he, hk]

theorem set_eq_self {β : Type} {l : List β} {k : Nat} {a : β} (hk : l[k]? = some a) :
    l.set k a = l := by
  obtain ⟨hlt, hget⟩ := List.getElem?_eq_some_iff.mp hk
  rw [← hget, List.set_getElem_self]

/-- A manager that is given a slot changes itself at most, and answers once. -/
theorem release_eq {h : Host} {k : Nat} {m : Manager} (hk : h.managers[k]? = some m) (id : SlotId) :
    h.release k id = { h with managers := h.managers.set k (m.free h.clock id).2 }.emit
      ((m.free h.clock id).1.event id) := by
  have hf := m.free_follows h.clock id
  have hsame := set_eq_self hk
  simp only [release, hk]
  generalize m.free h.clock id = out at hf ⊢
  obtain ⟨outcome, m'⟩ := out
  cases hf with
  | freed => rfl
  | outside => simp only [hsame, FreeOutcome.event]
  | unallocated => simp only [hsame, FreeOutcome.event]

theorem release_of_none {h : Host} {k : Nat} (hk : h.managers[k]? = none) (id : SlotId) :
    h.release k id = h := by
  simp only [release, hk]

theorem release_gives (h : Host) (k : Nat) (id : SlotId) :
    ∃ d, h.GivesBack id (some (.manager k)) d (h.release k id) := by
  cases hk : h.managers[k]? with
  | none =>
    rw [release_of_none hk]
    exact ⟨none, .absent hk⟩
  | some m =>
    rw [release_eq hk]
    exact ⟨_, .manager hk (m.free_follows h.clock id)⟩

/-! ### Bytes and files -/

/-- To empty a file is to replace its backing, or to add an empty one. -/
theorem emptyFile_eq_ok {h h' : Host} {path : String} {k : Nat}
    (he : h.emptyFile path = .ok (k, h')) :
    (∃ l, h.disk.findToWrite path = .ok (.file l k) ∧
        h' = { h with memory := h.memory.replace k (.zeros 0) }) ∨
      ∃ l, h.disk.findToWrite path = .ok (.vacant l) ∧ k = h.memory.backings.length ∧
        h' = { h with memory := (h.memory.add (.zeros 0)).2, disk := h.disk.put l (.file k) } := by
  unfold emptyFile at he
  split at he
  · cases he
  · cases he
  · rename_i l k' hfind
    obtain ⟨rfl, rfl⟩ := Prod.mk.inj (Except.ok.inj he)
    exact Or.inl ⟨l, hfind, rfl⟩
  · rename_i l hfind
    obtain ⟨rfl, rfl⟩ := Prod.mk.inj (Except.ok.inj he)
    exact Or.inr ⟨l, hfind, rfl, rfl⟩

/-- Nothing but memory and the disk changes then. -/
theorem emptyFile_keeps {h h' : Host} {path : String} {k : Nat}
    (he : h.emptyFile path = .ok (k, h')) :
    ∃ memory disk, h' = { h with memory := memory, disk := disk } := by
  rcases emptyFile_eq_ok he with ⟨l, -, rfl⟩ | ⟨l, -, -, rfl⟩
  · exact ⟨_, _, rfl⟩
  · exact ⟨_, _, rfl⟩

/-- What an operation answers that is about bytes and files, and what memory,
the disk and the events are after it. -/
inductive OnBytes (h : Host) :
    Op → Except Failure Result → Memory → Disk → List Event → Prop
  | buffer {capacity length base : UInt64} {memory : Memory}
      (hlength : bufferLength capacity = .ok length)
      (hreserve : h.memory.reserve? length.toNat = some (base, memory)) :
      OnBytes h (.makeBuffer capacity)
        (.ok (.region ⟨base, length, memory.backings.length, 0⟩))
        (memory.add (.zeros length.toNat)).2 h.disk h.events
  /-- The file was emptied already. -/
  | tooLong {path : String} {length : UInt64} {k : Nat} {h' : Host} (hlength : length ≠ 0)
      (he : h.emptyFile path = .ok (k, h')) :
      OnBytes h (.createMapping path length) (.error (.error (.system .lengthTooLarge)))
        h'.memory h'.disk h.events
  /-- So it was, and made as long as it should be. -/
  | crowded {path : String} {length : UInt64} {k : Nat} {h' : Host} (hlength : length ≠ 0)
      (he : h.emptyFile path = .ok (k, h')) :
      OnBytes h (.createMapping path length) (.error (.error (.system .outOfMemory)))
        (h'.memory.replace k (.zeros length.toNat)) h'.disk h.events
  | created {path : String} {length base : UInt64} {k : Nat} {h' : Host} {memory : Memory}
      (hlength : length ≠ 0) (he : h.emptyFile path = .ok (k, h'))
      (hreserve : (h'.memory.replace k (.zeros length.toNat)).reserve? length.toNat =
        some (base, memory)) :
      OnBytes h (.createMapping path length)
        (.ok (.region ⟨base, UInt64.ofNat length.toNat, k, 0⟩)) memory h'.disk
        (h.events ++ [.regionCreated path length])
  | opened {path : String} {l : Location} {k : Nat} {b : Backing} {base : UInt64} {memory : Memory}
      (hfind : h.disk.find path = .ok (.file l k)) (hb : h.memory.backings[k]? = some b)
      (hreserve : h.memory.reserve? b.size = some (base, memory)) :
      OnBytes h (.openMapping path) (.ok (.region ⟨base, UInt64.ofNat b.size, k, 0⟩)) memory h.disk
        (h.events ++ [.regionOpened path (UInt64.ofNat b.size)])
  | filled {path : String} {bytes : List UInt8} {k : Nat} {h' : Host}
      (he : h.emptyFile path = .ok (k, h')) :
      OnBytes h (.writeFile path bytes) (.ok .done) (h'.memory.replace k (.ofList bytes)) h'.disk
        h.events
  | begun {path : String} {bytes : List UInt8} {k : Nat} {h' : Host}
      (hnone : h.disk.file? path = none) (he : h.emptyFile path = .ok (k, h')) :
      OnBytes h (.appendFile path bytes) (.ok .done) (h'.memory.replace k (.ofList bytes)) h'.disk
        h.events
  | appended {path : String} {bytes : List UInt8} {k : Nat} (hk : h.disk.file? path = some k) :
      OnBytes h (.appendFile path bytes) (.ok .done)
        { h.memory with backings := h.memory.backings.modify k (·.append bytes) } h.disk h.events
  | removed {path : String} (l : Location) :
      OnBytes h (.removeFile path) (.ok .done) h.memory (h.disk.erase l) h.events
  | directory (path : String) :
      OnBytes h (.makeDirectory path) (.ok .done) h.memory
        (h.disk.makeDirectories (Disk.origin path) (Disk.components path)) h.events
  | written {p : Nat} {q : Position} {tier : WriteTier} {v : Int64}
      (hp : h.positions[p]? = some q) (hopen : q.closed = false) :
      OnBytes h (.write p tier v) (.ok .done) (h.memory.store q.cell v) h.disk h.events
  | taken {p : Nat} {q : Position} {tier : ProposalTier} {v : Int64}
      (hp : h.positions[p]? = some q) :
      OnBytes h (.propose p tier v) (.ok (.moved true)) (h.memory.store q.cell v) h.disk h.events
  | kept {p : Nat} {tier : ProposalTier} {v : Int64} :
      OnBytes h (.propose p tier v) (.ok (.moved false)) h.memory h.disk h.events

/-! ### Everything -/

/-- The operation gives a slot back, or closes a position. -/
def Op.isReturn : Op → Bool
  | .free .. | .close _ => true
  | _ => false

/-- What an operation may come to, with what it does to a manager. -/
inductive Does (h : Host) : Op → Option (Nat × Action) → Outcome → Prop
  /-- It has no result, and nothing has changed. -/
  | fails {op : Op} (f : Failure) (hop : op.isReturn = false) : Does h op none (.error f, h)
  | bytes {op : Op} {answer : Except Failure Result} {memory : Memory} {disk : Disk}
      {events : List Event} (hb : h.OnBytes op answer memory disk events) :
      Does h op none (answer, { h with memory := memory, disk := disk, events := events })
  | wait (n : Nat) : Does h (.wait n) none (.ok .done, { h with clock := h.clock + n })
  | addRecorder : Does h .addRecorder none
      (.ok (.made h.recorders.length), { h with recorders := h.recorders ++ [[]] })
  | manage {region : Region} {settings : Settings} {m : Manager}
      (hm : Manager.make region settings = .ok m) :
      Does h (.manage region settings) none (.ok (.made h.managers.length),
        { h with managers := h.managers ++ [m] }.emit
          (.managerReady settings.maxCounters region.capacity))
  | allocate {k i : Nat} {label : String} {m m' : Manager} {c : Cell}
      (hk : h.managers[k]? = some m) (hm : m.Follows h.clock (some (.grant i label)) m')
      (hc : m'.cell (Int32.ofNat i) = .ok c) :
      Does h (.allocate k label) (some (k, .grant i label)) (.ok (.slot (Int32.ofNat i)),
        { h with managers := h.managers.set k m', memory := h.memory.store c 0 }.emit
          (.allocated (Int32.ofNat i) label))
  /-- The slot has been handed out, but it has no cell. -/
  | lacks {k i : Nat} {label : String} {m m' : Manager} {e : Error}
      (hk : h.managers[k]? = some m) (hm : m.Follows h.clock (some (.grant i label)) m')
      (hc : m'.cell (Int32.ofNat i) = .error e) :
      Does h (.allocate k label) (some (k, .grant i label))
        (.error (.error e), { h with managers := h.managers.set k m' })
  | freeNone {k : Nat} {id : SlotId} (hk : h.managers[k]? = none) :
      Does h (.free k id) none (.error .noSuch, h)
  | free {k : Nat} {id : SlotId} {d : Option (Nat × Action)} {h' : Host}
      (hk : k < h.managers.length) (hback : h.GivesBack id (some (.manager k)) d h') :
      Does h (.free k id) d (.ok .done, h')
  | own {k : Nat} {id : SlotId} {m m' : Manager} {c : Cell} (hk : h.managers[k]? = some m)
      (hm : m.Follows h.clock (some (.own id)) m') (hc : m.region.slotCell id = .ok c) :
      Does h (.own k id) (some (k, .own id))
        (addPosition { h with managers := h.managers.set k m' }
          (.onCell id c (some (.manager k))))
  | watch {k : Nat} {id : SlotId} {m : Manager} {c : Cell} (hk : h.managers[k]? = some m)
      (hc : m.region.slotCell id = .ok c) :
      Does h (.watch k id) none (h.addPosition (.onCell id c none))
  | place {region : Region} {id : SlotId} {reclaimer : Option Reclaimer} {c : Cell}
      (hc : region.slotCell id = .ok c) :
      Does h (.place region id reclaimer) none (h.addPosition (.onCell id c reclaimer))
  | closeNone {p : Nat} (hp : h.positions[p]? = none) :
      Does h (.close p) none (.error .noSuch, h)
  /-- The position has been closed before. -/
  | again {p : Nat} {q : Position} (hp : h.positions[p]? = some q) (hclosed : q.closed = true) :
      Does h (.close p) none (.ok .done, h)
  /-- A first close marks the position, gives its slot back and is reported. -/
  | close {p : Nat} {q : Position} {d : Option (Nat × Action)} {h' : Host}
      (hp : h.positions[p]? = some q) (hopen : q.closed = false)
      (hback : GivesBack { h with positions := h.positions.set p q.close } q.id q.reclaimer d h') :
      Does h (.close p) d (.ok .done, h'.emit (.positionClosed q.id))

theorem makeBuffer_does (h : Host) (capacity : UInt64) :
    h.Does (.makeBuffer capacity) none (h.makeBuffer capacity) := by
  unfold makeBuffer
  split
  · exact .fails _ rfl
  · rename_i length hlength
    split
    · exact .fails _ rfl
    · rename_i base memory hreserve
      exact .bytes (.buffer hlength hreserve)

theorem createMapping_does (h : Host) (path : String) (length : UInt64) :
    h.Does (.createMapping path length) none (h.createMapping path length) := by
  unfold createMapping
  split
  · exact .fails _ rfl
  · rename_i hlength
    split
    · exact .fails _ rfl
    · rename_i k h' he
      obtain ⟨memory, disk, rfl⟩ := emptyFile_keeps he
      split
      · exact .bytes (.tooLong hlength he)
      · unfold mapBacking
        split
        · have hb := OnBytes.crowded hlength he
          exact .bytes hb
        · rename_i base memory' hreserve
          have hb := OnBytes.created hlength he hreserve
          exact .bytes hb

theorem openMapping_does (h : Host) (path : String) :
    h.Does (.openMapping path) none (h.openMapping path) := by
  unfold openMapping
  split
  · exact .fails _ rfl
  · exact .fails _ rfl
  · exact .fails _ rfl
  · rename_i l k hfind
    split
    · exact .fails _ rfl
    · rename_i b hb
      split
      · exact .fails _ rfl
      · unfold mapBacking
        split
        · exact .fails _ rfl
        · rename_i base memory hreserve
          exact .bytes (.opened hfind hb hreserve)

/-- To give a file new bytes, in whichever way it was asked for. -/
theorem writeFile_does {h : Host} {op : Op} (hop : op.isReturn = false) (path : String)
    (bytes : List UInt8)
    (hfilled : ∀ {k : Nat} {h' : Host}, h.emptyFile path = .ok (k, h') →
      h.OnBytes op (.ok .done) (h'.memory.replace k (.ofList bytes)) h'.disk h.events) :
    h.Does op none (h.writeFile path bytes) := by
  unfold writeFile
  split
  · exact .fails _ hop
  · rename_i k h' he
    have hb := hfilled he
    obtain ⟨memory, disk, rfl⟩ := emptyFile_keeps he
    exact .bytes hb

theorem appendFile_does (h : Host) (path : String) (bytes : List UInt8) :
    h.Does (.appendFile path bytes) none (h.appendFile path bytes) := by
  unfold appendFile
  split
  · rename_i k hk
    exact .bytes (.appended hk)
  · rename_i hnone
    exact writeFile_does rfl path bytes fun he => .begun hnone he

theorem removeFile_does (h : Host) (path : String) :
    h.Does (.removeFile path) none (h.removeFile path) := by
  unfold removeFile
  split
  · exact .fails _ rfl
  · exact .fails _ rfl
  · exact .fails _ rfl
  · rename_i l k hfind
    exact .bytes (.removed l)

theorem write_does (h : Host) (p : Nat) (tier : WriteTier) (v : Int64) :
    h.Does (.write p tier v) none (h.write p tier v) := by
  unfold write
  split
  · exact .fails _ rfl
  · rename_i q hp
    split
    · exact .fails _ rfl
    · rename_i memory hq
      obtain ⟨hopen, rfl⟩ := Position.write_eq_ok hq
      exact .bytes (.written hp hopen)

theorem propose_does (h : Host) (p : Nat) (tier : ProposalTier) (v : Int64) :
    h.Does (.propose p tier v) none (h.propose p tier v) := by
  unfold propose
  split
  · exact .fails _ rfl
  · rename_i q hp
    split
    · exact .fails _ rfl
    · rename_i moved memory hq
      rcases Position.propose_eq_ok hq with ⟨rfl, rfl⟩ | ⟨rfl, rfl⟩
      · exact .bytes (.taken hp)
      · exact .bytes .kept

theorem manage_does (h : Host) (region : Region) (settings : Settings) :
    h.Does (.manage region settings) none (h.manage region settings) := by
  unfold manage
  split
  · exact .fails _ rfl
  · rename_i m hm
    exact .manage hm

theorem allocate_does (h : Host) (k : Nat) (label : String) :
    ∃ d, h.Does (.allocate k label) d (h.allocate k label) := by
  cases hk : h.managers[k]? with
  | none =>
    simp only [allocate, hk]
    exact ⟨none, .fails _ rfl⟩
  | some m =>
    rcases m.allocate_cases h.clock label with hout | ⟨i, m', hm, ⟨e, hc, hout⟩ | ⟨c, hc, hout⟩⟩
    · simp only [allocate, hk, hout, set_eq_self hk]
      exact ⟨none, .fails _ rfl⟩
    · simp only [allocate, hk, hout]
      exact ⟨_, .lacks hk hm hc⟩
    · simp only [allocate, hk, hout]
      exact ⟨_, .allocate hk hm hc⟩

theorem free_does (h : Host) (k : Nat) (id : SlotId) :
    ∃ d, h.Does (.free k id) d (h.free k id) := by
  unfold free
  split
  · rename_i hk
    obtain ⟨d, hback⟩ := h.release_gives k id
    exact ⟨d, .free hk hback⟩
  · rename_i hk
    exact ⟨none, .freeNone (List.getElem?_eq_none (Nat.le_of_not_lt hk))⟩

theorem own_does (h : Host) (k : Nat) (id : SlotId) : ∃ d, h.Does (.own k id) d (h.own k id) := by
  unfold own
  split
  · exact ⟨none, .fails _ rfl⟩
  · rename_i m hk
    split
    · exact ⟨none, .fails _ rfl⟩
    · rename_i c m' hclaim
      obtain ⟨i, s, hi, hslot, halloc, hfree, hc, rfl⟩ := Manager.claim_eq_ok hclaim
      exact ⟨_, .own hk (.own hi hslot halloc hfree) hc⟩

theorem watch_does (h : Host) (k : Nat) (id : SlotId) :
    h.Does (.watch k id) none (h.watch k id) := by
  unfold watch
  split
  · exact .fails _ rfl
  · rename_i m hk
    split
    · exact .fails _ rfl
    · rename_i c hc
      exact .watch hk (Manager.readerCell_eq hc)

theorem place_does (h : Host) (region : Region) (id : SlotId) (reclaimer : Option Reclaimer) :
    h.Does (.place region id reclaimer) none (h.place region id reclaimer) := by
  unfold place
  split
  · exact .fails _ rfl
  · rename_i p hp
    obtain ⟨c, hc, rfl⟩ := Position.make_eq_ok hp
    exact .place hc

/-- A slot that goes back to a reclaimer, or to nobody. -/
theorem giveBack_gives (h : Host) (id : SlotId) (reclaimer : Option Reclaimer) :
    ∃ d, h.GivesBack id reclaimer d
      (match reclaimer with
        | some r => h.giveBack r id
        | none => h) := by
  rcases reclaimer with _ | (k | k)
  · exact ⟨none, .nobody⟩
  · exact h.release_gives k id
  · exact ⟨none, .recorder k⟩

theorem close_does (h : Host) (p : Nat) : ∃ d, h.Does (.close p) d (h.close p) := by
  cases hp : h.positions[p]? with
  | none =>
    have hlt : ¬ p < h.positions.length := Nat.not_lt.mpr (List.getElem?_eq_none_iff.mp hp)
    rw [close, if_neg hlt]
    exact ⟨none, .closeNone hp⟩
  | some q =>
    have hlt : p < h.positions.length := (List.getElem?_eq_some_iff.mp hp).1
    rw [close, if_pos hlt, shut, hp]
    cases hc : q.closed with
    | true =>
      simp only [hc, if_true]
      exact ⟨none, .again hp hc⟩
    | false =>
      simp only [hc, Bool.false_eq_true, if_false]
      obtain ⟨d, hback⟩ :=
        giveBack_gives { h with positions := h.positions.set p q.close } q.id q.reclaimer
      exact ⟨d, .close hp hc hback⟩

/-- Every operation comes to something that is listed. -/
theorem step_does (h : Host) (op : Op) : ∃ d, h.Does op d (h.step op) := by
  cases op with
  | makeBuffer capacity => exact ⟨none, h.makeBuffer_does capacity⟩
  | createMapping path length => exact ⟨none, h.createMapping_does path length⟩
  | openMapping path => exact ⟨none, h.openMapping_does path⟩
  | writeFile path bytes => exact ⟨none, writeFile_does rfl path bytes fun he => .filled he⟩
  | appendFile path bytes => exact ⟨none, h.appendFile_does path bytes⟩
  | removeFile path => exact ⟨none, h.removeFile_does path⟩
  | makeDirectory path => exact ⟨none, .bytes (.directory path)⟩
  | wait n => exact ⟨none, .wait n⟩
  | addRecorder => exact ⟨none, .addRecorder⟩
  | manage region settings => exact ⟨none, h.manage_does region settings⟩
  | allocate k label => exact h.allocate_does k label
  | free k id => exact h.free_does k id
  | own k id => exact h.own_does k id
  | watch k id => exact ⟨none, h.watch_does k id⟩
  | place region id reclaimer => exact ⟨none, h.place_does region id reclaimer⟩
  | write k tier v => exact ⟨none, h.write_does k tier v⟩
  | propose k tier v => exact ⟨none, h.propose_does k tier v⟩
  | close k => exact h.close_does k

/-- How an owner was made. -/
theorem own_eq_made {h h' : Host} {k p : Nat} {id : SlotId}
    (hown : h.step (.own k id) = (.ok (.made p), h')) :
    ∃ m m' c, h.managers[k]? = some m ∧ m.Follows h.clock (some (.own id)) m' ∧
      m.region.slotCell id = .ok c ∧ p = h.positions.length ∧
      h' = (addPosition { h with managers := h.managers.set k m' }
        (.onCell id c (some (.manager k)))).2 := by
  obtain ⟨d, hd⟩ := h.step_does (.own k id)
  generalize h.step (.own k id) = o at hd hown
  cases hd with
  | fails f hop => cases hown
  | bytes hb => cases hb
  | own hk hm hc =>
    obtain ⟨hmade, rfl⟩ := Prod.mk.inj hown
    exact ⟨_, _, _, hk, hm, hc, (Result.made.inj (Except.ok.inj hmade)).symm, rfl⟩

end Host
end LockFree.Counters
