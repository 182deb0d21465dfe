/-
# Reuse in turn

What the log of a manager says about every run: slots are handed out again in
the order in which they were freed, none before its turn and none sooner after
its free than the quarantine. From the free of a slot until the reuse that
answers it the slot waits, and all that time the manager leaves the slot's
value alone: whoever still reads it sees what positions write, or what comes
from outside, another manager of the same bytes or new contents of a file.

Key definition: `Host.Elsewhere`.
Key theorems: `History.Accounts.mem_waiting`, `Host.reuses_in_turn`.
-/
import LockFree.Proofs.Counters.Choice

namespace LockFree.Counters

/-! ### Frees that wait -/

namespace History

variable {log : History} {n quarantine : Nat} {r : Registry}

theorem frees_append (log more : History) : frees (log ++ more) = frees log ++ frees more := by
  rw [frees, List.filterMap_append]
  rfl

/-- Reuses take the frees in their order. -/
theorem Accounts.reuses_prefix (ha : Accounts log n quarantine r) :
    (reuses [] log).map Prod.fst <+: (frees log).map Prod.fst := by
  obtain ⟨answered, hfrees, hrests⟩ := ha.queue
  have hslots : (reuses [] log).map Prod.fst = answered.map Prod.fst := by
    clear hfrees
    generalize reuses [] log = reused at hrests
    induction hrests with
    | nil => rfl
    | cons hrested _ ih => rw [List.map_cons, List.map_cons, hrested.slot, ih]
  rw [hfrees, List.map_append, hslots]
  exact List.prefix_append _ _

/-- None is answered too early. -/
theorem Accounts.rested (ha : Accounts log n quarantine r) {j : Nat} {reuse free : SlotId × Nat}
    (hreuse : (reuses [] log)[j]? = some reuse) (hfree : (frees log)[j]? = some free) :
    free.2 + quarantine ≤ reuse.2 := by
  obtain ⟨answered, hfrees, hrests⟩ := ha.queue
  obtain ⟨hj, rfl⟩ := List.getElem?_eq_some_iff.mp hreuse
  have hj' : j < answered.length := hrests.length_eq ▸ hj
  rw [hfrees, List.getElem?_append_left hj', List.getElem?_eq_getElem hj'] at hfree
  obtain rfl := Option.some.inj hfree
  exact (hrests.get hj hj').rested

/-- A free that has not been answered waits. -/
theorem Accounts.mem_waiting (ha : Accounts log n quarantine r) {j : Nat} {free : SlotId × Nat}
    (hfree : (frees log)[j]? = some free) (hj : (reuses [] log).length ≤ j) :
    free ∈ r.waiting := by
  obtain ⟨answered, hfrees, hrests⟩ := ha.queue
  have hle : answered.length ≤ j := hrests.length_eq ▸ hj
  rw [hfrees, List.getElem?_append_right hle] at hfree
  exact List.mem_of_getElem? hfree

end History

namespace Host

/-! ### Who writes to a slot that waits -/

/-- Operations by which others than manager `k` may change byte `i` of a cell:
writes and proposals through positions, allocations by another manager of the
same bytes, and new contents of a file. -/
inductive Elsewhere (h : Host) (k : Nat) (c : Cell) (i : Nat) (op : Op) : Prop
  | position {p : Nat} {q : Position} (hop : op.through? = some p)
      (hp : h.positions[p]? = some q) (hq : q.cell.Covers c.backing i)
  | manager {j : Nat} {m : Manager} {label : String} (hop : op = .allocate j label) (hne : j ≠ k)
      (hj : h.managers[j]? = some m) (hm : m.region.backing = c.backing)
  | file {s : Nat} (hop : h.rewritten? op = some (c.backing, s)) (hs : s ≤ i)

/-- Only manager `k` itself, when it hands a slot out, changes a cell other than
from elsewhere. -/
theorem elsewhere_or_granted {h : Host} {k : Nat} {c : Cell} {i : Nat} {op : Op}
    (hne : (h.step op).2.memory.byte c.backing i ≠ h.memory.byte c.backing i) :
    h.Elsewhere k c i op ∨ ∃ m label id c', op = .allocate k label ∧ h.managers[k]? = some m ∧
      (h.step op).1 = .ok (.slot id) ∧ m.cell id = .ok c' ∧ c'.Covers c.backing i := by
  rcases byte_changed hne with ⟨c', v, hw, hcovers⟩ | ⟨s, hs, hr⟩
  · rcases written?_cases hw with ⟨p, q, hop, hp, rfl⟩ | ⟨j, label, m, id, hop, hj, hid, hcell⟩
    · exact Or.inl (.position hop hp hcovers)
    · by_cases hjk : j = k
      · subst hjk
        exact Or.inr ⟨m, label, id, c', hop, hj, hid, hcell, hcovers⟩
      · obtain ⟨offset, hoffset⟩ := Manager.cell_eq_ok hcell
        obtain ⟨-, rfl⟩ := Region.cell_eq_ok_iff.mp hoffset
        exact Or.inl (.manager hop hjk hj hcovers.1)
  · exact Or.inl (.file hr hs)

/-! ### Runs -/

/-- What the log of a manager says about a run. -/
structure ReusesInTurn (ops : List Op) (k : Nat) (m : Manager) : Prop where
  /-- Slots are handed out again in the order in which they were freed. -/
  order : (History.reuses [] (history {} k ops)).map Prod.fst <+:
    (History.frees (history {} k ops)).map Prod.fst
  /-- Each reuse comes at least the quarantine after the free that it answers. -/
  rested : ∀ (n : Nat) (reuse free : SlotId × Nat),
    (History.reuses [] (history {} k ops))[n]? = some reuse →
      (History.frees (history {} k ops))[n]? = some free →
        free.2 + m.quarantine.nanoseconds ≤ reuse.2
  /-- After the free of a slot, as long as that free has not been answered, the
  next operation changes the slot's value only if it comes from elsewhere. -/
  quiet : ∀ before op between id time, ops = before ++ op :: between →
    (run {} before).logged? k op = some (.freed id time) →
    ∀ next, (History.reuses [] (history {} k (ops ++ [next]))).length ≤
        (History.frees (history {} k before)).length →
      ∃ c, m.cell id = .ok c ∧ ∀ i, c.Covers c.backing i →
        ((run {} ops).step next).2.memory.byte c.backing i ≠ (run {} ops).memory.byte c.backing i →
          (run {} ops).Elsewhere k c i next

/-- A slot that was freed waits until its free is answered. -/
theorem freed_waits {ops before between : List Op} {op : Op} {k : Nat} {id : SlotId} {time : Nat}
    (hops : ops = before ++ op :: between)
    (hentry : (run {} before).logged? k op = some (.freed id time)) {m : Manager}
    (hk : (run {} ops).managers[k]? = some m) (hr : m.region.Addressable)
    (hle : (History.reuses [] (history {} k ops)).length ≤
      (History.frees (history {} k before)).length) :
    ∃ i s, id = Int32.ofNat i ∧ i < m.maxCounters.toNat ∧ m.registry.slot? i = some s ∧
      s.state = .reclaimed := by
  have ha := (accounts_run ops k).2 m hk hr
  obtain ⟨frontier, hm⟩ := manager_sound_run hk hr
  have hfree : (History.frees (history {} k ops))[(History.frees (history {} k before)).length]? =
      some (id, time) := by
    rw [hops, history_append, history, hentry, History.frees_append,
      List.getElem?_append_right (Nat.le_refl _), Nat.sub_self]
    rfl
  obtain ⟨i, hi, hid⟩ := Registry.exists_of_mem_waiting (ha.mem_waiting hfree hle)
  obtain ⟨s, hslot, hstate⟩ := (hm.sound.waiting i).mp hi
  exact ⟨i, s, hid, hm.sound.slot?_lt hslot, hslot, hstate⟩

/-- A manager answers the frees of a run in the order in which they came, each no
sooner than a quarantine after it, and a slot's value is left alone in between. -/
theorem reuses_in_turn (ops : List Op) (k : Nat) (m : Manager)
    (hk : (run {} ops).managers[k]? = some m) (hr : m.region.Addressable) :
    ReusesInTurn ops k m := by
  have ha := (accounts_run ops k).2 m hk hr
  obtain ⟨frontier, hm⟩ := manager_sound_run hk hr
  refine ⟨ha.reuses_prefix, fun n reuse free => ha.rested, ?_⟩
  intro before op between id time hops hentry next hle
  have hrun : run {} (ops ++ [next]) = ((run {} ops).step next).2 := by simp [run]
  obtain ⟨a, m', hk', hf⟩ := (run {} ops).exists_follows next hk
  have hnext : ops ++ [next] = before ++ op :: (between ++ [next]) := by simp [hops]
  obtain ⟨j, s, hid, hj, hslot, hstate⟩ := freed_waits hnext hentry (hrun ▸ hk')
    (hf.alike.region ▸ hr) hle
  rw [hf.alike.maxCounters] at hj
  have hcell := hm.placed.cell_ofNat hr hj
  rw [← hid] at hcell
  refine ⟨_, hcell, fun i hi hne => ?_⟩
  rcases elsewhere_or_granted (k := k) hne with
    helse | ⟨m₁, label, id', c', rfl, hk₁, hout, hcell', hcovers⟩
  · exact helse
  · -- The slot that is handed out is another one, for this one still waits.
    obtain rfl := Option.some.inj (hk.symm.trans hk₁)
    cases hturn : m.registry.next? (run {} ops).clock m.quarantine.nanoseconds with
    | none =>
      rw [step, allocate_eq hk hm, hturn] at hout
      cases hout
    | some turn =>
      obtain ⟨hanswer, hgrants⟩ := allocate_grants hk hm hturn label
      obtain rfl := Result.slot.inj (Except.ok.inj (hout.symm.trans hanswer))
      obtain rfl := Except.ok.inj (hcell'.symm.trans (hm.placed.cell_ofNat hr hgrants.lt))
      have hgranted := hgrants.slot? hk (hm.sound.length.symm ▸ hgrants.lt) hk'
      have hother : turn.1 ≠ j := by
        rintro rfl
        obtain rfl := Option.some.inj (hslot.symm.trans hgranted)
        cases hstate
      exact absurd hi (m.region.slotAt_apart hother _ _ hcovers)

/-- Two slots that are freed one after the other; the first is handed out again
after a quarantine of one millisecond. -/
def freedTwice : List Op :=
  [.manage ⟨128, 256, 0, 0⟩ ⟨2, 1⟩, .allocate 0 "a", .allocate 0 "b", .free 0 1, .wait 5, .free 0 0,
    .wait 1000000, .allocate 0 "c"]

theorem reuses_in_turn_freedTwice :
    History.reuses [] (history {} 0 freedTwice) = [(1, 1000005)] ∧
      History.frees (history {} 0 freedTwice) = [(1, 0), (0, 5)] ∧
      ∃ m, (run {} freedTwice).managers[0]? = some m ∧ m.region.Addressable ∧
        ReusesInTurn freedTwice 0 m := by
  have hk : (run {} freedTwice).managers[0]? = some ⟨⟨128, 256, 0, 0⟩, 2, ⟨1000000⟩,
      ⟨[(Slot.granted "a").reclaimed 5, .granted "c"], [0]⟩⟩ := by
    decide
  exact ⟨by decide, by decide, _, hk, by decide, reuses_in_turn freedTwice 0 _ hk (by decide)⟩

end Host
end LockFree.Counters
