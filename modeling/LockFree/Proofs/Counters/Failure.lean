/-
# Operations that fail

An operation that fails gives back the host it was given: no registry, byte,
position or recorder has changed, and nothing was reported. The one exception
is the making of a mapping, which may find only after it has emptied a file
that the length is one no file can have.

Most operations look before they touch anything. An allocation does not: it
hands its slot out before it looks for the slot's cell, so it would leave the
slot handed out if there were no cell. That never happens to a manager that was
made (`Manager.Sound.allocate_eq`). The same holds of an owner, whose cell is
looked for after everything else has been agreed to.

Key definition: `Host.Atomic`.
Key theorems: `Host.step_failed`, `Host.release_ignored`,
`Host.failure_changes_nothing`.
-/
import LockFree.Counters.Session
import LockFree.Proofs.Counters.Placement

namespace LockFree.Counters
namespace Host

/-- No operation but the making of a mapping changes anything when it fails. -/
theorem step_failed {h : Host} (hs : ∀ k, h.SoundAt k) {op : Op} {f : Failure}
    (hop : ∀ path length, op ≠ .createMapping path length) (hf : (h.step op).1 = .error f) :
    (h.step op).2 = h := by
  obtain ⟨d, hd⟩ := h.step_does op
  generalize h.step op = o at hd hf ⊢
  cases hd with
  | fails f' hret => rfl
  | freeNone hk => rfl
  | closeNone hp => rfl
  | bytes hb =>
    cases hb with
    | tooLong hlength he => exact absurd rfl (hop _ _)
    | crowded hlength he => exact absurd rfl (hop _ _)
    | _ => cases hf
  | lacks hk hfollows hc =>
    obtain ⟨frontier, hm⟩ := hs _ _ hk
    cases hc.symm.trans (hm.follows_cell hfollows)
  | _ => cases hf

/-! ### Frees that are ignored -/

/-- A manager that is given a slot which is not allocated only warns. -/
theorem release_ignored {h : Host} {k : Nat} {id : SlotId} (hlt : k < h.managers.length)
    (hfree : ¬ h.Allocated k id) : ∃ e : Event, e.level = .warn ∧ h.release k id = h.emit e := by
  have hk : h.managers[k]? = some h.managers[k] := List.getElem?_eq_getElem hlt
  rw [Allocated, hk, Option.bind_some] at hfree
  unfold release
  rw [hk]
  cases hi : Manager.index h.managers[k] id with
  | error e =>
    refine ⟨.freeOutside id, rfl, ?_⟩
    simp only [Manager.free, hi]
  | ok i =>
    obtain ⟨outcome, hout, hne⟩ := Manager.free_ignored hi hfree h.clock
    simp only [hout]
    cases outcome with
    | freed => exact absurd rfl hne
    | outside => exact ⟨.freeOutside id, rfl, rfl⟩
    | unallocated state => exact ⟨.freeUnallocated id state, rfl, rfl⟩

/-! ### All failures -/

/-- What fails leaves everything as it was. -/
structure Atomic (h : Host) : Prop where
  /-- An operation that fails, for whatever reason, changes nothing. -/
  failed : ∀ op f, (∀ path length, op ≠ .createMapping path length) →
    (h.step op).1 = .error f → (h.step op).2 = h
  /-- A free that is ignored does nothing but warn. -/
  ignored : ∀ k id, k < h.managers.length → ¬ h.Allocated k id →
    ∃ e : Event, e.level = .warn ∧ h.step (.free k id) = (.ok .done, h.emit e)
  /-- To ask for the value of a slot changes nothing. -/
  asked : ∀ s : Session, s.host = h → ∀ name id, (s.step (.value name id)).2 = s
  /-- A slot that was just handed out has a cell. -/
  granted : ∀ (k : Nat) (m : Manager), h.managers[k]? = some m → ∀ label i rest,
    m.registry.next? h.clock m.quarantine.nanoseconds = some (i, rest) →
      ∃ c, Manager.cell { m with registry := rest.grant i label } (Int32.ofNat i) = .ok c
  /-- An allocated slot without an owner gets one. -/
  owned : ∀ (k : Nat) (m : Manager), h.managers[k]? = some m → ∀ id i s, m.index id = .ok i →
    m.registry.slot? i.toNat = some s → s.state = .allocated → s.owned = false →
      ∃ c m', m.claim id = .ok (c, m')

theorem value_keeps_session (s : Session) (name : String) (id : SlotId) :
    (s.step (.value name id)).2 = s := by
  simp only [Session.step, Session.withManager]
  split
  · rfl
  · split
    · split <;> rfl
    · rfl

/-- Whatever was done to managers, positions and recorders before, over
addressable regions: an operation that fails then changes nothing, neither does
a free that is ignored, and no operation that has begun to change something
ever lacks the cell it looks for next. -/
theorem failure_changes_nothing (ops : List Op)
    (hregions : ∀ op ∈ ops, ∀ r ∈ op.region?, r.Addressable) : (run {} ops).Atomic := by
  have hsound : ∀ k, (run {} ops).SoundAt k := fun k m hk =>
    manager_sound_run hk (region_run (fun m hm => by cases hm) hregions m (List.mem_of_getElem? hk))
  refine ⟨fun op f hop => step_failed hsound hop, ?_, ?_, ?_, ?_⟩
  · intro k id hlt hfree
    obtain ⟨e, hwarn, hrelease⟩ := release_ignored hlt hfree
    refine ⟨e, hwarn, ?_⟩
    simp only [step, free, if_pos hlt, hrelease]
  · intro s _ name id
    exact value_keeps_session s name id
  · intro k m hk label i rest hnext
    obtain ⟨frontier, hm⟩ := hsound k m hk
    exact ⟨_, hm.granted_cell hnext label⟩
  · intro k m hk id i s hi hslot halloc hfree
    obtain ⟨frontier, hm⟩ := hsound k m hk
    exact ⟨_, _, hm.claim_eq hi hslot halloc hfree⟩

/-- A manager whose only slot is taken, and a position that has been closed. -/
def exhausted : List Op :=
  [.manage ⟨4096, 128, 0, 0⟩ ⟨1, 0⟩, .allocate 0 "a", .watch 0 0, .close 0]

theorem failures_on_exhausted :
    (∀ op ∈ exhausted, ∀ r ∈ op.region?, r.Addressable) ∧
      (run {} exhausted).step (.allocate 0 "b") =
        (.error (.error (.capacityExhausted 1)), run {} exhausted) ∧
      (run {} exhausted).step (.write 0 .plain 7) =
        (.error (.misuse (.write 0)), run {} exhausted) := by
  have hregions : ∀ op ∈ exhausted, ∀ r ∈ op.region?, r.Addressable := by decide
  have hatomic := failure_changes_nothing exhausted hregions
  have hallocate : ((run {} exhausted).step (.allocate 0 "b")).1 =
      .error (.error (.capacityExhausted 1)) := by decide
  have hwrite : ((run {} exhausted).step (.write 0 .plain 7)).1 = .error (.misuse (.write 0)) := by
    decide
  exact ⟨hregions, Prod.ext hallocate (hatomic.failed _ _ nofun hallocate),
    Prod.ext hwrite (hatomic.failed _ _ nofun hwrite)⟩

end Host
end LockFree.Counters
