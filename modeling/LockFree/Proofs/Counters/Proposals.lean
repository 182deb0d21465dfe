/-
# Proposals only raise a value

A proposal reads its cell and writes it only if the proposed value is greater.
So in a run in which a cell is only proposed to (`Host.OnlyProposedTo`), by
whichever positions and in whichever tiers, the cell holds at every moment the
greatest of the value that it started from and of those that were proposed by
then. All else follows from that: the value never falls, a proposal is taken
exactly if it is greater than all that came before it, and where the run ends
does not depend on the order of the proposals.

Other operations may come in between as long as they leave the eight bytes
alone, and positions may be opened, closed and misused.

Key definitions: `Host.proposals`, `Host.OnlyProposedTo`, `Host.IsTop`,
`Host.Raised`.
Key theorems: `Host.load_proposal`, `Host.isTop_run`,
`Host.raised_run`.
-/
import LockFree.Proofs.Counters.Handles
import LockFree.Proofs.Counters.LastWriter
import Mathlib.Order.Bounds.Basic

namespace LockFree.Counters

/-! ### One proposal -/

theorem proposeMax_of_lt {current proposed : Int64} (hlt : current < proposed) :
    proposeMax current proposed = (proposed, true) :=
  if_pos hlt

theorem proposeMax_of_not_lt {current proposed : Int64} (hlt : ¬ current < proposed) :
    proposeMax current proposed = (current, false) :=
  if_neg hlt

namespace Host

/-- The bytes of the cell are there. -/
def Backs (h : Host) (c : Cell) : Prop := c.backing < h.memory.backings.length

instance (h : Host) (c : Cell) : Decidable (h.Backs c) := inferInstanceAs (Decidable (_ < _))

/-- Every position of a run over windows of mappings is on a cell of memory. -/
theorem Grounded.backs {h : Host} {mapped : List Region} (hg : h.Grounded mapped) {q : Position}
    (hq : q ∈ h.positions) : h.Backs q.cell := by
  obtain ⟨root, hroot, hlies⟩ := hg.positions q hq
  rw [Backs, hlies.backing]
  exact hg.backing root hroot

theorem Backs.step {h : Host} {c : Cell} (hc : h.Backs c) (op : Op) : (h.step op).2.Backs c :=
  Nat.lt_of_lt_of_le hc (h.step_touches op).backings

theorem Backs.run {h : Host} {c : Cell} (hc : h.Backs c) (ops : List Op) : (h.run ops).Backs c := by
  induction ops generalizing h with
  | nil => exact hc
  | cons op ops ih => exact ih (hc.step op)

/-- The value that an operation proposes to the cell, through an open position
on it. -/
def proposed? (h : Host) (c : Cell) : Op → Option Int64
  | .propose p _ v =>
    h.positions[p]?.bind fun q => if q.closed = false ∧ q.cell.Coincides c then some v else none
  | _ => none

/-- What is proposed to the cell, oldest first. -/
def proposals (h : Host) (c : Cell) (ops : List Op) : List Int64 :=
  h.collect (fun h op => h.proposed? c op) ops

/-- The operation neither writes to the cell nor gives its bytes new contents. -/
def LeavesAlone (h : Host) (c : Cell) (op : Op) : Prop :=
  (∀ c' v, h.written? op = some (c', v) → c'.Apart c) ∧ h.Spares c op

/-- Whatever operations do to the cell they do by a proposal. -/
def OnlyProposedTo (h : Host) (c : Cell) : (ops : List Op) → Prop
  | [] => True
  | op :: ops =>
    (h.proposed? c op ≠ none ∨ h.LeavesAlone c op) ∧ (h.step op).2.OnlyProposedTo c ops

theorem proposed?_eq_some {h : Host} {c : Cell} {op : Op} {v : Int64}
    (hv : h.proposed? c op = some v) :
    ∃ p tier q, op = .propose p tier v ∧ h.positions[p]? = some q ∧ q.closed = false ∧
      q.cell.Coincides c := by
  cases op with
  | propose p tier v' =>
    obtain ⟨q, hq, hif⟩ := Option.bind_eq_some_iff.mp hv
    split at hif
    · rename_i hopen
      obtain rfl := Option.some.inj hif
      exact ⟨p, tier, q, rfl, hq, hopen.1, hopen.2⟩
    · cases hif
  | _ => cases hv

theorem proposals_cons (h : Host) (c : Cell) (op : Op) (ops : List Op) :
    h.proposals c (op :: ops) =
      (h.proposed? c op).toList ++ (h.step op).2.proposals c ops :=
  rfl

/-- A proposal that is greater than the value is taken, and no other is. -/
theorem step_proposal {h : Host} {c : Cell} {op : Op} {v : Int64}
    (hv : h.proposed? c op = some v) :
    if h.memory.load c < v then
      ∃ c', c'.Coincides c ∧
        h.step op = (.ok (.moved true), { h with memory := h.memory.store c' v })
    else h.step op = (.ok (.moved false), h) := by
  obtain ⟨p, tier, q, rfl, hq, hopen, hcell⟩ := proposed?_eq_some hv
  have hload : h.memory.load q.cell = h.memory.load c := h.memory.load_coincides hcell
  by_cases hlt : h.memory.load c < v
  · rw [if_pos hlt]
    have htaken : q.propose h.memory tier v = .ok (true, h.memory.store q.cell v) := by
      simp [Position.propose, hopen, hload, proposeMax_of_lt hlt]
    exact ⟨q.cell, hcell, by simp only [step, propose, hq, htaken]⟩
  · rw [if_neg hlt]
    have hkept : q.propose h.memory tier v = .ok (false, h.memory) := by
      simp [Position.propose, hopen, hload, proposeMax_of_not_lt hlt]
    simp only [step, propose, hq, hkept]

/-- After a proposal the cell holds the greater of its value and the proposed
one. -/
theorem load_proposal {h : Host} {c : Cell} (hc : h.Backs c) {op : Op} {v : Int64}
    (hv : h.proposed? c op = some v) :
    (h.step op).2.memory.load c = if h.memory.load c < v then v else h.memory.load c := by
  have hstep := step_proposal hv
  by_cases hlt : h.memory.load c < v
  · rw [if_pos hlt] at hstep ⊢
    obtain ⟨c', hcell, hstep⟩ := hstep
    have hbacked : c'.backing < h.memory.backings.length := hcell.1 ▸ hc
    rw [hstep]
    exact h.memory.load_store_self v hcell hbacked
  · rw [if_neg hlt] at hstep ⊢
    rw [hstep]

theorem LeavesAlone.load {h : Host} {c : Cell} {op : Op} (hop : h.LeavesAlone c op) :
    (h.step op).2.memory.load c = h.memory.load c := by
  have hbytes : (h.step op).2.memory.load c = (h.memory.after (h.written? op)).load c :=
    Memory.load_congr fun i hi => (h.step_touches op).bytes c.backing i fun s hs =>
      Nat.lt_of_lt_of_le hi.2.2 (hop.2 s hs)
  rw [hbytes]
  cases hw : h.written? op with
  | none => rfl
  | some w => exact h.memory.load_store_apart w.2 (hop.1 w.1 w.2 hw)

/-! ### A run of them -/

theorem onlyProposedTo_append {h : Host} {c : Cell} {ops more : List Op} :
    h.OnlyProposedTo c (ops ++ more) ↔
      h.OnlyProposedTo c ops ∧ (h.run ops).OnlyProposedTo c more := by
  induction ops generalizing h with
  | nil => exact ⟨fun hmore => ⟨trivial, hmore⟩, And.right⟩
  | cons op ops ih =>
    rw [List.cons_append, OnlyProposedTo, OnlyProposedTo, ih, and_assoc]
    rfl

/-- Where a cell may end that starts from a value and is proposed others: at the
greatest of all. -/
def IsTop (v start : Int64) (proposed : List Int64) : Prop :=
  IsGreatest {u | u ∈ start :: proposed} v

theorem IsTop.unique {v w start : Int64} {vs ws : List Int64} (hv : IsTop v start vs)
    (hw : IsTop w start ws) (hsame : vs.Perm ws) : v = w := by
  have hmem : ∀ {u}, u ∈ start :: vs ↔ u ∈ start :: ws := (hsame.cons start).mem_iff
  have hle : v ≤ w := hw.2 (hmem.mp hv.1)
  have hge : w ≤ v := hv.2 (hmem.mpr hw.1)
  exact Int64.le_antisymm hle hge

/-- A first proposal puts the greater of two values in the place of the start. -/
theorem IsTop.cons {u start v : Int64} {vs : List Int64}
    (hu : IsTop u (if start < v then v else start) vs) : IsTop u start (v :: vs) := by
  by_cases hlt : start < v
  · rw [if_pos hlt] at hu
    refine ⟨List.mem_cons_of_mem _ hu.1, fun w hw => ?_⟩
    rcases List.mem_cons.mp hw with rfl | hw
    · exact Int64.le_trans (Int64.le_of_lt hlt) (hu.2 List.mem_cons_self)
    · exact hu.2 hw
  · rw [if_neg hlt] at hu
    have hstart : start ≤ u := hu.2 List.mem_cons_self
    refine ⟨?_, fun w hw => ?_⟩
    · rcases List.mem_cons.mp hu.1 with rfl | hmem
      · exact List.mem_cons_self
      · exact List.mem_cons_of_mem _ (List.mem_cons_of_mem _ hmem)
    · rcases List.mem_cons.mp hw with rfl | hw
      · exact hstart
      · rcases List.mem_cons.mp hw with rfl | hw
        · exact Int64.le_trans (Int64.not_lt.mp hlt) hstart
        · exact hu.2 (List.mem_cons_of_mem _ hw)

/-- A cell that is only proposed to holds the greatest of its first value and
the proposed ones. -/
theorem isTop_run {h : Host} {c : Cell} (hc : h.Backs c) {ops : List Op}
    (hops : h.OnlyProposedTo c ops) :
    IsTop ((h.run ops).memory.load c) (h.memory.load c) (h.proposals c ops) := by
  induction ops generalizing h with
  | nil => exact ⟨List.mem_cons_self, fun u hu => by
      obtain rfl := List.mem_singleton.mp hu
      exact Int64.le_refl _⟩
  | cons op ops ih =>
    obtain ⟨hop, hrest⟩ := hops
    have hend := ih (hc.step op) hrest
    rw [proposals_cons]
    cases hv : h.proposed? c op with
    | some v =>
      rw [load_proposal hc hv] at hend
      exact hend.cons
    | none =>
      have hload := (hop.resolve_left (not_not_intro hv)).load
      rw [hload] at hend
      exact hend

/-- What a run in which a cell is only proposed to does to it. -/
structure Raised (h : Host) (c : Cell) (ops : List Op) : Prop where
  /-- The cell ends at the greatest of the value that it started from and of
  those that were proposed. -/
  final : IsTop ((h.run ops).memory.load c) (h.memory.load c) (h.proposals c ops)
  /-- At no moment does it hold less than it held before. -/
  rises : ∀ before between after, ops = before ++ between ++ after →
    (h.run before).memory.load c ≤ (h.run (before ++ between)).memory.load c
  /-- A proposal is taken if it is greater than the first value and than all
  that were proposed before it, and only then; if it is not taken nothing
  changes. -/
  answers : ∀ before op after v, ops = before ++ op :: after →
    (h.run before).proposed? c op = some v →
    ∃ taken, ((h.run before).step op).1 = .ok (.moved taken) ∧
      (taken = true ↔ h.memory.load c < v ∧ ∀ u ∈ h.proposals c before, u < v) ∧
      (taken = false → ((h.run before).step op).2 = h.run before)
  /-- The same proposals in any other order, through whatever positions and in
  whatever tiers, lead from the same value to the same value. -/
  order : ∀ h' c' ops', Backs h' c' → h'.OnlyProposedTo c' ops' →
    h'.memory.load c' = h.memory.load c → (h'.proposals c' ops').Perm (h.proposals c ops) →
    (h'.run ops').memory.load c' = (h.run ops).memory.load c

/-- As long as a cell is changed by proposals only, it holds the greatest of its
first value and the proposed ones, never less than before. A proposal answers
whether it was greater than all of these, and the order of them is of no
consequence to the last value. -/
theorem raised_run (h : Host) (c : Cell) (ops : List Op) (hc : h.Backs c)
    (hops : h.OnlyProposedTo c ops) : h.Raised c ops := by
  refine ⟨isTop_run hc hops, ?_, ?_, ?_⟩
  · rintro before between after rfl
    have hfirst := (onlyProposedTo_append.mp hops).1
    have hbetween := (onlyProposedTo_append.mp hfirst).2
    have htop := isTop_run (hc.run before) hbetween
    have hsplit : h.run (before ++ between) = (h.run before).run between := List.foldl_append
    rw [hsplit]
    exact htop.2 List.mem_cons_self
  · rintro before op after v rfl hv
    have hbefore := (onlyProposedTo_append.mp hops).1
    have htop := isTop_run hc hbefore
    have hstep := step_proposal hv
    -- The cell holds the greatest of all values so far, so it is enough to
    -- compare with it.
    have hall : (h.run before).memory.load c < v ↔
        h.memory.load c < v ∧ ∀ u ∈ h.proposals c before, u < v := by
      rw [← List.forall_mem_cons (p := (· < v))]
      exact ⟨fun hlt u hu => Int64.lt_of_le_of_lt (htop.2 hu) hlt, fun hall => hall _ htop.1⟩
    by_cases hlt : (h.run before).memory.load c < v
    · rw [if_pos hlt] at hstep
      obtain ⟨c', -, hstep⟩ := hstep
      exact ⟨true, by rw [hstep], ⟨fun _ => hall.mp hlt, fun _ => rfl⟩, nofun⟩
    · rw [if_neg hlt] at hstep
      refine ⟨false, by rw [hstep], ⟨nofun, fun h => absurd (hall.mpr h) hlt⟩, fun _ => ?_⟩
      rw [hstep]
  · intro h' c' ops' hc' hops' hstart hperm
    have htop := isTop_run hc hops
    have htop' := isTop_run hc' hops'
    rw [hstart] at htop'
    exact htop'.unique htop hperm

/-- Proposals to slot 1 of a manager through its owner, through a window and
through a reader that is opened on the way, from the least value to the
greatest. -/
def climb : List Op :=
  [.propose 0 .plain 5, .propose 1 .opaqueWrite 5, .watch 0 1, .propose 2 .ordered (-7),
    .propose 1 .release Int64.maxValue, .propose 0 .plain Int64.minValue]

theorem raised_climb :
    (run {} (windowed ++ [.write 0 .plain Int64.minValue])).OnlyProposedTo ⟨4224, 0, 128⟩ climb ∧
      (run {} (windowed ++ [.write 0 .plain Int64.minValue])).proposals ⟨4224, 0, 128⟩ climb =
        [5, 5, -7, Int64.maxValue, Int64.minValue] ∧
      (run {} (windowed ++ [.write 0 .plain Int64.minValue])).Raised ⟨4224, 0, 128⟩ climb := by
  have hops : (run {} (windowed ++ [.write 0 .plain Int64.minValue])).OnlyProposedTo
      ⟨4224, 0, 128⟩ climb :=
    ⟨Or.inl (by decide), Or.inl (by decide), Or.inr ⟨nofun, nofun⟩, Or.inl (by decide),
      Or.inl (by decide), Or.inl (by decide), trivial⟩
  have hwithin : WithinMappings {} [] (windowed ++ [.write 0 .plain Int64.minValue]) :=
    withinMappings_append.mpr ⟨windowed_withinMappings, nofun, trivial⟩
  have howner : Position.onCell 1 ⟨4224, 0, 128⟩ (some (.manager 0)) ∈
      (run {} (windowed ++ [.write 0 .plain Int64.minValue])).positions := by
    decide
  have hbacks := (empty_grounded.run hwithin).backs howner
  exact ⟨hops, by decide, raised_run _ ⟨4224, 0, 128⟩ climb hbacks hops⟩

end Host
end LockFree.Counters
