/-
# Positions in a run

A position is known by its number, and numbers are given in the order in which
positions are built. So two lists say what every position of a run is by now:
with what each one was built (`Host.constructions`), and which ones have been
closed, in the order of their first closes (`Host.closings`). That is what
`Host.standing_run` says; it is the ground on which what happens at a close is
told of a whole run.

Key definitions: `Host.collect`, `Host.constructions`, `Host.closings`.
Key theorems: `Host.Standing.step`, `Host.standing_run`.
-/
import LockFree.Proofs.Counters.Runs
import Mathlib.Data.List.Induction

namespace LockFree.Counters

/-- What has become of a position that was built on a cell. -/
def Construction.position (b : Construction) (cell : Cell) (closed : Bool) : Position :=
  ⟨b.id, cell, if closed then none else b.reclaimer, closed⟩

namespace Host

/-! ### What operations come to -/

/-- What `f` finds in each operation, on the host that it is carried out on. -/
def collect {β : Type} (f : Host → Op → Option β) (h : Host) : (ops : List Op) → List β
  | [] => []
  | op :: ops => (f h op).toList ++ (h.step op).2.collect f ops

theorem collect_append {β : Type} (f : Host → Op → Option β) (h : Host) (ops more : List Op) :
    h.collect f (ops ++ more) = h.collect f ops ++ (h.run ops).collect f more := by
  induction ops generalizing h with
  | nil => rfl
  | cons op ops ih =>
    rw [List.cons_append, collect, collect, ih, List.append_assoc]
    rfl

theorem collect_concat {β : Type} (f : Host → Op → Option β) (h : Host) (ops : List Op) (op : Op) :
    h.collect f (ops ++ [op]) = h.collect f ops ++ (f (h.run ops) op).toList := by
  rw [collect_append, collect, collect, List.append_nil]

theorem filterMap_collect {β γ : Type} (f : Host → Op → Option β) (g : β → Option γ) (h : Host)
    (ops : List Op) :
    (h.collect f ops).filterMap g = h.collect (fun h op => (f h op).bind g) ops := by
  induction ops generalizing h with
  | nil => rfl
  | cons op ops ih =>
    rw [collect, collect, List.filterMap_append, ih]
    cases hf : f h op with
    | none => rfl
    | some b => cases hg : g b <;> simp [hg]

theorem run_concat (h : Host) (ops : List Op) (op : Op) :
    h.run (ops ++ [op]) = ((h.run ops).step op).2 := by
  rw [run, List.foldl_append]
  rfl

theorem closed?_lt {h : Host} {op : Op} {p : Nat} (hp : h.closed? op = some p) :
    p < h.positions.length := by
  cases op with
  | close k =>
    rw [closed?] at hp
    split at hp
    · rename_i hlt
      exact Option.some.inj hp ▸ hlt
    · cases hp
  | _ => cases hp

/-- The positions that were built, each at its number. -/
def constructions (ops : List Op) : List Construction := collect built? {} ops

/-- The positions that were closed, in the order of each one's first close. -/
def closings (ops : List Op) : List Nat := (collect closed? {} ops).eraseDups

theorem constructions_concat (ops : List Op) (op : Op) :
    constructions (ops ++ [op]) = constructions ops ++ ((run {} ops).built? op).toList :=
  collect_concat built? {} ops op

theorem closings_concat (ops : List Op) (op : Op) :
    closings (ops ++ [op]) =
      closings ops ++ (((run {} ops).closed? op).filter fun p => p ∉ closings ops).toList := by
  unfold closings
  rw [collect_concat, List.eraseDups_append]
  cases hp : (run {} ops).closed? op with
  | none => simp [List.removeAll]
  | some p =>
    by_cases hmem : p ∈ collect closed? {} ops
    · simp [List.removeAll, hmem]
    · simp [List.removeAll, hmem, List.eraseDups_cons, Option.filter]

theorem mem_closings_concat {ops : List Op} {op : Op} {p : Nat} :
    p ∈ closings (ops ++ [op]) ↔ p ∈ closings ops ∨ (run {} ops).closed? op = some p := by
  rw [closings, closings, List.mem_eraseDups, List.mem_eraseDups, collect_concat, List.mem_append,
    Option.mem_toList]

theorem closings_nodup (ops : List Op) : (closings ops).Nodup := by
  induction ops using List.reverseRecOn with
  | nil => exact List.nodup_nil
  | append_singleton ops op ih =>
    rw [closings_concat]
    refine ih.append (by cases (((run {} ops).closed? op).filter _) <;> simp) ?_
    intro p hp hnew
    obtain ⟨-, hnot⟩ := Option.filter_eq_some_iff.mp (Option.mem_toList.mp hnew)
    exact of_decide_eq_true hnot hp

/-- What has been built stays built. -/
theorem constructions_extend (ops more : List Op) :
    constructions ops <+: constructions (ops ++ more) := by
  rw [constructions, constructions, collect_append]
  exact List.prefix_append _ _

/-- What has been closed stays closed, in its place of the order. -/
theorem closings_extend (ops more : List Op) : closings ops <+: closings (ops ++ more) := by
  rw [closings, closings, collect_append, List.eraseDups_append]
  exact List.prefix_append _ _

/-! ### First closes -/

/-- The reclaimer that a position carried, if it did, is given the slot. -/
def returned (h : Host) (b : Construction) : Host :=
  match b.reclaimer with
  | some r => h.giveBack r b.id
  | none => h

/-- A first close: the position is marked, then its reclaimer is given the
slot, then the close is reported. -/
theorem step_close_open {h : Host} {p : Nat} {b : Construction} {cell : Cell}
    (hp : h.positions[p]? = some (b.position cell false)) :
    h.step (.close p) = (.ok .done,
      (returned { h with positions := h.positions.set p (b.position cell true) } b).emit
        (.positionClosed b.id)) := by
  have hlt : p < h.positions.length := (List.getElem?_eq_some_iff.mp hp).1
  simp only [step, close, if_pos hlt, shut, hp, returned]
  cases hr : b.reclaimer <;> simp [Construction.position, Position.close, hr]

/-! ### A run -/

/-- The positions are those that were built, and of them those are closed that
were. -/
structure Standing (ps : List Position) (built : List Construction) (shut : List Nat) : Prop where
  length : ps.length = built.length
  entry : ∀ (p : Nat) (b : Construction), built[p]? = some b →
    ∃ cell, ps[p]? = some (b.position cell (p ∈ shut))
  shut_lt : ∀ p ∈ shut, p < built.length

namespace Standing

variable {ps ps' : List Position} {built : List Construction} {shut shut' : List Nat}

/-- A position was built. -/
theorem exists_built (hs : Standing ps built shut) {p : Nat} {q : Position}
    (hp : ps[p]? = some q) :
    ∃ b cell, built[p]? = some b ∧ q = b.position cell (p ∈ shut) := by
  have hlt : p < built.length := hs.length ▸ (List.getElem?_eq_some_iff.mp hp).1
  have hb : built[p]? = some built[p] := List.getElem?_eq_getElem hlt
  obtain ⟨cell, hq⟩ := hs.entry p _ hb
  exact ⟨_, cell, hb, Option.some.inj (hp.symm.trans hq)⟩

theorem closed_iff (hs : Standing ps built shut) {p : Nat} {q : Position} (hp : ps[p]? = some q) :
    q.closed = true ↔ p ∈ shut := by
  obtain ⟨b, cell, -, rfl⟩ := hs.exists_built hp
  exact decide_eq_true_iff

/-- So are those after an operation. -/
theorem step (hs : Standing ps built shut) {ms : List Manager} {given : Option Region}
    {b? : Option Construction} {p? : Option Nat} (ht : PositionsStep ms given ps b? p? ps')
    (hshut : ∀ p, p ∈ shut' ↔ p ∈ shut ∨ p? = some p) :
    Standing ps' (built ++ b?.toList) shut' := by
  cases ht with
  | same =>
    have hmem : ∀ p, p ∈ shut' ↔ p ∈ shut := fun p => (hshut p).trans (by simp)
    refine ⟨by simpa using hs.length, fun p b hb => ?_, fun p hp => ?_⟩
    · obtain ⟨cell, hq⟩ := hs.entry p b (by simpa using hb)
      exact ⟨cell, by simpa only [hmem] using hq⟩
    · simpa using hs.shut_lt p ((hmem p).mp hp)
  | @build b region cell hregion hcell =>
    have hmem : ∀ p, p ∈ shut' ↔ p ∈ shut := fun p => (hshut p).trans (by simp)
    refine ⟨by simp [hs.length], fun p b' hb => ?_, fun p hp => ?_⟩
    · simp only [hmem]
      by_cases hlt : p < built.length
      · rw [List.getElem?_append_left hlt] at hb
        rw [List.getElem?_append_left (hs.length ▸ hlt)]
        exact hs.entry p b' hb
      · -- The new one has a number that no closed one has.
        have hnot : p ∉ shut := fun hp => hlt (hs.shut_lt p hp)
        rw [List.getElem?_append_right (Nat.le_of_not_lt hlt)] at hb
        rw [List.getElem?_append_right (hs.length ▸ Nat.le_of_not_lt hlt), hs.length]
        obtain ⟨hzero, rfl⟩ : p - built.length = 0 ∧ b = b' := by
          simpa [List.getElem?_singleton] using hb
        exact ⟨cell, by simp [hzero, hnot, Construction.position, Position.onCell]⟩
    · have hlt := hs.shut_lt p ((hmem p).mp hp)
      simp only [Option.toList_some, List.length_append]
      omega
  | @close p q hp hopen =>
    obtain ⟨b, cell, hb, rfl⟩ := hs.exists_built hp
    refine ⟨by simpa using hs.length, fun p' b' hb' => ?_, fun p' hp' => ?_⟩
    · simp only [Option.toList_none, List.append_nil] at hb'
      obtain ⟨cell', hq'⟩ := hs.entry p' b' hb'
      refine ⟨cell', ?_⟩
      rw [getElem?_set_some hq']
      by_cases he : p = p'
      · subst he
        obtain rfl := Option.some.inj (hb.symm.trans hb')
        obtain rfl : cell = cell' :=
          congrArg Position.cell (Option.some.inj (hp.symm.trans hq'))
        have hin : p ∈ shut' := (hshut p).mpr (Or.inr rfl)
        simp [hin, Construction.position, Position.close]
      · have hmem : p' ∈ shut' ↔ p' ∈ shut := (hshut p').trans (by simp [he])
        simp only [if_neg he, hmem]
    · simp only [Option.toList_none, List.append_nil]
      rcases (hshut p').mp hp' with hold | he
      · exact hs.shut_lt p' hold
      · obtain rfl := Option.some.inj he
        exact (List.getElem?_eq_some_iff.mp hb).1
  | @again p q hp hclosed =>
    have hin := (hs.closed_iff hp).mp hclosed
    have hmem : ∀ p', p' ∈ shut' ↔ p' ∈ shut := by
      intro p'
      rw [hshut p', Option.some.injEq]
      exact or_iff_left_of_imp fun he => he ▸ hin
    refine ⟨by simpa using hs.length, fun p' b hb => ?_, fun p' hp' => ?_⟩
    · obtain ⟨cell, hq⟩ := hs.entry p' b (by simpa using hb)
      exact ⟨cell, by simpa only [hmem] using hq⟩
    · simpa using hs.shut_lt p' ((hmem p').mp hp')

end Standing

/-- What was built and closed in a run is what stands after it. -/
theorem standing_run (ops : List Op) :
    Standing (run {} ops).positions (constructions ops) (closings ops) := by
  induction ops using List.reverseRecOn with
  | nil =>
    refine ⟨rfl, fun p b hb => ?_, fun p hp => ?_⟩
    · cases hb
    · cases hp
  | append_singleton ops op ih =>
    rw [run_concat, constructions_concat]
    obtain ⟨d, hd⟩ := (run {} ops).step_does op
    exact ih.step hd.positions fun p => mem_closings_concat

end Host
end LockFree.Counters
