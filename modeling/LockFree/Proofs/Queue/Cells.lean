/-
# What a heap holds

`Heap.Holds cells` says of a heap everything there is to say: the nodes in it
are those of `cells`, each at an address of its own, and there are no others.
A list of cells that is put together from parts (`l ++ (a, n) :: r`) keeps the
parts apart, so an operation on the node at `a` leaves the rest of the list as
it is, whatever that rest belongs to. Each operation of a heap has one
statement of this kind here, and chains are reasoned about through these alone.
-/
import LockFree.Queue.Heap
import Mathlib.Data.List.Nodup
import Mathlib.Data.List.Perm.Basic

namespace LockFree.Queue
namespace Heap

variable {α : Type} {h : Heap α} {l r cells : List (Address × Node α)} {a : Address}

/-- The nodes in the heap are these, each at an address of its own. -/
structure Holds (h : Heap α) (cells : List (Address × Node α)) : Prop where
  nodup : (cells.map Prod.fst).Nodup
  node?_iff : ∀ a n, h.node? a = some n ↔ (a, n) ∈ cells

theorem holds_empty : ({} : Heap α).Holds [] :=
  ⟨List.nodup_nil, fun a n => by simp [node?]⟩

/-- In which order the cells are listed does not matter. -/
theorem Holds.perm (hh : h.Holds l) (p : l.Perm r) : h.Holds r :=
  ⟨(p.map Prod.fst).nodup_iff.mp hh.nodup, fun a n => (hh.node?_iff a n).trans p.mem_iff⟩

theorem Holds.node?_eq {n : Node α} (hh : h.Holds cells) (hm : (a, n) ∈ cells) :
    h.node? a = some n :=
  (hh.node?_iff a n).mpr hm

theorem Holds.node?_eq_none_iff (hh : h.Holds cells) :
    h.node? a = none ↔ a ∉ cells.map Prod.fst := by
  constructor
  · intro hn hm
    obtain ⟨⟨b, n⟩, hb, rfl⟩ := List.mem_map.mp hm
    rw [hh.node?_eq hb] at hn
    cases hn
  · intro hm
    rcases hn : h.node? a with _ | n
    · rfl
    · exact absurd (List.mem_map.mpr ⟨(a, n), (hh.node?_iff a n).mp hn, rfl⟩) hm

/-- The address of a cell is that of no other. -/
theorem Holds.not_mem_others {n : Node α} (hh : h.Holds (l ++ (a, n) :: r)) :
    a ∉ (l ++ r).map Prod.fst := by
  have hp : ((l ++ (a, n) :: r).map Prod.fst).Perm (a :: (l ++ r).map Prod.fst) :=
    List.perm_middle.map Prod.fst
  exact (List.nodup_cons.mp (hp.nodup_iff.mp hh.nodup)).1

/-- A cell is added where no node stands. -/
theorem Holds.allocateAt (hh : h.Holds cells) (ha : h.node? a = none) (n : Node α) :
    (h.allocateAt a n).Holds ((a, n) :: cells) := by
  have hnew := hh.node?_eq_none_iff.mp ha
  refine ⟨List.nodup_cons.mpr ⟨hnew, hh.nodup⟩, fun b m => ?_⟩
  rw [node?_allocateAt]
  by_cases hb : b = a
  · subst hb
    rw [if_pos rfl, Option.some.injEq, List.mem_cons]
    constructor
    · rintro rfl
      exact Or.inl rfl
    · rintro (he | hm)
      · exact (Prod.mk.inj he).2.symm
      · exact absurd (List.mem_map.mpr ⟨_, hm, rfl⟩) hnew
  · rw [if_neg hb, hh.node?_iff, List.mem_cons]
    refine ⟨Or.inr, fun hm => hm.resolve_left fun he => hb (Prod.mk.inj he).1⟩

/-- A node is put in the place of another one. -/
theorem Holds.put {m : Node α} (hh : h.Holds (l ++ (a, m) :: r)) (n : Node α) :
    (h.put a n).Holds (l ++ (a, n) :: r) := by
  have hnot := hh.not_mem_others
  refine ⟨by simpa using hh.nodup, fun b k => ?_⟩
  rw [node?_put]
  by_cases hb : b = a
  · subst hb
    rw [if_pos rfl, Option.some.injEq, List.perm_middle.mem_iff, List.mem_cons]
    constructor
    · rintro rfl
      exact Or.inl rfl
    · rintro (he | hm)
      · exact (Prod.mk.inj he).2.symm
      · exact absurd (List.mem_map.mpr ⟨_, hm, rfl⟩) hnot
  · have hne : ∀ x : Node α, (b, k) ≠ (a, x) := fun x he => hb (Prod.mk.inj he).1
    rw [if_neg hb, hh.node?_iff, List.perm_middle.mem_iff, List.perm_middle.mem_iff,
      List.mem_cons, List.mem_cons, or_iff_right (hne m), or_iff_right (hne n)]

theorem Holds.node?_middle {n : Node α} (hh : h.Holds (l ++ (a, n) :: r)) : h.node? a = some n :=
  hh.node?_eq (List.mem_append_right _ List.mem_cons_self)

/-- A node is read as it is. -/
theorem Holds.read {n : Node α} (hh : h.Holds cells) (hm : (a, n) ∈ cells) : h.read a = .ok n := by
  rw [Heap.read, hh.node?_eq hm]

theorem Holds.payload {next : Option Address} {v : α} (hh : h.Holds cells)
    (hm : (a, ⟨next, some v⟩) ∈ cells) : h.payload a = .ok v := by
  rw [Heap.payload, hh.node?_eq hm]

theorem Holds.link {n : Node α} (hh : h.Holds (l ++ (a, n) :: r)) (next : Option Address) :
    ∃ h', h.link a next = .ok h' ∧ h'.Holds (l ++ (a, ⟨next, n.payload⟩) :: r) := by
  refine ⟨h.put a ⟨next, n.payload⟩, ?_, hh.put _⟩
  rw [Heap.link, hh.node?_middle]

theorem Holds.take {next : Option Address} {v : α} (hh : h.Holds (l ++ (a, ⟨next, some v⟩) :: r)) :
    ∃ h', h.take a = .ok (v, h') ∧ h'.Holds (l ++ (a, ⟨next, none⟩) :: r) := by
  refine ⟨h.put a ⟨next, none⟩, ?_, hh.put _⟩
  rw [Heap.take, hh.node?_middle]

/-- A node is freed and the others stay. -/
theorem Holds.free {n : Node α} (hh : h.Holds (l ++ (a, n) :: r)) :
    ∃ h', h.free a = .ok h' ∧ h'.Holds (l ++ r) := by
  have hnot := hh.not_mem_others
  have hp : (l ++ (a, n) :: r).Perm ((a, n) :: (l ++ r)) := List.perm_middle
  obtain ⟨h', hf⟩ : ∃ h', h.free a = .ok h' := by
    rw [Heap.free, hh.node?_middle]
    exact ⟨_, rfl⟩
  refine ⟨h', hf, (List.nodup_cons.mp ((hp.map Prod.fst).nodup_iff.mp hh.nodup)).2, fun b k => ?_⟩
  rw [node?_free hf]
  by_cases hb : b = a
  · subst hb
    rw [if_pos rfl]
    exact ⟨fun he => (by cases he), fun hm => absurd (List.mem_map.mpr ⟨_, hm, rfl⟩) hnot⟩
  · have hne : (b, k) ≠ (a, n) := fun he => hb (Prod.mk.inj he).1
    rw [if_neg hb, hh.node?_iff, hp.mem_iff, List.mem_cons, or_iff_right hne]

/-- A heap has room for at least the nodes it holds. -/
theorem Holds.length_le (hh : h.Holds cells) : cells.length ≤ h.cells.size := by
  have hsub : cells.map Prod.fst ⊆ List.range h.cells.size := by
    intro b hb
    obtain ⟨⟨b, n⟩, hm, rfl⟩ := List.mem_map.mp hb
    have hn := hh.node?_eq hm
    rw [List.mem_range]
    by_contra hlt
    rw [node?, Array.getD_eq_getD_getElem?, Array.getElem?_eq_none (Nat.le_of_not_lt hlt)] at hn
    cases hn
  have hle := (List.subperm_of_subset hh.nodup hsub).length_le
  rwa [List.length_map, List.length_range] at hle

/-! ### What one heap has over another -/

/-- The addresses at which a node stands in `h'` but not in `h`. -/
def gained (h h' : Heap α) : List Address :=
  (List.range h'.cells.size).filter fun a => (h.node? a).isNone && (h'.node? a).isSome

theorem gained_nodup (h h' : Heap α) : (h.gained h').Nodup := List.nodup_range.filter _

theorem mem_gained {h' : Heap α} :
    a ∈ h.gained h' ↔ h.node? a = none ∧ ∃ n, h'.node? a = some n := by
  have hlt : ∀ n, h'.node? a = some n → a < h'.cells.size := by
    intro n hn
    by_contra hge
    rw [node?, Array.getD_eq_getD_getElem?, Array.getElem?_eq_none (Nat.le_of_not_lt hge)] at hn
    cases hn
  rw [gained, List.mem_filter, List.mem_range, Bool.and_eq_true, Option.isNone_iff_eq_none,
    Option.isSome_iff_exists]
  exact and_iff_right_of_imp fun hn => hlt _ hn.2.choose_spec

theorem Holds.mem_gained_iff {h' : Heap α} (hh : h.Holds l) (hh' : h'.Holds r) :
    a ∈ h.gained h' ↔ a ∉ l.map Prod.fst ∧ a ∈ r.map Prod.fst := by
  have hr : (∃ n, h'.node? a = some n) ↔ a ∈ r.map Prod.fst := by
    rw [← Option.ne_none_iff_exists', Ne, hh'.node?_eq_none_iff, not_not]
  rw [mem_gained, hh.node?_eq_none_iff, hr]

/-- While a frame stays, what stood there and what is gained is what is lost and
what stands there then. -/
theorem Holds.ledger {h' : Heap α} {cells' frame : List (Address × Node α)}
    (hh : h.Holds (cells ++ frame)) (hh' : h'.Holds (cells' ++ frame)) :
    (cells.map Prod.fst ++ h.gained h').Perm (h'.gained h ++ cells'.map Prod.fst) := by
  have hgain := fun b => hh.mem_gained_iff (a := b) hh'
  have hloss := fun b => hh'.mem_gained_iff (a := b) hh
  have hnodup := hh.nodup
  have hnodup' := hh'.nodup
  rw [List.map_append, List.nodup_append] at hnodup hnodup'
  simp only [List.map_append, List.mem_append] at hgain hloss
  obtain ⟨hcells, -, hapart⟩ := hnodup
  obtain ⟨hcells', -, hapart'⟩ := hnodup'
  have hnot : ∀ b ∈ cells.map Prod.fst, b ∉ frame.map Prod.fst :=
    fun b hb hf => hapart b hb b hf rfl
  have hnot' : ∀ b ∈ cells'.map Prod.fst, b ∉ frame.map Prod.fst :=
    fun b hb hf => hapart' b hb b hf rfl
  have hleft : (cells.map Prod.fst ++ h.gained h').Nodup := by
    refine hcells.append (gained_nodup h h') fun b hb hg => ?_
    exact ((hgain b).mp hg).1 (Or.inl hb)
  have hright : (h'.gained h ++ cells'.map Prod.fst).Nodup := by
    refine (gained_nodup h' h).append hcells' fun b hg hb => ?_
    exact ((hloss b).mp hg).1 (Or.inl hb)
  refine (List.perm_ext_iff_of_nodup hleft hright).mpr fun b => ?_
  rw [List.mem_append, List.mem_append, hgain, hloss]
  have h₁ := hnot b
  have h₂ := hnot' b
  tauto

end Heap
end LockFree.Queue
