/-
# The last writer wins

A host keeps only bytes. Beside it stands the record of what was written to
which cell since some moment (`Host.writes`), and from it the value that a cell
should have (`Host.lastValue`): the one of the latest write to the same eight
bytes, through whichever window, manager or mapping they were reached, or else
the one it had at that moment.

In a run over windows of mappings the two agree. Every write goes to a cell of
a mapping, where it either replaces what is read or misses it by all eight
bytes; a write never lands on a part. Files that are given new contents are
left out, as the bytes of their mappings change then without any cell being
written (`Host.Undisturbed`); bytes added after a cell do not disturb it.

Key definitions: `Host.writes`, `Host.lastValue`, `Host.Undisturbed`.
Key theorems: `Host.Grounded.load_step`, `Host.Grounded.load_run`,
`Host.last_writer_wins`.
-/
import LockFree.Proofs.Counters.Mappings

namespace LockFree.Counters
namespace Host

/-! ### The record of writes -/

/-- What operations write, oldest first. -/
def writes (h : Host) : (ops : List Op) → List (Cell × Int64)
  | [] => []
  | op :: ops => (h.written? op).toList ++ (h.step op).2.writes ops

/-- The value of the latest write to a cell among the given ones. -/
def latest? (c : Cell) (writes : List (Cell × Int64)) : Option Int64 :=
  ((writes.filter fun w => w.1.Coincides c).getLast?).map Prod.snd

/-- The value that operations leave in a cell. -/
def lastValue (h : Host) (c : Cell) (ops : List Op) : Int64 :=
  (latest? c (h.writes ops)).getD (h.memory.load c)

/-- The operation gives no new contents to the bytes of the cell. -/
def Spares (h : Host) (c : Cell) (op : Op) : Prop :=
  ∀ s, h.rewritten? op = some (c.backing, s) → c.offset + 8 ≤ s

/-- No operation gives new contents to the bytes of a cell. -/
def Undisturbed (h : Host) (c : Cell) : (ops : List Op) → Prop
  | [] => True
  | op :: ops => h.Spares c op ∧ (h.step op).2.Undisturbed c ops

theorem latest?_append (c : Cell) (ws more : List (Cell × Int64)) :
    latest? c (ws ++ more) = (latest? c more).or (latest? c ws) := by
  rw [latest?, List.filter_append, List.getLast?_append, latest?, latest?, Option.map_or]

theorem lastValue_cons (h : Host) (c : Cell) (op : Op) (ops : List Op) :
    h.lastValue c (op :: ops) = (latest? c ((h.step op).2.writes ops)).getD
      ((latest? c (h.written? op).toList).getD (h.memory.load c)) := by
  rw [lastValue, writes, latest?_append]
  cases latest? c ((h.step op).2.writes ops) <;> rfl

/-! ### One operation -/

/-- A cell that an operation writes is one of a mapping. -/
theorem Grounded.written_liesIn {h : Host} {mapped : List Region} (hg : h.Grounded mapped) {op : Op}
    {c : Cell} {v : Int64} (hw : h.written? op = some (c, v)) : ∃ root ∈ mapped, c.LiesIn root := by
  rcases written?_cases hw with ⟨p, q, -, hp, rfl⟩ | ⟨k, label, m, id, -, hk, -, hcell⟩
  · exact hg.positions q (List.mem_of_getElem? hp)
  · obtain ⟨offset, hoffset⟩ := Manager.cell_eq_ok hcell
    exact (hg.managers m (List.mem_of_getElem? hk)).cell_liesIn hg.mapping hoffset

/-- An operation leaves in a cell what it writes there, or what was there. The
cell may be one of a mapping that is made only later. -/
theorem Grounded.load_step {h : Host} {mapped later : List Region} (hg : h.Grounded mapped)
    (hs : Spread (mapped ++ later)) {c : Cell} {root : Region} (hroot : root ∈ mapped ++ later)
    (hc : c.LiesIn root) {op : Op} (hop : h.Spares c op) :
    (h.step op).2.memory.load c =
      (latest? c (h.written? op).toList).getD (h.memory.load c) := by
  have hbytes : (h.step op).2.memory.load c = (h.memory.after (h.written? op)).load c :=
    Memory.load_congr fun i hi => (h.step_touches op).bytes c.backing i fun s hs =>
      Nat.lt_of_lt_of_le hi.2.2 (hop s hs)
  rw [hbytes]
  cases hw : h.written? op with
  | none => rfl
  | some w =>
    obtain ⟨c', v⟩ := w
    obtain ⟨root', hroot', hc'⟩ := hg.written_liesIn hw
    rcases coincides_or_apart hs (List.mem_append_left later hroot') hroot hc' hc with
      hsame | ⟨hapart, -⟩
    · have hlatest : latest? c [(c', v)] = some v := by simp [latest?, hsame]
      have hb : c'.backing < h.memory.backings.length := by
        rw [hc'.backing]
        exact hg.backing root' hroot'
      rw [Option.toList_some, hlatest]
      exact Memory.load_store_self h.memory v hsame hb
    · have hlatest : latest? c [(c', v)] = none := by simp [latest?, hapart.not_coincides]
      rw [Option.toList_some, hlatest]
      exact Memory.load_store_apart h.memory v hapart

/-! ### A run -/

/-- After operations a cell holds the value that was written last. -/
theorem Grounded.load_run {h : Host} {mapped : List Region} (hg : h.Grounded mapped)
    {ops : List Op} (hw : h.WithinMappings mapped ops) {c : Cell} {root : Region}
    (hroot : root ∈ mapped ++ h.mappings ops) (hc : c.LiesIn root)
    (hu : h.Undisturbed c ops) : (h.run ops).memory.load c = h.lastValue c ops := by
  have hs := (hg.run hw).spread
  induction ops generalizing h mapped with
  | nil => rfl
  | cons op ops ih =>
    obtain ⟨hop, hrest⟩ := hw
    obtain ⟨hkeep, hu'⟩ := hu
    have hstep := hg.load_step hs hroot hc hkeep
    rw [mappings, ← List.append_assoc] at hroot hs
    rw [lastValue_cons, ← hstep]
    exact ih (hg.step hop) hrest hroot hu' hs

/-- The cell was found for a position or by a manager. -/
inductive Resolves (h : Host) : Cell → Prop
  | position {p : Position} (hp : p ∈ h.positions) : h.Resolves p.cell
  | slot {m : Manager} {id : SlotId} {c : Cell} (hm : m ∈ h.managers) (hc : m.cell id = .ok c) :
      h.Resolves c

theorem Grounded.resolves_liesIn {h : Host} {mapped : List Region} (hg : h.Grounded mapped)
    {c : Cell} (hc : h.Resolves c) : ∃ root ∈ mapped, c.LiesIn root := by
  cases hc with
  | position hp => exact hg.positions _ hp
  | slot hm hcell =>
    obtain ⟨offset, hoffset⟩ := Manager.cell_eq_ok hcell
    exact (hg.managers _ hm).cell_liesIn hg.mapping hoffset

/-- What is read after operations is what was written last, and the next
operation writes nothing else. -/
structure LastWriterWins (h : Host) (ops : List Op) : Prop where
  /-- Two cells are the same eight bytes or have none in common. -/
  cells : ∀ c c', (h.run ops).Resolves c → (h.run ops).Resolves c' →
    c.Coincides c' ∨ (c.Apart c' ∧ c.FarFrom c')
  /-- An open position reads, in every tier, the value written last. -/
  reads : ∀ p q tier, (h.run ops).positions[p]? = some q → q.closed = false →
    h.Undisturbed q.cell ops → (h.run ops).read? p tier = some (h.lastValue q.cell ops)
  /-- So does a manager that is asked for the value of a slot. -/
  values : ∀ k id v, (h.run ops).slotValue k id = .ok v →
    ∃ c, (h.run ops).Resolves c ∧ ((h.run ops).managers[k]?.map fun m => m.cell id) = some (.ok c) ∧
      (h.Undisturbed c ops → v = h.lastValue c ops)
  /-- A byte that an operation changes belongs to the cell that it writes, or to
  a file that it gives new contents. -/
  frame : ∀ op b i, ((h.run ops).step op).2.memory.byte b i ≠ (h.run ops).memory.byte b i →
    (∃ c v, (h.run ops).written? op = some (c, v) ∧ c.Covers b i) ∨
      ∃ s ≤ i, (h.run ops).rewritten? op = some (b, s)

/-- The last writer wins, whatever was set up before, as long as every region is a
window of a mapping: what is read of a cell, through whichever position or
manager and in whichever tier, is what was written there last, and an operation
changes the bytes of no other cell. -/
theorem last_writer_wins (setup ops : List Op)
    (hw : WithinMappings {} [] (setup ++ ops)) : (run {} setup).LastWriterWins ops := by
  obtain ⟨hsetup, hops⟩ := withinMappings_append.mp hw
  have hg := empty_grounded.run hsetup
  have hend := hg.run hops
  refine ⟨?_, ?_, ?_, fun op b i hne => byte_changed hne⟩
  · intro c c' hc hc'
    obtain ⟨root, hroot, hlies⟩ := hend.resolves_liesIn hc
    obtain ⟨root', hroot', hlies'⟩ := hend.resolves_liesIn hc'
    exact coincides_or_apart hend.spread hroot hroot' hlies hlies'
  · intro p q tier hp hopen hu
    obtain ⟨root, hroot, hlies⟩ := hend.positions q (List.mem_of_getElem? hp)
    rw [read?, hp, Option.map_some, Position.read, hopen, hg.load_run hops hroot hlies hu]
    rfl
  · intro k id v hv
    unfold slotValue at hv
    split at hv
    · cases hv
    · rename_i m hk
      split at hv
      · cases hv
      · rename_i c hcell
        obtain rfl := Except.ok.inj hv
        have hresolves : ((run {} setup).run ops).Resolves c :=
          .slot (List.mem_of_getElem? hk) hcell
        obtain ⟨root, hroot, hlies⟩ := hend.resolves_liesIn hresolves
        refine ⟨c, hresolves, by rw [hk, Option.map_some, hcell], hg.load_run hops hroot hlies⟩

/-- Slot 1 of a manager, owned by position 0, is slot 0 of a window that begins
where the slot does, under position 1. -/
def windowed : List Op :=
  [.makeBuffer 512, .manage ⟨4096, 512, 0, 0⟩ ⟨2, 0⟩, .allocate 0 "a", .allocate 0 "b", .own 0 1,
    .place (Region.window ⟨4096, 512, 0, 0⟩ 128 256) 0 none]

theorem windowed_withinMappings : WithinMappings {} [] windowed := by
  have hbuffer : Region.WindowOf [⟨4096, 512, 0, 0⟩] ⟨4096, 512, 0, 0⟩ :=
    .whole (List.mem_singleton.mpr rfl)
  have hwindow : Region.WindowOf [⟨4096, 512, 0, 0⟩] (Region.window ⟨4096, 512, 0, 0⟩ 128 256) :=
    hbuffer.window (by decide)
  refine ⟨nofun, ?_, nofun, nofun, nofun, ?_, trivial⟩
  · rintro r ⟨⟩
    exact hbuffer
  · rintro r ⟨⟩
    exact hwindow

theorem read_what_window_wrote :
    WithinMappings {} [] (windowed ++ [.write 1 .volatile 7]) ∧
      ((run {} windowed).run [.write 1 .volatile 7]).read? 0 .plain = some 7 := by
  have hw : WithinMappings {} [] (windowed ++ [.write 1 .volatile 7]) :=
    withinMappings_append.mpr ⟨windowed_withinMappings, nofun, trivial⟩
  have hlast := last_writer_wins windowed [.write 1 .volatile 7] hw
  have hread := hlast.reads 0 (.onCell 1 ⟨4224, 0, 128⟩ (some (.manager 0))) .plain (by decide) rfl
    ⟨nofun, trivial⟩
  exact ⟨hw, hread.trans (by decide)⟩

end Host
end LockFree.Counters
