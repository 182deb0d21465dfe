/-
# Regions that are windows of mappings

A buffer or a mapping of a file takes a span of addresses that begins at a page
and overlaps no earlier one, and shows one backing from its first byte on
(`Memory.Maps`). A region that keeps its promise shows bytes that are really
there: it is such a mapping, or a window of a region that is, at whatever skew
and however nested (`Region.WindowOf`).

A mapping begins at a multiple of the alignment in its backing as in the
address space. So the address of a byte of a window and its place in the
backing leave the same remainder, the alignment check on addresses is one on
places, and two cells found in windows of any mappings are the same eight bytes
or have none in common (`coincides_or_apart`).

Key definitions: `Region.WindowOf`, `Cell.LiesIn`, `Host.Grounded`,
`Host.WithinMappings`.
Key theorems: `Region.WindowOf.cell_liesIn`, `coincides_or_apart`,
`Host.Grounded.step`, `Host.Grounded.run`.
-/
import LockFree.Proofs.Counters.Writes

namespace LockFree.Counters

/-! ### Windows -/

namespace Region

/-- The region is one of the mappings or a window of one, however nested. -/
inductive WindowOf (mapped : List Region) : Region → Prop
  | whole {r : Region} (hr : r ∈ mapped) : WindowOf mapped r
  | window {r : Region} (hr : WindowOf mapped r) {skew capacity : UInt64}
      (hin : skew.toNat + capacity.toNat ≤ r.capacity.toNat) :
      WindowOf mapped (r.window skew capacity)

theorem WindowOf.mono {mapped more : List Region} {r : Region} (hr : r.WindowOf mapped) :
    r.WindowOf (mapped ++ more) := by
  induction hr with
  | whole hr => exact .whole (List.mem_append_left more hr)
  | window _ hin ih => exact .window ih hin

/-- The whole of a backing at a page of its own. -/
structure Mapping (r : Region) : Prop where
  aligned : r.base.toNat % 8 = 0
  base_pos : 0 < r.base.toNat
  ends : r.base.toNat + r.capacity.toNat ≤ Memory.addressLimit
  start : r.start = 0

/-- The region shows bytes of a mapping, from some place on. -/
structure Shows (r root : Region) : Prop where
  backing : r.backing = root.backing
  address : r.base.toNat = root.base.toNat + r.start
  fits : r.start + r.capacity.toNat ≤ root.capacity.toNat

theorem WindowOf.exists_shows {mapped : List Region} (hm : ∀ root ∈ mapped, root.Mapping)
    {r : Region} (hr : r.WindowOf mapped) : ∃ root ∈ mapped, r.Shows root := by
  induction hr with
  | @whole r hr =>
    have hstart := (hm r hr).start
    exact ⟨r, hr, rfl, by omega, by omega⟩
  | @window r _ skew capacity hin ih =>
    obtain ⟨root, hroot, hbacking, haddress, hfits⟩ := ih
    have hends := (hm root hroot).ends
    have hlimit : Memory.addressLimit = 140737488355328 := rfl
    have hwindow : (r.base + skew).toNat = r.base.toNat + skew.toNat := by
      rw [UInt64.toNat_add, Nat.mod_eq_of_lt (by omega)]
    refine ⟨root, hroot, hbacking, ?_, ?_⟩
    · show (r.base + skew).toNat = root.base.toNat + (r.start + skew.toNat)
      omega
    · show r.start + skew.toNat + capacity.toNat ≤ root.capacity.toNat
      omega

end Region

/-! ### Cells of windows -/

namespace Cell

/-- The cell is eight bytes of a mapping, at a multiple of the alignment. -/
structure LiesIn (c : Cell) (root : Region) : Prop where
  backing : c.backing = root.backing
  address : c.address.toNat = root.base.toNat + c.offset
  aligned : c.offset % 8 = 0
  fits : c.offset + 8 ≤ root.capacity.toNat

/-- No byte of one cell is at the address of a byte of the other. -/
def FarFrom (c c' : Cell) : Prop :=
  c.address.toNat + 8 ≤ c'.address.toNat ∨ c'.address.toNat + 8 ≤ c.address.toNat

end Cell

theorem Region.Shows.cell_liesIn {r root : Region} (hr : r.Shows root) (hroot : root.Mapping)
    {offset : UInt64} {c : Cell} (hc : r.cell offset = .ok c) : c.LiesIn root := by
  obtain ⟨⟨hin, haligned, -⟩, rfl⟩ := Region.cell_eq_ok_iff.mp hc
  have haddress := hr.address
  have hfits := hr.fits
  have hends := hroot.ends
  have hroot8 := hroot.aligned
  have hlimit : Memory.addressLimit = 140737488355328 := rfl
  have hoffset : (r.addressAt offset).toNat = r.base.toNat + offset.toNat := by
    rw [Region.addressAt, UInt64.toNat_add, Nat.mod_eq_of_lt (by omega)]
  refine ⟨hr.backing, ?_, ?_, ?_⟩
  · show (r.addressAt offset).toNat = root.base.toNat + (r.start + offset.toNat)
    omega
  · show (r.start + offset.toNat) % 8 = 0
    omega
  · show r.start + offset.toNat + 8 ≤ root.capacity.toNat
    omega

theorem Region.WindowOf.cell_liesIn {mapped : List Region} (hm : ∀ root ∈ mapped, root.Mapping)
    {r : Region} (hr : r.WindowOf mapped) {offset : UInt64} {c : Cell}
    (hc : r.cell offset = .ok c) : ∃ root ∈ mapped, c.LiesIn root := by
  obtain ⟨root, hroot, hshows⟩ := hr.exists_shows hm
  exact ⟨root, hroot, hshows.cell_liesIn (hm root hroot) hc⟩

/-- The spans of the mappings do not overlap. -/
def Spread (mapped : List Region) : Prop :=
  ∀ r ∈ mapped, ∀ s ∈ mapped, r = s ∨ r.base.toNat + r.capacity.toNat ≤ s.base.toNat ∨
    s.base.toNat + s.capacity.toNat ≤ r.base.toNat

/-- A new mapping is spread apart from those that were there. -/
theorem Spread.snoc {mapped : List Region} (hs : Spread mapped) {r : Region}
    (hr : ∀ s ∈ mapped, s.base.toNat + s.capacity.toNat ≤ r.base.toNat) :
    Spread (mapped ++ [r]) := by
  intro s hs' t ht
  rcases List.mem_append.mp hs' with hsm | hsr <;> rcases List.mem_append.mp ht with htm | htr
  · exact hs s hsm t htm
  · obtain rfl := List.mem_singleton.mp htr
    exact Or.inr (Or.inl (hr s hsm))
  · obtain rfl := List.mem_singleton.mp hsr
    exact Or.inr (Or.inr (hr t htm))
  · obtain rfl := List.mem_singleton.mp hsr
    obtain rfl := List.mem_singleton.mp htr
    exact Or.inl rfl

/-- Two cells of mappings are the same eight bytes, or have no byte and no
address in common. -/
theorem coincides_or_apart {mapped : List Region} (hs : Spread mapped) {c c' : Cell}
    {root root' : Region} (hroot : root ∈ mapped) (hroot' : root' ∈ mapped) (hc : c.LiesIn root)
    (hc' : c'.LiesIn root') : c.Coincides c' ∨ (c.Apart c' ∧ c.FarFrom c') := by
  by_cases hsame : c.backing = c'.backing ∧ c.offset = c'.offset
  · exact Or.inl hsame
  have h1 := hc.aligned
  have h2 := hc'.aligned
  have h3 := hc.address
  have h4 := hc'.address
  have h5 := hc.fits
  have h6 := hc'.fits
  refine Or.inr ⟨Cell.apart_of_offset fun hb => ?_, ?_⟩
  · have hne : c.offset ≠ c'.offset := fun he => hsame ⟨hb, he⟩
    omega
  · unfold Cell.FarFrom
    rcases hs root hroot root' hroot' with rfl | hspread
    · have hne : c.offset ≠ c'.offset := fun he => hsame ⟨hc.backing.trans hc'.backing.symm, he⟩
      omega
    · omega

/-! ### What a mapping takes -/

/-- The region is a new mapping: it begins where the address space has not been
given out yet, and moves that place beyond its end. -/
structure Memory.Maps (m : Memory) (r : Region) (m' : Memory) : Prop where
  base : r.base = UInt64.ofNat m.frontier
  fits : m.frontier + r.capacity.toNat ≤ addressLimit
  frontier : m'.frontier = (m.frontier + r.capacity.toNat + pageSize) / pageSize * pageSize
  start : r.start = 0
  backing : r.backing < m'.backings.length

/-- Addresses are given out by pages, but not the first one. -/
structure Memory.Paged (m : Memory) : Prop where
  page : m.frontier % pageSize = 0
  pos : 0 < m.frontier

theorem Memory.reserve?_eq_some {m m' : Memory} {capacity : Nat} {base : UInt64}
    (hm : m.reserve? capacity = some (base, m')) :
    m.frontier + capacity ≤ addressLimit ∧ base = UInt64.ofNat m.frontier ∧
      m'.frontier = (m.frontier + capacity + pageSize) / pageSize * pageSize := by
  unfold reserve? at hm
  split at hm
  · rename_i hfits
    obtain ⟨rfl, rfl⟩ := Prod.mk.inj (Option.some.inj hm)
    exact ⟨hfits, rfl, rfl⟩
  · cases hm

theorem Memory.Maps.toNat_base {m m' : Memory} {r : Region} (hm : m.Maps r m') :
    r.base.toNat = m.frontier := by
  have hfits := hm.fits
  have hlimit : addressLimit = 140737488355328 := rfl
  have hsize : UInt64.size = 18446744073709551616 := rfl
  rw [hm.base, UInt64.toNat_ofNat_of_lt' (by omega)]

theorem Memory.Maps.frontier_eq {m m' : Memory} {r : Region} (hm : m.Maps r m') :
    m.frontier + r.capacity.toNat ≤ m'.frontier ∧ m'.Paged := by
  have hfrontier := hm.frontier
  have hpage : pageSize = 4096 := rfl
  rw [hpage] at hfrontier
  refine ⟨by omega, ?_, by omega⟩
  rw [hpage]
  omega

theorem Memory.Maps.mapping {m m' : Memory} {r : Region} (hm : m.Maps r m') (hp : m.Paged) :
    r.Mapping := by
  have hpage : pageSize = 4096 := rfl
  have haligned := hp.page
  have hpos := hp.pos
  have hbase := hm.toNat_base
  have hfits := hm.fits
  rw [hpage] at haligned
  exact ⟨by omega, by omega, by omega, hm.start⟩

/-! ### Files -/

namespace Disk

/-- What is found to be a file is one. -/
theorem look_file {d : Disk} {dir l : Location} {name : String} {k : Nat}
    (hlook : d.look dir name = .ok (.file l k)) : (l, DiskEntry.file k) ∈ d.entries := by
  unfold look at hlook
  split at hlook
  · cases hlook
  · split at hlook
    · cases hlook
    · split at hlook
      · cases hlook
      · dsimp only at hlook
        split at hlook
        · cases hlook
        · rename_i k' hentry
          obtain ⟨rfl, rfl⟩ := Place.file.inj (Except.ok.inj hlook)
          obtain ⟨before, after, hentries, -⟩ := List.lookup_eq_some_iff.mp hentry
          rw [hentries]
          exact List.mem_append_right before List.mem_cons_self
        · cases hlook

theorem findToWrite_file {d : Disk} {path : String} {l : Location} {k : Nat}
    (hfind : d.findToWrite path = .ok (.file l k)) : (l, DiskEntry.file k) ∈ d.entries := by
  unfold findToWrite at hfind
  split at hfind
  · cases hfind
  · split at hfind
    · cases hfind
    · exact look_file hfind

theorem mem_put {d : Disk} {l : Location} {e : DiskEntry} {x : Location × DiskEntry}
    (hx : x ∈ (d.put l e).entries) : x = (l, e) ∨ x ∈ d.entries := by
  rcases List.mem_cons.mp hx with rfl | hx
  · exact Or.inl rfl
  · exact Or.inr (List.mem_of_mem_filter hx)

/-- To make directories makes no files. -/
theorem file_mem_makeDirectories {d : Disk} {dir l : Location} {names : List String} {k : Nat}
    (hx : (l, DiskEntry.file k) ∈ (d.makeDirectories dir names).entries) :
    (l, DiskEntry.file k) ∈ d.entries := by
  induction names generalizing d dir with
  | nil => exact hx
  | cons name rest ih =>
    unfold makeDirectories at hx
    split at hx
    · exact ih hx
    · rcases mem_put (ih hx) with hnew | hold
      · cases (Prod.mk.inj hnew).2
      · exact hold
    · exact hx
    · exact hx

end Disk

/-- Every file has a backing. -/
def Disk.Filed (d : Disk) (m : Memory) : Prop :=
  ∀ l k, (l, DiskEntry.file k) ∈ d.entries → k < m.backings.length

theorem Disk.Filed.mono {d : Disk} {m m' : Memory} (hf : d.Filed m)
    (hm : m.backings.length ≤ m'.backings.length) : d.Filed m' :=
  fun l k hk => Nat.lt_of_lt_of_le (hf l k hk) hm

theorem Disk.Filed.replace {d : Disk} {m : Memory} (hf : d.Filed m) (k : Nat) (b : Backing) :
    d.Filed (m.replace k b) :=
  hf.mono (Nat.le_of_eq List.length_set.symm)

theorem Disk.Filed.modify {d : Disk} {m : Memory} (hf : d.Filed m) (k : Nat)
    (f : Backing → Backing) : d.Filed { m with backings := m.backings.modify k f } :=
  hf.mono (Nat.le_of_eq (List.length_modify ..).symm)

/-- The region answered with is a new mapping, an answer with none gives out no
addresses, and every file has a backing. -/
structure Memory.Lays (m : Memory) (answer : Except Failure Host.Result) (m' : Memory)
    (d' : Disk) : Prop where
  mapping : ∀ r, answer = .ok (.region r) → m.Maps r m'
  frontier : (∀ r, answer ≠ .ok (.region r)) → m'.frontier = m.frontier
  filed : d'.Filed m'

/-- No mapping is made. -/
theorem Disk.Filed.lays {d' : Disk} {m' : Memory} (hf : d'.Filed m') (m : Memory)
    (hm : m'.frontier = m.frontier) {answer : Except Failure Host.Result}
    (hno : ∀ r, answer ≠ .ok (.region r)) : m.Lays answer m' d' :=
  ⟨fun r hr => absurd hr (hno r), fun _ => hm, hf⟩

/-- A backing is mapped where the address space has not been given out. -/
theorem Disk.Filed.maps {d' : Disk} {m m₁ m₂ m' : Memory} (hf : d'.Filed m')
    {n : Nat} {base : UInt64} (hreserve : m₁.reserve? n = some (base, m₂))
    (hm : m₁.frontier = m.frontier) (hm' : m'.frontier = m₂.frontier) {k : Nat}
    (hk : k < m'.backings.length) : m.Lays (.ok (.region ⟨base, UInt64.ofNat n, k, 0⟩)) m' d' := by
  obtain ⟨hfits, rfl, hfrontier⟩ := Memory.reserve?_eq_some hreserve
  have hlimit : Memory.addressLimit = 140737488355328 := rfl
  have hsize : UInt64.size = 18446744073709551616 := rfl
  have hlength : (UInt64.ofNat n).toNat = n := UInt64.toNat_ofNat_of_lt' (by omega)
  rw [hm] at hfits hfrontier
  refine ⟨fun r hr => ?_, fun hno => absurd rfl (hno _), hf⟩
  obtain rfl := Host.Result.region.inj (Except.ok.inj hr)
  refine ⟨congrArg UInt64.ofNat hm, ?_, ?_, rfl, hk⟩
  · rwa [hlength]
  · rw [hlength, hm', hfrontier]

namespace Host

/-- The file that is emptied has a backing after it. -/
theorem emptyFile_filed {h h' : Host} {path : String} {k : Nat} (hf : h.disk.Filed h.memory)
    (he : h.emptyFile path = .ok (k, h')) :
    h'.disk.Filed h'.memory ∧ k < h'.memory.backings.length ∧
      h'.memory.frontier = h.memory.frontier := by
  rcases emptyFile_eq_ok he with ⟨l, hfind, rfl⟩ | ⟨l, -, rfl, rfl⟩
  · refine ⟨hf.mono ?_, ?_, rfl⟩
    · simp [Memory.replace]
    · simpa [Memory.replace] using hf l k (Disk.findToWrite_file hfind)
  · refine ⟨fun l' k' hk' => ?_, by simp [Memory.add], rfl⟩
    rcases Disk.mem_put hk' with hnew | hold
    · obtain rfl := DiskEntry.file.inj (Prod.mk.inj hnew).2
      simp [Memory.add]
    · have hlt := hf l' k' hold
      simp only [Memory.add, List.length_append, List.length_singleton]
      omega

/-- What an operation about bytes and files does to the disk and to the
addresses given out. -/
theorem OnBytes.lays {h : Host} {op : Op} {answer : Except Failure Result} {memory : Memory}
    {disk : Disk} {events : List Event} (hb : h.OnBytes op answer memory disk events)
    (hf : h.disk.Filed h.memory) : h.memory.Lays answer memory disk := by
  cases hb with
  | @buffer _ length base memory hlength hreserve =>
    have hb := Memory.reserve?_backings hreserve
    have hlonger : memory.backings.length < (memory.add (.zeros length.toNat)).2.backings.length :=
      by simp [Memory.add]
    have hf' : h.disk.Filed (memory.add (.zeros length.toNat)).2 :=
      hf.mono (hb ▸ Nat.le_of_lt hlonger)
    have hmaps := hf'.maps hreserve rfl rfl hlonger
    rwa [UInt64.ofNat_toNat] at hmaps
  | tooLong hlength he =>
    obtain ⟨hf', -, hm⟩ := emptyFile_filed hf he
    exact hf'.lays h.memory hm (by simp)
  | crowded hlength he =>
    obtain ⟨hf', -, hm⟩ := emptyFile_filed hf he
    exact (hf'.replace _ _).lays h.memory hm (by simp)
  | created hlength he hreserve =>
    obtain ⟨hf', hk, hm⟩ := emptyFile_filed hf he
    have hb := Memory.reserve?_backings hreserve
    refine Disk.Filed.maps ?_ hreserve hm rfl ?_
    · exact (hf'.replace _ _).mono (Nat.le_of_eq (congrArg List.length hb.symm))
    · rw [hb]
      exact hk.trans_eq List.length_set.symm
  | opened hfind hbacking hreserve =>
    have hb := Memory.reserve?_backings hreserve
    have hk := (List.getElem?_eq_some_iff.mp hbacking).1
    refine Disk.Filed.maps ?_ hreserve rfl rfl ?_
    · exact hf.mono (Nat.le_of_eq (congrArg List.length hb.symm))
    · rwa [hb]
  | filled he =>
    obtain ⟨hf', -, hm⟩ := emptyFile_filed hf he
    exact (hf'.replace _ _).lays h.memory hm (by simp)
  | begun hnone he =>
    obtain ⟨hf', -, hm⟩ := emptyFile_filed hf he
    exact (hf'.replace _ _).lays h.memory hm (by simp)
  | appended hk => exact (hf.modify _ _).lays h.memory rfl (by simp)
  | removed l =>
    have hf' : (h.disk.erase l).Filed h.memory := fun l' k hk =>
      hf l' k (List.mem_of_mem_filter hk)
    exact hf'.lays h.memory rfl (by simp)
  | directory path =>
    have hf' : (h.disk.makeDirectories (Disk.origin path) (Disk.components path)).Filed h.memory :=
      fun l k hk => hf l k (Disk.file_mem_makeDirectories hk)
    exact hf'.lays h.memory rfl (by simp)
  | written hp hopen => exact (hf.modify _ _).lays h.memory rfl (by simp)
  | taken hp => exact (hf.modify _ _).lays h.memory rfl (by simp)
  | kept => exact hf.lays h.memory rfl (by simp)

/-- What an operation does to the disk and to the addresses given out. -/
theorem step_lays {h : Host} (hf : h.disk.Filed h.memory) (op : Op) :
    h.memory.Lays (h.step op).1 (h.step op).2.memory (h.step op).2.disk := by
  obtain ⟨d, hd⟩ := h.step_does op
  generalize h.step op = o at hd ⊢
  cases hd with
  | bytes hb => exact hb.lays hf
  | allocate hk hm hc => exact (hf.modify _ _).lays h.memory rfl (by simp)
  | free hlt hback =>
    rw [hback.memory, hback.disk]
    exact hf.lays h.memory rfl (by simp)
  | close hp hopen hback =>
    have hquiet : h.memory.Lays (.ok .done) h.memory h.disk := hf.lays h.memory rfl (by simp)
    simpa only [emit, hback.memory, hback.disk] using hquiet
  | _ => exact hf.lays h.memory rfl (by simp [addPosition])

/-! ### Runs over windows -/

/-- The mapping that an operation makes. -/
def mapping? (h : Host) (op : Op) : Option Region :=
  match (h.step op).1 with
  | .ok (.region r) => some r
  | _ => none

/-- Every region that an operation is given is a window of the mappings made
before it. -/
def WithinMappings (h : Host) (mapped : List Region) : (ops : List Op) → Prop
  | [] => True
  | op :: ops => (∀ r ∈ op.region?, r.WindowOf mapped) ∧
      (h.step op).2.WithinMappings (mapped ++ (h.mapping? op).toList) ops

/-- The mappings that operations make. -/
def mappings (h : Host) : (ops : List Op) → List Region
  | [] => []
  | op :: ops => (h.mapping? op).toList ++ (h.step op).2.mappings ops

/-- The mappings are spread over the addresses given out, and managers and
positions lie in windows of them. -/
structure Grounded (h : Host) (mapped : List Region) : Prop where
  filed : h.disk.Filed h.memory
  paged : h.memory.Paged
  mapping : ∀ r ∈ mapped, r.Mapping
  below : ∀ r ∈ mapped, r.base.toNat + r.capacity.toNat ≤ h.memory.frontier
  backing : ∀ r ∈ mapped, r.backing < h.memory.backings.length
  spread : Spread mapped
  managers : ∀ m ∈ h.managers, m.region.WindowOf mapped
  positions : ∀ p ∈ h.positions, ∃ root ∈ mapped, p.cell.LiesIn root

theorem empty_grounded : Grounded {} [] where
  filed := nofun
  paged := ⟨by decide, by decide⟩
  mapping := nofun
  below := nofun
  backing := nofun
  spread := nofun
  managers := nofun
  positions := nofun

theorem mapping?_eq_some_iff {h : Host} {op : Op} {r : Region} :
    h.mapping? op = some r ↔ (h.step op).1 = .ok (.region r) := by
  unfold mapping?
  split
  · rename_i r' hr'
    rw [hr']
    simp
  · rename_i hno
    exact ⟨nofun, fun hr => absurd hr (hno r)⟩

theorem mapping?_eq_none_iff {h : Host} {op : Op} :
    h.mapping? op = none ↔ ∀ r, (h.step op).1 ≠ .ok (.region r) := by
  simp only [Option.eq_none_iff_forall_ne_some, ne_eq, mapping?_eq_some_iff]

/-- Managers and positions that an operation makes lie in windows. -/
theorem Grounded.step_managers {h : Host} {mapped : List Region} (hg : h.Grounded mapped) {op : Op}
    (hop : ∀ r ∈ op.region?, r.WindowOf mapped) :
    ∀ m ∈ (h.step op).2.managers, m.region.WindowOf mapped := by
  intro m hm
  obtain ⟨d, hd⟩ := h.step_does op
  rcases hd.managers.mem hm with ⟨m₀, hm₀, hm'⟩ | ⟨region, settings, hgiven, hmake⟩
  · rw [hm'.region]
    exact hg.managers m₀ hm₀
  · rw [Manager.make_region hmake]
    exact hop region hgiven

theorem Grounded.step_positions {h : Host} {mapped : List Region} (hg : h.Grounded mapped) {op : Op}
    (hop : ∀ r ∈ op.region?, r.WindowOf mapped) :
    ∀ p ∈ (h.step op).2.positions, ∃ root ∈ mapped, p.cell.LiesIn root := by
  intro p hp
  obtain ⟨d, hd⟩ := h.step_does op
  rcases hd.positions.mem hp with ⟨p₀, hp₀, hpos⟩ | ⟨region, hregion, hcell⟩
  · have hcell : p.cell = p₀.cell := by
      rcases hpos with rfl | rfl <;> rfl
    rw [hcell]
    exact hg.positions p₀ hp₀
  · have hwindow : region.WindowOf mapped := by
      rcases hregion with hgiven | ⟨m, hm, rfl⟩
      · exact hop region hgiven
      · exact hg.managers m hm
    obtain ⟨offset, hoffset⟩ := Region.slotCell_eq_ok hcell
    exact hwindow.cell_liesIn hg.mapping hoffset

theorem Grounded.step {h : Host} {mapped : List Region} (hg : h.Grounded mapped) {op : Op}
    (hop : ∀ r ∈ op.region?, r.WindowOf mapped) :
    (h.step op).2.Grounded (mapped ++ (h.mapping? op).toList) := by
  have hlays := step_lays hg.filed op
  have hbackings := (h.step_touches op).backings
  have hmanagers := hg.step_managers hop
  have hpositions := hg.step_positions hop
  have hbacking : ∀ r ∈ mapped, r.backing < (h.step op).2.memory.backings.length := fun r hr =>
    Nat.lt_of_lt_of_le (hg.backing r hr) hbackings
  cases hmap : h.mapping? op with
  | none =>
    have hfrontier := hlays.frontier (mapping?_eq_none_iff.mp hmap)
    have hpaged : (h.step op).2.memory.Paged := by
      refine ⟨?_, ?_⟩ <;> rw [hfrontier]
      · exact hg.paged.page
      · exact hg.paged.pos
    have hbelow : ∀ r ∈ mapped,
        r.base.toNat + r.capacity.toNat ≤ (h.step op).2.memory.frontier := by
      rw [hfrontier]
      exact hg.below
    rw [Option.toList_none, List.append_nil]
    exact ⟨hlays.filed, hpaged, hg.mapping, hbelow, hbacking, hg.spread, hmanagers, hpositions⟩
  | some r =>
    have hmaps := hlays.mapping r (mapping?_eq_some_iff.mp hmap)
    have hbase := hmaps.toNat_base
    obtain ⟨hends, hpaged⟩ := hmaps.frontier_eq
    have hnew : ∀ {P : Region → Prop}, (∀ s ∈ mapped, P s) → P r → ∀ s ∈ mapped ++ [r], P s := by
      intro P hold hr s hs
      rcases List.mem_append.mp hs with hs | hs
      · exact hold s hs
      · obtain rfl := List.mem_singleton.mp hs
        exact hr
    refine ⟨hlays.filed, hpaged, hnew hg.mapping (hmaps.mapping hg.paged), hnew (fun s hs => ?_) ?_,
      hnew hbacking hmaps.backing, hg.spread.snoc fun s hs => ?_, fun m hm => (hmanagers m hm).mono,
      fun p hp => ?_⟩
    · have := hg.below s hs
      omega
    · omega
    · have := hg.below s hs
      omega
    · obtain ⟨root, hroot, hlies⟩ := hpositions p hp
      exact ⟨root, List.mem_append_left _ hroot, hlies⟩

theorem Grounded.run {h : Host} {mapped : List Region} (hg : h.Grounded mapped) {ops : List Op}
    (hw : h.WithinMappings mapped ops) : (h.run ops).Grounded (mapped ++ h.mappings ops) := by
  induction ops generalizing h mapped with
  | nil =>
    rw [mappings, List.append_nil]
    exact hg
  | cons op ops ih =>
    obtain ⟨hop, hrest⟩ := hw
    rw [mappings, ← List.append_assoc]
    exact ih (hg.step hop) hrest

theorem withinMappings_append {h : Host} {mapped : List Region} {ops more : List Op} :
    h.WithinMappings mapped (ops ++ more) ↔ h.WithinMappings mapped ops ∧
      (h.run ops).WithinMappings (mapped ++ h.mappings ops) more := by
  induction ops generalizing h mapped with
  | nil => simp [WithinMappings, mappings, run]
  | cons op ops ih =>
    rw [List.cons_append, WithinMappings, WithinMappings, ih, mappings, ← List.append_assoc,
      and_assoc]
    rfl

end Host
end LockFree.Counters
