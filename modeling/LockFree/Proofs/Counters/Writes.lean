/-
# What operations write

The bytes of memory change in two ways. Three operations write a value to one
cell: a write through an open position, a proposal that is taken, and an
allocation, which sets the value of its slot to zero (`Host.written?`). And a
file that is given new contents is given new bytes (`Host.rewritten?`), which
the regions that show it see. No byte changes otherwise, and every operation
leaves each backing that there is (`Host.step_touches`).

Key definitions: `Cell.Covers`, `Host.written?`, `Host.rewritten?`,
`Memory.Touches`.
Key theorems: `Memory.load_store_self`, `Memory.load_store_apart`,
`Host.step_touches`, `Host.byte_changed`.
-/
import Mathlib.Tactic.Ring
import LockFree.Proofs.Counters.Placement

namespace LockFree.Counters

/-! ### Values and their bytes -/

theorem toNat_valueByte (v : Int64) (i : Nat) :
    (valueByte v i).toNat = v.toUInt64.toNat / 256 ^ i % 256 := by
  rw [valueByte, UInt8.toNat_ofNat']
  exact Nat.mod_mod _ _

/-- The digits of a number put together again, under what is there already. -/
theorem foldr_digits (n k a : Nat) :
    (List.range k).foldr (fun i acc => acc * 256 + n / 256 ^ i % 256) a =
      a * 256 ^ k + n % 256 ^ k := by
  induction k generalizing a with
  | zero => simp [Nat.mod_one]
  | succ k ih =>
    rw [List.range_succ, List.foldr_append, List.foldr_cons, List.foldr_nil, ih, Nat.mod_pow_succ]
    ring

theorem valueOfBytes_valueByte (v : Int64) : valueOfBytes (valueByte v) = v := by
  have hlt : v.toUInt64.toNat < 256 ^ 8 := v.toUInt64.toNat_lt_size
  simp only [valueOfBytes, toNat_valueByte, foldr_digits, Nat.mod_eq_of_lt hlt]
  simp

theorem valueOfBytes_congr {f g : Nat → UInt8} (hfg : ∀ i < 8, f i = g i) :
    valueOfBytes f = valueOfBytes g := by
  have hrange : List.range 8 = [0, 1, 2, 3, 4, 5, 6, 7] := rfl
  simp only [valueOfBytes, hrange, List.foldr_cons, List.foldr_nil]
  rw [hfg 0 (by omega), hfg 1 (by omega), hfg 2 (by omega), hfg 3 (by omega), hfg 4 (by omega),
    hfg 5 (by omega), hfg 6 (by omega), hfg 7 (by omega)]

/-! ### Cells in memory -/

namespace Cell

/-- Byte `i` of backing `b` is one of the cell's. -/
def Covers (c : Cell) (b i : Nat) : Prop := c.backing = b ∧ c.offset ≤ i ∧ i < c.offset + 8

instance (c : Cell) (b i : Nat) : Decidable (c.Covers b i) :=
  inferInstanceAs (Decidable (_ ∧ _ ∧ _))

/-- The cells are the same eight bytes, at whatever addresses they are seen. -/
def Coincides (c c' : Cell) : Prop := c.backing = c'.backing ∧ c.offset = c'.offset

instance (c c' : Cell) : Decidable (c.Coincides c') := inferInstanceAs (Decidable (_ ∧ _))

/-- The cells have no byte in common. -/
def Apart (c c' : Cell) : Prop := ∀ b i, c.Covers b i → ¬ c'.Covers b i

theorem Apart.not_coincides {c c' : Cell} (hc : c.Apart c') : ¬ c.Coincides c' := by
  rintro ⟨hb, ho⟩
  exact hc c.backing c.offset ⟨rfl, by omega, by omega⟩ ⟨hb.symm, by omega, by omega⟩

theorem apart_of_offset {c c' : Cell}
    (hc : c.backing = c'.backing → c.offset + 8 ≤ c'.offset ∨ c'.offset + 8 ≤ c.offset) :
    c.Apart c' := by
  rintro b i ⟨hb, hlo, hhi⟩ ⟨hb', hlo', hhi'⟩
  have := hc (hb.trans hb'.symm)
  omega

end Cell

/-- Two slots of a region have no byte in common. -/
theorem Region.slotAt_apart (r : Region) {i j : Nat} (hne : i ≠ j) :
    (r.slotAt i).Apart (r.slotAt j) := by
  refine Cell.apart_of_offset fun _ => ?_
  simp only [slotAt]
  omega

namespace Memory

theorem byte_store (m : Memory) (c : Cell) (v : Int64) (b i : Nat) :
    (m.store c v).byte b i =
      if c.Covers b i ∧ b < m.backings.length then valueByte v (i - c.offset) else m.byte b i := by
  unfold byte store
  rw [List.getElem?_modify]
  cases hb : m.backings[b]? with
  | none =>
    have hlt : ¬ b < m.backings.length := Nat.not_lt.mpr (List.getElem?_eq_none_iff.mp hb)
    simp [hlt]
  | some backing =>
    have hlt : b < m.backings.length := (List.getElem?_eq_some_iff.mp hb).1
    by_cases hc : c.backing = b
    · simp [Cell.Covers, hc, hlt, Backing.store]
    · simp [Cell.Covers, hc]

theorem load_congr {m m' : Memory} {c : Cell}
    (hbytes : ∀ i, c.Covers c.backing i → m'.byte c.backing i = m.byte c.backing i) :
    m'.load c = m.load c := by
  refine valueOfBytes_congr fun i hi => hbytes _ ⟨rfl, ?_, ?_⟩ <;> omega

theorem load_coincides (m : Memory) {c c' : Cell} (hc : c.Coincides c') : m.load c = m.load c' := by
  unfold load
  rw [hc.1, hc.2]

theorem load_store_self (m : Memory) {c c' : Cell} (v : Int64) (hc : c.Coincides c')
    (hb : c.backing < m.backings.length) : (m.store c v).load c' = v := by
  rw [← load_coincides _ hc, load]
  have hbytes : ∀ i < 8, (m.store c v).byte c.backing (c.offset + i) = valueByte v i := by
    intro i hi
    have hcovers : c.Covers c.backing (c.offset + i) := ⟨rfl, by omega, by omega⟩
    rw [byte_store, if_pos ⟨hcovers, hb⟩, Nat.add_sub_cancel_left]
  rw [valueOfBytes_congr hbytes]
  exact valueOfBytes_valueByte v

theorem load_store_apart (m : Memory) {c c' : Cell} (v : Int64) (hc : c.Apart c') :
    (m.store c v).load c' = m.load c' := by
  refine load_congr fun i hi => ?_
  rw [byte_store, if_neg fun h => hc _ _ h.1 hi]

/-- A cell that was set to zero reads as zero, also where there are no bytes to
be set. -/
theorem load_store_zero (m : Memory) (c : Cell) : (m.store c 0).load c = 0 := by
  by_cases hb : c.backing < m.backings.length
  · exact load_store_self m 0 ⟨rfl, rfl⟩ hb
  · have hnone : (m.store c 0).backings[c.backing]? = none := by
      rw [List.getElem?_eq_none_iff, store, List.length_modify]
      omega
    simp only [load, byte, hnone]
    rfl

/-- The memory after a value may have been written to a cell. -/
def after (m : Memory) : (written : Option (Cell × Int64)) → Memory
  | none => m
  | some (c, v) => m.store c v

theorem byte_congr {m m' : Memory} (hm : m'.backings = m.backings) (b i : Nat) :
    m'.byte b i = m.byte b i := by
  unfold byte
  rw [hm]

/-- A backing of zeros reads as no backing does. -/
theorem byte_add_zeros (m : Memory) (n b i : Nat) : (m.add (.zeros n)).2.byte b i = m.byte b i := by
  unfold byte add
  simp only
  rcases Nat.lt_trichotomy b m.backings.length with hlt | rfl | hgt
  · rw [List.getElem?_append_left hlt]
  · simp [Backing.zeros]
  · rw [List.getElem?_append_right (Nat.le_of_lt hgt), List.getElem?_eq_none_iff.mpr
      (by simp only [List.length_singleton]; omega), List.getElem?_eq_none_iff.mpr (by omega)]

theorem byte_replace_ne (m : Memory) {k b : Nat} (backing : Backing) (hne : k ≠ b) (i : Nat) :
    (m.replace k backing).byte b i = m.byte b i := by
  unfold byte replace
  rw [List.getElem?_set_ne hne]

/-- Bytes are added after those that there are. -/
theorem byte_append (m : Memory) {k b i : Nat} (bytes : List UInt8)
    (hi : ∀ s, (m.backings[k]?.map fun b => (k, b.size)) = some (b, s) → i < s) :
    byte { m with backings := m.backings.modify k (·.append bytes) } b i = m.byte b i := by
  unfold byte
  rw [List.getElem?_modify]
  by_cases hk : k = b
  · subst hk
    cases hb : m.backings[k]? with
    | none => rfl
    | some backing =>
      have hlt : i < backing.size := hi backing.size (by rw [hb]; rfl)
      have hout : ¬ (backing.size ≤ i ∧ i < backing.size + bytes.length) := by omega
      simp [Backing.append, hout]
  · simp [hk]

theorem reserve?_backings {m m' : Memory} {capacity : Nat} {base : UInt64}
    (hm : m.reserve? capacity = some (base, m')) : m'.backings = m.backings := by
  unfold reserve? at hm
  split at hm
  · obtain ⟨-, rfl⟩ := Prod.mk.inj (Option.some.inj hm)
    rfl
  · cases hm

end Memory

/-! ### What is written -/

/-- A slot's cell does not depend on what is done to the manager. -/
theorem Manager.Follows.cell_eq {now : Nat} {m m' : Manager} {a : Option Action}
    (hf : m.Follows now a m') (id : SlotId) : m'.cell id = m.cell id := by
  cases hf <;> rfl

namespace Host

/-- The cell that an operation writes, and the value that it writes there: a
write through a position that is open, a proposal that is taken, or the zero of
an allocation that succeeds. -/
def written? (h : Host) (op : Op) : Option (Cell × Int64) :=
  match op with
  | .write k _ v => h.positions[k]?.bind fun p => if p.closed then none else some (p.cell, v)
  | .propose k _ v =>
    if (h.step op).1 = .ok (.moved true) then h.positions[k]?.map fun p => (p.cell, v) else none
  | .allocate k _ =>
    match (h.step op).1 with
    | .ok (.slot id) => h.managers[k]?.bind fun m => (m.cell id).toOption.map fun c => (c, 0)
    | _ => none
  | _ => none

/-- The position that an operation writes through. -/
def Op.through? : Op → Option Nat
  | .write p _ _ | .propose p _ _ => some p
  | _ => none

/-- What is written goes to the cell of a position, or to that of a slot that is
handed out. -/
theorem written?_cases {h : Host} {op : Op} {c : Cell} {v : Int64}
    (hw : h.written? op = some (c, v)) :
    (∃ p q, op.through? = some p ∧ h.positions[p]? = some q ∧ q.cell = c) ∨
      ∃ k label m id, op = .allocate k label ∧ h.managers[k]? = some m ∧
        (h.step op).1 = .ok (.slot id) ∧ m.cell id = .ok c := by
  cases op with
  | write p tier v' =>
    obtain ⟨q, hp, hq⟩ := Option.bind_eq_some_iff.mp hw
    split at hq
    · cases hq
    · exact Or.inl ⟨p, q, rfl, hp, (Prod.mk.inj (Option.some.inj hq)).1⟩
  | propose p tier v' =>
    unfold written? at hw
    dsimp only at hw
    split at hw
    · obtain ⟨q, hp, hq⟩ := Option.map_eq_some_iff.mp hw
      exact Or.inl ⟨p, q, rfl, hp, (Prod.mk.inj hq).1⟩
    · cases hw
  | allocate k label =>
    unfold written? at hw
    dsimp only at hw
    split at hw
    · rename_i id hid
      obtain ⟨m, hk, hm⟩ := Option.bind_eq_some_iff.mp hw
      obtain ⟨c', hcell, hc⟩ := Option.map_eq_some_iff.mp hm
      obtain ⟨rfl, -⟩ := Prod.mk.inj hc
      refine Or.inr ⟨k, label, m, id, rfl, hk, hid, ?_⟩
      cases he : m.cell id with
      | error e =>
        rw [he] at hcell
        cases hcell
      | ok c₁ =>
        rw [he] at hcell
        exact congrArg Except.ok (Option.some.inj hcell)
    · cases hw
  | _ => cases hw

/-- The backing of the file that an operation gives new contents, and the
offset from which on: the start, or the end of a file to which bytes are
added. -/
def rewritten? (h : Host) : Op → Option (Nat × Nat)
  | .createMapping path length =>
    if length = 0 then none
    else
      match h.disk.findToWrite path with
      | .ok (.file _ k) => some (k, 0)
      | _ => none
  | .writeFile path _ => (h.emptyFile path).toOption.map fun out => (out.1, 0)
  | .appendFile path _ =>
    match h.disk.file? path with
    | some k => h.memory.backings[k]?.map fun b => (k, b.size)
    | none => (h.emptyFile path).toOption.map fun out => (out.1, 0)
  | _ => none

end Host

/-- What may have become of memory: a value was written to a cell, a backing
has new contents from some offset on, and there may be more backings than
before. -/
structure Memory.Touches (m : Memory) (written : Option (Cell × Int64))
    (rewritten : Option (Nat × Nat)) (m' : Memory) : Prop where
  bytes : ∀ b i, (∀ s, rewritten = some (b, s) → i < s) →
    m'.byte b i = (m.after written).byte b i
  backings : m.backings.length ≤ m'.backings.length

namespace Memory

theorem Touches.of_backings {m m' : Memory} (hm : m'.backings = m.backings)
    (rewritten : Option (Nat × Nat)) : m.Touches none rewritten m' :=
  ⟨fun b i _ => byte_congr hm b i, Nat.le_of_eq (by rw [hm])⟩

theorem Touches.refl (m : Memory) (rewritten : Option (Nat × Nat)) : m.Touches none rewritten m :=
  .of_backings rfl rewritten

theorem Touches.store (m : Memory) (c : Cell) (v : Int64) :
    m.Touches (some (c, v)) none (m.store c v) :=
  ⟨fun b i _ => rfl, by simp [Memory.store]⟩

/-- A new backing of zeros. -/
theorem Touches.add {m m' : Memory} (hm : m'.backings = m.backings) (n : Nat) :
    m.Touches none none (m'.add (.zeros n)).2 := by
  refine ⟨fun b i _ => (m'.byte_add_zeros n b i).trans (byte_congr hm b i), ?_⟩
  show _ ≤ (m'.backings ++ [_]).length
  rw [hm, List.length_append]
  omega

end Memory

namespace Host

/-- A file that is emptied and given new contents. -/
theorem refill_touches {h h' : Host} {path : String} {k : Nat}
    (he : h.emptyFile path = .ok (k, h')) (backing : Backing) {m : Memory}
    (hm : m.backings = (h'.memory.replace k backing).backings) :
    h.memory.Touches none (some (k, 0)) m := by
  have hne : ∀ {b i : Nat}, (∀ s, some (k, 0) = some (b, s) → i < s) → k ≠ b := by
    rintro b i hb rfl
    exact absurd (hb 0 rfl) (Nat.not_lt_zero i)
  have hbyte : ∀ b i, k ≠ b → m.byte b i = h'.memory.byte b i := fun b i hne =>
    (Memory.byte_congr hm b i).trans (h'.memory.byte_replace_ne backing hne i)
  have hlength : m.backings.length = h'.memory.backings.length := by
    rw [hm, Memory.replace, List.length_set]
  rcases emptyFile_eq_ok he with ⟨l, -, rfl⟩ | ⟨l, -, -, rfl⟩
  · refine ⟨fun b i hb => ?_, ?_⟩
    · exact (hbyte b i (hne hb)).trans (h.memory.byte_replace_ne _ (hne hb) i)
    · rw [hlength]
      simp [Memory.replace]
  · refine ⟨fun b i hb => ?_, ?_⟩
    · exact (hbyte b i (hne hb)).trans (h.memory.byte_add_zeros 0 b i)
    · rw [hlength]
      simp [Memory.add]

/-- An emptied file is empty already. -/
theorem emptyFile_backings {h h' : Host} {path : String} {k : Nat}
    (he : h.emptyFile path = .ok (k, h')) :
    (h'.memory.replace k (.zeros 0)).backings = h'.memory.backings := by
  rcases emptyFile_eq_ok he with ⟨l, -, rfl⟩ | ⟨l, -, rfl, rfl⟩
  · simp [Memory.replace]
  · simp [Memory.replace, Memory.add]

/-- A file that is emptied and filled with zeros to be mapped; if it is a new
one, then no byte has changed. -/
theorem zero_touches {h h' : Host} {path : String} {length : UInt64} {k n : Nat} {m : Memory}
    (hlength : length ≠ 0) (he : h.emptyFile path = .ok (k, h'))
    (hm : m.backings = (h'.memory.replace k (.zeros n)).backings) :
    h.memory.Touches none (h.rewritten? (.createMapping path length)) m := by
  have htouches := refill_touches he (.zeros n) hm
  simp only [rewritten?, if_neg hlength]
  rcases emptyFile_eq_ok he with ⟨l, hfind, -⟩ | ⟨l, hfind, rfl, rfl⟩
  · rw [hfind]
    exact htouches
  · rw [hfind]
    refine ⟨fun b i _ => ?_, htouches.backings⟩
    by_cases hb : h.memory.backings.length = b
    · subst hb
      have hnone : h.memory.backings[h.memory.backings.length]? = none := by simp
      simp only [Memory.byte, hm, Memory.after, hnone]
      simp [Memory.replace, Memory.add, Backing.zeros]
    · exact htouches.bytes b i fun s he => absurd (Prod.mk.inj (Option.some.inj he)).1 hb

variable {h : Host} {op : Op}

/-- An operation that fails writes no value. -/
theorem written?_of_error {f : Failure} (hf : (h.step op).1 = .error f) : h.written? op = none := by
  cases op with
  | write p tier v =>
    cases hp : h.positions[p]? with
    | none => simp [written?, hp]
    | some q =>
      cases hc : q.closed with
      | true => simp [written?, hp, hc]
      | false => simp [step, write, hp, Position.write, hc] at hf
  | propose p tier v => simp [written?, hf]
  | allocate k label => simp [written?, hf]
  | _ => rfl

theorem OnBytes.touches {answer : Except Failure Result} {memory : Memory} {disk : Disk}
    {events : List Event} (hb : h.OnBytes op answer memory disk events)
    (ho : (h.step op).1 = answer) :
    h.memory.Touches (h.written? op) (h.rewritten? op) memory := by
  cases hb with
  | buffer hlength hreserve => exact .add (Memory.reserve?_backings hreserve) _
  | tooLong hlength he => exact zero_touches hlength he (emptyFile_backings he).symm
  | crowded hlength he => exact zero_touches hlength he rfl
  | created hlength he hreserve =>
    exact zero_touches hlength he (Memory.reserve?_backings hreserve)
  | opened hfind hb hreserve => exact .of_backings (Memory.reserve?_backings hreserve) _
  | @filled path bytes k h' he =>
    have hrewritten : h.rewritten? (.writeFile path bytes) = some (k, 0) := by
      simp [rewritten?, he, Except.toOption]
    rw [hrewritten]
    exact refill_touches he (.ofList bytes) rfl
  | @begun path bytes k h' hnone he =>
    have hrewritten : h.rewritten? (.appendFile path bytes) = some (k, 0) := by
      simp [rewritten?, hnone, he, Except.toOption]
    rw [hrewritten]
    exact refill_touches he (.ofList bytes) rfl
  | @appended path bytes k hk =>
    have hrewritten : h.rewritten? (.appendFile path bytes) =
        h.memory.backings[k]?.map fun b => (k, b.size) := by
      simp [rewritten?, hk]
    rw [hrewritten]
    exact ⟨fun b i hi => h.memory.byte_append bytes hi, by simp⟩
  | removed l => exact .refl _ _
  | directory path => exact .refl _ _
  | @written p q tier v hp hopen =>
    have hwritten : h.written? (.write p tier v) = some (q.cell, v) := by
      simp [written?, hp, hopen]
    rw [hwritten]
    exact .store _ _ _
  | @taken p q tier v hp =>
    have hwritten : h.written? (.propose p tier v) = some (q.cell, v) := by
      simp [written?, ho, hp]
    rw [hwritten]
    exact .store _ _ _
  | @kept p tier v =>
    have hwritten : h.written? (.propose p tier v) = none := by simp [written?, ho]
    rw [hwritten]
    exact .refl _ _

/-- All that an operation may do to memory. -/
theorem step_touches (h : Host) (op : Op) :
    h.memory.Touches (h.written? op) (h.rewritten? op) (h.step op).2.memory := by
  obtain ⟨d, hd⟩ := h.step_does op
  generalize ho : h.step op = o at hd ⊢
  cases hd with
  | fails f hop =>
    rw [written?_of_error (congrArg Prod.fst ho)]
    exact .refl _ _
  | bytes hb => exact hb.touches (congrArg Prod.fst ho)
  | @allocate k i label m m' c hk hm hc =>
    have hwritten : h.written? (.allocate k label) = some (c, 0) := by
      simp [written?, ho, hk, ← hm.cell_eq, hc, Except.toOption]
    rw [hwritten]
    exact .store _ _ _
  | lacks hk hm hc =>
    rw [written?_of_error (congrArg Prod.fst ho)]
    exact .refl _ _
  | free hlt hback => exact .of_backings (congrArg Memory.backings hback.memory) _
  | close hp hopen hback => exact .of_backings (congrArg Memory.backings hback.memory) _
  | _ => exact .refl _ _

/-- Only the bytes of the cell that is written change. -/
theorem byte_changed {h : Host} {op : Op} {b i : Nat}
    (hne : (h.step op).2.memory.byte b i ≠ h.memory.byte b i) :
    (∃ c v, h.written? op = some (c, v) ∧ c.Covers b i) ∨
      ∃ s ≤ i, h.rewritten? op = some (b, s) := by
  by_cases hr : ∃ s ≤ i, h.rewritten? op = some (b, s)
  · exact Or.inr hr
  · have hbyte := (h.step_touches op).bytes b i fun s hs =>
      Nat.lt_of_not_le fun hle => hr ⟨s, hle, hs⟩
    rw [hbyte] at hne
    cases hw : h.written? op with
    | none =>
      rw [hw] at hne
      exact absurd rfl hne
    | some w =>
      obtain ⟨c, v⟩ := w
      refine Or.inl ⟨c, v, rfl, by_contra fun hc => hne ?_⟩
      rw [hw, Memory.after, Memory.byte_store, if_neg fun hb => hc hb.1]

end Host
end LockFree.Counters
