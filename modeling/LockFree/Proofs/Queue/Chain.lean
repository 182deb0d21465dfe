/-
# Chains in a heap

`Chain.Stands` says that a heap holds a chain with given nodes, and beside it a
`frame` that is none of the chain's business: nodes that producers have not
handed in yet, nodes of other queues. The steps of an offer and of a poll are
`Stands.allocate`, `Stands.append`, `Stands.publish`, `Stands.advance` and
`Stands.discard`. The operations that run to their end are put together from
them; each one is given here with its answer, and keeps every frame.
-/
import LockFree.Proofs.Queue.Spine

namespace LockFree.Queue
namespace Chain

variable {α : Type} {c : Chain} {h : Heap α} {es : List (Entry α)} {frame : List (Address × Node α)}

/-- The heap holds the chain with these nodes behind its sentinel, and the
frame. -/
structure Stands (c : Chain) (h : Heap α) (es : List (Entry α)) (frame : List (Address × Node α)) :
    Prop where
  heap : h.Holds (spine c.head none es ++ frame)
  tail : c.tail = lastAddress c.head es

theorem Stands.perm {frame' : List (Address × Node α)} (hs : c.Stands h es frame)
    (p : frame.Perm frame') : c.Stands h es frame' :=
  ⟨hs.heap.perm (p.append_left _), hs.tail⟩

/-! ### The steps -/

/-- A node is filled at a free address. -/
theorem Stands.allocate (hs : c.Stands h es frame) {a : Address} (ha : h.node? a = none)
    (n : Node α) : c.Stands (h.allocateAt a n) es ((a, n) :: frame) :=
  ⟨(hs.heap.allocateAt ha n).perm List.perm_middle.symm, hs.tail⟩

/-- The tail is moved onto a filled node. The chain has a gap before it. -/
theorem Stands.append {a : Address} {v : α} (hs : c.Stands h es ((a, ⟨none, some v⟩) :: frame)) :
    Stands { c with tail := a } h (es ++ [⟨a, v, false⟩]) frame := by
  refine ⟨?_, ?_⟩
  · rw [spine_append_gap, List.append_assoc]
    exact hs.heap
  · rw [lastAddress_append]
    rfl

/-- The node before a gap gets its link. -/
theorem Stands.publish {l r : List (Entry α)} {a : Address} {v : α}
    (hs : c.Stands h (l ++ ⟨a, v, false⟩ :: r) frame) :
    ∃ h', h.link (lastAddress c.head l) (some a) = .ok h' ∧
      c.Stands h' (l ++ ⟨a, v, true⟩ :: r) frame := by
  have hh := hs.heap
  rw [spine_append, spine, List.append_assoc, List.cons_append] at hh
  obtain ⟨h', hl, hh'⟩ := hh.link (some a)
  refine ⟨h', hl, ?_, ?_⟩
  · rw [spine_append, spine, List.append_assoc, List.cons_append]
    exact hh'
  · rw [hs.tail, lastAddress_append, lastAddress_append]
    rfl

/-- The head is moved onto the next node and the value is taken out of it. The
old sentinel leaves the chain. -/
theorem Stands.advance {a : Address} {v : α} (hs : c.Stands h (⟨a, v, true⟩ :: es) frame) :
    ∃ h', h.take a = .ok (v, h') ∧
      Stands { c with head := a } h' es ((c.head, ⟨some a, none⟩) :: frame) := by
  have hh : h.Holds ((c.head, ⟨some a, none⟩) :: (spine a (some v) es ++ frame)) := hs.heap
  obtain ⟨next, rest, hn⟩ := exists_spine_eq_cons (α := α) a es
  rw [hn] at hh
  obtain ⟨h', ht, hh'⟩ := Heap.Holds.take (l := [(c.head, ⟨some a, none⟩)]) hh
  refine ⟨h', ht, hh'.perm ?_, hs.tail⟩
  rw [hn]
  have hp : ((a, ⟨next, none⟩) :: rest ++ (c.head, ⟨some a, none⟩) :: frame).Perm
      ((c.head, ⟨some a, none⟩) :: ((a, ⟨next, none⟩) :: rest ++ frame)) := List.perm_middle
  exact hp.symm

/-- A node of the frame is freed. -/
theorem Stands.discard {a : Address} {n : Node α} (hs : c.Stands h es ((a, n) :: frame)) :
    ∃ h', h.free a = .ok h' ∧ c.Stands h' es frame := by
  obtain ⟨h', hf, hh'⟩ := hs.heap.free
  exact ⟨h', hf, hh', hs.tail⟩

/-! ### The operations -/

theorem create_stands (hh : h.Holds frame) : (create h).1.Stands (create h).2 [] frame :=
  ⟨hh.allocateAt h.node?_fresh _, rfl⟩

/-- What an offer answers: the chain has one more node at its end. -/
theorem Stands.offer (hs : c.Stands h es frame) (v : α) :
    ∃ a h', c.offer h v = .ok ({ c with tail := a }, h') ∧
      Stands { c with tail := a } h' (es ++ [⟨a, v, true⟩]) frame := by
  have hp := ((hs.allocate h.node?_fresh ⟨none, some v⟩).append).publish (r := [])
  obtain ⟨h', hl, hs'⟩ := hp
  refine ⟨h.fresh, h', ?_, hs'⟩
  rw [← hs.tail] at hl
  simp only [Chain.offer, Heap.allocate, hl]

/-- The sentinel leads to the first node that can be reached. -/
theorem Stands.first? (hs : c.Stands h es frame) :
    c.first? h = .ok ((visible es).head?.map Entry.address) := by
  cases es with
  | nil => rw [Chain.first?, hs.heap.read List.mem_cons_self]; rfl
  | cons e es =>
    rw [Chain.first?, hs.heap.read List.mem_cons_self]
    cases hl : e.linked <;> simp [visible, hl]

theorem Stands.poll_none (hs : c.Stands h es frame) (hv : visible es = []) :
    c.poll h = .ok (none, c, h) := by
  rw [Chain.poll, hs.first?, hv]
  rfl

theorem Stands.poll_some {a : Address} {v : α} (hs : c.Stands h (⟨a, v, true⟩ :: es) frame) :
    ∃ h', c.poll h = .ok (some v, { c with head := a }, h') ∧
      Stands { c with head := a } h' es frame := by
  obtain ⟨h₁, ht, hs₁⟩ := hs.advance
  obtain ⟨h₂, hf, hs₂⟩ := hs₁.discard
  refine ⟨h₂, ?_, hs₂⟩
  have hfirst : c.first? h = .ok (some a) := hs.first?
  simp only [Chain.poll, hfirst, ht, hf]

/-- A poll that finds nothing changes nothing. -/
theorem poll_eq_none {c c' : Chain} {h h' : Heap α} (hp : c.poll h = .ok (none, c', h')) :
    c = c' ∧ h = h' := by
  simp only [Chain.poll] at hp
  split at hp
  · cases hp
  · cases hp
    exact ⟨rfl, rfl⟩
  · split at hp
    · cases hp
    · split at hp <;> cases hp

theorem pollMany_eq_nil {c : Chain} {h : Heap α} (hp : c.poll h = .ok (none, c, h)) (n : Nat) :
    c.pollMany h n = .ok ([], c, h) := by
  cases n with
  | zero => rfl
  | succ n => rw [Chain.pollMany, hp]

/-- The first node behind a sentinel holds its value. -/
theorem payload_eq {a : Address} {p : Option α} {e : Entry α}
    (hh : h.Holds (spine a p (e :: es) ++ frame)) : h.payload e.address = .ok e.value := by
  obtain ⟨next, rest, hn⟩ := exists_spine_eq_cons (α := α) e.address es
  rw [spine, hn] at hh
  exact hh.payload (List.mem_cons_of_mem _ List.mem_cons_self)

theorem Stands.peek (hs : c.Stands h es frame) :
    c.peek h = .ok ((visible es).head?.map Entry.value) := by
  rw [Chain.peek, hs.first?]
  cases es with
  | nil => rfl
  | cons e es =>
    cases hl : e.linked with
    | false => simp [visible, hl]
    | true => simp [visible, hl, payload_eq hs.heap]

theorem Stands.isEmpty (hs : c.Stands h es frame) :
    c.isEmpty h = .ok (visible es).isEmpty := by
  rw [Chain.isEmpty, hs.first?]
  cases visible es <;> rfl

/-! ### Following the links

A walk needs a step for each node that it passes, and a chain passes through a
node once. So the bound that the heap's size puts on a walk is never reached,
and any bound from the number of nodes on gives the same. -/

/-- A node other than the last one does not stand where the last one does. -/
theorem ne_lastAddress {a : Address} {p : Option α} {e : Entry α} {es : List (Entry α)}
    (hh : h.Holds (spine a p (e :: es) ++ frame)) : a ≠ lastAddress a (e :: es) := by
  intro he
  have hnot := Heap.Holds.not_mem_others (l := []) hh
  have hm := List.mem_append_left frame (lastAddress_mem e.address (some e.value) es)
  exact hnot (List.mem_map.mpr ⟨_, hm, he.symm⟩)

/-- A walk that begins at `a` finds what can be reached from there. -/
theorem walk_spine {es : List (Entry α)} : ∀ {frame : List (Address × Node α)} {a : Address}
    {p : Option α} {n : Nat}, h.Holds (spine a p es ++ frame) → es.length ≤ n →
    walk h (lastAddress a es) n a = .ok ((visible es).map Entry.value) := by
  induction es with
  | nil =>
    intro frame a p n _ _
    cases n with
    | zero => rfl
    | succ n => exact if_pos rfl
  | cons e es ih =>
    intro frame a p n hh hn
    obtain ⟨n, rfl⟩ : ∃ m, n = m + 1 := ⟨n - 1, by simp only [List.length_cons] at hn; omega⟩
    have hread := hh.read List.mem_cons_self
    rw [walk, if_neg (ne_lastAddress hh), hread]
    cases hl : e.linked with
    | false => simp [visible, hl]
    | true =>
      have hrest :
          h.Holds (spine e.address (some e.value) es ++ (a, ⟨some e.address, p⟩) :: frame) := by
        refine hh.perm ?_
        rw [spine, hl]
        exact List.perm_middle.symm
      have hwalk : walk h (lastAddress a (e :: es)) n e.address =
          .ok ((visible es).map Entry.value) := ih hrest (by simpa using hn)
      simp [payload_eq hh, hwalk, visible, hl]

/-- A chain has fewer nodes behind its sentinel than the heap has room for. -/
theorem Stands.length_lt (hs : c.Stands h es frame) : es.length < h.cells.size := by
  have hle := hs.heap.length_le
  rw [List.length_append, length_spine] at hle
  omega

theorem Stands.walk (hs : c.Stands h es frame) {n : Nat} (hn : es.length ≤ n) :
    Chain.walk h c.tail n c.head = .ok ((visible es).map Entry.value) := by
  rw [hs.tail]
  exact walk_spine hs.heap hn

theorem Stands.values (hs : c.Stands h es frame) :
    c.values h = .ok ((visible es).map Entry.value) :=
  hs.walk (Nat.le_of_lt hs.length_lt)

theorem Stands.size (hs : c.Stands h es frame) : c.size h = .ok (visible es).length := by
  rw [Chain.size, hs.values]
  simp

/-- Polls one after another take out what can be reached, in order, and then
find nothing. -/
theorem Stands.pollMany (hs : c.Stands h es frame) {n : Nat} (hn : (visible es).length ≤ n) :
    ∃ c' h', c.pollMany h n = .ok ((visible es).map Entry.value, c', h') ∧
      c'.Stands h' (es.dropWhile Entry.linked) frame := by
  induction es generalizing c h n with
  | nil => exact ⟨c, h, pollMany_eq_nil (hs.poll_none rfl) n, hs⟩
  | cons e es ih =>
    obtain ⟨a, v, l⟩ := e
    cases l with
    | false => exact ⟨c, h, pollMany_eq_nil (hs.poll_none rfl) n, hs⟩
    | true =>
      obtain ⟨n, rfl⟩ : ∃ m, n = m + 1 := ⟨n - 1, by simp [visible] at hn; omega⟩
      obtain ⟨h₁, hp, hs₁⟩ := hs.poll_some
      obtain ⟨c', h', hm, hs'⟩ := ih hs₁ (n := n) (by simpa [visible] using hn)
      refine ⟨c', h', ?_, hs'⟩
      rw [Chain.pollMany, hp]
      simp [hm, visible]

theorem Stands.drain (hs : c.Stands h es frame) :
    ∃ c' h', c.drain h = .ok ((visible es).map Entry.value, c', h') ∧
      c'.Stands h' (es.dropWhile Entry.linked) frame :=
  hs.pollMany (Nat.le_trans (List.takeWhile_sublist _).length_le (Nat.le_of_lt hs.length_lt))

/-! ### A chain without a gap -/

/-- What following the links shows: from the sentinel on, `nodes` are visited,
all different and all there, each leading to the next and the last one, where
the tail is, to none; in them stand the values. -/
structure Spells (c : Chain) (h : Heap α) (nodes : List Address) (values : List α) : Prop where
  nodup : (c.head :: nodes).Nodup
  links : ∀ (k : Nat) (a : Address), (c.head :: nodes)[k]? = some a →
    ∃ n, h.node? a = some n ∧ n.next = nodes[k]?
  last : (c.head :: nodes).getLast? = some c.tail
  payloads : nodes.map (fun a => (h.node? a).bind Node.payload) = values.map some

/-- The loops over a chain come to their end by themselves: with any number of
steps that is not below the number of values they give the same. -/
def LoopsEnd (c : Chain) (h : Heap α) (values : List α) : Prop :=
  ∀ n, values.length ≤ n → Chain.walk h c.tail n c.head = .ok values ∧
    ∃ c' h', c.pollMany h n = .ok (values, c', h') ∧ c'.poll h' = .ok (none, c', h')

theorem Stands.spells (hs : c.Stands h es frame) (hg : gaps c.head es = []) :
    c.Spells h (es.map Entry.address) (es.map Entry.value) := by
  refine ⟨?_, fun k a hk => ?_, ?_, ?_⟩
  · have hn := hs.heap.nodup
    rw [List.map_append, map_fst_spine] at hn
    exact hn.of_append_left
  · obtain ⟨q, hm⟩ := mem_spine_of_getElem? none hg hk
    exact ⟨_, hs.heap.node?_eq (List.mem_append_left _ hm), rfl⟩
  · rw [hs.tail]
    exact getLast?_eq_lastAddress c.head es
  · rw [List.map_map, List.map_map]
    refine List.map_congr_left fun e he => ?_
    obtain ⟨next, hm⟩ := mem_spine_of_mem (a := c.head) none he
    have hn := hs.heap.node?_eq (List.mem_append_left _ hm)
    simp [hn]

theorem Stands.loopsEnd (hs : c.Stands h es frame) (hg : gaps c.head es = []) :
    c.LoopsEnd h (es.map Entry.value) := by
  intro n hn
  rw [List.length_map] at hn
  have hv := visible_eq_self hg
  refine ⟨?_, ?_⟩
  · rw [hs.walk hn, hv]
  · obtain ⟨c', h', hp, hs'⟩ := hs.pollMany (n := n) (by rwa [hv])
    rw [dropWhile_linked_eq_nil hg] at hs'
    exact ⟨c', h', hv ▸ hp, hs'.poll_none rfl⟩

/-! ### Taking a chain apart -/

/-- The nodes from one on are freed and give their values; the frame stays. -/
theorem freeFrom_spine {es : List (Entry α)} : ∀ {h : Heap α} {a : Address} {v : α} {n : Nat},
    gaps a es = [] → h.Holds (spine a (some v) es ++ frame) → es.length < n →
    ∃ h', freeFrom h n (some a) = .ok (v :: es.map Entry.value, h') ∧ h'.Holds frame := by
  induction es with
  | nil =>
    intro h a v n _ hh hn
    obtain ⟨n, rfl⟩ : ∃ m, n = m + 1 := ⟨n - 1, by omega⟩
    obtain ⟨h', hf, hh'⟩ := Heap.Holds.free (l := []) hh
    refine ⟨h', ?_, hh'⟩
    rw [freeFrom, hh.read List.mem_cons_self]
    cases n <;> simp [hf, freeFrom]
  | cons e es ih =>
    intro h a v n hg hh hn
    obtain ⟨n, rfl⟩ : ∃ m, n = m + 1 := ⟨n - 1, by omega⟩
    rw [gaps] at hg
    split at hg
    · rename_i hl
      obtain ⟨h₁, hf, hh₁⟩ := Heap.Holds.free (l := []) hh
      obtain ⟨h', hr, hh'⟩ := ih hg hh₁ (n := n) (by simp only [List.length_cons] at hn; omega)
      refine ⟨h', ?_, hh'⟩
      rw [freeFrom, hh.read List.mem_cons_self]
      simp [hl, hf, hr]
    · cases hg

/-- All nodes of a chain without a gap are freed. -/
theorem Stands.dismantle (hs : c.Stands h es frame) (hg : gaps c.head es = []) :
    ∃ h', c.dismantle h = .ok (es.map Entry.value, h') ∧ h'.Holds frame := by
  have hfirst := hs.first?
  rw [visible_eq_self hg] at hfirst
  cases es with
  | nil =>
    obtain ⟨h', hf, hh'⟩ := Heap.Holds.free (l := []) hs.heap
    refine ⟨h', ?_, hh'⟩
    rw [Chain.dismantle, hfirst]
    cases hn : h'.cells.size <;> simp [hf, freeFrom, hn]
  | cons e es =>
    rw [gaps] at hg
    split at hg
    · obtain ⟨h₁, hf, hh₁⟩ := Heap.Holds.free (l := []) hs.heap
      have hh₂ : h₁.Holds (spine e.address (some e.value) es ++ frame) := hh₁
      have hlen := hh₂.length_le
      rw [List.length_append, length_spine] at hlen
      obtain ⟨h', hr, hh'⟩ := freeFrom_spine hg hh₁ (n := h₁.cells.size) (by omega)
      refine ⟨h', ?_, hh'⟩
      rw [Chain.dismantle, hfirst]
      simp [hf, hr]
    · cases hg

end Chain
end LockFree.Queue
