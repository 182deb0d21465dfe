/-
# The nodes of a chain

`spine` lists the cells of a chain: the sentinel, then the nodes behind it, each
linked to the next one unless that link is still to come. An offer that has
moved the tail but has not set its link leaves such a gap, and there may be
several, anywhere in the list: `gaps` are the links that are to come, and
`visible` is what can be reached from the sentinel all the same. As long as no
value is taken out a chain only grows (`Grows`), and so does what can be
reached.
-/
import LockFree.Proofs.Queue.Cells
import LockFree.Queue.Chain

namespace LockFree.Queue

variable {α : Type}

/-- A node behind the sentinel; `linked` says whether the link to it is set. -/
structure Entry (α : Type) where
  address : Address
  value : α
  linked : Bool

/-- The cells of a chain whose sentinel is at `a` and holds `p`. -/
def spine (a : Address) (p : Option α) : List (Entry α) → List (Address × Node α)
  | [] => [(a, ⟨none, p⟩)]
  | e :: es =>
    (a, ⟨if e.linked then some e.address else none, p⟩) :: spine e.address (some e.value) es

/-- Where the last node of a chain stands. -/
def lastAddress (a : Address) : List (Entry α) → Address
  | [] => a
  | e :: es => lastAddress e.address es

/-- What the last node of a chain holds. -/
def lastPayload (p : Option α) : List (Entry α) → Option α
  | [] => p
  | e :: es => lastPayload (some e.value) es

/-- The links that are to come: the node that each leads to, and the node that
it is written in. -/
def gaps (a : Address) : List (Entry α) → List (Address × Address)
  | [] => []
  | e :: es => if e.linked then gaps e.address es else (e.address, a) :: gaps e.address es

/-- The nodes that can be reached from the sentinel. -/
def visible (es : List (Entry α)) : List (Entry α) := es.takeWhile Entry.linked

/-! ### Lists of entries -/

theorem spine_append (a : Address) (p : Option α) (es fs : List (Entry α)) :
    spine a p (es ++ fs) =
      (spine a p es).dropLast ++ spine (lastAddress a es) (lastPayload p es) fs := by
  induction es generalizing a p with
  | nil => rfl
  | cons e es ih =>
    have hne : spine e.address (some e.value) es ≠ [] := by cases es <;> simp [spine]
    rw [List.cons_append, spine, ih, spine, List.dropLast_cons_of_ne_nil hne]
    rfl

/-- A chain begins at its first node, and only there its payload shows. -/
theorem exists_spine_eq_cons (a : Address) (es : List (Entry α)) :
    ∃ next rest, ∀ p : Option α, spine a p es = (a, ⟨next, p⟩) :: rest := by
  cases es with
  | nil => exact ⟨none, [], fun p => rfl⟩
  | cons e es => exact ⟨_, _, fun p => rfl⟩

/-- A chain ends in a node without a link. -/
theorem spine_eq_append_last (a : Address) (p : Option α) (es : List (Entry α)) :
    spine a p es = (spine a p es).dropLast ++ [(lastAddress a es, ⟨none, lastPayload p es⟩)] := by
  have h := spine_append a p es []
  rwa [List.append_nil] at h

/-- A node whose link is to come leaves the chain before it as it was. -/
theorem spine_append_gap (a b : Address) (p : Option α) (v : α) (es : List (Entry α)) :
    spine a p (es ++ [⟨b, v, false⟩]) = spine a p es ++ [(b, ⟨none, some v⟩)] :=
  calc spine a p (es ++ [⟨b, v, false⟩])
      = (spine a p es).dropLast ++
          ([(lastAddress a es, ⟨none, lastPayload p es⟩)] ++ [(b, ⟨none, some v⟩)]) :=
        spine_append a p es _
    _ = spine a p es ++ [(b, ⟨none, some v⟩)] := by
        rw [← List.append_assoc, ← spine_eq_append_last]

theorem lastAddress_append (a : Address) (es fs : List (Entry α)) :
    lastAddress a (es ++ fs) = lastAddress (lastAddress a es) fs := by
  induction es generalizing a with
  | nil => rfl
  | cons e es ih => exact ih e.address

theorem gaps_append (a : Address) (es fs : List (Entry α)) :
    gaps a (es ++ fs) = gaps a es ++ gaps (lastAddress a es) fs := by
  induction es generalizing a with
  | nil => rfl
  | cons e es ih =>
    rw [List.cons_append, gaps, gaps, lastAddress, ih]
    split <;> rfl

theorem length_spine (a : Address) (p : Option α) (es : List (Entry α)) :
    (spine a p es).length = es.length + 1 := by
  induction es generalizing a p with
  | nil => rfl
  | cons e es ih => rw [spine, List.length_cons, ih, List.length_cons]

theorem map_fst_spine (a : Address) (p : Option α) (es : List (Entry α)) :
    (spine a p es).map Prod.fst = a :: es.map Entry.address := by
  induction es generalizing a p with
  | nil => rfl
  | cons e es ih => rw [spine, List.map_cons, ih, List.map_cons]

theorem getLast?_eq_lastAddress (a : Address) (es : List (Entry α)) :
    (a :: es.map Entry.address).getLast? = some (lastAddress a es) := by
  induction es generalizing a with
  | nil => rfl
  | cons e es ih =>
    rw [List.map_cons, List.getLast?_cons_cons]
    exact ih e.address

theorem lastAddress_mem (a : Address) (p : Option α) (es : List (Entry α)) :
    (lastAddress a es, ⟨none, lastPayload p es⟩) ∈ spine a p es := by
  rw [spine_eq_append_last]
  exact List.mem_append_right _ (List.mem_singleton.mpr rfl)

/-- A node whose link is to come has none. -/
theorem mem_spine_of_mem_gaps {a b c : Address} {es : List (Entry α)} (p : Option α)
    (hg : (b, c) ∈ gaps a es) : ∃ q, (c, (⟨none, q⟩ : Node α)) ∈ spine a p es := by
  induction es generalizing a p with
  | nil => cases hg
  | cons e es ih =>
    rw [gaps] at hg
    rw [spine]
    split at hg
    · obtain ⟨q, hq⟩ := ih (some e.value) hg
      exact ⟨q, List.mem_cons_of_mem _ hq⟩
    · rename_i hl
      rcases List.mem_cons.mp hg with he | hg
      · obtain ⟨-, rfl⟩ := Prod.mk.inj he
        exact ⟨p, by simp [hl]⟩
      · obtain ⟨q, hq⟩ := ih (some e.value) hg
        exact ⟨q, List.mem_cons_of_mem _ hq⟩

/-- The entry whose link is to come, and what lies on its two sides. -/
theorem exists_entry_of_mem_gaps {a b c : Address} {es : List (Entry α)} (hg : (b, c) ∈ gaps a es) :
    ∃ l v r, es = l ++ ⟨b, v, false⟩ :: r ∧ lastAddress a l = c := by
  induction es generalizing a with
  | nil => cases hg
  | cons e es ih =>
    rw [gaps] at hg
    split at hg
    · obtain ⟨l, v, r, rfl, hc⟩ := ih hg
      exact ⟨e :: l, v, r, rfl, hc⟩
    · rename_i hl
      rcases List.mem_cons.mp hg with he | hg
      · obtain ⟨rfl, rfl⟩ := Prod.mk.inj he
        obtain ⟨b, v, l⟩ := e
        exact ⟨[], v, es, by simpa using hl, rfl⟩
      · obtain ⟨l, v, r, rfl, hc⟩ := ih hg
        exact ⟨e :: l, v, r, rfl, hc⟩

/-- Without a gap each node links to the one after it. -/
theorem mem_spine_of_getElem? {a b : Address} {es : List (Entry α)} (p : Option α) {k : Nat}
    (hg : gaps a es = []) (hk : (a :: es.map Entry.address)[k]? = some b) :
    ∃ q, (b, (⟨(es.map Entry.address)[k]?, q⟩ : Node α)) ∈ spine a p es := by
  induction es generalizing a p k with
  | nil =>
    cases k with
    | zero =>
      obtain rfl := Option.some.inj hk
      exact ⟨p, List.mem_singleton.mpr rfl⟩
    | succ k => cases hk
  | cons e es ih =>
    rw [gaps] at hg
    split at hg
    · rename_i hl
      rw [spine, hl]
      cases k with
      | zero =>
        obtain rfl := Option.some.inj hk
        exact ⟨p, List.mem_cons_self⟩
      | succ k =>
        obtain ⟨q, hq⟩ := ih (some e.value) hg hk
        exact ⟨q, List.mem_cons_of_mem _ hq⟩
    · cases hg

/-- A node behind the sentinel holds its value. -/
theorem mem_spine_of_mem {a : Address} {es : List (Entry α)} (p : Option α) {e : Entry α}
    (he : e ∈ es) : ∃ next, (e.address, (⟨next, some e.value⟩ : Node α)) ∈ spine a p es := by
  induction es generalizing a p with
  | nil => cases he
  | cons f es ih =>
    rcases List.mem_cons.mp he with rfl | he
    · obtain ⟨next, rest, hn⟩ := exists_spine_eq_cons (α := α) e.address es
      rw [spine, hn]
      exact ⟨next, List.mem_cons_of_mem _ List.mem_cons_self⟩
    · obtain ⟨next, hm⟩ := ih (some f.value) he
      exact ⟨next, List.mem_cons_of_mem _ hm⟩

/-- The node at a place of the chain links to the next one if that link is
set. -/
theorem mem_spine_at {a b : Address} {es : List (Entry α)} (p : Option α) {k : Nat}
    (hk : (a :: es.map Entry.address)[k]? = some b) :
    ∃ q, (b, (⟨(es[k]?.filter Entry.linked).map Entry.address, q⟩ : Node α)) ∈ spine a p es := by
  induction es generalizing a p k with
  | nil =>
    cases k with
    | zero =>
      obtain rfl := Option.some.inj hk
      exact ⟨p, List.mem_singleton.mpr rfl⟩
    | succ k => cases hk
  | cons e es ih =>
    cases k with
    | zero =>
      obtain rfl := Option.some.inj hk
      refine ⟨p, List.mem_cons.mpr (Or.inl ?_)⟩
      cases hl : e.linked <;> simp [Option.filter, hl]
    | succ k =>
      obtain ⟨q, hq⟩ := ih (some e.value) hk
      exact ⟨q, List.mem_cons_of_mem _ hq⟩

/-- What stands in a chain leads nowhere out of it. -/
theorem exists_link_of_mem {a b : Address} {p : Option α} {es : List (Entry α)}
    (hb : b ∈ a :: es.map Entry.address) :
    ∃ next q, (b, (⟨next, q⟩ : Node α)) ∈ spine a p es ∧
      ∀ x, next = some x → ∃ e ∈ es, e.address = x := by
  induction es generalizing a p with
  | nil =>
    obtain rfl := List.mem_singleton.mp hb
    exact ⟨none, p, List.mem_singleton.mpr rfl, fun x hx => (by cases hx)⟩
  | cons e es ih =>
    rcases List.mem_cons.mp hb with rfl | hb
    · refine ⟨_, p, List.mem_cons_self, fun x hx => ⟨e, List.mem_cons_self, ?_⟩⟩
      split at hx
      · exact Option.some.inj hx
      · cases hx
    · obtain ⟨next, q, hm, hnext⟩ := ih (p := some e.value) hb
      refine ⟨next, q, List.mem_cons_of_mem _ hm, fun x hx => ?_⟩
      obtain ⟨f, hf, he⟩ := hnext x hx
      exact ⟨f, List.mem_cons_of_mem _ hf, he⟩

/-- Without a gap every node can be reached. -/
theorem visible_eq_self {a : Address} {es : List (Entry α)} (hg : gaps a es = []) :
    visible es = es := by
  induction es generalizing a with
  | nil => rfl
  | cons e es ih =>
    rw [gaps] at hg
    split at hg
    · rename_i hl
      have ih' := ih hg
      rw [visible] at ih' ⊢
      rw [List.takeWhile_cons_of_pos hl, ih']
    · cases hg

theorem dropWhile_linked_eq_nil {a : Address} {es : List (Entry α)} (hg : gaps a es = []) :
    es.dropWhile Entry.linked = [] := by
  have happ := List.takeWhile_append_dropWhile (p := Entry.linked) (l := es)
  have hv : es.takeWhile Entry.linked = es := visible_eq_self hg
  rw [hv] at happ
  simpa using happ

/-- As many nodes can be reached as are linked one after another. -/
theorem le_length_visible_iff {es : List (Entry α)} {k : Nat} :
    k ≤ (visible es).length ↔ ∀ i < k, ∃ e, es[i]? = some e ∧ e.linked = true := by
  induction es generalizing k with
  | nil =>
    refine ⟨fun hk i hi => absurd hk (by simp [visible]; omega), fun hall => ?_⟩
    rcases Nat.eq_zero_or_pos k with rfl | hpos
    · exact Nat.zero_le _
    · obtain ⟨e, he, -⟩ := hall 0 hpos
      cases he
  | cons e es ih =>
    cases k with
    | zero => exact ⟨fun _ i hi => absurd hi (Nat.not_lt_zero i), fun _ => Nat.zero_le _⟩
    | succ k =>
      by_cases hl : e.linked = true
      · have hcons : visible (e :: es) = e :: visible es := List.takeWhile_cons_of_pos hl
        rw [hcons, List.length_cons, Nat.succ_le_succ_iff, ih]
        constructor
        · intro hall i hi
          cases i with
          | zero => exact ⟨e, rfl, hl⟩
          | succ i => exact hall i (Nat.lt_of_succ_lt_succ hi)
        · intro hall i hi
          exact hall (i + 1) (Nat.succ_lt_succ hi)
      · have hnil : visible (e :: es) = [] := List.takeWhile_cons_of_neg hl
        rw [hnil]
        constructor
        · intro hk
          exact absurd hk (Nat.not_succ_le_zero k)
        · intro hall
          obtain ⟨e', he, hl'⟩ := hall 0 (Nat.succ_pos k)
          obtain rfl := Option.some.inj he
          exact absurd hl' hl

/-! ### Chains that grow -/

/-- Every node keeps its place and its address, and its link once that is set;
more nodes may have come behind. -/
def Grows (es es' : List (Entry α)) : Prop :=
  ∀ (k : Nat) (e : Entry α), es[k]? = some e →
    ∃ e', es'[k]? = some e' ∧ e'.address = e.address ∧ (e.linked = true → e'.linked = true)

theorem Grows.refl (es : List (Entry α)) : Grows es es := fun _ e he => ⟨e, he, rfl, id⟩

theorem Grows.trans {es es' es'' : List (Entry α)} (hg : Grows es es') (hg' : Grows es' es'') :
    Grows es es'' := by
  intro k e he
  obtain ⟨e', he', ha, hl⟩ := hg k e he
  obtain ⟨e'', he'', ha', hl'⟩ := hg' k e' he'
  exact ⟨e'', he'', ha'.trans ha, hl' ∘ hl⟩

theorem grows_append (es fs : List (Entry α)) : Grows es (es ++ fs) := by
  intro k e he
  have hk : k < es.length := (List.getElem?_eq_some_iff.mp he).1
  exact ⟨e, by rw [List.getElem?_append_left hk, he], rfl, id⟩

theorem grows_link (l m : List (Entry α)) (a : Address) (v : α) :
    Grows (l ++ ⟨a, v, false⟩ :: m) (l ++ ⟨a, v, true⟩ :: m) := by
  intro k e he
  rcases Nat.lt_trichotomy k l.length with hlt | rfl | hgt
  · rw [List.getElem?_append_left hlt] at he
    exact ⟨e, by rw [List.getElem?_append_left hlt, he], rfl, id⟩
  · rw [List.getElem?_append_right (Nat.le_refl _), Nat.sub_self] at he
    obtain rfl := Option.some.inj he
    exact ⟨⟨a, v, true⟩, by simp, rfl, fun _ => rfl⟩
  · obtain ⟨j, hj⟩ : ∃ j, k - l.length = j + 1 := ⟨k - l.length - 1, by omega⟩
    rw [List.getElem?_append_right (Nat.le_of_lt hgt), hj, List.getElem?_cons_succ] at he
    refine ⟨e, ?_, rfl, id⟩
    rw [List.getElem?_append_right (Nat.le_of_lt hgt), hj, List.getElem?_cons_succ, he]

/-- What could be reached still can. -/
theorem Grows.visible_le {es es' : List (Entry α)} (hg : Grows es es') :
    (visible es).length ≤ (visible es').length := by
  refine le_length_visible_iff.mpr fun i hi => ?_
  obtain ⟨e, he, hl⟩ := le_length_visible_iff.mp (Nat.le_refl _) i hi
  obtain ⟨e', he', -, hl'⟩ := hg i e he
  exact ⟨e', he', hl' hl⟩

/-- The address at a place stays there. -/
theorem Grows.address_at {es es' : List (Entry α)} (hg : Grows es es') {a b : Address} {k : Nat}
    (hk : (a :: es.map Entry.address)[k]? = some b) :
    (a :: es'.map Entry.address)[k]? = some b := by
  cases k with
  | zero => exact hk
  | succ k =>
    rw [List.getElem?_cons_succ, List.getElem?_map, Option.map_eq_some_iff] at hk ⊢
    obtain ⟨e, he, rfl⟩ := hk
    obtain ⟨e', he', ha, -⟩ := hg k e he
    exact ⟨e', he', ha⟩

end LockFree.Queue
