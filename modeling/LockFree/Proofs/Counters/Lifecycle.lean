/-
# The life of a position

Close is reached in three ways, by a first close, by a later one and by a drop,
and every access of a position looks at the same mark. What comes of it is told
of whole runs, in which any number of positions share cells and reclaimers: a
reclaimer is called once for each position that carried it, in the order of the
first closes; and a position that has been closed gives and takes nothing any
more, whatever others do to its cell (`Host.Inert`).

What a reclaimer is called with can be seen: a recorder notes it, and a manager
reports every free, those that it ignores too. So the calls that the closes of a
run make (`Host.calls?`) are compared with the recorders and with the events.

Key definitions: `Host.calls?`, `Host.Inert`, `Host.Lifecycle`.
Key theorems: `Host.Does.reports`, `Host.shuts_run`, `Host.lifecycle_in_every_run`.
-/
import LockFree.Proofs.Counters.Handles

namespace LockFree

open Counters (SlotId)

/-- The slot that a manager was asked to take back, whether it did or not. -/
def Event.askedFor? : Event → Option SlotId
  | .freed id | .freeOutside id | .freeUnallocated id _ => some id
  | _ => none

/-- The slot of a position that was closed. -/
def Event.closes? : Event → Option SlotId
  | .positionClosed id => some id
  | _ => none

end LockFree

namespace LockFree.Counters

/-- The call that closing the position makes. -/
def Construction.call? (b : Construction) : Option (Reclaimer × SlotId) :=
  b.reclaimer.map fun r => (r, b.id)

namespace Host

/-- What one reclaimer receives of calls to all of them. -/
def received (calls : List (Reclaimer × SlotId)) (r : Reclaimer) : List SlotId :=
  calls.filterMap fun c => if c.1 = r then some c.2 else none

/-- The position that an operation closes for the first time. -/
def shuts? (h : Host) : Op → Option Construction
  | .close p => h.positions[p]?.bind fun q => if q.closed then none else some ⟨q.id, q.reclaimer⟩
  | _ => none

/-- The call of a reclaimer that an operation makes through a position. -/
def calls? (h : Host) (op : Op) : Option (Reclaimer × SlotId) :=
  (h.shuts? op).bind Construction.call?

/-- The slot that a manager is asked to take back by an operation, directly or
through a position. -/
def asks? (h : Host) (op : Op) : Option SlotId :=
  match op, h.calls? op with
  | .free k id, _ => if k < h.managers.length then some id else none
  | _, some (.manager _, id) => some id
  | _, _ => none

/-- The reclaimer is there. -/
def Has (h : Host) : Reclaimer → Prop
  | .manager k => k < h.managers.length
  | .recorder k => k < h.recorders.length

instance (h : Host) : (r : Reclaimer) → Decidable (h.Has r)
  | .manager k => inferInstanceAs (Decidable (k < h.managers.length))
  | .recorder k => inferInstanceAs (Decidable (k < h.recorders.length))

/-- A reclaimer that a position would be given before there is one. -/
def stranger? (h : Host) : Op → Option Reclaimer
  | .place _ _ (some r) => if h.Has r then none else some r
  | _ => none

/-- Every position that carries a reclaimer carries one that is there. -/
def Known (h : Host) : Prop := ∀ q ∈ h.positions, ∀ r ∈ q.reclaimer, h.Has r

/-! ### What an operation does to recorders and reports -/

/-- What an operation reports about slots and positions, and what recorders
note. -/
structure Reports (h : Host) (op : Op) (h' : Host) : Prop where
  events : ∃ es : List Event, h'.events = h.events ++ es ∧
    es.filterMap Event.askedFor? = (h.asks? op).toList ∧
    es.filterMap Event.closes? = ((h.shuts? op).map Construction.id).toList
  recorders : ∀ k, h'.recorders.getD k [] =
    h.recorders.getD k [] ++ received (h.calls? op).toList (.recorder k)

theorem askedFor?_event (outcome : FreeOutcome) (id : SlotId) :
    (outcome.event id).askedFor? = some id := by
  cases outcome <;> rfl

theorem closes?_event (outcome : FreeOutcome) (id : SlotId) :
    (outcome.event id).closes? = none := by
  cases outcome <;> rfl

section

variable {h h' : Host} {op : Op} {d : Option (Nat × Manager.Action)} {id : SlotId}
  {reclaimer : Option Reclaimer}

theorem shuts?_eq_none (hop : op.isReturn = false) : h.shuts? op = none := by
  cases op with
  | close p => cases hop
  | _ => rfl

theorem shuts?_of_none {p : Nat} (hp : h.positions[p]? = none) : h.shuts? (.close p) = none := by
  rw [shuts?, hp, Option.bind_none]

theorem shuts?_of_closed {p : Nat} {q : Position} (hp : h.positions[p]? = some q)
    (hclosed : q.closed = true) : h.shuts? (.close p) = none := by
  rw [shuts?, hp, Option.bind_some, if_pos hclosed]

theorem shuts?_of_open {p : Nat} {q : Position} (hp : h.positions[p]? = some q)
    (hopen : q.closed = false) : h.shuts? (.close p) = some ⟨q.id, q.reclaimer⟩ := by
  rw [shuts?, hp, Option.bind_some, if_neg (by simp [hopen])]

/-- A close that is not a first one calls nobody. -/
theorem calls?_eq_none (hop : h.shuts? op = none) : h.calls? op = none := by
  rw [calls?, hop, Option.bind_none]

theorem asks?_eq_none (hop : op.isReturn = false) : h.asks? op = none := by
  cases op with
  | free k id => cases hop
  | close p => cases hop
  | _ => rfl

/-- A reclaimer that is there has notice of the slot that it is given. -/
theorem GivesBack.reports (hb : h.GivesBack id reclaimer d h') (hr : ∀ r ∈ reclaimer, h.Has r) :
    (∃ es : List Event, h'.events = h.events ++ es ∧
      es.filterMap Event.askedFor? =
        (match Construction.call? ⟨id, reclaimer⟩ with
          | some (.manager _, id) => [id]
          | _ => []) ∧
      es.filterMap Event.closes? = []) ∧
    ∀ k, h'.recorders.getD k [] = h.recorders.getD k [] ++
      received (Construction.call? ⟨id, reclaimer⟩).toList (.recorder k) := by
  cases hb with
  | nobody => exact ⟨⟨[], (List.append_nil _).symm, rfl, rfl⟩, fun k => (List.append_nil _).symm⟩
  | absent hk => exact absurd (hr _ rfl) (Nat.not_lt.mpr (List.getElem?_eq_none_iff.mp hk))
  | @manager j m m' outcome hk hm =>
    refine ⟨⟨[outcome.event id], rfl, ?_, ?_⟩, fun k => ?_⟩
    · simp [askedFor?_event, Construction.call?]
    · simp [closes?_event]
    · simp [received, Construction.call?, emit]
  | recorder j =>
    have hj : j < h.recorders.length := hr _ rfl
    refine ⟨⟨[], (List.append_nil _).symm, rfl, rfl⟩, fun k => ?_⟩
    simp only [List.getD_eq_getElem?_getD, List.getElem?_modify, received, Construction.call?,
      Option.map_some, Option.toList_some, List.filterMap_cons, List.filterMap_nil,
      Reclaimer.recorder.injEq]
    by_cases hjk : j = k
    · subst hjk
      simp [List.getElem?_eq_getElem hj]
    · simp [hjk]

/-- What is reported is about other things. -/
theorem reports_quiet (es : List Event) (hevents : h'.events = h.events ++ es)
    (hasked : es.filterMap Event.askedFor? = []) (hcloses : es.filterMap Event.closes? = [])
    (hrecorders : ∀ k, h'.recorders.getD k [] = h.recorders.getD k [])
    (hshuts : h.shuts? op = none) (hasks : h.asks? op = none) : h.Reports op h' := by
  refine ⟨⟨es, hevents, ?_, ?_⟩, fun k => ?_⟩
  · rw [hasked, hasks]
    rfl
  · rw [hcloses, hshuts]
    rfl
  · rw [hrecorders, calls?_eq_none hshuts]
    exact (List.append_nil _).symm

/-- Nothing is reported, and no recorder notes anything. -/
theorem reports_same (hevents : h'.events = h.events) (hrecorders : h'.recorders = h.recorders)
    (hshuts : h.shuts? op = none) (hasks : h.asks? op = none) : h.Reports op h' :=
  reports_quiet [] (hevents.trans (List.append_nil _).symm) rfl rfl (fun k => by rw [hrecorders])
    hshuts hasks

/-- A report is of a call, and a call is reported. -/
theorem Does.reports {o : Outcome} (hd : h.Does op d o) (hk : h.Known) : h.Reports op o.2 := by
  cases hd with
  | fails f hop => exact reports_same rfl rfl (shuts?_eq_none hop) (asks?_eq_none hop)
  | bytes hb =>
    cases hb with
    | created hlength he hreserve => exact reports_quiet [_] rfl rfl rfl (fun k => rfl) rfl rfl
    | opened hfind hb hreserve => exact reports_quiet [_] rfl rfl rfl (fun k => rfl) rfl rfl
    | _ => exact reports_same rfl rfl rfl rfl
  | manage hm => exact reports_quiet [_] rfl rfl rfl (fun k => rfl) rfl rfl
  | allocate hk hm hc => exact reports_quiet [_] rfl rfl rfl (fun k => rfl) rfl rfl
  | addRecorder =>
    refine reports_quiet [] (List.append_nil _).symm rfl rfl (fun k => ?_) rfl rfl
    rw [List.getD_eq_getElem?_getD, List.getD_eq_getElem?_getD, List.getElem?_append]
    split
    · rfl
    · rename_i hlt
      rw [List.getElem?_eq_none (Nat.le_of_not_lt hlt)]
      cases k - h.recorders.length <;> rfl
  | freeNone hnone =>
    exact reports_same rfl rfl rfl (if_neg (Nat.not_lt.mpr (List.getElem?_eq_none_iff.mp hnone)))
  | @free k id d h' hlt hback =>
    obtain ⟨⟨es, hevents, hasked, hcloses⟩, hrecorders⟩ :=
      hback.reports fun r hr => Option.some.inj hr ▸ hlt
    refine ⟨⟨es, hevents, by rw [hasked, asks?, if_pos hlt]; rfl, hcloses⟩, hrecorders⟩
  | @closeNone p hp =>
    have hshuts := shuts?_of_none hp
    exact reports_same rfl rfl hshuts (by simp only [asks?, calls?_eq_none hshuts])
  | @again p q hp hclosed =>
    have hshuts := shuts?_of_closed hp hclosed
    exact reports_same rfl rfl hshuts (by simp only [asks?, calls?_eq_none hshuts])
  | @close p q d h' hp hopen hback =>
    have hshuts := shuts?_of_open hp hopen
    have hcalls : h.calls? (.close p) = Construction.call? ⟨q.id, q.reclaimer⟩ := by
      rw [calls?, hshuts, Option.bind_some]
    obtain ⟨⟨es, hevents, hasked, hcloses⟩, hrecorders⟩ :=
      hback.reports (hk q (List.mem_of_getElem? hp))
    refine ⟨⟨es ++ [.positionClosed q.id], ?_, ?_, ?_⟩, fun k => ?_⟩
    · rw [emit, hevents, List.append_assoc]
    · simp only [List.filterMap_append, hasked, asks?, hcalls]
      rcases q.reclaimer with _ | (j | j) <;> rfl
    · rw [List.filterMap_append, hcloses, hshuts]
      rfl
    · rw [hcalls]
      exact hrecorders k
  | _ => exact reports_same rfl rfl rfl rfl

end

/-! ### Reclaimers stay where they are -/

theorem GivesBack.recorders_length {h h' : Host} {id : SlotId} {reclaimer : Option Reclaimer}
    {d : Option (Nat × Manager.Action)} (hb : h.GivesBack id reclaimer d h') :
    h'.recorders.length = h.recorders.length := by
  cases hb with
  | recorder k => exact List.length_modify _ _ _
  | _ => rfl

theorem Does.recorders_length_le {h : Host} {op : Op} {d : Option (Nat × Manager.Action)}
    {o : Outcome} (hd : h.Does op d o) : h.recorders.length ≤ o.2.recorders.length := by
  cases hd with
  | addRecorder => simp
  | free hlt hback => exact Nat.le_of_eq hback.recorders_length.symm
  | close hp hopen hback => exact Nat.le_of_eq hback.recorders_length.symm
  | _ => exact Nat.le_refl _

theorem Has.step {h : Host} {r : Reclaimer} (hr : h.Has r) (op : Op) : (h.step op).2.Has r := by
  obtain ⟨d, hd⟩ := h.step_does op
  cases r with
  | manager k => exact Nat.lt_of_lt_of_le hr hd.managers.length_le
  | recorder k => exact Nat.lt_of_lt_of_le hr hd.recorders_length_le

/-- A position is built with a reclaimer that is there. -/
theorem has_of_built {h : Host} {op : Op} {b : Construction} (hb : h.built? op = some b)
    (hs : h.stranger? op = none) {r : Reclaimer} (hr : r ∈ b.reclaimer) : h.Has r := by
  obtain ⟨d, hd⟩ := h.step_does op
  unfold built? at hb
  generalize h.step op = o at hd hb
  cases hd with
  | bytes hbytes => cases hbytes <;> cases hb
  | own hk hm hc =>
    obtain rfl := Option.some.inj hb
    obtain rfl := Option.some.inj hr
    exact (List.getElem?_eq_some_iff.mp hk).1
  | watch hk hc =>
    obtain rfl := Option.some.inj hb
    cases hr
  | @place region id reclaimer c hc =>
    obtain rfl := Option.some.inj hb
    obtain rfl : reclaimer = some r := hr
    by_contra hnot
    simp [stranger?, hnot] at hs
  | _ => cases hb

theorem Known.step {h : Host} (hk : h.Known) {op : Op} (hs : h.stranger? op = none) :
    (h.step op).2.Known := by
  intro q hq r hr
  refine Has.step ?_ op
  obtain ⟨d, hd⟩ := h.step_does op
  have hturn := hd.positions
  generalize hps : (h.step op).2.positions = ps at hturn hq
  generalize hclosed : h.closed? op = closed at hturn
  generalize hbuilt : h.built? op = built at hturn
  cases hturn with
  | same => exact hk q hq r hr
  | build b hregion hcell =>
    rcases List.mem_append.mp hq with hold | hnew
    · exact hk q hold r hr
    · obtain rfl := List.mem_singleton.mp hnew
      exact has_of_built hbuilt hs hr
  | close hp hopen =>
    rcases List.mem_or_eq_of_mem_set hq with hold | rfl
    · exact hk q hold r hr
    · cases hr
  | again hp hc => exact hk q hq r hr

theorem known_run {ops : List Op} (hs : collect stranger? {} ops = []) : (run {} ops).Known := by
  induction ops using List.reverseRecOn with
  | nil =>
    intro q hq
    cases hq
  | append_singleton ops op ih =>
    rw [collect_concat, List.append_eq_nil_iff, Option.toList_eq_nil_iff] at hs
    rw [run_concat]
    exact (ih hs.1).step hs.2

/-! ### A run -/

/-- What each operation adds, the run has added. -/
theorem eq_collect {β : Type} {g : Host → List β} {f : Host → Op → Option β} (ops : List Op)
    (hstep : ∀ before op after, ops = before ++ op :: after →
      g ((run {} before).step op).2 = g (run {} before) ++ (f (run {} before) op).toList) :
    g (run {} ops) = g {} ++ collect f {} ops := by
  induction ops using List.reverseRecOn with
  | nil => exact (List.append_nil _).symm
  | append_singleton ops op ih =>
    have hrest := ih fun before op' after he =>
      hstep before op' (after ++ [op]) (by rw [he, List.append_assoc, List.cons_append])
    rw [run_concat, collect_concat, hstep ops op [] rfl, hrest, List.append_assoc]

/-- A first close is one of a position that has not been closed. -/
theorem Standing.shuts?_eq {h : Host} {built : List Construction} {shut : List Nat}
    (hs : Standing h.positions built shut) (op : Op) :
    h.shuts? op = ((h.closed? op).filter fun p => p ∉ shut).bind fun p => built[p]? := by
  cases op with
  | close p =>
    cases hp : h.positions[p]? with
    | none =>
      have hlt : ¬ p < h.positions.length := Nat.not_lt.mpr (List.getElem?_eq_none_iff.mp hp)
      rw [shuts?, closed?, if_neg hlt, hp]
      rfl
    | some q =>
      have hlt : p < h.positions.length := (List.getElem?_eq_some_iff.mp hp).1
      obtain ⟨b, cell, hb, rfl⟩ := hs.exists_built hp
      rw [shuts?, closed?, if_pos hlt, hp]
      by_cases hmem : p ∈ shut
      · simp [Construction.position, hmem, Option.filter]
      · simp [Construction.position, hmem, Option.filter, hb]
  | _ => rfl

/-- What was closed for the first time, and when: each position that has been
closed, in the order of the closes. -/
theorem shuts_run (ops : List Op) :
    collect shuts? {} ops = (closings ops).filterMap fun p => (constructions ops)[p]? := by
  induction ops using List.reverseRecOn with
  | nil => rfl
  | append_singleton ops op ih =>
    have hs := standing_run ops
    have hold : (closings ops).filterMap (fun p => (constructions (ops ++ [op]))[p]?) =
        (closings ops).filterMap fun p => (constructions ops)[p]? := by
      refine List.filterMap_congr fun p hp => ?_
      rw [constructions_concat, List.getElem?_append_left (hs.shut_lt p hp)]
    rw [collect_concat, ih, closings_concat, List.filterMap_append, hold, hs.shuts?_eq op]
    congr 1
    cases hp : ((run {} ops).closed? op).filter fun p => p ∉ closings ops with
    | none => rfl
    | some p =>
      obtain ⟨hclosed, -⟩ := Option.filter_eq_some_iff.mp hp
      have hlt : p < (constructions ops).length := hs.length ▸ closed?_lt hclosed
      rw [Option.bind_some, Option.toList_some, constructions_concat, List.filterMap_cons,
        List.getElem?_append_left hlt, List.getElem?_eq_getElem hlt]
      rfl

/-- The calls that the closes of a run make, each position's own where it was
closed first. -/
theorem calls_run (ops : List Op) :
    collect calls? {} ops =
      (closings ops).filterMap fun p => ((constructions ops)[p]?).bind Construction.call? := by
  have hbind := filterMap_collect shuts? Construction.call? {} ops
  rw [shuts_run, List.filterMap_filterMap] at hbind
  exact hbind.symm

/-! ### Closed positions -/

/-- Position `p` over a slot is closed: it reads as closed on whatever memory,
refuses every write and every proposal, and to close it again does nothing. -/
structure Inert (h : Host) (p : Nat) (id : SlotId) : Prop where
  stays : ∃ q, h.positions[p]? = some q ∧ q.id = id ∧ q.closed = true ∧ q.owns = false ∧
    ∀ memory tier, q.read memory tier = -1
  write : ∀ tier v, h.step (.write p tier v) = (.error (.misuse (.write id)), h)
  propose : ∀ tier v, h.step (.propose p tier v) = (.error (.misuse (.proposal id)), h)
  close : h.step (.close p) = (.ok .done, h)

theorem inert_of_closed {h : Host} {p : Nat} {b : Construction} {cell : Cell}
    (hp : h.positions[p]? = some (b.position cell true)) : h.Inert p b.id := by
  refine ⟨⟨_, hp, rfl, rfl, rfl, fun memory tier => rfl⟩, fun tier v => ?_, fun tier v => ?_, ?_⟩
  · simp only [step, write, hp]
    rfl
  · simp only [step, propose, hp]
    rfl
  · exact step_close_shut hp rfl

/-- Position `p` is open, as it was built; its close makes its call, if it has
one to make, and then is reported. -/
def ClosesOnce (h : Host) (p : Nat) (b : Construction) : Prop :=
  ∃ cell, h.positions[p]? = some (.onCell b.id cell b.reclaimer) ∧
    h.step (.close p) = (.ok .done,
      (returned { h with positions := h.positions.set p ⟨b.id, cell, none, true⟩ } b).emit
        (.positionClosed b.id))

/-- What becomes of the positions that were built in a run. -/
structure Lifecycle (ops : List Op) : Prop where
  /-- Positions are numbered in the order in which they are built. -/
  numbered : ∀ op b, (run {} ops).built? op = some b →
    ((run {} ops).step op).1 = .ok (.made (constructions ops).length)
  /-- Each position is in the order of closes once, and no other is. -/
  nodup : (closings ops).Nodup
  closed_lt : ∀ p ∈ closings ops, p < (constructions ops).length
  /-- What is built stays built, and what is closed stays closed. -/
  lasting : ∀ more, constructions ops <+: constructions (ops ++ more) ∧
    closings ops <+: closings (ops ++ more)
  opened : ∀ p b, (constructions ops)[p]? = some b → p ∉ closings ops →
    (run {} ops).ClosesOnce p b
  inert : ∀ p b, (constructions ops)[p]? = some b → p ∈ closings ops → (run {} ops).Inert p b.id
  /-- A reclaimer is called with the slots of the positions that carried it. -/
  calls : ∀ r, received (collect calls? {} ops) r =
    (closings ops).filterMap fun p =>
      ((constructions ops)[p]?).bind fun b => if b.reclaimer = some r then some b.id else none
  /-- A recorder notes what it is called with, and nothing else. -/
  recorded : ∀ k, (run {} ops).recorders.getD k [] =
    received (collect calls? {} ops) (.recorder k)
  /-- Managers report every call, and apart from calls only direct frees. -/
  asked : (run {} ops).events.filterMap Event.askedFor? = collect asks? {} ops
  /-- Each first close is reported, and nothing else is. -/
  reported : (run {} ops).events.filterMap Event.closes? =
    (closings ops).filterMap fun p => (constructions ops)[p]?.map Construction.id

/-- Whatever is done to managers, positions and recorders: a reclaimer is called
once for each position that carries it, when the position is closed for the
first time, and from then on the position is inert. -/
theorem lifecycle_in_every_run (ops : List Op) (hknown : collect stranger? {} ops = []) :
    Lifecycle ops := by
  have hs := standing_run ops
  have hreports : ∀ before op after, ops = before ++ op :: after →
      (run {} before).Reports op ((run {} before).step op).2 := by
    intro before op after he
    rw [he, collect_append, List.append_eq_nil_iff] at hknown
    obtain ⟨d, hd⟩ := (run {} before).step_does op
    exact hd.reports (known_run hknown.1)
  refine ⟨fun op b hb => hs.length ▸ answer_of_built hb, closings_nodup ops, hs.shut_lt,
    fun more => ⟨constructions_extend ops more, closings_extend ops more⟩, ?_, ?_, ?_, ?_, ?_, ?_⟩
  · intro p b hb hopen
    obtain ⟨cell, hp⟩ := hs.entry p b hb
    rw [decide_eq_false hopen] at hp
    exact ⟨cell, hp, step_close_open hp⟩
  · intro p b hb hshut
    obtain ⟨cell, hp⟩ := hs.entry p b hb
    rw [decide_eq_true hshut] at hp
    exact inert_of_closed hp
  · intro r
    rw [calls_run, received, List.filterMap_filterMap]
    refine List.filterMap_congr fun p _ => ?_
    cases (constructions ops)[p]? with
    | none => rfl
    | some b =>
      obtain ⟨id, reclaimer⟩ := b
      cases reclaimer <;> simp [Construction.call?]
  · intro k
    have hcollect := eq_collect (g := fun h => h.recorders.getD k [])
      (f := fun h op => (h.calls? op).bind fun c => if c.1 = .recorder k then some c.2 else none)
      ops fun before op after he => by
        rw [(hreports before op after he).recorders k]
        cases hc : (run {} before).calls? op with
        | none => rfl
        | some c => by_cases hr : c.1 = .recorder k <;> simp [received, hr]
    exact hcollect.trans (filterMap_collect calls? _ {} ops).symm
  · exact eq_collect (g := fun h => h.events.filterMap Event.askedFor?) (f := asks?)
      ops fun before op after he => by
        obtain ⟨es, hevents, hasked, -⟩ := (hreports before op after he).events
        simp only [hevents, List.filterMap_append, hasked]
  · have hcollect := eq_collect (g := fun h => h.events.filterMap Event.closes?)
      (f := fun h op => (h.shuts? op).bind fun b => some b.id)
      ops fun before op after he => by
        obtain ⟨es, hevents, -, hcloses⟩ := (hreports before op after he).events
        simp only [hevents, List.filterMap_append, hcloses]
        cases (run {} before).shuts? op <;> rfl
    rw [← filterMap_collect, shuts_run, List.filterMap_filterMap] at hcollect
    refine (hcollect.trans (List.nil_append _)).trans (List.filterMap_congr fun p _ => ?_)
    cases (constructions ops)[p]? <;> rfl

/-- Three positions, of which two share a recorder and one has none; one of the
two is closed again. -/
def shared : List Op :=
  [.addRecorder, .place ⟨4096, 512, 0, 0⟩ 1 (some (.recorder 0)), .place ⟨4096, 512, 0, 0⟩ 2 none,
    .place ⟨4096, 512, 0, 0⟩ 3 (some (.recorder 0)),
    .place ⟨4096, 512, 0, 0⟩ 4 (some (.recorder 0)), .close 2, .close 1, .close 0, .close 2]

theorem lifecycle_of_shared :
    collect stranger? {} shared = [] ∧ (run {} shared).recorders.getD 0 [] = [3, 1] ∧
      (run {} shared).events.filterMap Event.closes? = [3, 2, 1] ∧ (run {} shared).Inert 2 3 := by
  have hknown : collect stranger? {} shared = [] := by decide
  have hlife := lifecycle_in_every_run shared hknown
  refine ⟨hknown, (hlife.recorded 0).trans ?_, hlife.reported.trans ?_, ?_⟩
  · decide
  · decide
  · exact hlife.inert 2 ⟨3, some (.recorder 0)⟩ (by decide) (by decide)

end Host
end LockFree.Counters
