/-
# A queue in words, whatever fails

The text that a queue should be written as is known from its values alone
(`Display.fullText`): an opening brace, the texts of the values parted by
commas up to the first value that gives up, and a closing brace if none does.
What a sink gets of it is the part that fits (`Sink.cut`), and all went well
exactly if no value gave up and all of the text fitted.

The text is not written as a whole but brace by brace and value by value. What
carries the proof is that a sink does not see where one piece ends and the next
begins (`Sink.write_append`), so that after any number of values it is as if
their text had been written at once (`Display.Reaches`). Once something failed
nothing is visited any more, so what later values would write plays no part.

Key definitions: `Sink.Fits`, `Sink.cut`, `Display.fullText`,
`Display.Reaches`, `Display.Exact`.
Key theorems: `Sink.write_append`, `Display.Reaches.visit`,
`Display.write_eq`, `Arena.display_exact`.
-/
import LockFree.Proofs.Queue.Refinement
import Mathlib.Data.List.Induction

namespace LockFree.Text.Sink

variable {s : Sink} {text more : String}

/-! ### Sinks -/

/-- There is room for all of the text. -/
def Fits (s : Sink) (text : String) : Prop := ∀ n ∈ s.room, text.length ≤ n

instance (s : Sink) (text : String) : Decidable (s.Fits text) :=
  inferInstanceAs (Decidable (∀ n ∈ s.room, _))

/-- What there is room for: the first characters of the text. -/
def cut (s : Sink) (text : String) : String :=
  match s.room with
  | none => text
  | some n => String.ofList (text.toList.take n)

theorem write_of_fits (hf : s.Fits text) :
    s.write text = (⟨s.room.map (· - text.length), s.written ++ text⟩, true) := by
  obtain ⟨room, written⟩ := s
  cases room with
  | none => rfl
  | some n => exact if_pos (hf n rfl)

theorem write_of_not_fits (hf : ¬ s.Fits text) :
    s.write text = (⟨some 0, s.written ++ s.cut text⟩, false) := by
  obtain ⟨room, written⟩ := s
  cases room with
  | none => exact absurd nofun hf
  | some n =>
    have hlong : ¬ text.length ≤ n := fun hle => hf fun m hm => Option.some.inj hm ▸ hle
    exact if_neg hlong

theorem write_ok : (s.write text).2 = decide (s.Fits text) := by
  by_cases hf : s.Fits text
  · rw [write_of_fits hf, decide_eq_true hf]
  · rw [write_of_not_fits hf, decide_eq_false hf]

theorem cut_of_fits (hf : s.Fits text) : s.cut text = text := by
  unfold cut
  split
  · rfl
  · rename_i n hn
    have hle : text.toList.length ≤ n := hf n hn
    rw [List.take_of_length_le hle, String.ofList_toList]

theorem written_write : (s.write text).1.written = s.written ++ s.cut text := by
  by_cases hf : s.Fits text
  · rw [write_of_fits hf, cut_of_fits hf]
  · rw [write_of_not_fits hf]

theorem Fits.left (hf : s.Fits (text ++ more)) : s.Fits text := by
  intro n hn
  have hle := hf n hn
  rw [String.length_append] at hle
  omega

/-- The first characters of a text and of what follows it. -/
theorem cut_append (hf : s.Fits text) :
    s.cut (text ++ more) = text ++ (s.write text).1.cut more := by
  rw [write_of_fits hf]
  obtain ⟨room, written⟩ := s
  cases room with
  | none => rfl
  | some n =>
    have hle : text.toList.length ≤ n := hf n rfl
    show String.ofList ((text ++ more).toList.take n) =
      text ++ String.ofList (more.toList.take (n - text.length))
    rw [String.toList_append, List.take_append, List.take_of_length_le hle, String.ofList_append,
      String.ofList_toList]
    rfl

theorem cut_append_of_not_fits (hf : ¬ s.Fits text) : s.cut (text ++ more) = s.cut text := by
  unfold cut
  split
  · rename_i hroom
    refine absurd (fun n hn => ?_) hf
    rw [hroom] at hn
    cases hn
  · rename_i n hroom
    have hlong : n ≤ text.toList.length := by
      refine Nat.le_of_lt (Nat.lt_of_not_le fun hle => hf fun m hm => ?_)
      obtain rfl := Option.some.inj (hroom.symm.trans hm)
      exact hle
    rw [String.toList_append, List.take_append_of_le_length hlong]

theorem fits_append (hf : s.Fits text) :
    s.Fits (text ++ more) ↔ (s.write text).1.Fits more := by
  rw [write_of_fits hf]
  obtain ⟨room, written⟩ := s
  cases room with
  | none => exact ⟨nofun, nofun⟩
  | some n =>
    have hle : text.length ≤ n := hf n rfl
    have hlength : (text ++ more).length = text.length + more.length := String.length_append _ _
    constructor
    · intro hall m hm
      have hle' := hall n rfl
      obtain rfl : n - text.length = m := Option.some.inj hm
      omega
    · intro hrest m hm
      have hle' : more.length ≤ n - text.length := hrest _ rfl
      obtain rfl : n = m := Option.some.inj hm
      omega

/-- A sink does not see where one piece of text ends and the next begins. -/
theorem write_append (s : Sink) (text more : String) :
    s.write (text ++ more) = if s.Fits text then (s.write text).1.write more else s.write text := by
  by_cases hf : s.Fits text
  · rw [if_pos hf]
    by_cases hm : s.Fits (text ++ more)
    · have hrest := (fits_append hf).mp hm
      rw [write_of_fits hm, write_of_fits hrest, write_of_fits hf]
      cases s.room <;> simp [String.append_assoc, Nat.sub_add_eq]
    · have hrest := mt (fits_append hf).mpr hm
      rw [write_of_not_fits hm, write_of_not_fits hrest, cut_append hf, write_of_fits hf,
        String.append_assoc]
  · rw [if_neg hf, write_of_not_fits hf, write_of_not_fits (mt Fits.left hf),
      cut_append_of_not_fits hf]

/-- A value writes its text, and all went well if it fitted and the value did
not give up. -/
theorem render_eq (s : Sink) (r : Rendering) :
    s.render r = ((s.write r.text).1, decide (s.Fits r.text) && r.ok) := by
  unfold render
  by_cases hf : s.Fits r.text
  · rw [write_of_fits hf, decide_eq_true hf]
    rfl
  · rw [write_of_not_fits hf, decide_eq_false hf]
    rfl

end LockFree.Text.Sink

namespace LockFree.Queue

open Text (Rendering Sink)

namespace Display

variable {sink : Sink} {rs : List Rendering}

/-! ### The text of a queue -/

/-- The values up to the first one that gives up, and that one. -/
def untilFailure : List Rendering → List Rendering
  | [] => []
  | r :: rs => if r.ok then r :: untilFailure rs else [r]

/-- The text of a queue without its closing brace. -/
def opened (rs : List Rendering) : String :=
  "\x7b" ++ ", ".intercalate ((untilFailure rs).map Rendering.text)

/-- The text of a queue. -/
def fullText (rs : List Rendering) : String :=
  if ∀ r ∈ rs, r.ok = true then opened rs ++ "\x7d" else opened rs

/-- What stands before the text of a value that comes after others. -/
def separator (rs : List Rendering) : String := if rs = [] then "" else ", "

theorem untilFailure_eq_self (hok : ∀ r ∈ rs, r.ok = true) : untilFailure rs = rs := by
  induction rs with
  | nil => rfl
  | cons r rs ih =>
    obtain ⟨hr, hrest⟩ := List.forall_mem_cons.mp hok
    rw [untilFailure, if_pos hr, ih hrest]

theorem untilFailure_concat (hok : ∀ r ∈ rs, r.ok = true) (r : Rendering) :
    untilFailure (rs ++ [r]) = rs ++ [r] := by
  induction rs with
  | nil => by_cases hr : r.ok = true <;> simp [untilFailure, hr]
  | cons r' rs ih =>
    obtain ⟨hr, hrest⟩ := List.forall_mem_cons.mp hok
    rw [List.cons_append, untilFailure, if_pos hr, ih hrest]

/-- Behind a value that gave up nothing matters. -/
theorem untilFailure_append_of_failed (hfail : ¬ ∀ r ∈ rs, r.ok = true) (more : List Rendering) :
    untilFailure (rs ++ more) = untilFailure rs := by
  induction rs with
  | nil => exact absurd nofun hfail
  | cons r rs ih =>
    rw [List.cons_append, untilFailure, untilFailure]
    by_cases hr : r.ok = true
    · rw [if_pos hr, if_pos hr, ih fun hrest => hfail (List.forall_mem_cons.mpr ⟨hr, hrest⟩)]
    · rw [if_neg hr, if_neg hr]

/-- A value adds its text, parted from what was there. -/
theorem opened_concat (hok : ∀ r ∈ rs, r.ok = true) (r : Rendering) :
    opened (rs ++ [r]) = opened rs ++ (separator rs ++ r.text) := by
  rw [opened, opened, untilFailure_concat hok, untilFailure_eq_self hok, separator]
  by_cases hempty : rs = []
  · subst hempty
    simp
  · have hne : rs.map Rendering.text ≠ [] := by simpa using hempty
    rw [if_neg hempty, List.map_append, List.map_singleton,
      String.intercalate_append_of_ne_nil hne (List.cons_ne_nil _ _),
      String.intercalate_singleton, String.append_assoc, String.append_assoc]

/-! ### Value by value -/

/-- After the given values the sink has what it takes of their text, and all is
well if it took all of it and none gave up. -/
structure Reaches (sink : Sink) (rs : List Rendering) (d : Display) : Prop where
  ok : d.ok = true ↔ (∀ r ∈ rs, r.ok = true) ∧ sink.Fits (opened rs)
  sink : d.sink = (sink.write (opened rs)).1
  first : d.ok = true → (d.first = true ↔ rs = [])

theorem reaches_start (sink : Sink) : Reaches sink [] (start sink) := by
  have hopened : opened [] = "\x7b" := rfl
  refine ⟨?_, by rw [hopened]; rfl, fun _ => ⟨fun _ => rfl, fun _ => rfl⟩⟩
  have hok : (start sink).ok = decide (sink.Fits "\x7b") := Sink.write_ok
  rw [hok, hopened, decide_eq_true_iff]
  exact ⟨fun hf => ⟨nofun, hf⟩, And.right⟩

/-- A visit writes the separator and the text of the value, as if at once. -/
theorem visit_of_ok {d : Display} (hd : d.ok = true) (hfirst : d.first = true ↔ rs = [])
    (r : Rendering) :
    d.visit r = ⟨(d.sink.write (separator rs ++ r.text)).1,
      decide (d.sink.Fits (separator rs ++ r.text)) && r.ok, false⟩ := by
  have hgoes : (!d.ok) = false := by rw [hd]; rfl
  rw [visit, hgoes, if_neg Bool.false_ne_true]
  by_cases hempty : rs = []
  · rw [if_pos (hfirst.mpr hempty), Sink.render_eq, separator, if_pos hempty, String.empty_append]
  · rw [if_neg (mt hfirst.mp hempty), separator, if_neg hempty, Sink.write_append]
    by_cases hf : d.sink.Fits ", "
    · have hall : d.sink.Fits (", " ++ r.text) ↔ (d.sink.write ", ").1.Fits r.text :=
        Sink.fits_append hf
      rw [if_pos hf]
      simp only [hall, Sink.write_of_fits hf, Sink.render_eq]
    · have hall : ¬ d.sink.Fits (", " ++ r.text) := mt Sink.Fits.left hf
      rw [if_neg hf, decide_eq_false hall, Sink.write_of_not_fits hf]
      rfl

theorem visit_of_failed {d : Display} (hd : ¬ d.ok = true) (r : Rendering) : d.visit r = d := by
  rw [visit, Bool.eq_false_iff.mpr hd]
  rfl

/-- Once something failed nothing is visited any more. -/
theorem foldl_visit_of_failed {d : Display} (hd : ¬ d.ok = true) (more : List Rendering) :
    more.foldl visit d = d := by
  induction more with
  | nil => rfl
  | cons r more ih => rw [List.foldl_cons, visit_of_failed hd, ih]

/-- One more value. -/
theorem Reaches.visit {d : Display} (hd : Reaches sink rs d) (r : Rendering) :
    Reaches sink (rs ++ [r]) (d.visit r) := by
  have hall : (∀ r' ∈ rs ++ [r], r'.ok = true) ↔ (∀ r' ∈ rs, r'.ok = true) ∧ r.ok = true := by
    rw [List.forall_mem_append, List.forall_mem_singleton]
  by_cases hwell : d.ok = true
  · obtain ⟨hok, hf⟩ := hd.ok.mp hwell
    rw [visit_of_ok hwell (hd.first hwell)]
    refine ⟨?_, ?_, fun _ => ⟨nofun, fun hnil => absurd hnil (by simp)⟩⟩
    · rw [hall, opened_concat hok, Sink.fits_append hf, ← hd.sink, Bool.and_eq_true,
        decide_eq_true_iff]
      exact ⟨fun h => ⟨⟨hok, h.2⟩, h.1⟩, fun h => ⟨h.2, h.1.2⟩⟩
    · rw [opened_concat hok, Sink.write_append sink, if_pos hf, ← hd.sink]
  · rw [visit_of_failed hwell]
    by_cases hok : ∀ r' ∈ rs, r'.ok = true
    · have hf : ¬ sink.Fits (opened rs) := fun hf => hwell (hd.ok.mpr ⟨hok, hf⟩)
      refine ⟨⟨fun h => absurd h hwell, fun h => ?_⟩, ?_, fun h => absurd h hwell⟩
      · rw [opened_concat hok] at h
        exact absurd h.2.left hf
      · rw [opened_concat hok, Sink.write_append, if_neg hf, hd.sink]
    · have hsame : opened (rs ++ [r]) = opened rs := by
        rw [opened, opened, untilFailure_append_of_failed hok]
      refine ⟨⟨fun h => absurd h hwell, fun h => absurd (hall.mp h.1).1 hok⟩, ?_,
        fun h => absurd h hwell⟩
      rw [hsame, hd.sink]

theorem reaches_foldl (sink : Sink) (rs : List Rendering) :
    Reaches sink rs (rs.foldl Display.visit (start sink)) := by
  induction rs using List.reverseRecOn with
  | nil => exact reaches_start sink
  | append_singleton rs r ih =>
    rw [List.foldl_append]
    exact ih.visit r

/-- To write a queue is to write its text as a whole. -/
theorem write_eq (sink : Sink) (rs : List Rendering) :
    write sink rs = ((sink.write (fullText rs)).1,
      decide ((∀ r ∈ rs, r.ok = true) ∧ sink.Fits (fullText rs))) := by
  have hd := reaches_foldl sink rs
  rw [write, finish]
  by_cases hok : ∀ r ∈ rs, r.ok = true
  · rw [fullText, if_pos hok, Sink.write_append]
    by_cases hf : sink.Fits (opened rs)
    · rw [if_pos (hd.ok.mpr ⟨hok, hf⟩), if_pos hf, ← hd.sink]
      refine Prod.ext rfl ?_
      rw [Sink.write_ok, hd.sink, decide_eq_decide, ← Sink.fits_append hf]
      exact ⟨fun h => ⟨hok, h⟩, And.right⟩
    · have hall : ¬ sink.Fits (opened rs ++ "\x7d") := mt Sink.Fits.left hf
      rw [if_neg (fun h => hf (hd.ok.mp h).2), if_neg hf, hd.sink,
        decide_eq_false fun h => hall h.2]
  · rw [fullText, if_neg hok, if_neg (fun h => hok (hd.ok.mp h).1), hd.sink,
      decide_eq_false fun h => hok h.1]

/-- What becomes of a queue that is written into a sink. -/
structure Exact (sink : Sink) (rs : List Rendering) (out : String) (well : Bool) : Prop where
  /-- What was written is what there was room for of the text. -/
  text : out = sink.written ++ sink.cut (fullText rs)
  /-- All went well if no value gave up and there was room for all. -/
  ok : well = true ↔ (∀ r ∈ rs, r.ok = true) ∧ sink.Fits (fullText rs)
  /-- After a value that gave up, or that found no room, no value is looked at
  and nothing is written. -/
  stops : ∀ before after, rs = before ++ after →
    (¬ ∀ r ∈ before, r.ok = true) ∨ ¬ sink.Fits (opened before) →
    out = sink.written ++ sink.cut (opened before) ∧
      ∀ others, write sink (before ++ others) = write sink rs

theorem exact_write (sink : Sink) (rs : List Rendering) :
    Exact sink rs (write sink rs).1.written (write sink rs).2 := by
  refine ⟨?_, ?_, ?_⟩
  · rw [write_eq, Sink.written_write]
  · rw [write_eq, decide_eq_true_iff]
  · rintro before after rfl hfail
    have hd := reaches_foldl sink before
    have hwell : ¬ (before.foldl visit (start sink)).ok = true := by
      rw [hd.ok]
      rintro ⟨hok, hf⟩
      exact hfail.elim (fun h => h hok) fun h => h hf
    have hwrite : ∀ others,
        write sink (before ++ others) = ((before.foldl visit (start sink)).sink, false) := by
      intro others
      rw [write, List.foldl_append, foldl_visit_of_failed hwell, finish, if_neg hwell]
    refine ⟨?_, fun others => by rw [hwrite, hwrite]⟩
    rw [hwrite, hd.sink, Sink.written_write]

end Display

/-! ### Queues of an arena -/

namespace Arena

variable {α : Type}

/-- The chain of a queue that has handles spells its values. -/
theorem shared_of_live {present : α → Rendering} {work : List (Nat × Action α)} {q : Nat}
    {f : Fifo α} (hlive : Life.run present .unmade (asked q work) = .live f) :
    ∃ s, (Arena.run present {} work).shared? q = some s ∧ s.consumer = f.consumer ∧
      s.chain.values (Arena.run present {} work).heap = .ok f.values := by
  obtain ⟨nodes, hs, hrun⟩ := sound_empty.run present work
  have hlife : (Arena.run present {} work).life nodes q = .live f := (hrun q).1.trans hlive
  rw [life] at hlife
  split at hlife
  · cases hlife
  · cases hlife
  · rename_i s hlook
    obtain ⟨hst, hfit⟩ := hs.stands hlook
    obtain rfl := Life.live.inj hlife
    refine ⟨s, shared?_eq hlook, rfl, ?_⟩
    rw [hst.values, visible_eq_self hfit.whole]
    rfl

/-- In every run a queue that its consumer writes into a sink is written as its
values say, as far as the sink takes it, and stays as it was. -/
theorem display_exact (present : α → Rendering) (work : List (Nat × Action α)) (q : Nat)
    (f : Fifo α) (sink : Sink) (hlive : Life.run present .unmade (asked q work) = .live f)
    (hconsumer : f.consumer = true) :
    ∃ out well, Display.Exact sink (f.values.map present) out well ∧
      (Arena.run present {} work).step present q (.display sink) =
        ⟨.written out well, [], [], Arena.run present {} work⟩ := by
  obtain ⟨s, hshared, hs, hvalues⟩ := shared_of_live hlive
  refine ⟨_, _, Display.exact_write sink (f.values.map present), ?_⟩
  have hhandle : (!s.consumer) = false := by rw [hs, hconsumer]; rfl
  simp only [Arena.step, hshared, act, hhandle, look, hvalues]
  rfl

/-- The number 20 gives up after its text. -/
def refuse20 (n : Nat) : Rendering := ⟨Decimal.natText n, n ≠ 20⟩

/-- Three values in one queue, beside another one. -/
def threeOffered : List (Nat × Action Nat) :=
  [(0, .create), (0, .offer none 10), (1, .create), (0, .offer none 20), (0, .offer none 30)]

theorem display_exact_failing :
    Life.run refuse20 .unmade (asked 0 threeOffered) = .live ⟨[10, 20, 30], true, []⟩ ∧
      ∃ out well, Display.Exact ⟨some 9, ""⟩ ([10, 20, 30].map refuse20) out well ∧
        ((Arena.run refuse20 {} threeOffered).step refuse20 0 (.display ⟨some 9, ""⟩)).reply =
          .written out well ∧ out = "\x7b10, 20" ∧ well = false := by
  have hlive : Life.run refuse20 .unmade (asked 0 threeOffered) = .live ⟨[10, 20, 30], true, []⟩ :=
    rfl
  obtain ⟨out, well, hexact, hstep⟩ :=
    display_exact refuse20 threeOffered 0 _ ⟨some 9, ""⟩ hlive rfl
  refine ⟨hlive, out, well, hexact, by rw [hstep], ?_, ?_⟩
  · rw [hexact.text]
    decide
  · exact Bool.eq_false_iff.mpr (mt hexact.ok.mp (by decide))

end Arena
end LockFree.Queue
