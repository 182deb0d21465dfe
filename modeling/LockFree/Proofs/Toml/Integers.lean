/-
# Integers are read as they are written

A document made of integer entries is read back as these entries. What is
written is followed character by character: the digits of a number, which begin
with a zero only if that is all of them; the run of bare characters, which ends
at the line end; the key, which ends at the blank behind it; the line; and the
lines one after another, whose keys must differ since a key is given a value
once.

The run of an integer could be taken for something else, which is looked for
before: a date, a number of another base, a flag. That it is not is decided by
its first characters (`date?_eq_none`, `integer?_intText`).

Key definitions: `IsBareWord`.
Key theorems: `integer?_intText`, `scalar_intText`, `statement_integerLine`,
`read?_integerLines`.
-/
import LockFree.Toml.Document
import LockFree.Toml.Value
import Mathlib.Data.List.TakeWhile

namespace LockFree.Toml

open Decimal (digits natText intText)

/-! ### Digits -/

theorem isDigit_of_mem_digits {n : Nat} {c : Char} (hc : c ∈ digits n) : isDigit c = true := by
  have hdigit := Nat.isDigit_of_mem_toDigits (by decide) (by decide) hc
  rw [Char.isDigit, Bool.and_eq_true, decide_eq_true_iff, decide_eq_true_iff] at hdigit
  rw [isDigit, Bool.and_eq_true, decide_eq_true_iff, decide_eq_true_iff]
  exact hdigit

theorem digitOf?_of_isDigit {c : Char} (hc : isDigit c = true) :
    digitOf? 10 c = some (c.toNat - '0'.toNat) := by
  have hlt : c.toNat - '0'.toNat < 10 := by
    rw [isDigit, Bool.and_eq_true, decide_eq_true_iff, decide_eq_true_iff] at hc
    have hle : c.toNat ≤ 57 := hc.2
    have hzero : '0'.toNat = 48 := rfl
    omega
  rw [digitOf?, if_pos hc]
  simp only [Option.filter_some, hlt, decide_true, if_true]

/-- Digits without underscores between them are a group. -/
theorem ungroup?_of_digits {cs : List Char} (hne : cs ≠ []) (hcs : ∀ c ∈ cs, isDigit c = true) :
    ungroup? 10 cs = some (cs.map fun c => c.toNat - '0'.toNat) := by
  induction cs with
  | nil => exact absurd rfl hne
  | cons c rest ih =>
    obtain ⟨hc, hrest⟩ := List.forall_mem_cons.mp hcs
    have hvalue := digitOf?_of_isDigit hc
    cases rest with
    | nil =>
      rw [ungroup?, hvalue]
      rfl
    | cons d more =>
      have hmore := ih (List.cons_ne_nil _ _) hrest
      have hd : ∀ tail, d :: more ≠ '_' :: tail := by
        rintro tail he
        obtain ⟨rfl, -⟩ := List.cons.inj he
        exact absurd (hrest _ List.mem_cons_self) (by decide)
      rw [ungroup?, hvalue, hmore]
      · rfl
      · exact List.cons_ne_nil d more
      · exact hd

theorem numberOf_digits (n : Nat) :
    numberOf 10 ((digits n).map fun c => c.toNat - '0'.toNat) = n := by
  have hread : Nat.ofDigitChars 10 (digits n) 0 = n :=
    Nat.ofDigitChars_toDigits (by decide) (by decide)
  rw [numberOf, List.foldl_map]
  refine Eq.trans ?_ hread
  simp only [Nat.ofDigitChars, Nat.mul_comm]

/-- A number that begins with a zero is written with that alone. -/
theorem eq_nil_of_digits {n : Nat} {rest : List Char} (hn : digits n = '0' :: rest) :
    rest = [] := by
  have hhead : ∀ n, 0 < n → (digits n).head? ≠ some '0' := by
    intro n
    induction n using Nat.strong_induction_on with
    | _ n ih =>
      intro hpos
      by_cases hlt : n < 10
      · have hchar : ∀ d < 10, 0 < d → [Nat.digitChar d].head? ≠ some '0' := by decide
        rw [digits, Nat.toDigits_of_lt_base hlt]
        exact hchar n hlt hpos
      · have hle : 10 ≤ n := Nat.le_of_not_lt hlt
        rw [digits, Nat.toDigits_of_base_le (by decide) hle,
          List.head?_append, Option.or_of_isSome (by simp [Nat.toDigits_ne_nil])]
        exact ih (n / 10) (by omega) (by omega)
  have hzero : n = 0 := by
    by_contra hne
    exact hhead n (Nat.pos_of_ne_zero hne) (by rw [hn]; rfl)
  subst hzero
  exact (List.cons.inj hn).2.symm

/-- Digits are a decimal integer: a zero stands in front only if it is alone. -/
theorem wholeDigits?_digits (n : Nat) :
    wholeDigits? (digits n) = some ((digits n).map fun c => c.toNat - '0'.toNat) := by
  have hgroup : ungroup? 10 (digits n) = some _ :=
    ungroup?_of_digits Nat.toDigits_ne_nil fun c hc => isDigit_of_mem_digits hc
  unfold wholeDigits?
  rw [hgroup]
  split
  · rename_i d ds heq
    obtain ⟨c, rest, hdigits, hc, hrest⟩ := List.map_eq_cons_iff.mp (Option.some.inj heq)
    have hdigit := isDigit_of_mem_digits (n := n) (c := c) (hdigits ▸ List.mem_cons_self)
    have hzero : c = '0' := by
      rw [isDigit, Bool.and_eq_true, decide_eq_true_iff, decide_eq_true_iff] at hdigit
      have hle : 48 ≤ c.toNat := hdigit.1
      have h48 : '0'.toNat = 48 := rfl
      exact Char.toNat_inj.mp (by omega)
    have hnil := eq_nil_of_digits (hzero ▸ hdigits)
    rw [hnil] at hrest
    cases hrest
  · rfl

/-! ### Integers -/

/-- The characters of an integer are a sign, if it is negative, and digits. -/
theorem toList_intText (i : Int) :
    (intText i).toList = if i < 0 then '-' :: digits i.natAbs else digits i.natAbs := by
  unfold intText
  split
  · rw [String.toList_append, natText, String.toList_ofList]
    simp
  · rw [natText, String.toList_ofList]

theorem signedWord?_toInt (i : Int64) :
    signedWord? (decide (i.toInt < 0)) i.toInt.natAbs = some i := by
  have hvalue : (if decide (i.toInt < 0) = true then -(i.toInt.natAbs : Int)
      else (i.toInt.natAbs : Int)) = i.toInt := by
    split
    · rename_i h
      have := of_decide_eq_true h
      omega
    · rename_i h
      have : ¬ i.toInt < 0 := by simpa using h
      omega
  unfold signedWord?
  simp only [hvalue]
  rw [if_pos ⟨i.minValue_le_toInt, i.toInt_le⟩, Int64.ofInt_toInt]

/-- A number with no second character behind a leading zero has no mark of
another base. -/
theorem integer?_of_decimal {cs : List Char} (hcs : ∀ c rest, cs ≠ '0' :: c :: rest) :
    integer? cs = (wholeDigits? (splitSign cs).2).bind fun ds =>
      signedWord? (splitSign cs).1 (numberOf 10 ds) := by
  unfold integer?
  split
  · exact absurd rfl (hcs _ _)
  · exact absurd rfl (hcs _ _)
  · exact absurd rfl (hcs _ _)
  · rfl

theorem splitSign_digits (n : Nat) : splitSign (digits n) = (false, digits n) := by
  unfold splitSign
  split
  · rename_i rest hn
    have hplus := isDigit_of_mem_digits (n := n) (c := '+') (hn ▸ List.mem_cons_self)
    exact absurd hplus (by decide)
  · rename_i rest hn
    have hminus := isDigit_of_mem_digits (n := n) (c := '-') (hn ▸ List.mem_cons_self)
    exact absurd hminus (by decide)
  · rfl

/-- An integer is read as it is written. -/
theorem integer?_intText (i : Int64) : integer? (intText i.toInt).toList = some i := by
  have hword := signedWord?_toInt i
  have hnumber := numberOf_digits i.toInt.natAbs
  have hwhole := wholeDigits?_digits i.toInt.natAbs
  rw [toList_intText]
  by_cases hneg : i.toInt < 0
  · rw [if_pos hneg, integer?_of_decimal fun c rest he => by cases he]
    rw [decide_eq_true hneg] at hword
    simp only [splitSign, hwhole, Option.bind_some, hnumber, hword]
  · rw [if_neg hneg, integer?_of_decimal fun c rest he => by cases eq_nil_of_digits he]
    rw [decide_eq_false hneg] at hword
    simp only [splitSign_digits, hwhole, Option.bind_some, hnumber, hword]

/-- An integer is a character that is a minus or a digit, and digits. -/
theorem exists_intText (i : Int) : ∃ c rest, (intText i).toList = c :: rest ∧
    (c = '-' ∨ isDigit c = true) ∧ ∀ d ∈ rest, isDigit d = true := by
  rw [toList_intText]
  by_cases hneg : i < 0
  · exact ⟨'-', digits i.natAbs, if_pos hneg, .inl rfl, fun d hd => isDigit_of_mem_digits hd⟩
  · rw [if_neg hneg]
    obtain ⟨c, rest, hn⟩ : ∃ c rest, digits i.natAbs = c :: rest :=
      List.exists_cons_of_ne_nil Nat.toDigits_ne_nil
    have hdigits : ∀ d ∈ c :: rest, isDigit d = true := fun d hd =>
      isDigit_of_mem_digits (hn ▸ hd)
    obtain ⟨hc, hrest⟩ := List.forall_mem_cons.mp hdigits
    exact ⟨c, rest, hn, .inr hc, hrest⟩

/-- So it begins with nothing else. -/
theorem intText_ne_cons {i : Int} {c : Char} (hminus : c ≠ '-') (hdigit : isDigit c = false)
    (rest : List Char) : (intText i).toList ≠ c :: rest := by
  intro he
  obtain ⟨d, ds, htext, hd, -⟩ := exists_intText i
  obtain ⟨rfl, -⟩ := List.cons.inj (he.symm.trans htext)
  rcases hd with rfl | hd
  · exact hminus rfl
  · rw [hdigit] at hd
    cases hd

/-- A date has a minus behind the four digits of its year. -/
theorem date?_eq_none {c : Char} {rest : List Char} (hrest : ∀ d ∈ rest, isDigit d = true) :
    date? (c :: rest) = none := by
  unfold date?
  split
  · rename_i heq
    obtain ⟨-, rfl⟩ := List.cons.inj heq
    exact absurd (hrest '-' (by simp)) (by decide)
  · rfl

/-- An integer is neither of the two flags. -/
theorem scalarOf?_intText (i : Int64) :
    scalarOf? (intText i.toInt).toList = some (.integer i) := by
  have htrue := intText_ne_cons (i := i.toInt) (c := 't') (by decide) (by decide)
  have hfalse := intText_ne_cons (i := i.toInt) (c := 'f') (by decide) (by decide)
  unfold scalarOf?
  rw [if_neg (htrue _), if_neg (hfalse _), integer?_intText]

theorem isBare_of_isDigit {c : Char} (hc : isDigit c = true) : isBare c = true := by
  simp [isBare, hc]

/-- The run of bare characters ends where the line does. -/
theorem takeWhile_intText (i : Int) (rest : List Char) :
    ((intText i).toList ++ '\n' :: rest).takeWhile isBare = (intText i).toList := by
  obtain ⟨c, ds, htext, hc, hds⟩ := exists_intText i
  have hbare : ∀ d ∈ (intText i).toList, isBare d = true := by
    rw [htext]
    refine List.forall_mem_cons.mpr ⟨?_, fun d hd => isBare_of_isDigit (hds d hd)⟩
    rcases hc with rfl | hc
    · rfl
    · exact isBare_of_isDigit hc
  rw [List.takeWhile_append_of_pos hbare, List.takeWhile_cons_of_neg (by decide), List.append_nil]

/-- An integer is a bare scalar up to the end of its line. -/
theorem scalar_intText (i : Int64) (rest : List Char) :
    scalar ((intText i.toInt).toList ++ '\n' :: rest) = some (.integer i, '\n' :: rest) := by
  obtain ⟨c, ds, htext, -, hds⟩ := exists_intText i.toInt
  have hdate : date? (intText i.toInt).toList = none := htext ▸ date?_eq_none hds
  have hrun := takeWhile_intText i.toInt rest
  unfold scalar
  simp only [hrun, List.drop_left, hdate, scalarOf?_intText, Option.map_some]

/-- A value that begins with neither a quote nor a bracket is a scalar. -/
theorem value_eq_scalar {c : Char} {cs : List Char}
    (hc : c ≠ '"' ∧ c ≠ '\'' ∧ c ≠ '[' ∧ c ≠ '\x7b') (room : Nat) :
    value room (c :: cs) = scalar (c :: cs) := by
  obtain ⟨hquote, happ, hbracket, hbrace⟩ := hc
  unfold value
  split <;> simp_all

theorem value_intText (room : Nat) (i : Int64) (rest : List Char) :
    value room ((intText i.toInt).toList ++ '\n' :: rest) = some (.integer i, '\n' :: rest) := by
  have hscalar := scalar_intText i rest
  obtain ⟨c, ds, htext, hc, -⟩ := exists_intText i.toInt
  rw [htext, List.cons_append] at hscalar ⊢
  refine (value_eq_scalar ?_ room).trans hscalar
  rcases hc with rfl | hc
  · decide
  · refine ⟨?_, ?_, ?_, ?_⟩ <;> (rintro rfl; exact absurd hc (by decide))

/-! ### Lines -/

/-- A word that may stand as a key without quotes. -/
structure IsBareWord (word : String) : Prop where
  nonempty : word.toList ≠ []
  bare : ∀ c ∈ word.toList, isBareKey c = true

theorem IsBareWord.exists_cons {word : String} (hw : IsBareWord word) :
    ∃ c rest, word.toList = c :: rest ∧ isBareKey c = true := by
  obtain ⟨c, rest, hword⟩ := List.exists_cons_of_ne_nil hw.nonempty
  exact ⟨c, rest, hword, hw.bare c (hword ▸ List.mem_cons_self)⟩

theorem skipBlanks_cons {c : Char} (hc : isBlank c = false) (rest : List Char) :
    skipBlanks (c :: rest) = c :: rest := by
  rw [skipBlanks, List.dropWhile_cons_of_neg (by simp [hc])]

/-- A text that begins with a bare word begins with no blank, quote, bracket,
comment or line end. -/
theorem IsBareWord.append_ne_cons {word : String} (hw : IsBareWord word) {c : Char}
    (hc : isBareKey c = false) (text rest : List Char) : word.toList ++ text ≠ c :: rest := by
  obtain ⟨d, ds, hword, hd⟩ := hw.exists_cons
  rw [hword, List.cons_append]
  intro he
  obtain ⟨rfl, -⟩ := List.cons.inj he
  rw [hc] at hd
  cases hd

theorem IsBareWord.skipBlanks_append {word : String} (hw : IsBareWord word) (text : List Char) :
    skipBlanks (word.toList ++ text) = word.toList ++ text := by
  obtain ⟨c, cs, hword, hc⟩ := hw.exists_cons
  have hblank : isBlank c = false := by
    rw [isBlank, Bool.or_eq_false_iff, beq_eq_false_iff_ne, beq_eq_false_iff_ne]
    constructor <;> (rintro rfl; exact absurd hc (by decide))
  rw [hword, List.cons_append]
  exact skipBlanks_cons hblank _

theorem keyPart_append {word : String} (hw : IsBareWord word) (rest : List Char) :
    keyPart (word.toList ++ ' ' :: rest) = some (word, ' ' :: rest) := by
  have hrun : (word.toList ++ ' ' :: rest).takeWhile isBareKey = word.toList := by
    rw [List.takeWhile_append_of_pos hw.bare, List.takeWhile_cons_of_neg (by decide),
      List.append_nil]
  unfold keyPart
  split
  · exact absurd ‹_› (hw.append_ne_cons (by decide) _ _)
  · exact absurd ‹_› (hw.append_ne_cons (by decide) _ _)
  · simp only [hrun, List.drop_left, String.ofList_toList]
    rw [if_neg (by simpa using hw.nonempty)]

/-- A bare word is a key without dots. -/
theorem key_append {word : String} (hw : IsBareWord word) (rest : List Char) :
    key (word.toList ++ ' ' :: '=' :: rest) = some (⟨[], word⟩, '=' :: rest) := by
  have hparts : ∀ n, keyParts (n + 1) (word.toList ++ ' ' :: '=' :: rest) =
      some ([word], '=' :: rest) := by
    intro n
    rw [keyParts, hw.skipBlanks_append, keyPart_append hw]
    rfl
  unfold key
  rw [hparts]
  rfl

theorem toList_integerLine (word : String) (i : Int64) : (integerLine word i).toList =
    word.toList ++ ' ' :: '=' :: ' ' :: ((intText i.toInt).toList ++ ['\n']) := by
  simp [integerLine]

theorem skipBlanks_intText (i : Int) (rest : List Char) :
    skipBlanks (' ' :: ((intText i).toList ++ rest)) = (intText i).toList ++ rest := by
  obtain ⟨c, ds, htext, hc, -⟩ := exists_intText i
  have hblank : isBlank c = false := by
    rcases hc with rfl | hc
    · rfl
    · rw [isBlank, Bool.or_eq_false_iff, beq_eq_false_iff_ne, beq_eq_false_iff_ne]
      constructor <;> (rintro rfl; exact absurd hc (by decide))
  rw [skipBlanks, List.dropWhile_cons_of_pos (by decide), htext, List.cons_append]
  exact skipBlanks_cons hblank _

/-- A line is one statement. -/
theorem statement_integerLine {word : String} (hw : IsBareWord word) (i : Int64)
    (rest : List Char) : statement ((integerLine word i).toList ++ rest) =
      some (.assign ⟨[], word⟩ (.integer i), rest) := by
  have hline : (integerLine word i).toList ++ rest =
      word.toList ++ ' ' :: '=' :: ' ' :: ((intText i.toInt).toList ++ '\n' :: rest) := by
    rw [toList_integerLine]
    simp
  have hbinding : binding (value (depthLimit - 1)) ((integerLine word i).toList ++ rest) =
      some ((⟨[], word⟩, .integer i), '\n' :: rest) := by
    unfold binding
    rw [hline, key_append hw]
    simp only [skipBlanks_intText, value_intText, Option.map_some,
      skipBlanks_cons (show isBlank '\n' = false from rfl)]
  have hend : lineEnd? ('\n' :: rest) = some rest := rfl
  unfold statement
  split
  · exact absurd (hline.symm.trans ‹_›) (hw.append_ne_cons (by decide) _ _)
  · exact absurd (hline.symm.trans ‹_›) (hw.append_ne_cons (by decide) _ _)
  · simp only [hbinding, Option.map_some, hend]

/-! ### Documents -/

/-- Lines are as many statements. -/
theorem statementsIn_integerLines {entries : List (String × Int64)}
    (hwords : ∀ e ∈ entries, IsBareWord e.1) {n : Nat} (hn : entries.length < n) :
    statementsIn n (String.join (entries.map fun e => integerLine e.1 e.2)).toList =
      some (entries.map fun e => .assign ⟨[], e.1⟩ (.integer e.2)) := by
  rw [String.toList_join]
  induction entries generalizing n with
  | nil =>
    obtain ⟨n, rfl⟩ := Nat.exists_eq_succ_of_ne_zero (Nat.ne_of_gt hn)
    rfl
  | cons e entries ih =>
    obtain ⟨n, rfl⟩ := Nat.exists_eq_succ_of_ne_zero (Nat.ne_of_gt (Nat.zero_lt_of_lt hn))
    obtain ⟨hw, hwords⟩ := List.forall_mem_cons.mp hwords
    have hrest := ih hwords (n := n) (by simpa using hn)
    have hstatement := statement_integerLine hw e.2
      ((entries.map fun e => integerLine e.1 e.2).flatMap String.toList)
    have hfront : ∀ c tail, isBareKey c = false → (integerLine e.1 e.2).toList ++
        (entries.map fun e => integerLine e.1 e.2).flatMap String.toList ≠ c :: tail := by
      intro c tail hc
      rw [toList_integerLine, List.append_assoc]
      exact hw.append_ne_cons hc _ _
    rw [List.map_cons, List.flatMap_cons, statementsIn, toList_integerLine, List.append_assoc,
      hw.skipBlanks_append, ← List.append_assoc, ← toList_integerLine]
    split
    · rename_i hnil
      exact absurd (List.append_eq_nil_iff.mp hnil).1 (by simp [toList_integerLine])
    · exact absurd ‹_› (hfront '#' _ (by decide))
    · exact absurd ‹_› (hfront '\n' _ (by decide))
    · exact absurd ‹_› (hfront '\r' _ (by decide))
    · simp only [hstatement, hrest, Option.map_some, List.map_cons]

/-- A table takes entries whose keys are new to it. -/
theorem assignAll_eq {entries : List (String × Value)} {t : Table} (ht : t.origin = .header)
    (hkeys : (entries.map Prod.fst).Nodup) (hnew : ∀ e ∈ entries, t.find? e.1 = none) :
    t.assignAll (entries.map fun e => ([], e.1, e.2)) =
      some ⟨.header, t.entries ++ entries.map fun e => (e.1, .value e.2)⟩ := by
  induction entries generalizing t with
  | nil =>
    obtain ⟨origin, es⟩ := t
    obtain rfl : origin = .header := ht
    simp [Table.assignAll]
  | cons e entries ih =>
    obtain ⟨key, v⟩ := e
    obtain ⟨hkey, hkeys⟩ := List.nodup_cons.mp hkeys
    obtain ⟨hfirst, hnew⟩ := List.forall_mem_cons.mp hnew
    have hassign : t.assign [] key v = some (t.push key (.value v)) := by
      rw [Table.assign, Table.descend, Table.define, ht, if_neg (by decide), hfirst]
    have hlater : ∀ e ∈ entries, (t.push key (.value v)).find? e.1 = none := by
      intro e he
      have hne : e.1 ≠ key := fun heq => hkey (heq ▸ List.mem_map.mpr ⟨e, he, rfl⟩)
      have hold : t.entries.lookup e.1 = none := hnew e he
      have hb : (e.1 == key) = false := beq_eq_false_iff_ne.mpr hne
      rw [Table.find?, Table.push, List.lookup_append, hold, List.lookup_cons, hb]
      rfl
    have hrest := ih (t := t.push key (.value v)) ht hkeys hlater
    rw [List.map_cons, Table.assignAll, hassign, Option.bind_some, hrest]
    simp [Table.push]

theorem takeAssignments_map (entries : List (String × Value)) :
    takeAssignments (entries.map fun e => .assign ⟨[], e.1⟩ e.2) =
      (entries.map fun e => ([], e.1, e.2), []) := by
  induction entries with
  | nil => rfl
  | cons e entries ih => simp only [List.map_cons, takeAssignments, ih]

theorem sealEntries_map (entries : List (String × Value)) :
    sealEntries (entries.map fun e => (e.1, .value e.2)) = entries := by
  induction entries with
  | nil => rfl
  | cons e entries ih => simp only [List.map_cons, sealEntries, ih, Item.seal]

/-- Statements that give values to plain keys, each of them once, make a
document of these entries. -/
theorem ofStatements?_assignments {entries : List (String × Value)}
    (hkeys : (entries.map Prod.fst).Nodup) :
    ofStatements? (entries.map fun e => .assign ⟨[], e.1⟩ e.2) = some entries := by
  have hassigned := assignAll_eq (t := .empty .header) rfl hkeys fun e he => rfl
  unfold ofStatements?
  simp only [takeAssignments_map, hassigned]
  exact congrArg some (sealEntries_map entries)

theorem statements?_of_ne_mark {cs : List Char} (hcs : ∀ rest, cs ≠ byteOrderMark :: rest) :
    statements? cs = statementsIn (cs.length + 1) cs := by
  cases cs with
  | nil => rfl
  | cons c rest =>
    have hc : c ≠ byteOrderMark := fun he => hcs rest (he ▸ rfl)
    simp only [statements?, if_neg hc]

/-- **What is written is read back.** A document of integer lines, whose keys
are bare words and differ, is the document of these integers. -/
theorem read?_integerLines {entries : List (String × Int64)}
    (hwords : ∀ e ∈ entries, IsBareWord e.1) (hkeys : (entries.map Prod.fst).Nodup) :
    read? (String.join (entries.map fun e => integerLine e.1 e.2)) =
      some (entries.map fun e => (e.1, .integer e.2)) := by
  have hlength : ∀ entries : List (String × Int64),
      entries.length ≤ (String.join (entries.map fun e => integerLine e.1 e.2)).toList.length := by
    intro entries
    rw [String.toList_join]
    induction entries with
    | nil => exact Nat.le_refl 0
    | cons e entries ih =>
      simp only [List.map_cons, List.flatMap_cons, List.length_append, List.length_cons,
        toList_integerLine]
      omega
  have hmark : ∀ rest, (String.join (entries.map fun e => integerLine e.1 e.2)).toList ≠
      byteOrderMark :: rest := by
    intro rest
    rw [String.toList_join]
    cases entries with
    | nil => exact nofun
    | cons e entries =>
      rw [List.map_cons, List.flatMap_cons, toList_integerLine, List.append_assoc]
      exact (List.forall_mem_cons.mp hwords).1.append_ne_cons (by decide) _ _
  have hlines := statementsIn_integerLines hwords (Nat.lt_succ_of_le (hlength entries))
  have hdistinct : ((entries.map fun e => (e.1, Value.integer e.2)).map Prod.fst).Nodup := by
    rw [List.map_map]
    exact hkeys
  have hdocument := ofStatements?_assignments hdistinct
  rw [List.map_map] at hdocument
  rw [read?, statements?_of_ne_mark hmark, hlines, Option.bind_some]
  exact hdocument

end LockFree.Toml
