/-
# Settings are read as they are written

Settings have a document if their words are integers of documents, and the
document is read back as the same settings, or refused for the one reason that
they are not sound: what was written is never taken for something malformed or
for entries that do not fit.

That the two lines are read as two integers is said for all documents of
integers in `Toml.read?_integerLines`; here the integers are the words that they
were made of (`Toml.integerOf?_eq_some`), and each goes back into its field.

Key theorems: `Settings.document?_eq_none_iff`, `Settings.ofDocument_document?`,
`Settings.read_as_written`.
-/
import LockFree.Counters.SettingsDocument
import LockFree.Proofs.Toml.Integers
import LockFree.Proofs.Counters.SettingsEntries

namespace LockFree

open Decimal (natText intText)

namespace Toml

/-- A word that is an integer of documents is that number, and is made of it
again. -/
theorem integerOf?_eq_some {w : UInt64} {i : Int64} (hi : integerOf? w = some i) :
    i.toInt = w.toNat ∧ i.toUInt64 = w := by
  unfold integerOf? at hi
  split at hi
  · rename_i hlt
    obtain rfl := Option.some.inj hi
    refine ⟨Int64.toInt_ofNat_of_lt hlt, ?_⟩
    rw [Int64.toUInt64_ofNat', UInt64.ofNat_toNat]
  · cases hi

theorem integerOf?_eq_none_iff {w : UInt64} :
    integerOf? w = none ↔ Int64.maxValue.toInt < w.toNat := by
  have hmax : Int64.maxValue.toInt = 9223372036854775807 := rfl
  have hpow : Nat.pow 2 63 = 9223372036854775808 := rfl
  rw [integerOf?, hmax, hpow]
  split
  · simp
    omega
  · simp
    omega

end Toml

namespace Counters

namespace SettingsField

theorem key_isBareWord (field : SettingsField) : Toml.IsBareWord field.key := by
  cases field
  · exact ⟨by simp [key], by simp [key]; decide⟩
  · exact ⟨by simp [key], by simp [key]; decide⟩

end SettingsField

namespace Settings

open Toml (integerOf? integerLine)

variable {s : Settings} {text : String}

/-- The integer that was made of a word gives it to the field again. -/
theorem addEntry_integerOf? {w : UInt64} {i : Int64} (hi : integerOf? w = some i)
    (field : SettingsField) (s : Settings) :
    s.addEntry (field.key, .integer i) = .ok (s.set w field) := by
  obtain ⟨hint, hword⟩ := Toml.integerOf?_eq_some hi
  rw [addEntry_of_fits (by omega) s, hword]

theorem document?_eq (s : Settings) : s.document? =
    match integerOf? s.maxCounters, integerOf? s.reuseTimeoutMs with
    | some i, some j => some (String.join [integerLine SettingsField.maxCounters.key i,
        integerLine SettingsField.reuseTimeoutMs.key j])
    | _, _ => none := by
  unfold document? Toml.wordEntries?
  cases hi : integerOf? s.maxCounters <;> cases hj : integerOf? s.reuseTimeoutMs <;>
    simp [hi, hj]

theorem document?_eq_none_iff : s.document? = none ↔
    Int64.maxValue.toInt < s.maxCounters.toNat ∨ Int64.maxValue.toInt < s.reuseTimeoutMs.toNat := by
  rw [← Toml.integerOf?_eq_none_iff, ← Toml.integerOf?_eq_none_iff, document?_eq]
  cases integerOf? s.maxCounters <;> cases integerOf? s.reuseTimeoutMs <;> simp

theorem document?_eq_some (ht : s.document? = some text) :
    ∃ i j, integerOf? s.maxCounters = some i ∧ integerOf? s.reuseTimeoutMs = some j ∧
      text = String.join [integerLine SettingsField.maxCounters.key i,
        integerLine SettingsField.reuseTimeoutMs.key j] := by
  rw [document?_eq] at ht
  split at ht
  · rename_i i j hi hj
    exact ⟨i, j, hi, hj, (Option.some.inj ht).symm⟩
  · cases ht

/-- Each field on a line of its own, as a decimal. -/
theorem document?_text (ht : s.document? = some text) :
    text = "max_counters = " ++ natText s.maxCounters.toNat ++ "\n" ++
      "reuse_timeout_ms = " ++ natText s.reuseTimeoutMs.toNat ++ "\n" := by
  obtain ⟨i, j, hi, hj, rfl⟩ := document?_eq_some ht
  obtain ⟨hi, -⟩ := Toml.integerOf?_eq_some hi
  obtain ⟨hj, -⟩ := Toml.integerOf?_eq_some hj
  have hnat : ∀ n : Nat, intText n = natText n := fun n => if_neg (by omega)
  rw [← String.toList_inj]
  simp [integerLine, hi, hj, hnat, SettingsField.key]

/-- The document of settings gives these settings, if they are sound, and else
the reason why they are not. -/
theorem ofDocument_document? (ht : s.document? = some text) :
    ofDocument text = match s.check with
      | .error fault => .error (.invalid fault)
      | .ok () => .ok s := by
  obtain ⟨i, j, hi, hj, rfl⟩ := document?_eq_some ht
  have hread : Toml.read? (String.join [integerLine SettingsField.maxCounters.key i,
      integerLine SettingsField.reuseTimeoutMs.key j]) =
      some [(SettingsField.maxCounters.key, .integer i),
        (SettingsField.reuseTimeoutMs.key, .integer j)] :=
    @Toml.read?_integerLines
      [(SettingsField.maxCounters.key, i), (SettingsField.reuseTimeoutMs.key, j)]
      (by simp [SettingsField.key_isBareWord]) (by simp [SettingsField.key])
  have hfields : addEntries {} [(SettingsField.maxCounters.key, .integer i),
      (SettingsField.reuseTimeoutMs.key, .integer j)] = .ok s := by
    simp only [addEntries, addEntry_integerOf? hi, addEntry_integerOf? hj, set]
  cases hcheck : s.check <;> simp only [ofDocument, hread, ofEntries, hfields, hcheck]

/-- **Settings are read as they are written.** They have no document exactly if
one of their words is beyond the integers of documents. Otherwise the document
has a line for each, and reading it gives the same settings exactly if they are
sound: there is a slot and every slot has an id. If not, it is refused for the
reason that they are not sound, and for no other. -/
theorem read_as_written (s : Settings) :
    (s.document? = none ↔ Int64.maxValue.toInt < s.maxCounters.toNat ∨
      Int64.maxValue.toInt < s.reuseTimeoutMs.toNat) ∧
    ∀ text, s.document? = some text →
      text = "max_counters = " ++ natText s.maxCounters.toNat ++ "\n" ++
        "reuse_timeout_ms = " ++ natText s.reuseTimeoutMs.toNat ++ "\n" ∧
      (∀ s', ofDocument text = .ok s' ↔
        s' = s ∧ 1 ≤ s.maxCounters.toNat ∧ s.maxCounters.toNat ≤ maxSlotId) ∧
      ∀ refusal, ofDocument text = .error refusal ↔
        ∃ fault, s.check = .error fault ∧ refusal = .invalid fault := by
  refine ⟨document?_eq_none_iff, fun text ht => ⟨document?_text ht, fun s' => ?_, fun r => ?_⟩⟩
  · rw [ofDocument_document? ht, ← check_eq_ok_iff]
    cases s.check <;> simp [eq_comm]
  · rw [ofDocument_document? ht]
    cases s.check <;> simp [eq_comm]

/-- The largest number that a document holds is read back as it is, though no
region has so many slots. -/
theorem read_as_written_largest :
    document? ⟨9223372036854775807, 0⟩ =
      some "max_counters = 9223372036854775807\nreuse_timeout_ms = 0\n" ∧
    ofDocument "max_counters = 9223372036854775807\nreuse_timeout_ms = 0\n" =
      .error (.invalid (.beyondIds 9223372036854775807)) := by
  have ht : document? ⟨9223372036854775807, 0⟩ =
      some "max_counters = 9223372036854775807\nreuse_timeout_ms = 0\n" := by
    decide +kernel
  exact ⟨ht, (((read_as_written _).2 _ ht).2.2 _).mpr ⟨_, rfl, rfl⟩⟩

end Settings
end Counters
end LockFree
