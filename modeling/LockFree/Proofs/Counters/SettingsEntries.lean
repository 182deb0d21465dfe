/-
# Which entries give settings

The entries of a document are taken one after another, and what becomes of them
is told without following that order where the order does not matter. An entry
fits if it gives one of the fields a number that is not negative (`Fits`); one
that does not has a fault of its own (`Faulty`). If all fit, each field has the
number that is given for it or else its default (`effective`), whatever the
order of the entries; whether these numbers make sense together is looked at
only then. If some do not fit, the fault is that of the first one.

That keys are distinct is what makes the order not matter: each field is then
given at most once. It holds of the entries of every document
(`Toml.read?_keys_nodup`), so what is said of entries is said of documents
(`Settings.ofDocument_eq_ok_iff`).

Key definitions: `Fits`, `Faulty`, `FirstFault`, `Settings.effective`,
`Settings.Holds`.
Key theorems: `Settings.addEntries_of_fits`, `Settings.addEntries_of_firstFault`,
`Settings.ofEntries_perm`, `Settings.entries_decided`.
-/
import LockFree.Counters.SettingsDocument
import LockFree.Proofs.Counters.Construction
import LockFree.Proofs.Toml.Keys

namespace LockFree.Counters

/-! ### Single entries -/

/-- The entry gives a field a number that is not negative. -/
def Fits (e : String × Toml.Value) : Prop :=
  ∃ (field : SettingsField) (i : Int64), e = (field.key, .integer i) ∧ 0 ≤ i.toInt

/-- The entry does not fit, for this reason. -/
inductive Faulty : String × Toml.Value → SchemaFault → Prop
  | unknownKey {key : String} {v : Toml.Value} (hkey : ∀ field : SettingsField, key ≠ field.key) :
    Faulty (key, v) (.unknownKey key)
  | negative {field : SettingsField} {i : Int64} (hi : i.toInt < 0) :
    Faulty (field.key, .integer i) (.negative field i)
  | notInteger {field : SettingsField} {v : Toml.Value} (hv : ∀ i, v ≠ .integer i) :
    Faulty (field.key, v) (.notInteger field v)

namespace SettingsField

theorem ofKey?_key (field : SettingsField) : ofKey? field.key = some field := by
  cases field <;> rfl

theorem ofKey?_eq_some {k : String} {field : SettingsField} (hk : ofKey? k = some field) :
    k = field.key := by
  unfold ofKey? at hk
  split at hk
  · obtain rfl := Option.some.inj hk
    assumption
  · split at hk
    · obtain rfl := Option.some.inj hk
      assumption
    · cases hk

theorem key_injective {field field' : SettingsField} (hk : field.key = field'.key) :
    field = field' :=
  Option.some.inj ((ofKey?_key field).symm.trans (hk ▸ ofKey?_key field'))

end SettingsField

namespace Settings

/-- The word of a field. -/
def word (s : Settings) : SettingsField → UInt64
  | .maxCounters => s.maxCounters
  | .reuseTimeoutMs => s.reuseTimeoutMs

variable {s : Settings} {e : String × Toml.Value} {entries : Toml.Entries}

theorem ext_word {s' : Settings} (h : ∀ field, s.word field = s'.word field) : s = s' := by
  obtain ⟨n, t⟩ := s
  obtain ⟨n', t'⟩ := s'
  obtain rfl : n = n' := h .maxCounters
  obtain rfl : t = t' := h .reuseTimeoutMs
  rfl

theorem word_set (s : Settings) (w : UInt64) (field field' : SettingsField) :
    (s.set w field).word field' = if field' = field then w else s.word field' := by
  cases field <;> cases field' <;> rfl

theorem lt_zero_iff {i : Int64} : i < 0 ↔ i.toInt < 0 := by
  rw [Int64.lt_iff_toInt_lt, Int64.toInt_zero]

/-- An entry that fits gives its number to its field. -/
theorem addEntry_of_fits {field : SettingsField} {i : Int64} (hi : 0 ≤ i.toInt) (s : Settings) :
    s.addEntry (field.key, .integer i) = .ok (s.set i.toUInt64 field) := by
  have hnonneg : ¬ i < 0 := lt_zero_iff.not.mpr (Int.not_lt.mpr hi)
  simp only [addEntry, SettingsField.ofKey?_key, wordOf, if_neg hnonneg]

/-- An entry that does not fit is refused for its fault. -/
theorem addEntry_of_faulty {fault : SchemaFault} (hf : Faulty e fault) (s : Settings) :
    s.addEntry e = .error fault := by
  cases hf with
  | @unknownKey key v hkey =>
    have hnone : SettingsField.ofKey? key = none := by
      cases hk : SettingsField.ofKey? key with
      | none => rfl
      | some field => exact absurd (SettingsField.ofKey?_eq_some hk) (hkey field)
    simp only [addEntry, hnone]
  | @negative field i hi =>
    simp only [addEntry, SettingsField.ofKey?_key, wordOf, if_pos (lt_zero_iff.mpr hi)]
  | @notInteger field v hv =>
    have hword : wordOf field v = .error (.notInteger field v) := by
      cases v with
      | integer i => exact absurd rfl (hv i)
      | _ => rfl
    simp only [addEntry, SettingsField.ofKey?_key, hword]

end Settings

theorem fits_or_faulty (e : String × Toml.Value) : Fits e ∨ ∃ fault, Faulty e fault := by
  obtain ⟨key, v⟩ := e
  by_cases hkey : ∃ field : SettingsField, key = field.key
  · obtain ⟨field, rfl⟩ := hkey
    by_cases hv : ∃ i, v = .integer i
    · obtain ⟨i, rfl⟩ := hv
      rcases Int.lt_or_le i.toInt 0 with hi | hi
      · exact .inr ⟨_, .negative hi⟩
      · exact .inl ⟨field, i, rfl, hi⟩
    · exact .inr ⟨_, .notInteger fun i he => hv ⟨i, he⟩⟩
  · exact .inr ⟨_, .unknownKey fun field he => hkey ⟨field, he⟩⟩

theorem Fits.not_faulty {e : String × Toml.Value} {fault : SchemaFault} (hfits : Fits e) :
    ¬ Faulty e fault := by
  obtain ⟨field, i, rfl, hi⟩ := hfits
  intro hfault
  have hok : Settings.addEntry {} (field.key, .integer i) = .ok _ := Settings.addEntry_of_fits hi {}
  cases hok.symm.trans (Settings.addEntry_of_faulty hfault {})

/-! ### All entries -/

/-- Entries of which the first that does not fit has this fault. -/
def FirstFault (entries : Toml.Entries) (fault : SchemaFault) : Prop :=
  ∃ before e after, entries = before ++ e :: after ∧ (∀ x ∈ before, Fits x) ∧ Faulty e fault

theorem FirstFault.not_fits {entries : Toml.Entries} {fault : SchemaFault}
    (hf : FirstFault entries fault) : ¬ ∀ e ∈ entries, Fits e := by
  obtain ⟨before, e, after, rfl, -, hfault⟩ := hf
  exact fun hfits => (hfits e (by simp)).not_faulty hfault

theorem fits_or_firstFault (entries : Toml.Entries) :
    (∀ e ∈ entries, Fits e) ∨ ∃ fault, FirstFault entries fault := by
  induction entries with
  | nil => exact .inl nofun
  | cons e rest ih =>
    rcases fits_or_faulty e with hfits | ⟨fault, hfault⟩
    · rcases ih with hrest | ⟨fault, before, x, after, rfl, hbefore, hfault⟩
      · exact .inl (List.forall_mem_cons.mpr ⟨hfits, hrest⟩)
      · exact .inr ⟨fault, e :: before, x, after, rfl,
          List.forall_mem_cons.mpr ⟨hfits, hbefore⟩, hfault⟩
    · exact .inr ⟨fault, [], e, rest, rfl, nofun, hfault⟩

/-- The place of an entry does not matter to what is found under its key. -/
theorem lookup_perm {entries entries' : Toml.Entries} (hp : entries.Perm entries')
    (hkeys : (entries.map Prod.fst).Nodup) (key : String) :
    entries.lookup key = entries'.lookup key := by
  induction hp with
  | nil => rfl
  | cons e _ ih =>
    rw [List.lookup_cons, List.lookup_cons, ih (List.nodup_cons.mp hkeys).2]
  | swap e e' rest =>
    have hne : e'.1 ≠ e.1 := fun he => (List.nodup_cons.mp hkeys).1 (he ▸ List.mem_cons_self)
    by_cases hkey : key = e.1
    · have hb : (key == e'.1) = false := beq_eq_false_iff_ne.mpr fun he => hne (he.symm.trans hkey)
      rw [List.lookup_cons, List.lookup_cons, List.lookup_cons, List.lookup_cons, hb]
    · have hb : (key == e.1) = false := beq_eq_false_iff_ne.mpr hkey
      rw [List.lookup_cons, List.lookup_cons, List.lookup_cons, List.lookup_cons, hb]
  | trans hp _ ih ih' =>
    exact (ih hkeys).trans (ih' ((hp.map Prod.fst).nodup_iff.mp hkeys))

namespace Settings

variable {s : Settings} {entries : Toml.Entries}

/-- The number that a field has: the one that is given for it, or else the one
that it had before. -/
def effective (s : Settings) (entries : Toml.Entries) (field : SettingsField) : Int :=
  match entries.lookup field.key with
  | some (.integer i) => i.toInt
  | _ => (s.word field).toNat

theorem toNat_toUInt64 {i : Int64} (hi : 0 ≤ i.toInt) : (i.toUInt64.toNat : Int) = i.toInt := by
  have hle : 0 ≤ i := by
    rw [Int64.le_iff_toInt_le, Int64.toInt_zero]
    exact hi
  rw [Int64.toNat_toUInt64_of_le hle]
  exact Int.toNat_of_nonneg hi

/-- Entries that fit give their numbers, each to the field of its key. -/
theorem addEntries_of_fits (hfits : ∀ e ∈ entries, Fits e) (hkeys : (entries.map Prod.fst).Nodup)
    (s : Settings) : ∃ s', s.addEntries entries = .ok s' ∧
      ∀ field, ((s'.word field).toNat : Int) = s.effective entries field := by
  induction entries generalizing s with
  | nil => exact ⟨s, rfl, fun field => rfl⟩
  | cons e rest ih =>
    obtain ⟨⟨given, i, rfl, hi⟩, hrest⟩ := List.forall_mem_cons.mp hfits
    obtain ⟨hnew, hkeys⟩ := List.nodup_cons.mp hkeys
    obtain ⟨s', hok, hwords⟩ := ih hrest hkeys (s.set i.toUInt64 given)
    refine ⟨s', ?_, fun field => (hwords field).trans ?_⟩
    · simp only [addEntries, addEntry_of_fits hi, hok]
    · by_cases hfield : field = given
      · -- The keys differ, so the rest says nothing of a field that was given.
        subst hfield
        have hnone : rest.lookup field.key = none := by
          refine List.lookup_eq_none_iff.mpr fun e he => bne_iff_ne.mpr fun heq => hnew ?_
          exact List.mem_map.mpr ⟨e, he, heq.symm⟩
        simp only [effective, hnone, List.lookup_cons_self, word_set, if_true]
        exact toNat_toUInt64 hi
      · have hb : (field.key == given.key) = false :=
          beq_eq_false_iff_ne.mpr fun he => hfield (SettingsField.key_injective he)
        simp only [effective, List.lookup_cons, hb, word_set, if_neg hfield]

/-- Entries are refused for the fault of the first that does not fit. -/
theorem addEntries_of_firstFault {fault : SchemaFault} (hf : FirstFault entries fault)
    (s : Settings) : s.addEntries entries = .error fault := by
  obtain ⟨before, e, after, rfl, hbefore, hfault⟩ := hf
  induction before generalizing s with
  | nil => simp only [List.nil_append, addEntries, addEntry_of_faulty hfault]
  | cons x before ih =>
    obtain ⟨⟨field, i, rfl, hi⟩, hrest⟩ := List.forall_mem_cons.mp hbefore
    simp only [List.cons_append, addEntries, addEntry_of_fits hi]
    exact ih _ hrest

theorem ofEntries_of_firstFault {fault : SchemaFault} (hf : FirstFault entries fault) :
    ofEntries entries = .error (.schema fault) := by
  simp only [ofEntries, addEntries_of_firstFault hf]

/-- The settings that hold just what is given, and the defaults for the rest. -/
def Holds (s : Settings) (entries : Toml.Entries) : Prop :=
  ∀ field, ((s.word field).toNat : Int) = effective {} entries field

theorem Holds.unique {s' : Settings} (hs : s.Holds entries) (hs' : s'.Holds entries) : s = s' := by
  refine ext_word fun field => UInt64.toNat_inj.mp ?_
  have heq := (hs field).trans (hs' field).symm
  omega

/-- Where all entries fit, the settings that they give are looked at. -/
theorem ofEntries_of_fits (hfits : ∀ e ∈ entries, Fits e)
    (hkeys : (entries.map Prod.fst).Nodup) : ∃ s : Settings, s.Holds entries ∧
      ofEntries entries = match s.check with
        | .error fault => .error (.invalid fault)
        | .ok () => .ok s := by
  obtain ⟨s, hok, hwords⟩ := addEntries_of_fits hfits hkeys {}
  refine ⟨s, hwords, ?_⟩
  cases hcheck : s.check <;> simp only [ofEntries, hok, hcheck]

theorem ofEntries_eq_ok_iff (hkeys : (entries.map Prod.fst).Nodup) : ofEntries entries = .ok s ↔
    (∀ e ∈ entries, Fits e) ∧ s.Holds entries ∧ s.check = .ok () := by
  rcases fits_or_firstFault entries with hfits | ⟨fault, hfault⟩
  · obtain ⟨s', hs', hof⟩ := ofEntries_of_fits hfits hkeys
    refine ⟨fun hok => ⟨hfits, ?_⟩, fun ⟨_, hs, hcheck⟩ => ?_⟩
    · rw [hof] at hok
      split at hok
      · cases hok
      · rename_i hcheck
        obtain rfl := Except.ok.inj hok
        exact ⟨hs', hcheck⟩
    · rw [hof, hs'.unique hs, hcheck]
  · rw [ofEntries_of_firstFault hfault]
    exact ⟨nofun, fun ⟨hfits, _⟩ => absurd hfits hfault.not_fits⟩

theorem ofEntries_eq_invalid_iff {fault : SettingsFault} (hkeys : (entries.map Prod.fst).Nodup) :
    ofEntries entries = .error (.invalid fault) ↔
      (∀ e ∈ entries, Fits e) ∧ ∃ s : Settings, s.Holds entries ∧ s.check = .error fault := by
  rcases fits_or_firstFault entries with hfits | ⟨fault', hfault⟩
  · obtain ⟨s', hs', hof⟩ := ofEntries_of_fits hfits hkeys
    refine ⟨fun herr => ⟨hfits, s', hs', ?_⟩, fun ⟨_, s, hs, hcheck⟩ => ?_⟩
    · rw [hof] at herr
      split at herr
      · rename_i hcheck
        obtain rfl : _ = fault := SettingsRefusal.invalid.inj (Except.error.inj herr)
        exact hcheck
      · cases herr
    · rw [hof, hs'.unique hs, hcheck]
  · rw [ofEntries_of_firstFault hfault]
    exact ⟨nofun, fun ⟨hfits, _⟩ => absurd hfits hfault.not_fits⟩

theorem ofEntries_eq_schema_iff {fault : SchemaFault} (hkeys : (entries.map Prod.fst).Nodup) :
    ofEntries entries = .error (.schema fault) ↔ FirstFault entries fault := by
  refine ⟨fun herr => ?_, ofEntries_of_firstFault⟩
  rcases fits_or_firstFault entries with hfits | ⟨fault', hfault⟩
  · obtain ⟨s, -, hof⟩ := ofEntries_of_fits hfits hkeys
    rw [hof] at herr
    split at herr <;> cases herr
  · rw [ofEntries_of_firstFault hfault] at herr
    exact SettingsRefusal.schema.inj (Except.error.inj herr) ▸ hfault

theorem Holds.perm {entries' : Toml.Entries} (hs : s.Holds entries)
    (hkeys : (entries.map Prod.fst).Nodup) (hp : entries.Perm entries') : s.Holds entries' := by
  intro field
  rw [hs field, effective, effective, lookup_perm hp hkeys]

theorem Holds.check_eq_ok_iff (hs : s.Holds entries) : s.check = .ok () ↔
    1 ≤ effective {} entries .maxCounters ∧ effective {} entries .maxCounters ≤ maxSlotId := by
  rw [Settings.check_eq_ok_iff, ← hs .maxCounters]
  simp only [word]
  omega

/-- Where entries give settings, their order does not matter. -/
theorem ofEntries_perm {entries' : Toml.Entries} (hkeys : (entries.map Prod.fst).Nodup)
    (hok : ofEntries entries = .ok s) (hp : entries.Perm entries') :
    ofEntries entries' = .ok s := by
  obtain ⟨hfits, hs, hcheck⟩ := (ofEntries_eq_ok_iff hkeys).mp hok
  have hkeys' : (entries'.map Prod.fst).Nodup := (hp.map Prod.fst).nodup_iff.mp hkeys
  refine (ofEntries_eq_ok_iff hkeys').mpr ⟨fun e he => ?_, hs.perm hkeys hp, hcheck⟩
  exact hfits e (hp.mem_iff.mpr he)

/-- A document gives settings just if its entries do. -/
theorem ofDocument_eq_ok_iff {text : String} : ofDocument text = .ok s ↔
    ∃ entries, Toml.read? text = some entries ∧ (∀ e ∈ entries, Fits e) ∧ s.Holds entries ∧
      s.check = .ok () := by
  cases hread : Toml.read? text with
  | none =>
    simp only [ofDocument, hread]
    exact ⟨nofun, fun ⟨entries, he, _⟩ => by cases he⟩
  | some entries =>
    simp only [ofDocument, hread]
    rw [ofEntries_eq_ok_iff (Toml.read?_keys_nodup hread)]
    exact ⟨fun h => ⟨entries, rfl, h⟩, fun ⟨entries', he, h⟩ => Option.some.inj he ▸ h⟩

theorem ofEntries_ne_malformed (entries : Toml.Entries) :
    ofEntries entries ≠ .error .malformed := by
  intro herr
  unfold ofEntries at herr
  split at herr
  · cases herr
  · split at herr <;> cases herr

/-- **Which entries give settings.** Of entries with distinct keys: they give
settings exactly if all of them fit and the number of slots that is given, or
else the default, is one that settings may have. The settings hold just what is
given and the defaults for the rest, in whatever order the entries stand. If
not all fit, the fault is that of the first one which does not; that the numbers
make no sound settings is said only where all fit. -/
theorem entries_decided (hkeys : (entries.map Prod.fst).Nodup) :
    ((∃ s, ofEntries entries = .ok s) ↔ (∀ e ∈ entries, Fits e) ∧
      1 ≤ effective {} entries .maxCounters ∧ effective {} entries .maxCounters ≤ maxSlotId) ∧
    (∀ s, ofEntries entries = .ok s → s.Holds entries ∧
      ∀ entries', entries.Perm entries' → ofEntries entries' = .ok s) ∧
    (∀ fault, ofEntries entries = .error (.schema fault) ↔ FirstFault entries fault) ∧
    (∀ fault, ofEntries entries = .error (.invalid fault) ↔ (∀ e ∈ entries, Fits e) ∧
      ∃ s : Settings, s.Holds entries ∧ s.check = .error fault) ∧
    ofEntries entries ≠ .error .malformed ∧
    ∀ text, Toml.read? text = some entries → ofDocument text = ofEntries entries := by
  refine ⟨⟨fun ⟨s, hok⟩ => ?_, fun ⟨hfits, hrange⟩ => ?_⟩, fun s hok => ⟨?_, ?_⟩,
    fun fault => ofEntries_eq_schema_iff hkeys, fun fault => ofEntries_eq_invalid_iff hkeys,
    ofEntries_ne_malformed entries, fun text hread => ?_⟩
  · obtain ⟨hfits, hs, hcheck⟩ := (ofEntries_eq_ok_iff hkeys).mp hok
    exact ⟨hfits, hs.check_eq_ok_iff.mp hcheck⟩
  · obtain ⟨s, hs, -⟩ := ofEntries_of_fits hfits hkeys
    exact ⟨s, (ofEntries_eq_ok_iff hkeys).mpr ⟨hfits, hs, hs.check_eq_ok_iff.mpr hrange⟩⟩
  · exact ((ofEntries_eq_ok_iff hkeys).mp hok).2.1
  · exact fun entries' hp => ofEntries_perm hkeys hok hp
  · simp only [ofDocument, hread]

/-- An entry that does not fit is reported though the number of slots before it
makes no sound settings, and the first of two such entries is. -/
theorem entries_decided_first_fault :
    ofEntries [("max_counters", .integer 0), ("reuse_timeout_ms", .boolean true),
      ("colour", .integer 1)] = .error (.schema (.notInteger .reuseTimeoutMs (.boolean true))) := by
  refine ((entries_decided (by decide)).2.2.1 _).mpr
    ⟨[("max_counters", .integer 0)], _, [("colour", .integer 1)], rfl, ?_, ?_⟩
  · simp only [List.mem_singleton, forall_eq]
    exact ⟨.maxCounters, 0, rfl, by decide⟩
  · have hv : ∀ i : Int64, Toml.Value.boolean true ≠ .integer i := fun i he => by cases he
    exact (Faulty.notInteger hv : Faulty (SettingsField.reuseTimeoutMs.key, .boolean true) _)

end Settings
end LockFree.Counters
