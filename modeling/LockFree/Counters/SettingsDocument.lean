/-
# Settings as a document

Settings are written as a document with one integer entry each, and read from
one with defaults for what is missing. The entries of a document are looked at
in their order, and the first one that does not fit is reported; whether the
values make sense together is asked only when every entry fits.
-/
import LockFree.Counters.Settings
import LockFree.Decimal.Shortest
import LockFree.Toml.Document
import LockFree.Toml.Value

namespace LockFree.Counters

/-- The fields of settings. -/
inductive SettingsField
  | maxCounters
  | reuseTimeoutMs
  deriving DecidableEq, Repr

namespace SettingsField

/-- The key of a field. -/
def key : SettingsField → String
  | maxCounters => "max_counters"
  | reuseTimeoutMs => "reuse_timeout_ms"

/-- The field of a key. -/
def ofKey? (k : String) : Option SettingsField :=
  if k = maxCounters.key then some maxCounters
  else if k = reuseTimeoutMs.key then some reuseTimeoutMs
  else none

/-- What is expected as a field's value. -/
def expected : SettingsField → String
  | maxCounters => "usize"
  | reuseTimeoutMs => "u64"

end SettingsField

/-- Why an entry does not fit. -/
inductive SchemaFault
  | unknownKey (key : String)
  | negative (field : SettingsField) (i : Int64)
  | notInteger (field : SettingsField) (v : Toml.Value)
  deriving Repr

/-- A value in the words of a message. -/
def valueText : Toml.Value → String
  | .string s => "string " ++ Text.quoted s
  | .integer i => "integer `" ++ Decimal.intText i.toInt ++ "`"
  | .float x => "floating point `" ++ x.text ++ "`"
  | .boolean b => "boolean `" ++ Text.flag b ++ "`"
  | .array _ => "sequence"
  | .dateTime _ | .table _ => "map"

/-- The message of a fault. -/
def SchemaFault.message : SchemaFault → String
  | .unknownKey key =>
    "unknown field `" ++ key ++ "`, expected `max_counters` or `reuse_timeout_ms`"
  | .negative field i =>
    "invalid value: " ++ valueText (.integer i) ++ ", expected " ++ field.expected
  | .notInteger field v => "invalid type: " ++ valueText v ++ ", expected " ++ field.expected

/-- Why a document gives no settings. -/
inductive SettingsRefusal
  /-- The text is no document. -/
  | malformed
  | schema (fault : SchemaFault)
  | invalid (fault : SettingsFault)
  deriving Repr

/-- Why a file gives no settings. -/
inductive LoadFailure
  | system (fault : SystemFault)
  | refused (r : SettingsRefusal)
  deriving Repr

namespace Settings

/-- The settings with a field set. -/
def set (s : Settings) (w : UInt64) : SettingsField → Settings
  | .maxCounters => { s with maxCounters := w }
  | .reuseTimeoutMs => { s with reuseTimeoutMs := w }

/-- The word that a field's value gives. -/
def wordOf (field : SettingsField) : Toml.Value → Except SchemaFault UInt64
  | .integer i => if i < 0 then .error (.negative field i) else .ok i.toUInt64
  | v => .error (.notInteger field v)

/-- The settings after one more entry. -/
def addEntry (s : Settings) (e : String × Toml.Value) : Except SchemaFault Settings :=
  match SettingsField.ofKey? e.1 with
  | none => .error (.unknownKey e.1)
  | some field =>
    match wordOf field e.2 with
    | .error fault => .error fault
    | .ok w => .ok (s.set w field)

/-- The settings after further entries. -/
def addEntries (s : Settings) : Toml.Entries → Except SchemaFault Settings
  | [] => .ok s
  | e :: rest =>
    match s.addEntry e with
    | .error fault => .error fault
    | .ok s => s.addEntries rest

/-- The settings of a document's entries, if they are sound. -/
def ofEntries (entries : Toml.Entries) : Except SettingsRefusal Settings :=
  match addEntries {} entries with
  | .error fault => .error (.schema fault)
  | .ok s =>
    match s.check with
    | .error fault => .error (.invalid fault)
    | .ok () => .ok s

/-- The settings of a document. -/
def ofDocument (text : String) : Except SettingsRefusal Settings :=
  match Toml.read? text with
  | none => .error .malformed
  | some entries => ofEntries entries

/-- The document of settings; there is none if a value is beyond the integers
of documents. -/
def document? (s : Settings) : Option String :=
  Toml.wordEntries?
    [(SettingsField.maxCounters.key, s.maxCounters),
      (SettingsField.reuseTimeoutMs.key, s.reuseTimeoutMs)]

/-- The message where settings have no document. -/
def unwritable : String := "out-of-range value for u64 type"

/-- What stands where a settings file is looked for. -/
inductive FileContent
  | absent
  | directory
  | bytes (bs : List UInt8)
  deriving Repr

/-- The settings of a file. -/
def load : FileContent → Except LoadFailure Settings
  | .absent => .error (.system .notFound)
  | .directory => .error (.system .isDirectory)
  | .bytes bs =>
    match String.fromUTF8? ⟨bs.toArray⟩ with
    | none => .error (.system .invalidUtf8)
    | some text =>
      match ofDocument text with
      | .error r => .error (.refused r)
      | .ok s => .ok s

end Settings
end LockFree.Counters
