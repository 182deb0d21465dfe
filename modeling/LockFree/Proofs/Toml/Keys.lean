/-
# The keys of a document differ

However the tables of a document come about, by plain keys, by keys with dots or
by headers, no two entries of a table have the same key: an entry is only added
under a key that is not there, and one that is there is changed at its place or
taken away first. Of the document's own table this is `read?_keys_nodup`, the
keys of its entries in the order in which they stand.

Key definitions: `Table.Distinct`, `Table.Keeps`.
Key theorems: `Table.descend_keeps`, `ofStatements?_keys_nodup`,
`read?_keys_nodup`.
-/
import LockFree.Toml.Document
import Mathlib.Data.List.Nodup

namespace LockFree.Toml

namespace Table

variable {t u : Table} {key : String}

/-- No two entries of the table have the same key. -/
def Distinct (t : Table) : Prop := (t.entries.map Prod.fst).Nodup

/-- What `f` makes of a table whose keys differ is such a table. -/
def Keeps (f : Table → Option Table) : Prop :=
  ∀ t u, t.Distinct → f t = some u → u.Distinct

theorem empty_distinct (origin : Origin) : (empty origin).Distinct := List.nodup_nil

theorem not_mem_keys (hnone : t.find? key = none) : key ∉ t.entries.map Prod.fst := by
  intro hmem
  obtain ⟨e, he, rfl⟩ := List.mem_map.mp hmem
  exact bne_iff_ne.mp (List.lookup_eq_none_iff.mp hnone e he) rfl

theorem push_distinct (ht : t.Distinct) (hkey : key ∉ t.entries.map Prod.fst) (item : Item) :
    (t.push key item).Distinct := by
  rw [Distinct, push, List.map_append]
  refine ht.append (List.nodup_singleton key) fun k hk hk' => ?_
  obtain rfl : k = key := List.mem_singleton.mp hk'
  exact hkey hk

theorem replace_distinct (ht : t.Distinct) (key : String) (item : Item) :
    (t.replace key item).Distinct := by
  have hkeys : (t.replace key item).entries.map Prod.fst = t.entries.map Prod.fst := by
    rw [replace, List.map_map]
    refine List.map_congr_left fun e _ => ?_
    by_cases he : e.1 = key
    · simp [he]
    · simp [he]
  rw [Distinct, hkeys]
  exact ht

theorem erase_distinct (ht : t.Distinct) (key : String) : (t.erase key).Distinct :=
  List.Nodup.sublist (List.filter_sublist.map Prod.fst) ht

theorem not_mem_keys_erase (t : Table) (key : String) :
    key ∉ (t.erase key).entries.map Prod.fst := by
  intro hmem
  obtain ⟨e, he, hkey⟩ := List.mem_map.mp hmem
  simpa [erase, hkey] using (List.mem_filter.mp he).2

/-! ### Work on tables -/

/-- Below the first part of a path it is another table that changes. -/
theorem descend_keeps {f : Table → Option Table} (hf : Keeps f) (made : Origin)
    (path : List String) : Keeps (descend made f path) := by
  intro t u ht hu
  cases path with
  | nil => exact hf t u ht hu
  | cons key path =>
    rw [descend] at hu
    split at hu
    · rename_i hnone
      obtain ⟨v, -, rfl⟩ := Option.map_eq_some_iff.mp hu
      exact push_distinct ht (not_mem_keys hnone) _
    · cases hu
    · obtain ⟨tables, -, rfl⟩ := Option.map_eq_some_iff.mp hu
      exact replace_distinct ht key _
    · split at hu
      · cases hu
      · obtain ⟨v, -, rfl⟩ := Option.map_eq_some_iff.mp hu
        exact replace_distinct ht key _

theorem define_keeps (plain : Bool) (key : String) (v : Value) : Keeps (define plain key v) := by
  intro t u ht hu
  unfold define at hu
  split at hu
  · cases hu
  · split at hu
    · cases hu
    · rename_i hnone
      obtain rfl := Option.some.inj hu
      exact push_distinct ht (not_mem_keys hnone) _

theorem assignAll_keeps (bs : List (List String × String × Value)) :
    Keeps fun t => t.assignAll bs := by
  intro t u ht hu
  induction bs generalizing t with
  | nil => exact Option.some.inj hu ▸ ht
  | cons b bs ih =>
    obtain ⟨path, key, v⟩ := b
    obtain ⟨s, hs, hu⟩ := Option.bind_eq_some_iff.mp hu
    exact ih s (descend_keeps (define_keeps _ key v) _ path t s ht hs) hu

theorem addSection_keeps (path : List String) (key : String) (body : Table → Option Table) :
    Keeps (addSection path key body) := by
  refine descend_keeps (fun t u ht hu => ?_) _ path
  split at hu
  · rename_i hnone
    obtain ⟨v, -, rfl⟩ := Option.map_eq_some_iff.mp hu
    exact push_distinct ht (not_mem_keys hnone) _
  · obtain ⟨v, -, rfl⟩ := Option.map_eq_some_iff.mp hu
    exact push_distinct (erase_distinct ht key) (not_mem_keys_erase t key) _
  · cases hu

theorem addRow_keeps (path : List String) (key : String) (body : Table → Option Table) :
    Keeps (addRow path key body) := by
  refine descend_keeps (fun t u ht hu => ?_) _ path
  split at hu
  · rename_i hnone
    obtain ⟨v, -, rfl⟩ := Option.map_eq_some_iff.mp hu
    exact push_distinct ht (not_mem_keys hnone) _
  · obtain ⟨v, -, rfl⟩ := Option.map_eq_some_iff.mp hu
    exact replace_distinct ht key _
  · cases hu

end Table

/-! ### Documents -/

theorem addSections_keeps (n : Nat) (ss : List Statement) : Table.Keeps (addSections n ss) := by
  intro t u ht hu
  induction n generalizing ss t with
  | zero =>
    cases ss with
    | nil => exact Option.some.inj hu ▸ ht
    | cons s rest => cases hu
  | succ n ih =>
    cases ss with
    | nil => exact Option.some.inj hu ▸ ht
    | cons s rest =>
      cases s with
      | assign k v => cases hu
      | header k =>
        obtain ⟨s, hs, hu⟩ := Option.bind_eq_some_iff.mp hu
        exact ih _ s (Table.addSection_keeps _ _ _ t s ht hs) hu
      | rowHeader k =>
        obtain ⟨s, hs, hu⟩ := Option.bind_eq_some_iff.mp hu
        exact ih _ s (Table.addRow_keeps _ _ _ t s ht hs) hu

theorem map_fst_sealEntries (entries : List (String × Item)) :
    (sealEntries entries).map Prod.fst = entries.map Prod.fst := by
  induction entries with
  | nil => rfl
  | cons e rest ih => rw [sealEntries, List.map_cons, List.map_cons, ih]

theorem ofStatements?_keys_nodup {ss : List Statement} {entries : Entries}
    (hread : ofStatements? ss = some entries) : (entries.map Prod.fst).Nodup := by
  simp only [ofStatements?] at hread
  split at hread
  · cases hread
  · rename_i t ht
    obtain ⟨u, hu, rfl⟩ := Option.map_eq_some_iff.mp hread
    rw [map_fst_sealEntries]
    have hfirst : t.Distinct := Table.assignAll_keeps _ _ t (Table.empty_distinct .header) ht
    exact addSections_keeps _ _ t u hfirst hu

/-- The entries of a document have keys of their own. -/
theorem read?_keys_nodup {text : String} {entries : Entries} (hread : read? text = some entries) :
    (entries.map Prod.fst).Nodup := by
  obtain ⟨ss, -, hss⟩ := Option.bind_eq_some_iff.mp hread
  exact ofStatements?_keys_nodup hss

end LockFree.Toml
