/-
  Swapperd/StoredTables.lean
  ==========================
  **The tables that the tasks see, read from the database.**

  The tasks know a table by the IDs of its records; the database has bytes under bytes.
  `tableOf` decodes the one from the other.  A write to the database is the same write to
  the table (`tableOf_insert`, `tableOf_erase`), when IDs are the base64 of 32 bytes: two
  texts that decode to one key would be two swaps to the tasks, and one to the database.
-/
import Swapperd.StoredRecords
import Swapperd.RecordedCosts
import Swapperd.Statuses

namespace Swapperd.Storage

open GoLibrary RetryTask
open JsonText hiding isSpace

/-! ### IDs -/

/-- The ID is the base64 of 32 bytes. -/
def IsID (id : SwapID) : Prop := ∃ key : Bytes32, id = encodeToString key.1

theorem encodeToString_injective : Function.Injective encodeToString := by
  intro bytes bytes' h
  have hdecode := congrArg decodeString h
  rw [decodeString_encodeToString, decodeString_encodeToString] at hdecode
  exact Option.some.inj hdecode

theorem encodeToString_key {key key' : Bytes32} :
    encodeToString key.1 = encodeToString key'.1 ↔ key = key' := by
  rw [encodeToString_injective.eq_iff, Subtype.ext_iff]

theorem isID_iff {id : SwapID} : IsID id ↔
    (decodeString id).any (fun bytes => bytes.length = 32 && encodeToString bytes = id) = true := by
  rw [Option.any_eq_true]
  constructor
  · rintro ⟨key, rfl⟩
    exact ⟨key.1, decodeString_encodeToString key.1, by simp [key.2]⟩
  · rintro ⟨bytes, -, h⟩
    obtain ⟨hlength, hid⟩ : bytes.length = 32 ∧ encodeToString bytes = id := by simpa using h
    exact ⟨⟨bytes, hlength⟩, hid.symm⟩

instance (id : SwapID) : Decidable (IsID id) := decidable_of_iff _ isID_iff.symm

/-! ### Decoding a table -/

section Tables

variable {α : Type} {c : Codec α} {db db' : Db} {table : Table} {contents contents' : Contents α}
  {id : SwapID} {key : Bytes32} {record : α}

/-- The record of an entry, if it is one of the table. -/
def entryOf (c : Codec α) (table : Table) (e : Bytes × Bytes) :
    Option (Sigma fun _ : SwapID => α) :=
  if e.1.take 8 = table.name then
    (c.unmarshal e.2).toOption.map fun record => ⟨encodeToString (e.1.drop 8), record⟩
  else none

/-- The records of a table by their IDs. -/
def tableOf (c : Codec α) (db : Db) (table : Table) : Store SwapID α :=
  (db.entries.filterMap (entryOf c table)).toFinmap

theorem entryOf_eq_some_iff {e : Bytes × Bytes} : entryOf c table e = some ⟨id, record⟩ ↔
    e.1.take 8 = table.name ∧ c.unmarshal e.2 = .ok record ∧ id = encodeToString (e.1.drop 8) := by
  unfold entryOf
  split_ifs with hname
  · cases h : c.unmarshal e.2 with
    | error err => simp [Except.toOption]
    | ok record' =>
        simp only [Except.toOption, Option.map_some, Option.some.injEq, Sigma.mk.injEq, heq_eq_eq,
          Except.ok.injEq, hname, true_and]
        grind
  · simp [hname]

theorem nodupKeys_entries (c : Codec α) (db : Db) (table : Table) :
    (db.entries.filterMap (entryOf c table)).NodupKeys := by
  rw [List.nodupKeys_iff_pairwise, List.pairwise_filterMap]
  refine db.sorted.imp fun {e e'} hlt s hs s' hs' heq => ?_
  obtain ⟨hname, -, hid⟩ := entryOf_eq_some_iff.mp hs
  obtain ⟨hname', -, hid'⟩ := entryOf_eq_some_iff.mp hs'
  have hrest : e.1.drop 8 = e'.1.drop 8 :=
    encodeToString_injective (hid.symm.trans (heq.trans hid'))
  have hkey : e.1 = e'.1 := by
    rw [← List.take_append_drop 8 e.1, ← List.take_append_drop 8 e'.1, hname, hname', hrest]
  exact hlt.ne hkey

/-- What is in the table is an entry of the database. -/
theorem lookup_tableOf (hlength : table.name.length = 8) :
    (tableOf c db table).lookup id = some record ↔
      ∃ rest data, db.get (table.name ++ rest) = some data ∧ c.unmarshal data = .ok record ∧
        id = encodeToString rest := by
  rw [tableOf, Finmap.dlookup_list_toFinmap, ← Option.mem_def,
    List.mem_dlookup_iff (nodupKeys_entries c db table), List.mem_filterMap]
  constructor
  · rintro ⟨⟨bytes, data⟩, hmem, he⟩
    obtain ⟨hname, hread, hid⟩ := entryOf_eq_some_iff.mp he
    refine ⟨bytes.drop 8, data, ?_, hread, hid⟩
    rw [← hname, List.take_append_drop]
    exact OrderedStore.get_eq_some_iff.mpr hmem
  · rintro ⟨rest, data, hget, hread, hid⟩
    refine ⟨_, OrderedStore.get_eq_some_iff.mp hget, entryOf_eq_some_iff.mpr ?_⟩
    have htake : (table.name ++ rest).take 8 = table.name := List.take_left' hlength
    have hdrop : (table.name ++ rest).drop 8 = rest := List.drop_left' hlength
    exact ⟨htake, hread, by rw [hdrop]; exact hid⟩

/-- The table that the database represents. -/
theorem lookup_represented (hkeyed : Keyed db) (htable : table ∈ allTables)
    (h : Represents c db table contents) :
    (tableOf c db table).lookup id = some record ↔
      ∃ key : Bytes32, id = encodeToString key.1 ∧ contents key = some record := by
  rw [lookup_tableOf (name_length htable)]
  constructor
  · rintro ⟨rest, data, hget, hread, rfl⟩
    obtain ⟨other, hother, key, hkey⟩ := hkeyed _ (OrderedStore.get_eq_some_iff.mp hget)
    obtain ⟨-, rfl⟩ := List.append_inj hkey (by rw [name_length htable, name_length hother])
    refine ⟨key, rfl, ?_⟩
    have hentry := h key
    cases hrecord : contents key with
    | none =>
        rw [hrecord] at hentry
        rw [show db.get (table.name ++ key.1) = none from hentry] at hget
        cases hget
    | some stored =>
        rw [hrecord] at hentry
        obtain ⟨-, data', hdata', hread'⟩ := hentry
        obtain rfl : data = data' := Option.some.inj (hget.symm.trans hdata')
        rw [Except.ok.inj (hread.symm.trans hread')]
  · rintro ⟨key, rfl, hrecord⟩
    have hentry := h key
    rw [hrecord] at hentry
    obtain ⟨-, data, hdata, hread⟩ := hentry
    exact ⟨key.1, data, hdata, hread, rfl⟩

section Writes

variable (hkeyed : Keyed db) (hkeyed' : Keyed db') (htable : table ∈ allTables)
include hkeyed hkeyed' htable

theorem tableOf_congr (h : Represents c db table contents) (h' : Represents c db' table contents) :
    tableOf c db' table = tableOf c db table := by
  refine Finmap.ext_lookup fun id => Option.ext fun record => ?_
  rw [lookup_represented hkeyed' htable h', lookup_represented hkeyed htable h]

theorem tableOf_insert (h : Represents c db table contents)
    (h' : Represents c db' table (Function.update contents key (some record))) :
    tableOf c db' table = (tableOf c db table).insert (encodeToString key.1) record := by
  refine Finmap.ext_lookup fun id => Option.ext fun r => ?_
  rw [lookup_represented hkeyed' htable h']
  by_cases hid : id = encodeToString key.1
  · subst hid
    simp [encodeToString_key]
  · rw [Finmap.lookup_insert_of_ne _ hid, lookup_represented hkeyed htable h]
    refine exists_congr fun k => and_congr_right fun hk => ?_
    have hne : k ≠ key := fun heq => hid (heq ▸ hk)
    rw [Function.update_of_ne hne]

theorem tableOf_erase (h : Represents c db table contents)
    (h' : Represents c db' table (Function.update contents key none)) :
    tableOf c db' table = (tableOf c db table).erase (encodeToString key.1) := by
  refine Finmap.ext_lookup fun id => Option.ext fun r => ?_
  rw [lookup_represented hkeyed' htable h']
  by_cases hid : id = encodeToString key.1
  · subst hid
    simp [encodeToString_key]
  · rw [Finmap.lookup_erase_ne hid, lookup_represented hkeyed htable h]
    refine exists_congr fun k => and_congr_right fun hk => ?_
    have hne : k ≠ key := fun heq => hid (heq ▸ hk)
    rw [Function.update_of_ne hne]

end Writes

end Tables

end Swapperd.Storage
