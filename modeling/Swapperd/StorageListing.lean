/-
  Swapperd/StorageListing.lean
  ============================
  **Listing and point access of the tables.**

  Abstractly a table is a partial function on 32-byte keys, and a sequence of calls
  changes it one key at a time.  The store holds exactly these records (`Refines`), and
  point access finds them all.  A listing leaves out the record with the greatest key: its
  key is the limit of the table's range, and ranges end before their limit
  (`listing_iff`).
-/
import Swapperd.Storage

namespace Swapperd.Storage

open GoLibrary

/-! ### Abstract tables -/

abbrev Contents (α : Type) := Bytes32 → Option α

structure Tables where
  pendingSwaps : Contents SwapBlob := fun _ => none
  receipts : Contents SwapReceipt := fun _ => none
  transfers : Contents TransferReceipt := fun _ => none

inductive StorageCall where
  | putSwap (blob : SwapBlob)
  | deletePendingSwap (swapID : SwapID)
  | putReceipt (receipt : SwapReceipt)
  | updateReceipt (id : SwapID) (update : SwapReceipt → SwapReceipt)
  | putTransfer (transfer : TransferReceipt)
  | updateTransferReceipt (txHash : String) (update : TransferReceipt → TransferReceipt)

namespace StorageCall

def result (J : Codecs) (db : Db) : StorageCall → Except GoError Db
  | putSwap blob => Storage.putSwap J db blob
  | deletePendingSwap swapID => Storage.deletePendingSwap db swapID
  | putReceipt receipt => Storage.putReceipt J db receipt
  | updateReceipt id update => Storage.updateReceipt J db id update
  | putTransfer transfer => Storage.putTransfer J db transfer
  | updateTransferReceipt txHash update => Storage.updateTransferReceipt J db txHash update

/-- The store after a call. A call that fails has written nothing. -/
def run (J : Codecs) (db : Db) (call : StorageCall) : Db :=
  match call.result J db with
  | .ok db' => db'
  | .error _ => db

def key : StorageCall → Except GoError Bytes
  | putSwap blob => decodeID blob.id
  | deletePendingSwap swapID => decodeID swapID
  | putReceipt receipt => decodeID receipt.id
  | updateReceipt id _ => decodeID id
  | putTransfer transfer => txHashToBytes transfer.txHash
  | updateTransferReceipt txHash _ => txHashToBytes txHash

/-- What the call does to the tables, at a key. -/
def applyAt (t : Tables) (key : Bytes32) : StorageCall → Tables
  | putSwap blob =>
      { t with pendingSwaps := Function.update t.pendingSwaps key (some (blob.withPassword "")) }
  | deletePendingSwap _ =>
      { t with pendingSwaps := Function.update t.pendingSwaps key none }
  | putReceipt receipt => { t with receipts := Function.update t.receipts key (some receipt) }
  | updateReceipt _ update =>
      { t with receipts := Function.update t.receipts key ((t.receipts key).map update) }
  | putTransfer transfer =>
      { t with transfers := Function.update t.transfers key (some transfer) }
  | updateTransferReceipt _ update =>
      { t with transfers := Function.update t.transfers key ((t.transfers key).map update) }

/-- A key of 32 bytes, if the text is one. -/
def key32 (call : StorageCall) : Option Bytes32 :=
  match call.key with
  | .ok bytes => if h : bytes.length = 32 then some ⟨bytes, h⟩ else none
  | .error _ => none

def apply (t : Tables) (call : StorageCall) : Tables :=
  match call.key32 with
  | some key => call.applyAt t key
  | none => t

/-- The records that the call writes are read as they were written. -/
def RoundTrips (J : Codecs) : StorageCall → Prop
  | putSwap blob => J.blob.RoundTrips (blob.withPassword "")
  | deletePendingSwap _ => True
  | putReceipt receipt => J.receipt.RoundTrips receipt
  | updateReceipt _ update => ∀ r, J.receipt.RoundTrips r → J.receipt.RoundTrips (update r)
  | putTransfer transfer => J.transfer.RoundTrips transfer
  | updateTransferReceipt _ update =>
      ∀ r, J.transfer.RoundTrips r → J.transfer.RoundTrips (update r)

end StorageCall

/-- The store after a sequence of calls, and what was written in it and not deleted. -/
def runAll (J : Codecs) (calls : List StorageCall) : Db :=
  calls.foldl (StorageCall.run J) OrderedStore.empty

def written (calls : List StorageCall) : Tables := calls.foldl StorageCall.apply {}

/-! ### The store holds the tables -/

def allTables : List Table := [tableSwaps, tablePendingSwaps, tableSwapReceipts, tableTransfer]

theorem name_length {table : Table} (h : table ∈ allTables) : table.name.length = 8 := by
  revert table
  decide

theorem bounds_eq {table : Table} (h : table ∈ allTables) :
    table.start = table.name ++ List.replicate 32 0 ∧
      table.limit = table.name ++ List.replicate 32 0xFF := by
  revert table
  decide

/-- Every key is the name of a table and 32 bytes. -/
def Keyed (db : Db) : Prop :=
  ∀ e ∈ db.entries, ∃ table ∈ allTables, ∃ key : Bytes32, e.1 = table.name ++ key.1

/-- The records of a table, by key. -/
def Represents {α : Type} (c : Codec α) (db : Db) (table : Table) (contents : Contents α) : Prop :=
  ∀ key : Bytes32, match contents key with
    | none => db.get (table.name ++ key.1) = none
    | some record => c.RoundTrips record ∧
        ∃ data, db.get (table.name ++ key.1) = some data ∧ c.unmarshal data = .ok record

structure Refines (J : Codecs) (db : Db) (t : Tables) : Prop where
  keyed : Keyed db
  pendingSwaps : Represents J.blob db tablePendingSwaps t.pendingSwaps
  receipts : Represents J.receipt db tableSwapReceipts t.receipts
  transfers : Represents J.transfer db tableTransfer t.transfers
  ids : ∀ key blob, t.pendingSwaps key = some blob → decodeID blob.id = .ok key.1

section Writes

variable {α : Type} {c : Codec α} {db : Db} {table other : Table} {contents : Contents α}
  {key : Bytes32} {data : Bytes} {record : α}

theorem name_append_inj (hname : table.name.length = other.name.length) {k l : Bytes32} :
    table.name ++ k.1 = other.name ++ l.1 ↔ table.name = other.name ∧ k = l := by
  constructor
  · intro h
    obtain ⟨hn, hk⟩ := List.append_inj h hname
    exact ⟨hn, Subtype.ext hk⟩
  · rintro ⟨hn, rfl⟩
    rw [hn]

theorem Keyed.put (h : Keyed db) (htable : table ∈ allTables) :
    Keyed (db.put (table.name ++ key.1) data) := by
  intro e he
  rcases OrderedStore.mem_put.mp he with rfl | ⟨-, he⟩
  · exact ⟨table, htable, key, rfl⟩
  · exact h e he

theorem Keyed.erase (h : Keyed db) (k : Bytes) : Keyed (db.erase k) :=
  fun e he => h e (OrderedStore.mem_erase.mp he).2

/-- Putting a record in a table. -/
theorem Represents.put (h : Represents c db table contents) (hmarshal : c.marshal record = .ok data)
    (hround : c.RoundTrips record) :
    Represents c (db.put (table.name ++ key.1) data) table
      (Function.update contents key (some record)) := by
  intro k
  have hread : c.unmarshal data = .ok record := by
    obtain ⟨data', hdata', hread⟩ := hround
    rwa [Except.ok.inj (hmarshal.symm.trans hdata')]
  have hkeys : table.name ++ k.1 = table.name ++ key.1 ↔ k = key := by
    rw [name_append_inj rfl]
    simp
  by_cases hk : k = key
  · rw [Function.update_apply, if_pos hk, OrderedStore.get_put, if_pos (hkeys.mpr hk)]
    exact ⟨hround, data, rfl, hread⟩
  · rw [Function.update_apply, if_neg hk, OrderedStore.get_put, if_neg (mt hkeys.mp hk)]
    exact h k

theorem Represents.erase (h : Represents c db table contents) :
    Represents c (db.erase (table.name ++ key.1)) table (Function.update contents key none) := by
  intro k
  have hkeys : table.name ++ k.1 = table.name ++ key.1 ↔ k = key := by
    rw [name_append_inj rfl]
    simp
  by_cases hk : k = key
  · rw [Function.update_apply, if_pos hk, OrderedStore.get_erase, if_pos (hkeys.mpr hk)]
  · rw [Function.update_apply, if_neg hk, OrderedStore.get_erase, if_neg (mt hkeys.mp hk)]
    exact h k

/-- A write to one table changes no other. -/
theorem Represents.of_get_eq {db' : Db} (h : Represents c db table contents)
    (hget : ∀ k : Bytes32, db'.get (table.name ++ k.1) = db.get (table.name ++ k.1)) :
    Represents c db' table contents := by
  intro k
  rw [hget]
  exact h k

theorem get_put_other (htable : table ∈ allTables) (hother : other ∈ allTables)
    (hne : other.name ≠ table.name) (k : Bytes32) :
    (db.put (table.name ++ key.1) data).get (other.name ++ k.1) = db.get (other.name ++ k.1) := by
  rw [OrderedStore.get_put, if_neg]
  intro h
  have hname : other.name.length = table.name.length := by
    rw [name_length htable, name_length hother]
  exact hne ((name_append_inj hname).mp h).1

theorem get_erase_other (htable : table ∈ allTables) (hother : other ∈ allTables)
    (hne : other.name ≠ table.name) (k : Bytes32) :
    (db.erase (table.name ++ key.1)).get (other.name ++ k.1) = db.get (other.name ++ k.1) := by
  rw [OrderedStore.get_erase, if_neg]
  intro h
  have hname : other.name.length = table.name.length := by
    rw [name_length htable, name_length hother]
  exact hne ((name_append_inj hname).mp h).1

theorem find_ok {k : Bytes} {d : Bytes} (h : db.get (table.name ++ k) = some d) :
    find db table k = .ok d := by
  unfold find
  rw [h]

theorem putRecord_ok (db : Db) (table : Table) {k : Except GoError Bytes} (hkey : k = .ok key.1)
    (hround : c.RoundTrips record) : ∃ data, c.marshal record = .ok data ∧
      putRecord c db table k record = .ok (db.put (table.name ++ key.1) data) := by
  obtain ⟨data, hdata, -⟩ := hround
  refine ⟨data, hdata, ?_⟩
  unfold putRecord
  rw [hdata, hkey]
  rfl

/-- An update reads its record, or fails where there is none. -/
theorem updateRecord_cases {k : Except GoError Bytes} {update : α → α}
    (h : Represents c db table contents) (hkey : k = .ok key.1)
    (hround : ∀ r, c.RoundTrips r → c.RoundTrips (update r)) :
    (contents key = none ∧ ∃ err, updateRecord c db table k update = .error err) ∨
      ∃ r data, contents key = some r ∧ c.RoundTrips (update r) ∧
        c.marshal (update r) = .ok data ∧
        updateRecord c db table k update = .ok (db.put (table.name ++ key.1) data) := by
  have hentry := h key
  unfold updateRecord
  cases hrecord : contents key with
  | none =>
      rw [hrecord] at hentry
      refine .inl ⟨rfl, .errorf "leveldb: not found", ?_⟩
      have hfind : find db table key.1 = .error (.errorf "leveldb: not found") := by
        unfold find
        rw [show db.get (table.name ++ key.1) = none from hentry]
      rw [hkey]
      change (find db table key.1 >>= _) = _
      rw [hfind]
      rfl
  | some r =>
      rw [hrecord] at hentry
      obtain ⟨hold, data, hdata, hread⟩ := hentry
      have hnew := hround r hold
      obtain ⟨updated, hupdated, -⟩ := hround r hold
      refine .inr ⟨r, updated, rfl, hnew, hupdated, ?_⟩
      rw [hkey]
      refine except_bind_eq_ok_iff.mpr ⟨key.1, rfl, ?_⟩
      refine except_bind_eq_ok_iff.mpr ⟨data, find_ok hdata, ?_⟩
      refine except_bind_eq_ok_iff.mpr ⟨r, hread, ?_⟩
      exact except_bind_eq_ok_iff.mpr ⟨updated, hupdated, rfl⟩

end Writes

/-! ### Steps and runs -/

section Runs

variable {J : Codecs} {db : Db} {t : Tables} {call : StorageCall} {key : Bytes32}

theorem pending_mem : tablePendingSwaps ∈ allTables := by simp [allTables]
theorem receipts_mem : tableSwapReceipts ∈ allTables := by simp [allTables]
theorem transfers_mem : tableTransfer ∈ allTables := by simp [allTables]
theorem swaps_mem : tableSwaps ∈ allTables := by simp [allTables]

theorem Refines.putSwap {blob : SwapBlob} (h : Refines J db t)
    (hkey : decodeID blob.id = .ok key.1) (hround : J.blob.RoundTrips (blob.withPassword "")) :
    ∃ db', Storage.putSwap J db blob = .ok db' ∧
      Refines J db' (StorageCall.applyAt t key (.putSwap blob)) := by
  obtain ⟨data, hdata, hread⟩ := hround
  have hround : J.blob.RoundTrips (blob.withPassword "") := ⟨data, hdata, hread⟩
  refine ⟨(db.put (tablePendingSwaps.name ++ key.1) data).put (tableSwaps.name ++ key.1) data,
    ?_, ?_⟩
  · unfold Storage.putSwap
    refine except_bind_eq_ok_iff.mpr ⟨data, hdata, ?_⟩
    exact except_bind_eq_ok_iff.mpr ⟨key.1, hkey, rfl⟩
  · refine ⟨(h.keyed.put pending_mem).put swaps_mem, ?_, ?_, ?_, ?_⟩
    · apply (h.pendingSwaps.put hdata hround).of_get_eq
      exact get_put_other swaps_mem pending_mem (by decide)
    · apply h.receipts.of_get_eq
      intro k
      rw [get_put_other swaps_mem receipts_mem (by decide),
        get_put_other pending_mem receipts_mem (by decide)]
    · apply h.transfers.of_get_eq
      intro k
      rw [get_put_other swaps_mem transfers_mem (by decide),
        get_put_other pending_mem transfers_mem (by decide)]
    · intro k stored hstored
      by_cases hk : k = key
      · simp only [StorageCall.applyAt, Function.update_apply, if_pos hk] at hstored
        cases hstored
        rw [hk]
        exact hkey
      · simp only [StorageCall.applyAt, Function.update_apply, if_neg hk] at hstored
        exact h.ids k stored hstored

theorem Refines.deletePendingSwap {swapID : SwapID} (h : Refines J db t)
    (hkey : decodeID swapID = .ok key.1) :
    ∃ db', Storage.deletePendingSwap db swapID = .ok db' ∧
      Refines J db' (StorageCall.applyAt t key (.deletePendingSwap swapID)) := by
  refine ⟨db.erase (tablePendingSwaps.name ++ key.1), ?_, ?_⟩
  · unfold Storage.deletePendingSwap
    rw [hkey]
    rfl
  · refine ⟨h.keyed.erase _, h.pendingSwaps.erase, ?_, ?_, ?_⟩
    · apply h.receipts.of_get_eq
      exact get_erase_other pending_mem receipts_mem (by decide)
    · apply h.transfers.of_get_eq
      exact get_erase_other pending_mem transfers_mem (by decide)
    · intro k stored hstored
      by_cases hk : k = key
      · simp [StorageCall.applyAt, hk] at hstored
      · simp only [StorageCall.applyAt, Function.update_apply, if_neg hk] at hstored
        exact h.ids k stored hstored

/-- A write of a receipt. -/
theorem Refines.writeReceipt {receipt : SwapReceipt} {data : Bytes} (h : Refines J db t)
    (hdata : J.receipt.marshal receipt = .ok data) (hround : J.receipt.RoundTrips receipt) :
    Refines J (db.put (tableSwapReceipts.name ++ key.1) data)
      { t with receipts := Function.update t.receipts key (some receipt) } := by
  refine ⟨h.keyed.put receipts_mem, ?_, h.receipts.put hdata hround, ?_, h.ids⟩
  · apply h.pendingSwaps.of_get_eq
    exact get_put_other receipts_mem pending_mem (by decide)
  · apply h.transfers.of_get_eq
    exact get_put_other receipts_mem transfers_mem (by decide)

/-- A write of a transfer. -/
theorem Refines.writeTransfer {transfer : TransferReceipt} {data : Bytes} (h : Refines J db t)
    (hdata : J.transfer.marshal transfer = .ok data) (hround : J.transfer.RoundTrips transfer) :
    Refines J (db.put (tableTransfer.name ++ key.1) data)
      { t with transfers := Function.update t.transfers key (some transfer) } := by
  refine ⟨h.keyed.put transfers_mem, ?_, ?_, h.transfers.put hdata hround, h.ids⟩
  · apply h.pendingSwaps.of_get_eq
    exact get_put_other transfers_mem pending_mem (by decide)
  · apply h.receipts.of_get_eq
    exact get_put_other transfers_mem receipts_mem (by decide)

theorem run_of_ok (call : StorageCall) {db' : Db} (h : call.result J db = .ok db') : call.run J db = db' := by
  unfold StorageCall.run
  rw [h]

theorem run_of_error (call : StorageCall) {err : GoError} (h : call.result J db = .error err) :
    call.run J db = db := by
  unfold StorageCall.run
  rw [h]

/-- **What one call does**: the store goes on holding the tables. -/
theorem Refines.step (h : Refines J db t) (hkey : call.key = .ok key.1)
    (hround : call.RoundTrips J) : Refines J (call.run J db) (call.applyAt t key) := by
  cases call with
  | putSwap blob =>
      obtain ⟨db', hput, hrefines⟩ := h.putSwap hkey hround
      rw [run_of_ok (.putSwap blob) hput]
      exact hrefines
  | deletePendingSwap swapID =>
      obtain ⟨db', hdelete, hrefines⟩ := h.deletePendingSwap hkey
      rw [run_of_ok (.deletePendingSwap swapID) hdelete]
      exact hrefines
  | putReceipt receipt =>
      obtain ⟨data, hdata, hput⟩ := putRecord_ok db tableSwapReceipts hkey hround
      rw [run_of_ok (.putReceipt receipt) hput]
      exact h.writeReceipt hdata hround
  | updateReceipt id update =>
      unfold StorageCall.applyAt
      rcases updateRecord_cases h.receipts hkey hround with
        ⟨hnone, err, herr⟩ | ⟨r, data, hsome, hnew, hdata, hput⟩
      · rw [run_of_error (.updateReceipt id update) herr]
        dsimp only
        rw [hnone, Option.map_none, ← hnone, Function.update_eq_self]
        exact h
      · rw [run_of_ok (.updateReceipt id update) hput]
        dsimp only
        rw [hsome, Option.map_some]
        exact h.writeReceipt hdata hnew
  | putTransfer transfer =>
      obtain ⟨data, hdata, hput⟩ := putRecord_ok db tableTransfer hkey hround
      rw [run_of_ok (.putTransfer transfer) hput]
      exact h.writeTransfer hdata hround
  | updateTransferReceipt txHash update =>
      unfold StorageCall.applyAt
      rcases updateRecord_cases h.transfers hkey hround with
        ⟨hnone, err, herr⟩ | ⟨r, data, hsome, hnew, hdata, hput⟩
      · rw [run_of_error (.updateTransferReceipt txHash update) herr]
        dsimp only
        rw [hnone, Option.map_none, ← hnone, Function.update_eq_self]
        exact h
      · rw [run_of_ok (.updateTransferReceipt txHash update) hput]
        dsimp only
        rw [hsome, Option.map_some]
        exact h.writeTransfer hdata hnew

/-- The key of a call with a key of 32 bytes. -/
theorem key32_eq_some_iff {call : StorageCall} {key : Bytes32} :
    call.key32 = some key ↔ call.key = .ok key.1 := by
  unfold StorageCall.key32
  cases hkey : call.key with
  | error err => simp
  | ok bytes =>
      by_cases hlen : bytes.length = 32
      · simp [hlen, Subtype.ext_iff]
      · simp only [dif_neg hlen]
        constructor
        · intro h
          cases h
        · intro h
          cases h
          exact absurd key.2 hlen

theorem refines_empty : Refines J OrderedStore.empty {} := by
  refine ⟨?_, fun _ => rfl, fun _ => rfl, fun _ => rfl, ?_⟩
  · intro e he
    cases he
  · intro key blob h
    cases h

/-- **The store holds what was written**, after every sequence of calls. -/
theorem refines_run (J : Codecs) (calls : List StorageCall)
    (hkeys : ∀ call ∈ calls, ∃ key : Bytes32, call.key = .ok key.1)
    (hround : ∀ call ∈ calls, call.RoundTrips J) :
    Refines J (runAll J calls) (written calls) := by
  induction calls using List.reverseRecOn with
  | nil => exact refines_empty
  | append_singleton calls call ih =>
      have hold := ih (fun c hc => hkeys c (by simp [hc])) (fun c hc => hround c (by simp [hc]))
      obtain ⟨key, hkey⟩ := hkeys call (by simp)
      have hstep := hold.step hkey (hround call (by simp))
      unfold runAll written at hstep ⊢
      rw [List.foldl_append, List.foldl_append]
      have happly : StorageCall.apply (calls.foldl StorageCall.apply {}) call =
          call.applyAt (calls.foldl StorageCall.apply {}) key := by
        unfold StorageCall.apply
        rw [key32_eq_some_iff.mpr hkey]
      simpa [happly] using hstep

end Runs

/-! ### Listings -/

/-- The greatest key. -/
def lastKey : Bytes32 := ⟨List.replicate 32 0xFF, List.length_replicate⟩

/-- A listing has one record for each key, and reading it does not fail. -/
def ListsAll {α : Type} (listing : List α × Option GoError) (contents : Contents α) : Prop :=
  ∃ keys : List Bytes32, keys.Nodup ∧ (∀ key, key ∈ keys ↔ (contents key).isSome) ∧
    listing = (keys.filterMap contents, none)

section Listings

variable {α : Type} {c : Codec α} {db : Db} {table : Table} {contents : Contents α}

theorem filterMap_length (contents : Contents α) {keys : List Bytes32} (h : ∀ key ∈ keys, (contents key).isSome) :
    (keys.filterMap contents).length = keys.length := by
  induction keys with
  | nil => rfl
  | cons key keys ih =>
      obtain ⟨record, hrecord⟩ := Option.isSome_iff_exists.mp (h key List.mem_cons_self)
      rw [List.filterMap_cons_some hrecord, List.length_cons, List.length_cons,
        ih fun k hk => h k (List.mem_cons_of_mem _ hk)]

/-- What is read from a list of entries of a table. -/
theorem unmarshalAll_eq (c : Codec α) (table : Table) (contents : Contents α) {entries : List (Bytes × Bytes)} (hnodup : (entries.map Prod.fst).Nodup)
    (hread : ∀ e ∈ entries, ∃ key : Bytes32, e.1 = table.name ++ key.1 ∧
      ∃ record, contents key = some record ∧ c.unmarshal e.2 = .ok record) :
    ∃ keys : List Bytes32, keys.Nodup ∧
      (∀ key, key ∈ keys ↔ ∃ data, (table.name ++ key.1, data) ∈ entries) ∧
      unmarshalAll c (entries.map Prod.snd) = (keys.filterMap contents, none) := by
  induction entries with
  | nil => exact ⟨[], List.nodup_nil, by simp, rfl⟩
  | cons e entries ih =>
      obtain ⟨hnot, hnodup⟩ := List.nodup_cons.mp hnodup
      obtain ⟨keys, hkeys, hmem, hall⟩ :=
        ih hnodup fun e' he' => hread e' (List.mem_cons_of_mem _ he')
      obtain ⟨key, hkey, record, hrecord, hdata⟩ := hread e List.mem_cons_self
      refine ⟨key :: keys, ?_, ?_, ?_⟩
      · apply List.nodup_cons.mpr
        refine ⟨?_, hkeys⟩
        intro hin
        obtain ⟨data, hdata⟩ := (hmem key).mp hin
        rw [hkey] at hnot
        exact hnot (List.mem_map_of_mem hdata)
      · intro k
        rw [List.mem_cons, hmem]
        constructor
        · rintro (rfl | ⟨data, hdata⟩)
          · exact ⟨e.2, by rw [← hkey]; exact List.mem_cons_self⟩
          · exact ⟨data, List.mem_cons_of_mem _ hdata⟩
        · rintro ⟨data, hdata⟩
          rcases List.mem_cons.mp hdata with rfl | hdata
          · left
            exact ((name_append_inj rfl).mp hkey).2
          · exact .inr ⟨data, hdata⟩
      · rw [List.map_cons, unmarshalAll, hdata, List.filterMap_cons_some hrecord, hall]

/-- A listing has every record but that with the greatest key. -/
theorem listRecords_eq (hkeyed : Keyed db) (htable : table ∈ allTables)
    (h : Represents c db table contents) :
    ∃ keys : List Bytes32, keys.Nodup ∧
      (∀ key, key ∈ keys ↔ key ≠ lastKey ∧ (contents key).isSome) ∧
      listRecords c db table = (keys.filterMap contents, none) := by
  have hmin : ∀ a : UInt8, 0 ≤ a := fun a => UInt8.le_iff_toNat_le.mpr (Nat.zero_le _)
  have hmax : ∀ a : UInt8, a ≤ 0xFF :=
    fun a => UInt8.le_iff_toNat_le.mpr (Nat.le_of_lt_succ a.toNat_lt)
  -- an entry of the range is the record of a key of the table
  have hrange : ∀ {other : Table} {key : Bytes32} {data : Bytes}, other ∈ allTables →
      ((other.name ++ key.1, data) ∈ db.range table.start table.limit ↔
        other.name = table.name ∧ key ≠ lastKey ∧ db.get (table.name ++ key.1) = some data) := by
    intro other key data hother
    have hlen : other.name.length = table.name.length := by
      rw [name_length hother, name_length htable]
    have hbounds := OrderedStore.mem_range_table hmin hmax (s := db) (k := key.1) (v := data) hlen
    rw [key.2] at hbounds
    rw [(bounds_eq htable).1, (bounds_eq htable).2, hbounds]
    simp [lastKey, Subtype.ext_iff]
  have hget : ∀ {key : Bytes32} {data : Bytes}, db.get (table.name ++ key.1) = some data →
      ∃ record, contents key = some record ∧ c.unmarshal data = .ok record := by
    intro key data hdata
    have hentry := h key
    cases hrecord : contents key with
    | none =>
        rw [hrecord] at hentry
        rw [show db.get (table.name ++ key.1) = none from hentry] at hdata
        cases hdata
    | some record =>
        rw [hrecord] at hentry
        obtain ⟨-, data', hdata', hread⟩ := hentry
        rw [Option.some.inj (hdata.symm.trans hdata')]
        exact ⟨record, rfl, hread⟩
  obtain ⟨keys, hnodup, hmem, hall⟩ := unmarshalAll_eq c table contents
    (db.range_keys_nodup table.start table.limit) (by
      rintro ⟨bytes, data⟩ he
      obtain ⟨other, hother, key, rfl⟩ :=
        hkeyed _ (OrderedStore.get_eq_some_iff.mp (OrderedStore.mem_range.mp he).1)
      obtain ⟨hname, -, hdata⟩ := (hrange hother).mp he
      exact ⟨key, by rw [hname], hget hdata⟩)
  refine ⟨keys, hnodup, ?_, hall⟩
  intro key
  rw [hmem]
  constructor
  · rintro ⟨data, hdata⟩
    obtain ⟨-, hne, hdata⟩ := (hrange htable).mp hdata
    obtain ⟨record, hrecord, -⟩ := hget hdata
    exact ⟨hne, by rw [hrecord]; rfl⟩
  · rintro ⟨hne, hsome⟩
    obtain ⟨record, hrecord⟩ := Option.isSome_iff_exists.mp hsome
    have hentry := h key
    rw [hrecord] at hentry
    obtain ⟨-, data, hdata, -⟩ := hentry
    exact ⟨data, (hrange htable).mpr ⟨rfl, hne, hdata⟩⟩

/-- A listing is complete exactly when there is no record with the greatest key. -/
theorem listsAll_iff (hkeyed : Keyed db) (htable : table ∈ allTables)
    (h : Represents c db table contents) :
    ListsAll (listRecords c db table) contents ↔ contents lastKey = none := by
  obtain ⟨keys, hnodup, hmem, hlist⟩ := listRecords_eq hkeyed htable h
  constructor
  · rintro ⟨all, hall, hallmem, heq⟩
    by_contra hlast
    have hlastmem : lastKey ∈ all := (hallmem _).mpr (Option.isSome_iff_ne_none.mpr hlast)
    -- the listing is one record short
    have hlength : keys.length = all.length := by
      rw [← filterMap_length contents fun k hk => ((hmem k).mp hk).2,
        ← filterMap_length contents fun k hk => (hallmem k).mp hk]
      rw [hlist] at heq
      rw [(Prod.mk.inj heq).1]
    have hsubset : keys ⊆ all.erase lastKey := by
      intro k hk
      obtain ⟨hne, hsome⟩ := (hmem k).mp hk
      exact (List.mem_erase_of_ne hne).mpr ((hallmem k).mpr hsome)
    have hle := (List.subperm_of_subset hnodup hsubset).length_le
    rw [List.length_erase_of_mem hlastmem] at hle
    have hpos := List.length_pos_of_mem hlastmem
    omega
  · intro hlast
    refine ⟨keys, hnodup, ?_, hlist⟩
    intro key
    rw [hmem]
    constructor
    · exact fun hk => hk.2
    · intro hsome
      refine ⟨?_, hsome⟩
      rintro rfl
      rw [hlast] at hsome
      cases hsome

end Listings

/-- Listing and point access agree after a sequence of calls. -/
structure Agrees (J : Codecs) (calls : List StorageCall) : Prop where
  pendingSwaps : ListsAll (pendingSwaps J (runAll J calls)) (written calls).pendingSwaps
  receipts : ListsAll (receipts J (runAll J calls)) (written calls).receipts
  transfers : ListsAll (transfers J (runAll J calls)) (written calls).transfers
  pendingSwap : ∀ blob, blob ∈ (Storage.pendingSwaps J (runAll J calls)).1 ↔
    pendingSwap J (runAll J calls) blob.id = .ok blob

section Agreement

variable {J : Codecs} {db : Db} {t : Tables}

/-- Point access finds what was written. -/
theorem pendingSwap_ok_iff (h : Refines J db t) {id : SwapID} {blob : SwapBlob} :
    pendingSwap J db id = .ok blob ↔
      ∃ key : Bytes32, decodeID id = .ok key.1 ∧ t.pendingSwaps key = some blob := by
  unfold pendingSwap getRecord
  constructor
  · intro hget
    obtain ⟨bytes, hbytes, hget⟩ := except_bind_eq_ok_iff.mp hget
    obtain ⟨data, hdata, hread⟩ := except_bind_eq_ok_iff.mp hget
    have hentry : db.get (tablePendingSwaps.name ++ bytes) = some data := by
      unfold find at hdata
      split at hdata
      · cases hdata
      · rename_i hentry
        cases hdata
        exact hentry
    obtain ⟨table, htable, key, hkey⟩ := h.keyed _ (OrderedStore.get_eq_some_iff.mp hentry)
    obtain ⟨-, rfl⟩ := List.append_inj hkey
      (by rw [name_length pending_mem, name_length htable])
    refine ⟨key, hbytes, ?_⟩
    have hrecord := h.pendingSwaps key
    cases hstored : t.pendingSwaps key with
    | none =>
        rw [hstored] at hrecord
        rw [show db.get _ = none from hrecord] at hentry
        cases hentry
    | some stored =>
        rw [hstored] at hrecord
        obtain ⟨-, data', hdata', hread'⟩ := hrecord
        obtain rfl : data = data' := Option.some.inj (hentry.symm.trans hdata')
        rw [Except.ok.inj (hread.symm.trans hread')]
  · rintro ⟨key, hkey, hstored⟩
    have hrecord := h.pendingSwaps key
    rw [hstored] at hrecord
    obtain ⟨-, data, hdata, hread⟩ := hrecord
    refine except_bind_eq_ok_iff.mpr ⟨key.1, hkey, ?_⟩
    exact except_bind_eq_ok_iff.mpr ⟨data, find_ok hdata, hread⟩

end Agreement

/-- **Listing agrees with point access exactly while no record with the greatest key is in
    a table.** -/
theorem agrees_iff (J : Codecs) (calls : List StorageCall)
    (hkeys : ∀ call ∈ calls, ∃ key : Bytes32, call.key = .ok key.1)
    (hround : ∀ call ∈ calls, call.RoundTrips J) :
    Agrees J calls ↔ (written calls).pendingSwaps lastKey = none ∧
      (written calls).receipts lastKey = none ∧ (written calls).transfers lastKey = none := by
  have h := refines_run J calls hkeys hround
  constructor
  · intro hagrees
    exact ⟨(listsAll_iff h.keyed pending_mem h.pendingSwaps).mp hagrees.pendingSwaps,
      (listsAll_iff h.keyed receipts_mem h.receipts).mp hagrees.receipts,
      (listsAll_iff h.keyed transfers_mem h.transfers).mp hagrees.transfers⟩
  · rintro ⟨hpending, hreceipts, htransfers⟩
    have hlists := (listsAll_iff h.keyed pending_mem h.pendingSwaps).mpr hpending
    refine ⟨hlists, (listsAll_iff h.keyed receipts_mem h.receipts).mpr hreceipts,
      (listsAll_iff h.keyed transfers_mem h.transfers).mpr htransfers, ?_⟩
    intro blob
    obtain ⟨keys, -, hmem, hlist⟩ := hlists
    have hblobs : (pendingSwaps J (runAll J calls)).1 =
        keys.filterMap (written calls).pendingSwaps := congrArg Prod.fst hlist
    rw [hblobs, List.mem_filterMap, pendingSwap_ok_iff h]
    constructor
    · rintro ⟨key, -, hstored⟩
      exact ⟨key, h.ids key blob hstored, hstored⟩
    · rintro ⟨key, -, hstored⟩
      exact ⟨key, (hmem key).mpr (by rw [hstored]; rfl), hstored⟩

/-- A swap with the greatest ID, and its JSON. -/
def lastBlob : SwapBlob where
  id := "//////////////////////////////////////////8="
  sendToken := "BTC"
  receiveToken := "ETH"
  sendAmount := "20000"
  receiveAmount := "5000000000000000"
  timeLock := 1550000000

def lastText : String :=
  "\x7b\"id\":\"//////////////////////////////////////////8=\",\"sendToken\":\"BTC\"," ++
  "\"receiveToken\":\"ETH\",\"sendAmount\":\"20000\",\"receiveAmount\":\"5000000000000000\"," ++
  "\"sendTo\":\"\",\"receiveFrom\":\"\",\"timeLock\":1550000000,\"secretHash\":\"\"," ++
  "\"shouldInitiateFirst\":false\x7d"

/-- The encoding of that swap. -/
def lastCodecs : Codecs where
  blob := {
    marshal := fun blob =>
      if blob = lastBlob then .ok (stringBytes lastText) else .error (.errorf "not encoded here")
    unmarshal := fun data =>
      if data = stringBytes lastText then .ok lastBlob else .error (.errorf "not encoded here") }
  receipt := ⟨fun _ => .error (.errorf "not encoded here"), fun _ => .error (.errorf "not encoded here")⟩
  transfer := ⟨fun _ => .error (.errorf "not encoded here"), fun _ => .error (.errorf "not encoded here")⟩

theorem lastBlob_key : (StorageCall.putSwap lastBlob).key = .ok lastKey.1 := by
  decide +kernel

theorem lastBlob_roundTrips : lastCodecs.blob.RoundTrips lastBlob := by
  refine ⟨stringBytes lastText, ?_, ?_⟩
  · simp [lastCodecs]
  · simp [lastCodecs]

theorem agrees_iff_lastBlob :
    Agrees lastCodecs [.putSwap lastBlob] ↔
      (written [.putSwap lastBlob]).pendingSwaps lastKey = none ∧
        (written [.putSwap lastBlob]).receipts lastKey = none ∧
        (written [.putSwap lastBlob]).transfers lastKey = none := by
  refine agrees_iff lastCodecs [.putSwap lastBlob] ?_ ?_
  · intro call hcall
    rw [List.mem_singleton.mp hcall]
    exact ⟨lastKey, lastBlob_key⟩
  · intro call hcall
    rw [List.mem_singleton.mp hcall]
    exact lastBlob_roundTrips

/-- The swap is stored and found, and not listed. -/
theorem lastBlob_not_listed :
    pendingSwap lastCodecs (runAll lastCodecs [.putSwap lastBlob]) lastBlob.id = .ok lastBlob ∧
      (pendingSwaps lastCodecs (runAll lastCodecs [.putSwap lastBlob])).1 = [] ∧
      ¬ Agrees lastCodecs [.putSwap lastBlob] := by
  have hfound : pendingSwap lastCodecs (runAll lastCodecs [.putSwap lastBlob]) lastBlob.id =
      .ok lastBlob := by decide +kernel
  have hlist : (pendingSwaps lastCodecs (runAll lastCodecs [.putSwap lastBlob])).1 = [] := by
    decide +kernel
  refine ⟨hfound, hlist, ?_⟩
  intro h
  have hmem := (h.pendingSwap lastBlob).mpr hfound
  rw [hlist] at hmem
  cases hmem

end Swapperd.Storage
