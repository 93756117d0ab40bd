/-
  Swapperd/StoredRecords.lean
  ===========================
  **The storage with the JSON that it really holds.**

  The tables of `StorageListing` are about any codec whose records are read as they were
  written.  With `jsonCodecs` this is so up to the form of raw messages, for every record
  that Go can hold.

  `json_refines` — the store holds what was written, after every sequence of calls.
  `json_answers` — no record stops a listing.
-/
import Swapperd.RecordCodecs

namespace Swapperd.Storage

open GoLibrary
open JsonText hiding isSpace

/-! ### Calls and the form of what they write -/

namespace StorageCall

/-- What the call writes is what Go can hold, with raw messages that `json.Marshal`
    accepts. -/
def Fits : StorageCall → Prop
  | putSwap blob => FitBlob blob
  | deletePendingSwap _ => True
  | putReceipt receipt => FitReceipt receipt
  | updateReceipt _ update => ∀ r, FitReceipt r → FitReceipt (update r)
  | putTransfer transfer => FitTransfer transfer
  | updateTransferReceipt _ update => ∀ t, FitTransfer t → FitTransfer (update t)

/-- The call with its records as they are read. -/
def canon : StorageCall → StorageCall
  | putSwap blob => putSwap (canonBlob blob)
  | deletePendingSwap swapID => deletePendingSwap swapID
  | putReceipt receipt => putReceipt (canonReceipt receipt)
  | updateReceipt id update => updateReceipt id fun r => canonReceipt (update r)
  | putTransfer transfer => putTransfer transfer
  | updateTransferReceipt txHash update => updateTransferReceipt txHash update

@[simp] theorem canon_key (call : StorageCall) : call.canon.key = call.key := by
  cases call <;> rfl

end StorageCall

section Canon

variable {α : Type} {c : Codec α} {db : Db} {table : Table} {key : Except GoError Bytes}

theorem putRecord_congr {record record' : α} (h : c.marshal record = c.marshal record') :
    putRecord c db table key record = putRecord c db table key record' := by
  rw [putRecord, putRecord, h]

theorem updateRecord_congr {update update' : α → α}
    (h : ∀ data record, c.unmarshal data = .ok record →
      c.marshal (update record) = c.marshal (update' record)) :
    updateRecord c db table key update = updateRecord c db table key update' := by
  unfold updateRecord
  refine congrArg (key >>= ·) (funext fun id => ?_)
  refine congrArg (find db table id >>= ·) (funext fun data => ?_)
  cases hread : c.unmarshal data with
  | error err => rfl
  | ok record =>
      show (c.marshal (update record) >>= _) = (c.marshal (update' record) >>= _)
      rw [h data record hread]

end Canon

theorem FitBlob.withPassword {blob : SwapBlob} (h : FitBlob blob) (password : String) :
    FitBlob (blob.withPassword password) := ⟨h.timeLock, h.brokerFee, h.delayInfo⟩

theorem marshal_canonBlob {blob : SwapBlob} (h : FitBlob blob) :
    jsonCodecs.blob.marshal (canonBlob blob) = jsonCodecs.blob.marshal blob :=
  blobRecord.marshal_canon (fit_blob_iff.mpr h)

theorem marshal_canonReceipt {receipt : SwapReceipt} (h : FitReceipt receipt) :
    jsonCodecs.receipt.marshal (canonReceipt receipt) = jsonCodecs.receipt.marshal receipt :=
  receiptRecord.marshal_canon (fit_receipt_iff.mpr h)

theorem fitReceipt_of_unmarshal {data : Bytes} {receipt : SwapReceipt}
    (h : jsonCodecs.receipt.unmarshal data = .ok receipt) : FitReceipt receipt :=
  fit_receipt_iff.mp (receiptRecord.fit_unmarshal h)

theorem fitTransfer_of_unmarshal {data : Bytes} {transfer : TransferReceipt}
    (h : jsonCodecs.transfer.unmarshal data = .ok transfer) : FitTransfer transfer :=
  fit_transfer_iff.mp (transferRecord.fit_unmarshal h)

/-- The store does not tell the form of raw messages. -/
theorem result_canon {call : StorageCall} (h : call.Fits) (db : Db) :
    call.canon.result jsonCodecs db = call.result jsonCodecs db := by
  cases call with
  | putSwap blob =>
      have hmarshal : jsonCodecs.blob.marshal ((canonBlob blob).withPassword "") =
          jsonCodecs.blob.marshal (blob.withPassword "") := marshal_canonBlob (h.withPassword "")
      show putSwap jsonCodecs db (canonBlob blob) = putSwap jsonCodecs db blob
      rw [putSwap, putSwap, hmarshal]
      rfl
  | putReceipt receipt => exact putRecord_congr (marshal_canonReceipt h)
  | updateReceipt id update =>
      refine updateRecord_congr fun data receipt hread => ?_
      exact marshal_canonReceipt (h receipt (fitReceipt_of_unmarshal hread))
  | _ => rfl

theorem roundTrips_blob {blob : SwapBlob} (h : FitBlob blob) :
    jsonCodecs.blob.RoundTrips (canonBlob blob) :=
  blobRecord.roundTrips_canon (fit_blob_iff.mpr h)

theorem roundTrips_receipt {receipt : SwapReceipt} (h : FitReceipt receipt) :
    jsonCodecs.receipt.RoundTrips (canonReceipt receipt) :=
  receiptRecord.roundTrips_canon (fit_receipt_iff.mpr h)

theorem roundTrips_transfer {transfer : TransferReceipt} (h : FitTransfer transfer) :
    jsonCodecs.transfer.RoundTrips transfer :=
  transferRecord.roundTrips_canon (fit_transfer_iff.mpr h)

/-- Records are read as they were written once they have the form of what is read. -/
theorem roundTrips_call {call : StorageCall} (h : call.Fits) :
    call.canon.RoundTrips jsonCodecs := by
  cases call with
  | putSwap blob => exact roundTrips_blob (h.withPassword "")
  | deletePendingSwap swapID => trivial
  | putReceipt receipt => exact roundTrips_receipt h
  | updateReceipt id update =>
      rintro r ⟨data, -, hread⟩
      exact roundTrips_receipt (h r (fitReceipt_of_unmarshal hread))
  | putTransfer transfer => exact roundTrips_transfer h
  | updateTransferReceipt txHash update =>
      rintro t ⟨data, -, hread⟩
      exact roundTrips_transfer (h t (fitTransfer_of_unmarshal hread))

theorem runAll_canon {calls : List StorageCall} (h : ∀ call ∈ calls, call.Fits) :
    runAll jsonCodecs (calls.map StorageCall.canon) = runAll jsonCodecs calls := by
  unfold runAll
  rw [List.foldl_map]
  refine List.foldl_ext _ _ _ fun db call hcall => ?_
  rw [StorageCall.run, StorageCall.run, result_canon (h call hcall)]

/-- **The store holds what was written**, as JSON, after every sequence of calls with
    records that Go can hold. -/
theorem json_refines (calls : List StorageCall)
    (hkeys : ∀ call ∈ calls, ∃ key : Bytes32, call.key = .ok key.1)
    (hfits : ∀ call ∈ calls, call.Fits) :
    Refines jsonCodecs (runAll jsonCodecs calls) (written (calls.map StorageCall.canon)) := by
  rw [← runAll_canon hfits]
  refine refines_run jsonCodecs _ ?_ ?_
  · intro call hcall
    obtain ⟨original, horiginal, rfl⟩ := List.mem_map.mp hcall
    rw [StorageCall.canon_key]
    exact hkeys original horiginal
  · intro call hcall
    obtain ⟨original, horiginal, rfl⟩ := List.mem_map.mp hcall
    exact roundTrips_call (hfits original horiginal)

/-! ### Listings -/

/-- A listing has every record but that with the greatest key, and reading it does not
    fail. -/
def ListsButLast {α : Type} (listing : List α × Option GoError) (contents : Contents α) : Prop :=
  ∃ keys : List Bytes32, keys.Nodup ∧
    (∀ key, key ∈ keys ↔ key ≠ lastKey ∧ (contents key).isSome) ∧
      listing = (keys.filterMap contents, none)

/-- What the queries of the storage return. -/
structure Answers (db : Db) (t : Tables) : Prop where
  pendingSwaps : ListsButLast (pendingSwaps jsonCodecs db) t.pendingSwaps
  receipts : ListsButLast (receipts jsonCodecs db) t.receipts
  transfers : ListsButLast (transfers jsonCodecs db) t.transfers
  pendingSwap : ∀ id blob, pendingSwap jsonCodecs db id = .ok blob ↔
    ∃ key : Bytes32, decodeID id = .ok key.1 ∧ t.pendingSwaps key = some blob

/-- **No record stops a listing**: the queries return what was written, in the form of
    `json.Marshal`. -/
theorem json_answers (calls : List StorageCall)
    (hkeys : ∀ call ∈ calls, ∃ key : Bytes32, call.key = .ok key.1)
    (hfits : ∀ call ∈ calls, call.Fits) :
    Answers (runAll jsonCodecs calls) (written (calls.map StorageCall.canon)) := by
  have h := json_refines calls hkeys hfits
  exact ⟨listRecords_eq h.keyed pending_mem h.pendingSwaps,
    listRecords_eq h.keyed receipts_mem h.receipts,
    listRecords_eq h.keyed transfers_mem h.transfers,
    fun _ _ => pendingSwap_ok_iff h⟩

/-- What the updates of the tasks leave is what Go can hold. -/
theorem fits_update (u : ReceiptUpdate) (costs : ContractCosts)
    (h : ∀ receiveAmount sendAmount timeLock, u.change = .fill receiveAmount sendAmount timeLock →
      IsInt64 timeLock) :
    (StorageCall.updateReceipt u.id (u.update costs)).Fits := by
  intro r hr
  unfold ReceiptUpdate.update
  cases hchange : u.change with
  | setStatus status => exact ⟨hr.timestamp, hr.timeLock, hr.delayInfo⟩
  | cancel => exact ⟨hr.timestamp, hr.timeLock, hr.delayInfo⟩
  | fill receiveAmount sendAmount timeLock =>
      exact ⟨hr.timestamp, h _ _ _ hchange, hr.delayInfo⟩
  | activate => exact ⟨hr.timestamp, hr.timeLock, hr.delayInfo⟩

/-- A delayed swap whose `delayInfo` has a space in it. -/
def spacedBlob : SwapBlob :=
  { lastBlob with
    id := encodeToString (List.replicate 32 7)
    delay := true
    delayInfo := stringBytes "\x7b\"order\": 1\x7d"
    password := "alice" }

def spacedUpdate : ReceiptUpdate := ⟨spacedBlob.id, .fill "2" "3" 1549000000⟩

def spacedCalls : List StorageCall :=
  [.putSwap spacedBlob, .putReceipt (newSwapReceipt 1549000000 spacedBlob),
    .updateReceipt spacedUpdate.id (spacedUpdate.update {})]

theorem spaced_id : decodeID spacedBlob.id = .ok (List.replicate 32 7) := by decide +kernel

theorem spacedBlob_fit : FitBlob spacedBlob :=
  ⟨by decide, by decide, .inr (by decide +kernel)⟩

theorem json_answers_spaced :
    Answers (runAll jsonCodecs spacedCalls) (written (spacedCalls.map StorageCall.canon)) := by
  refine json_answers spacedCalls ?_ ?_
  · intro call hcall
    have hkey : call.key = decodeID spacedBlob.id := by
      simp only [spacedCalls, List.mem_cons, List.not_mem_nil, or_false] at hcall
      rcases hcall with rfl | rfl | rfl <;> rfl
    exact ⟨⟨List.replicate 32 7, List.length_replicate⟩, hkey.trans spaced_id⟩
  · intro call hcall
    simp only [spacedCalls, List.mem_cons, List.not_mem_nil, or_false] at hcall
    rcases hcall with rfl | rfl | rfl
    · exact spacedBlob_fit
    · exact ⟨by decide, by decide, spacedBlob_fit.delayInfo⟩
    · refine fits_update _ _ fun _ _ timeLock hchange => ?_
      cases hchange
      decide

end Swapperd.Storage
