/-
  Swapperd/Storage.lean
  =====================
  **The tables of the daemon** (`adapter/db`).

  Swaps, pending swaps, swap receipts and transfers share one ordered store.  A key is the
  name of a table and 32 bytes of the record's ID or transaction hash; a value is the JSON
  of the record.  The store itself does not fail; where a function fails, it does so
  before it writes.
-/
import Swapperd.OrderedStore
import Swapperd.SwapReceipts

namespace Swapperd.Storage

open GoLibrary

/-! ### The store -/

abbrev Bytes := List UInt8

scoped instance instLinearOrderUInt8 : LinearOrder UInt8 where
  le_refl _ := UInt8.le_refl _
  le_trans _ _ _ := UInt8.le_trans
  lt_iff_le_not_ge a b := by
    rw [UInt8.le_iff_toNat_le, UInt8.le_iff_toNat_le, UInt8.lt_iff_toNat_lt]
    omega
  le_antisymm _ _ := UInt8.le_antisymm
  le_total a b := UInt8.le_total a b
  toDecidableLE := inferInstance
  toDecidableLT := inferInstance

abbrev Db := OrderedStore Bytes Bytes

/-- `json.Marshal` and `json.Unmarshal` on the records of a type. -/
structure Codec (α : Type) where
  marshal : α → Except GoError Bytes
  unmarshal : Bytes → Except GoError α

/-- A record that is read as it was written. -/
def Codec.RoundTrips {α : Type} (c : Codec α) (record : α) : Prop :=
  ∃ bytes, c.marshal record = .ok bytes ∧ c.unmarshal bytes = .ok record

/-! ### Tables -/

/-- The name of a table and the bounds of its range. -/
structure Table where
  name : Bytes
  start : Bytes
  limit : Bytes

def tableSwaps : Table where
  name := List.replicate 8 0
  start := List.replicate 40 0
  limit := List.replicate 8 0 ++ List.replicate 32 0xFF

def tablePendingSwaps : Table where
  name := List.replicate 7 0 ++ [1]
  start := List.replicate 7 0 ++ [1] ++ List.replicate 32 0
  limit := List.replicate 7 0 ++ [1] ++ List.replicate 32 0xFF

def tableSwapReceipts : Table where
  name := List.replicate 7 0 ++ [2]
  start := List.replicate 7 0 ++ [2] ++ List.replicate 32 0
  limit := List.replicate 7 0 ++ [2] ++ List.replicate 32 0xFF

def tableTransfer : Table where
  name := List.replicate 7 0 ++ [3]
  start := List.replicate 7 0 ++ [3] ++ List.replicate 32 0
  limit := List.replicate 7 0 ++ [3] ++ List.replicate 32 0xFF

/-! ### Keys -/

def decodeID (id : SwapID) : Except GoError Bytes :=
  match decodeString id with
  | none => .error (base64Error id)
  | some bytes => .ok bytes

def txHashToBytes (txHash : String) : Except GoError Bytes :=
  match hexDecodeString (trimHexPrefix txHash) with
  | none => .error (hexError (trimHexPrefix txHash))
  | some txHashBytes =>
      if txHashBytes.length ≠ 32 then
        .error (.errorf s!"unexpected tx hash length: {txHashBytes.length}")
      else .ok txHashBytes

/-! ### Records

Putting, getting, updating and listing are the same in every table. -/

section Records

variable {α : Type} (c : Codec α) (db : Db) (table : Table)

def find (key : Bytes) : Except GoError Bytes :=
  match db.get (table.name ++ key) with
  | none => .error (.errorf "leveldb: not found")
  | some data => .ok data

def putRecord (key : Except GoError Bytes) (record : α) : Except GoError Db := do
  let data ← c.marshal record
  let id ← key
  return db.put (table.name ++ id) data

def getRecord (key : Except GoError Bytes) : Except GoError α := do
  let id ← key
  let data ← find db table id
  c.unmarshal data

def updateRecord (key : Except GoError Bytes) (update : α → α) : Except GoError Db := do
  let id ← key
  let data ← find db table id
  let record ← c.unmarshal data
  let updated ← c.marshal (update record)
  return db.put (table.name ++ id) updated

/-- The records that were read, and the error that reading stopped with. -/
def unmarshalAll : List Bytes → List α × Option GoError
  | [] => ([], none)
  | data :: rest =>
      match c.unmarshal data with
      | .error err => ([], some err)
      | .ok record =>
          let (records, err) := unmarshalAll rest
          (record :: records, err)

def listRecords : List α × Option GoError :=
  unmarshalAll c ((db.range table.start table.limit).map Prod.snd)

end Records

/-! ### The operations -/

structure TransferReceipt where
  confirmations : Int := 0
  timestamp : Int := 0
  passwordHash : String := ""
  toAddress : String := ""
  fromAddress : String := ""
  token : Token
  amount : String := ""
  txCost : CostBlob := ∅
  txHash : String := ""
deriving DecidableEq

structure Codecs where
  blob : Codec SwapBlob
  receipt : Codec SwapReceipt
  transfer : Codec TransferReceipt

section Operations

variable (J : Codecs) (db : Db)

def putSwap (blob : SwapBlob) : Except GoError Db := do
  let blob := blob.withPassword ""
  let swapData ← J.blob.marshal blob
  let id ← decodeID blob.id
  let db := db.put (tablePendingSwaps.name ++ id) swapData
  return db.put (tableSwaps.name ++ id) swapData

def deletePendingSwap (swapID : SwapID) : Except GoError Db := do
  let id ← decodeID swapID
  return db.erase (tablePendingSwaps.name ++ id)

def pendingSwap (swapID : SwapID) : Except GoError SwapBlob :=
  getRecord J.blob db tablePendingSwaps (decodeID swapID)

def pendingSwaps : List SwapBlob × Option GoError := listRecords J.blob db tablePendingSwaps

def putReceipt (receipt : SwapReceipt) : Except GoError Db :=
  putRecord J.receipt db tableSwapReceipts (decodeID receipt.id) receipt

/-- The update is any function here. -/
def updateReceipt (id : SwapID) (update : SwapReceipt → SwapReceipt) : Except GoError Db :=
  updateRecord J.receipt db tableSwapReceipts (decodeID id) update

def receipts : List SwapReceipt × Option GoError := listRecords J.receipt db tableSwapReceipts

def receipt (swapID : SwapID) : Except GoError SwapReceipt :=
  getRecord J.receipt db tableSwapReceipts (decodeID swapID)

def loadCosts (swapID : SwapID) : CostOrNil × CostOrNil :=
  match receipt J db swapID with
  | .error _ => (∅, ∅)
  | .ok receipt => (costBlobToCost receipt.sendCost, costBlobToCost receipt.receiveCost)

def putTransfer (transfer : TransferReceipt) : Except GoError Db :=
  putRecord J.transfer db tableTransfer (txHashToBytes transfer.txHash) transfer

def transfers : List TransferReceipt × Option GoError := listRecords J.transfer db tableTransfer

def updateTransferReceipt (txHash : String) (update : TransferReceipt → TransferReceipt) :
    Except GoError Db :=
  updateRecord J.transfer db tableTransfer (txHashToBytes txHash) update

end Operations

end Swapperd.Storage
