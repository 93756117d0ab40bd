/-
  Swapperd/SwapReceipts.lean
  ==========================
  **Swap receipts and their updates** (`foundation/swap/receipt.go`, the updates of the
  three swapper tasks, `cost.go`).

  A receipt update of the source is a function on a receipt.  A status update reads the
  costs of its two contracts when it is applied, so these are arguments of `update`.
-/
import Swapperd.Foundation

namespace Swapperd

open GoLibrary

/-! ### Costs in receipts -/

/-- A cost as JSON has it. -/
abbrev CostBlob := Finmap fun _ : TokenName => String

/-- A map with the same keys. -/
def mapValues {β γ : Type} (f : β → γ) (m : Finmap fun _ : TokenName => β) :
    Finmap fun _ : TokenName => γ where
  entries := m.entries.map fun e => ⟨e.1, f e.2⟩
  nodupKeys := by
    have hkeys : (m.entries.map fun e => (⟨e.1, f e.2⟩ : Sigma fun _ : TokenName => γ)).keys =
        m.entries.keys := by
      simp [Multiset.keys, Multiset.map_map]
    exact Multiset.nodup_keys.mp (hkeys ▸ Multiset.nodup_keys.mpr m.nodupKeys)

def costToCostBlob (cost : Cost) : CostBlob := mapValues (fun tokenCost => toString tokenCost) cost

/-- A cost whose amounts may be Go's nil. -/
abbrev CostOrNil := Finmap fun _ : TokenName => Option Int

/-- An amount that is not decimal becomes nil. -/
def costBlobToCost (costBlob : CostBlob) : CostOrNil := mapValues setString costBlob

/-- A cost without nil. -/
def notNil (cost : Cost) : CostOrNil := mapValues some cost

/-- The amounts of a cost, with zero for nil. -/
def amounts (cost : CostOrNil) : Cost := mapValues (·.getD 0) cost

/-! ### Receipts -/

structure SwapReceipt where
  id : SwapID := ""
  sendToken : TokenName := ""
  receiveToken : TokenName := ""
  sendAmount : String := ""
  receiveAmount : String := ""
  sendCost : CostBlob := ∅
  receiveCost : CostBlob := ∅
  timestamp : Int := 0
  timeLock : Int := 0
  status : Status := .inactive
  delay : Bool := false
  delayInfo : List UInt8 := []
  active : Bool := false
  passwordHash : String := ""
deriving DecidableEq

def newSwapReceipt (now : Int) (blob : SwapBlob) : SwapReceipt where
  id := blob.id
  sendToken := blob.sendToken
  receiveToken := blob.receiveToken
  sendAmount := blob.sendAmount
  receiveAmount := blob.receiveAmount
  sendCost := ∅
  receiveCost := ∅
  timestamp := now
  timeLock := blob.timeLock
  status := .inactive
  delay := blob.delay
  delayInfo := blob.delayInfo
  active := true
  passwordHash := blob.passwordHash

/-- The costs of the native and of the foreign contract of a swap, at one moment. -/
structure ContractCosts where
  native : Cost := ∅
  foreign : Cost := ∅
deriving DecidableEq

namespace ReceiptUpdate

/-- The `Update` of a receipt update. -/
def update (u : ReceiptUpdate) (costs : ContractCosts) (receipt : SwapReceipt) : SwapReceipt :=
  match u.change with
  | .setStatus status =>
      { receipt with
        status := status
        sendCost := costToCostBlob costs.native
        receiveCost := costToCostBlob costs.foreign }
  | .cancel => { receipt with id := u.id, status := .cancelled }
  | .fill receiveAmount sendAmount timeLock =>
      { receipt with
        receiveAmount := receiveAmount
        sendAmount := sendAmount
        timeLock := timeLock }
  | .activate => { receipt with active := true }

/-- The status that an update writes, if it writes one. -/
def status? (u : ReceiptUpdate) : Option Status :=
  match u.change with
  | .setStatus status => some status
  | .cancel => some .cancelled
  | .fill .. | .activate => none

/-- An update of a swap keeps the ID of its receipt. -/
@[simp] theorem update_id {u : ReceiptUpdate} {costs : ContractCosts} {receipt : SwapReceipt}
    (h : receipt.id = u.id) : (u.update costs receipt).id = u.id := by
  unfold update
  cases u.change with
  | cancel => rfl
  | _ => exact h

/-- No update changes the owner of a receipt. -/
@[simp] theorem update_passwordHash (u : ReceiptUpdate) (costs : ContractCosts)
    (receipt : SwapReceipt) : (u.update costs receipt).passwordHash = receipt.passwordHash := by
  unfold update
  cases u.change <;> rfl

theorem update_status (u : ReceiptUpdate) (costs : ContractCosts) (receipt : SwapReceipt) :
    (u.update costs receipt).status = u.status?.getD receipt.status := by
  unfold update status?
  cases u.change <;> rfl

end ReceiptUpdate

end Swapperd
