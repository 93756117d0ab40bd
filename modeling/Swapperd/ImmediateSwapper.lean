/-
  Swapperd/ImmediateSwapper.lean
  ==============================
  **The immediate swapper** (`core/wallet/swapper/immediate`): the task that runs
  the passes of a swap.

  A pass is a program over the calls the source makes: building the two contracts of
  a swap and the operations of those contracts.  `swapMap` is Go's map of the swaps
  to be retried; `range` over it takes an order of its keys, since Go fixes none.
-/
import Swapperd.RetryTask
import Swapperd.Foundation

namespace Swapperd.Immediate

open CallProgram RetryTask GoLibrary

structure SwapRequest where
  blob : SwapBlob
  sendCost : Cost := ∅
  receiveCost : Cost := ∅
deriving DecidableEq

abbrev SwapRequest.id (req : SwapRequest) : SwapID := req.blob.id

/-! ### Contracts and their operations -/

inductive Leg where
  | native
  | foreign
deriving DecidableEq, Repr

/-- The contract that `BuildSwapContracts` returns for one leg of a request. -/
structure Contract where
  req : SwapRequest
  leg : Leg
deriving DecidableEq

abbrev SwapRequest.native (req : SwapRequest) : Contract := ⟨req, .native⟩
abbrev SwapRequest.foreign (req : SwapRequest) : Contract := ⟨req, .foreign⟩

inductive Op where
  | buildSwapContracts (req : SwapRequest)
  | initiate (contract : Contract)
  | audit (contract : Contract)
  | redeem (contract : Contract) (secret : Bytes32)
  | auditSecret (contract : Contract)
  | refund (contract : Contract)
deriving DecidableEq

abbrev Reply : Op → Type
  | .auditSecret _ => Except GoError Bytes32
  | _ => Except GoError Unit

/-- The request a call is made for. -/
def Op.req : Op → SwapRequest
  | .buildSwapContracts req => req
  | .initiate c | .audit c | .redeem c _ | .auditSecret c | .refund c => c.req

/-- The swap a call is made for. -/
def Op.id (op : Op) : SwapID := op.req.id

abbrev Calls := Program Op Reply

abbrev buildSwapContracts (req : SwapRequest) : Calls (Except GoError Unit) :=
  .perform (Op.buildSwapContracts req)

namespace Contract

abbrev initiate (c : Contract) : Calls (Except GoError Unit) := .perform (Op.initiate c)
abbrev audit (c : Contract) : Calls (Except GoError Unit) := .perform (Op.audit c)
abbrev redeem (c : Contract) (secret : Bytes32) : Calls (Except GoError Unit) :=
  .perform (Op.redeem c secret)
abbrev auditSecret (c : Contract) : Calls (Except GoError Bytes32) :=
  .perform (Op.auditSecret c)
abbrev refund (c : Contract) : Calls (Except GoError Unit) := .perform (Op.refund c)

end Contract

/-! ### The reducer -/

inductive Message where
  | receiptUpdate (update : ReceiptUpdate)
  | error (err : GoError)
  | deleteSwap (id : SwapID)
deriving DecidableEq

abbrev SwapMap := Store SwapID SwapRequest

def newReceiptUpdate (id : SwapID) (status : Status) : ReceiptUpdate :=
  ⟨id, .setStatus status⟩

def handleResult (swapMap : SwapMap) (req : SwapRequest) (status : Status)
    (err : Option GoError) (remove : Bool) : SwapMap × List Message :=
  let messages :=
    .receiptUpdate (newReceiptUpdate req.blob.id status) ::
      (match err with
      | some err => [.error err]
      | none => [])
  if remove then
    (swapMap.erase req.blob.id, messages ++ [.deleteSwap req.blob.id])
  else
    (swapMap.insert req.blob.id req, messages)

def initiate (H : Hashes) (swapMap : SwapMap) (req : SwapRequest)
    (native foreign : Contract) : Calls (SwapMap × List Message) := do
  let secret := H.sha3Sum256 (stringBytes req.blob.password ++ stringBytes req.blob.id)
  match ← native.initiate with
  | .error err => return handleResult swapMap req .inactive (some err) false
  | .ok () =>
    match ← foreign.audit with
    | .error err =>
      if err = .auditPending then
        return handleResult swapMap req .auditPending none false
      else if err ≠ .swapExpired then
        return handleResult swapMap req .auditPending (some err) false
      else
        match ← native.refund with
        | .error err => return handleResult swapMap req .refundFailed (some err) false
        | .ok () => return handleResult swapMap req .refunded none true
    | .ok () =>
      match ← foreign.redeem secret with
      | .error err => return handleResult swapMap req .audited (some err) false
      | .ok () => return handleResult swapMap req .redeemed none true

def respond (swapMap : SwapMap) (req : SwapRequest) (native foreign : Contract) :
    Calls (SwapMap × List Message) := do
  match ← foreign.audit with
  | .error err =>
    if err = .auditPending then
      return handleResult swapMap req .auditPending none false
    else if err = .swapExpired then
      return handleResult swapMap req .expired (some err) true
    else
      return handleResult swapMap req .auditPending (some err) false
  | .ok () =>
    match ← native.initiate with
    | .error err => return handleResult swapMap req .audited (some err) false
    | .ok () =>
      match ← native.auditSecret with
      | .error err =>
        if err = .auditPending then
          return handleResult swapMap req .auditPending none false
        else if err ≠ .swapExpired then
          return handleResult swapMap req .initiated (some err) false
        else
          match ← native.refund with
          | .error err => return handleResult swapMap req .refundFailed (some err) false
          | .ok () => return handleResult swapMap req .refunded none true
      | .ok secret =>
        match ← foreign.redeem secret with
        | .error err => return handleResult swapMap req .auditedSecret (some err) false
        | .ok () => return handleResult swapMap req .redeemed none true

def handleSwap (H : Hashes) (swapMap : SwapMap) (req : SwapRequest) :
    Calls (SwapMap × List Message) := do
  match ← buildSwapContracts req with
  | .error err => return (swapMap, [.error err])
  | .ok () =>
    if req.blob.shouldInitiateFirst then
      initiate H swapMap req req.native req.foreign
    else
      respond swapMap req req.native req.foreign

/-- The task: a new request is handled at once, a tick handles every entry of
    `swapMap` again (`handleTick`). -/
def task (H : Hashes) : Task Op Reply SwapID SwapRequest Message where
  key := SwapRequest.id
  handle := handleSwap H

def handleTick (H : Hashes) (order : List SwapID) (swapMap : SwapMap) :
    Calls (SwapMap × List Message) :=
  (task H).handleTick order swapMap

abbrev Pass (σ N : Type) := RetryTask.Pass Op Reply σ N SwapRequest Message
abbrev Reduction (σ N : Type) := RetryTask.Reduction Op Reply σ N SwapID SwapRequest Message

/-! ### Exits

Every way in which a pass can end: its calls with their replies, and the arguments
of `handleResult`. -/

abbrev Call := (op : Op) × Reply op

inductive InitiateExit (H : Hashes) (req : SwapRequest) :
    List Call → Status → Option GoError → Bool → Prop where
  | initiateFailed (err : GoError) :
      InitiateExit H req [⟨.initiate req.native, .error err⟩] .inactive (some err) false
  | auditPending :
      InitiateExit H req
        [⟨.initiate req.native, .ok ()⟩, ⟨.audit req.foreign, .error .auditPending⟩]
        .auditPending none false
  | auditFailed (err : GoError) (hpending : err ≠ .auditPending)
      (hexpired : err ≠ .swapExpired) :
      InitiateExit H req
        [⟨.initiate req.native, .ok ()⟩, ⟨.audit req.foreign, .error err⟩]
        .auditPending (some err) false
  | refundFailed (err : GoError) :
      InitiateExit H req
        [⟨.initiate req.native, .ok ()⟩, ⟨.audit req.foreign, .error .swapExpired⟩,
          ⟨.refund req.native, .error err⟩]
        .refundFailed (some err) false
  | refunded :
      InitiateExit H req
        [⟨.initiate req.native, .ok ()⟩, ⟨.audit req.foreign, .error .swapExpired⟩,
          ⟨.refund req.native, .ok ()⟩]
        .refunded none true
  | redeemFailed (err : GoError) :
      InitiateExit H req
        [⟨.initiate req.native, .ok ()⟩, ⟨.audit req.foreign, .ok ()⟩,
          ⟨.redeem req.foreign
            (H.sha3Sum256 (stringBytes req.blob.password ++ stringBytes req.blob.id)),
            .error err⟩]
        .audited (some err) false
  | redeemed :
      InitiateExit H req
        [⟨.initiate req.native, .ok ()⟩, ⟨.audit req.foreign, .ok ()⟩,
          ⟨.redeem req.foreign
            (H.sha3Sum256 (stringBytes req.blob.password ++ stringBytes req.blob.id)),
            .ok ()⟩]
        .redeemed none true

inductive RespondExit (req : SwapRequest) :
    List Call → Status → Option GoError → Bool → Prop where
  | auditPending :
      RespondExit req [⟨.audit req.foreign, .error .auditPending⟩] .auditPending none false
  | expired :
      RespondExit req [⟨.audit req.foreign, .error .swapExpired⟩] .expired
        (some .swapExpired) true
  | auditFailed (err : GoError) (hpending : err ≠ .auditPending)
      (hexpired : err ≠ .swapExpired) :
      RespondExit req [⟨.audit req.foreign, .error err⟩] .auditPending (some err) false
  | initiateFailed (err : GoError) :
      RespondExit req
        [⟨.audit req.foreign, .ok ()⟩, ⟨.initiate req.native, .error err⟩]
        .audited (some err) false
  | secretPending :
      RespondExit req
        [⟨.audit req.foreign, .ok ()⟩, ⟨.initiate req.native, .ok ()⟩,
          ⟨.auditSecret req.native, .error .auditPending⟩]
        .auditPending none false
  | secretFailed (err : GoError) (hpending : err ≠ .auditPending)
      (hexpired : err ≠ .swapExpired) :
      RespondExit req
        [⟨.audit req.foreign, .ok ()⟩, ⟨.initiate req.native, .ok ()⟩,
          ⟨.auditSecret req.native, .error err⟩]
        .initiated (some err) false
  | refundFailed (err : GoError) :
      RespondExit req
        [⟨.audit req.foreign, .ok ()⟩, ⟨.initiate req.native, .ok ()⟩,
          ⟨.auditSecret req.native, .error .swapExpired⟩,
          ⟨.refund req.native, .error err⟩]
        .refundFailed (some err) false
  | refunded :
      RespondExit req
        [⟨.audit req.foreign, .ok ()⟩, ⟨.initiate req.native, .ok ()⟩,
          ⟨.auditSecret req.native, .error .swapExpired⟩, ⟨.refund req.native, .ok ()⟩]
        .refunded none true
  | redeemFailed (secret : Bytes32) (err : GoError) :
      RespondExit req
        [⟨.audit req.foreign, .ok ()⟩, ⟨.initiate req.native, .ok ()⟩,
          ⟨.auditSecret req.native, .ok secret⟩, ⟨.redeem req.foreign secret, .error err⟩]
        .auditedSecret (some err) false
  | redeemed (secret : Bytes32) :
      RespondExit req
        [⟨.audit req.foreign, .ok ()⟩, ⟨.initiate req.native, .ok ()⟩,
          ⟨.auditSecret req.native, .ok secret⟩, ⟨.redeem req.foreign secret, .ok ()⟩]
        .redeemed none true

end Swapperd.Immediate
