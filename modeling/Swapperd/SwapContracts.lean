/-
  Swapperd/SwapContracts.lean
  ===========================
  **The operations of the three contract binders** (`adapter/binder/btc`, `eth` and
  `erc20`).

  An operation is a program over the queries and transactions it makes.  Of the
  libraries' `SendTransaction` and `Transact` the model has what the binders rely on:
  the pre-condition is checked once, and nothing is sent when it does not hold;
  otherwise the transaction is sent and the post-condition polled on a schedule that is
  the library's, and the operation succeeds when a poll does.  Costs are left out.
-/
import Swapperd.CallProgram
import Swapperd.BitcoinScript

namespace Swapperd.Chain

open CallProgram GoLibrary

/-! ### Queries and transactions -/

/-- What a binder knows its HTLC by: the address of the script or the ID in the swap
    contract. Its timelock is part of both. -/
structure Htlc where
  addr : String
  timeLock : Int
deriving DecidableEq

structure TxOut where
  value : Int
  pkScript : List UInt8
deriving DecidableEq

inductive Tx where
  | btcInitiate (outs : List TxOut)
  | btcRedeem (outs : List TxOut) (secret : Bytes32)
  | btcRefund (outs : List TxOut) (lockTime : Int)
  | approve (value : Int)
  | initiate (spender : String) (secretHash : Bytes32) (timeLock value : Int)
  | initiateWithFees (spender broker : String) (brokerFee : Int) (secretHash : Bytes32)
      (timeLock value : Int)
  | redeem (receiver : String) (secret : Bytes32)
  | refund
deriving DecidableEq

/-- What the callbacks of a Bitcoin transaction set, and `SendTransaction` leaves at its
    defaults where they set nothing: the lock time, the sequence number of the inputs, and
    what follows the signature and the public key in a signature script. -/
def Tx.lockTime : Tx → Int
  | .btcRefund _ lockTime => lockTime
  | _ => 0

def Tx.sequence : Tx → Nat
  | .btcRefund _ _ => 0
  | _ => 0xFFFFFFFF

def Tx.scriptItems : Tx → List Bitcoin.ScriptItem
  | .btcRedeem _ secret => [.data secret.1, .int64 1]
  | .btcRefund _ _ => [.int64 0]
  | _ => []

/-- What a library does next once the pre-condition holds. -/
inductive Round where
  | send
  | poll
deriving DecidableEq

inductive Query where
  | now
  | initiatable
  | redeemable
  | refundable
  | audit
  | auditSecret
  | scriptFunded (value : Int)
  | scriptRedeemed (value : Int)
  | scriptSpent
  | pushesOfSpent
  | schedule
  | send (tx : Tx)
deriving DecidableEq

/-- `audit` answers the spender and the value of a swap, `scriptFunded` and
    `scriptRedeemed` a value of the script address beside their verdict, `schedule` the
    rounds of a library and the error it gives up with. -/
abbrev Answer : Query → Type
  | .now => Int
  | .initiatable | .redeemable | .refundable | .scriptSpent => Except GoError Bool
  | .audit => Except GoError (String × Int)
  | .auditSecret => Except GoError Bytes32
  | .scriptFunded _ | .scriptRedeemed _ => Except GoError (Bool × Int)
  | .pushesOfSpent => Except GoError (List (List UInt8))
  | .schedule => List Round × String
  | .send _ => Except GoError Unit

structure Op where
  htlc : Htlc
  query : Query
deriving DecidableEq

abbrev Reply (op : Op) : Type := Answer op.query

abbrev Calls := Program Op Reply

def Htlc.ask (htlc : Htlc) (query : Query) : Calls (Answer query) :=
  Program.perform (Op.mk htlc query)

/-! ### Transactions -/

/-- A callback of the libraries: its query, and what it returns on the answer. -/
structure Check (α : Type) where
  query : Query
  read : Answer query → Option α

def Htlc.check {α : Type} (htlc : Htlc) (c : Check α) : Calls (Option α) := do
  let answer ← htlc.ask c.query
  return c.read answer

def runRounds (htlc : Htlc) (tx : Tx) (post : Option (Check Unit)) (giveUp : String) :
    List Round → Calls (Except GoError Unit)
  | [] => return .error (.errorf giveUp)
  | .send :: rounds => do
      let _ ← htlc.ask (.send tx)
      runRounds htlc tx post giveUp rounds
  | .poll :: rounds =>
      match post with
      | none => return .ok ()
      | some post => do
          match ← htlc.check post with
          | some () => return .ok ()
          | none => runRounds htlc tx (some post) giveUp rounds

def submit (htlc : Htlc) (tx : Tx) (post : Option (Check Unit)) :
    Calls (Except GoError Unit) := do
  let (rounds, giveUp) ← htlc.ask .schedule
  runRounds htlc tx post giveUp rounds

/-- The pre-condition decides which transaction is sent, if any. -/
def transact (htlc : Htlc) (pre : Check Tx) (post : Check Unit) :
    Calls (Except GoError Unit) := do
  match ← htlc.check pre with
  | none => return .error .preConditionCheckFailed
  | some tx => submit htlc tx (some post)

/-- The binders return nil when the pre-condition does not hold. -/
def skipFailedCheck : Except GoError Unit → Except GoError Unit
  | .error .preConditionCheckFailed => .ok ()
  | result => result

/-- A callback that expects one answer to a yes-or-no question; a failed query is no
    answer. -/
def expect {α : Type} (expected : Bool) (a : α) : Except GoError Bool → Option α
  | .error _ => none
  | .ok answer => if answer = expected then some a else none

/-! ### Ether and ERC20 tokens -/

structure EthBinder where
  id : Bytes32
  swap : Swap

namespace EthBinder

def htlc (b : EthBinder) : Htlc := ⟨encodeToString b.id.1, b.swap.timeLock⟩

/-- The transaction that funds the swap, for a value to be locked. -/
def initiateTx (b : EthBinder) (value : Int) : Tx :=
  if b.swap.brokerFee > 0 then
    .initiateWithFees b.swap.spendingAddress b.swap.brokerAddress b.swap.brokerFee
      b.swap.secretHash b.swap.timeLock value
  else
    .initiate b.swap.spendingAddress b.swap.secretHash b.swap.timeLock value

def initiate (b : EthBinder) : Calls (Except GoError Unit) := do
  let err ← transact b.htlc ⟨.initiatable, expect true (b.initiateTx b.swap.value)⟩
    ⟨.initiatable, expect false ()⟩
  return skipFailedCheck err

def refund (b : EthBinder) : Calls (Except GoError Unit) := do
  let err ← transact b.htlc ⟨.refundable, expect true .refund⟩ ⟨.refundable, expect false ()⟩
  return skipFailedCheck err

def redeem (b : EthBinder) (secret : Bytes32) : Calls (Except GoError Unit) := do
  let err ← transact b.htlc
    ⟨.redeemable, expect true (.redeem b.swap.withdrawAddress secret)⟩
    ⟨.refundable, expect false ()⟩
  return skipFailedCheck err

def auditSecret (b : EthBinder) : Calls (Except GoError Bytes32) := do
  match ← b.htlc.ask .redeemable with
  | .error err => return .error err
  | .ok true =>
      if (← b.htlc.ask .now) > b.swap.timeLock then return .error .swapExpired
      else return .error .auditPending
  | .ok false => b.htlc.ask .auditSecret

/-- The two binders differ in the text for a value that is too low. -/
def audit (b : EthBinder) (valueMismatch : (expected actual : Int) → String) :
    Calls (Except GoError Unit) := do
  match ← b.htlc.ask .initiatable with
  | .error err => return .error err
  | .ok true =>
      if (← b.htlc.ask .now) > b.swap.timeLock then return .error .swapExpired
      else return .error .auditPending
  | .ok false =>
      match ← b.htlc.ask .audit with
      | .error err => return .error err
      | .ok (receiver, value) =>
          if receiver ≠ b.swap.spendingAddress then
            return .error (.errorf ("Receiver Address Mismatch Expected: " ++
              s!"{b.swap.spendingAddress} Actual: {receiver}"))
          else if value < b.swap.value - b.swap.brokerFee then
            return .error (.errorf (valueMismatch b.swap.value value))
          else return .ok ()

def ethMismatch (expected actual : Int) : String :=
  s!"Receive Value Mismatch Expected: {expected} Actual: {actual}"

def erc20Mismatch (expected actual : Int) : String :=
  s!"Receive value mismatch: expected {expected}, got {actual}"

/-- What has to be sent for the contract to receive the swap's value: DGX takes 13 basis
    points of every transfer. -/
def sendValue (b : EthBinder) : Int :=
  if b.swap.token = tokenDGX then b.swap.value + b.swap.value * 13 / (10000 - 13)
  else b.swap.value

/-- `Initiate` of the ERC20 binder asks before it transacts, and transacts twice. -/
def initiateERC20 (b : EthBinder) : Calls (Except GoError Unit) := do
  match ← b.htlc.ask .initiatable with
  | .error err => return .error err
  | .ok false => return .ok ()
  | .ok true =>
      match ← submit b.htlc (.approve b.sendValue) none with
      | .error err => return .error err
      | .ok () =>
          submit b.htlc (b.initiateTx b.sendValue) (some ⟨.initiatable, expect false ()⟩)

end EthBinder

end Swapperd.Chain

namespace Swapperd.Bitcoin

open CallProgram GoLibrary Chain

/-! ### Bitcoin -/

/-- The account that a binder works for. -/
structure Account where
  network : Network
  address : Except GoError Address

namespace SwapContractBinder

def errInitiate (err : GoError) : GoError := .wrapped "failed to initiate" err
def errRedeem (err : GoError) : GoError := .wrapped "failed to redeem" err
def errRefund (err : GoError) : GoError := .wrapped "failed to refund" err
def errAuditSecret (err : GoError) : GoError := .wrapped "failed to audit secret" err

def htlc (b : SwapContractBinder) : Htlc := ⟨b.scriptAddr, b.swap.timeLock⟩

/-- The script address is funded in one output, unless it is funded already or what is
    missing is dust. -/
def initiateCheck (b : SwapContractBinder) (pkScript : List UInt8) : Check Tx where
  query := .scriptFunded (int64 b.swap.value)
  read
    | .error _ => none
    | .ok (true, _) => none
    | .ok (false, value) =>
        if int64 (int64 b.swap.value - value) < 600 then none
        else some (.btcInitiate [⟨int64 (int64 b.swap.value - value), pkScript⟩])

def fundedCheck (b : SwapContractBinder) : Check Unit where
  query := .scriptFunded (int64 b.swap.value)
  read
    | .ok (true, _) => some ()
    | _ => none

def initiate (b : SwapContractBinder) (account : Account) : Calls (Except GoError Unit) :=
  match account.network.decodeAddress b.scriptAddr with
  | .error err => return .error (errInitiate err)
  | .ok scriptAddr =>
      match account.network.payToAddrScript scriptAddr with
      | .error err => return .error (errInitiate (errBuildScript err))
      | .ok pkScript => do
          let err ← transact b.htlc (b.initiateCheck pkScript) b.fundedCheck
          return skipFailedCheck err

def audit (b : SwapContractBinder) : Calls (Except GoError Unit) := do
  match ← b.htlc.ask (.scriptFunded (int64 b.swap.value)) with
  | .ok (true, amount) =>
      if amount < int64 (b.swap.value - b.swap.brokerFee) then
        return .error (.errorf "Audit Failed")
      else return .ok ()
  | _ =>
      if (← b.htlc.ask .now) > b.swap.timeLock then return .error .swapExpired
      else return .error .auditPending

/-- The HTLC is paid out to the broker and the receiver, unless it was redeemed already
    or what the receiver would get is dust. -/
def redeemCheck (b : SwapContractBinder) (secret : Bytes32) (pkScript feePkScript : List UInt8) :
    Check Tx where
  query := .scriptRedeemed 0
  read
    | .error _ => none
    | .ok (true, _) => none
    | .ok (false, val) =>
        if int64 (val - int64 b.swap.brokerFee - b.fee) < 600 then none
        else some (.btcRedeem
          [⟨int64 b.swap.brokerFee, feePkScript⟩,
            ⟨int64 (val - int64 b.swap.brokerFee - b.fee), pkScript⟩] secret)

def spentCheck : Check Unit where
  query := .scriptSpent
  read := expect true ()

/-- `DecodeAddress` and `PayToAddrScript`. -/
def payScript (account : Account) (address : String) : Except GoError (List UInt8) := do
  let decoded ← account.network.decodeAddress address
  account.network.payToAddrScript decoded

def redeem (b : SwapContractBinder) (account : Account) (secret : Bytes32) :
    Calls (Except GoError Unit) :=
  match payScript account b.swap.withdrawAddress with
  | .error err => return .error (errRedeem err)
  | .ok payToAddrScript =>
      match (if int64 b.swap.brokerFee ≠ 0 then payScript account b.swap.brokerAddress
        else .ok []) with
      | .error err => return .error (errRedeem err)
      | .ok feeAddrScript => do
          let err ← transact b.htlc (b.redeemCheck secret payToAddrScript feeAddrScript)
            spentCheck
          return skipFailedCheck err

/-- `copy` into an array of 32 bytes. -/
def copy32 (push : List UInt8) : Bytes32 :=
  ⟨(push ++ List.replicate 32 0).take 32, by simp⟩

def auditSecret (b : SwapContractBinder) (H : Hashes) : Calls (Except GoError Bytes32) := do
  match ← b.htlc.ask .scriptSpent with
  | .ok true =>
      match ← b.htlc.ask .pushesOfSpent with
      | .error err => return .error (errAuditSecret err)
      | .ok pushes =>
          match pushes.find? fun push => H.sha256 push = b.swap.secretHash with
          | some push => return .ok (copy32 push)
          | none => return .error (errAuditSecret (.errorf ("redeem transaction returned by " ++
              "the Bitcoin blockchain is malformed")))
  | _ =>
      if (← b.htlc.ask .now) > b.swap.timeLock then return .error .swapExpired
      else return .error .auditPending

/-- All of the HTLC goes back to the account. `uint32(TimeLock)` is the transaction's
    lock time. -/
def refundCheck (b : SwapContractBinder) (pkScript : List UInt8) : Check Tx where
  query := .scriptFunded 0
  read
    | .error _ => none
    | .ok (false, _) => none
    | .ok (true, val) =>
        some (.btcRefund [⟨int64 (val - b.fee), pkScript⟩] (b.swap.timeLock % 2 ^ 32))

def refund (b : SwapContractBinder) (account : Account) : Calls (Except GoError Unit) :=
  match account.address with
  | .error err => return .error (errRefund err)
  | .ok address =>
      match account.network.payToAddrScript address with
      | .error err => return .error (errRefund err)
      | .ok payToAddrScript => do
          let err ← transact b.htlc (b.refundCheck payToAddrScript) spentCheck
          return match skipFailedCheck err with
            | .error err => .error (errRefund err)
            | .ok () => .ok ()

end SwapContractBinder

end Swapperd.Bitcoin

namespace Swapperd.Chain

open CallProgram GoLibrary

/-! ### The contracts of the immediate swapper -/

inductive Binder where
  | btc (account : Bitcoin.Account) (b : Bitcoin.SwapContractBinder)
  | eth (b : EthBinder)
  | erc20 (b : EthBinder)

namespace Binder

def htlc : Binder → Htlc
  | btc _ b => b.htlc
  | eth b | erc20 b => b.htlc

def initiate : Binder → Calls (Except GoError Unit)
  | btc account b => b.initiate account
  | eth b => b.initiate
  | erc20 b => b.initiateERC20

def audit : Binder → Calls (Except GoError Unit)
  | btc _ b => b.audit
  | eth b => b.audit EthBinder.ethMismatch
  | erc20 b => b.audit EthBinder.erc20Mismatch

def redeem (secret : Bytes32) : Binder → Calls (Except GoError Unit)
  | btc account b => b.redeem account secret
  | eth b | erc20 b => b.redeem secret

def auditSecret (H : Hashes) : Binder → Calls (Except GoError Bytes32)
  | btc _ b => b.auditSecret H
  | eth b | erc20 b => b.auditSecret

def refund : Binder → Calls (Except GoError Unit)
  | btc account b => b.refund account
  | eth b | erc20 b => b.refund

end Binder

end Swapperd.Chain
