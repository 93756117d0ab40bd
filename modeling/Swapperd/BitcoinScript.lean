/-
  Swapperd/BitcoinScript.lean
  ===========================
  **The Bitcoin HTLC of a swap** (`adapter/binder/btc`: `script.go` and
  `NewBTCSwapContractBinder`).

  Address decoding, the assembly of a script from its items and the hash of a script are
  `btcutil`'s and `txscript`'s, on one network; the items and their order are the
  source's.
-/
import Swapperd.Foundation

namespace Swapperd.Bitcoin

open GoLibrary

/-- A decoded address. -/
inductive Address where
  | pubKeyHash (hash160 : List UInt8)
  | other (encoded : String)
deriving DecidableEq

inductive Opcode where
  | opIf
  | opSize
  | opEqualVerify
  | opSha256
  | opDup
  | opHash160
  | opElse
  | opCheckLockTimeVerify
  | opDrop
  | opEndIf
  | opCheckSig
deriving DecidableEq

/-- What is added to a script builder. -/
inductive ScriptItem where
  | op (code : Opcode)
  | data (bytes : List UInt8)
  | int64 (value : Int)
deriving DecidableEq

/-- A Bitcoin network, as the libraries see it. -/
structure Network where
  name : String
  decodeAddress : String → Except GoError Address
  script : List ScriptItem → Except GoError (List UInt8)
  addressScriptHash : (script : List UInt8) → Except GoError String
  payToAddrScript : Address → Except GoError (List UInt8)

def errDecodeAddress (addr : String) (err : GoError) : GoError :=
  .wrapped s!"failed to decode address ({addr})" err

def errBuildScript (err : GoError) : GoError := .wrapped "failed to build bitcoin script" err

def newInitiateScript (net : Network) (pkhMe pkhThem : List UInt8) (locktime : Int)
    (secretHash : List UInt8) : Except GoError (List UInt8) :=
  net.script
    [.op .opIf,
      .op .opSize, .data [32], .op .opEqualVerify,
      .op .opSha256, .data secretHash, .op .opEqualVerify,
      .op .opDup, .op .opHash160, .data pkhThem,
    .op .opElse,
      .int64 locktime, .op .opCheckLockTimeVerify, .op .opDrop,
      .op .opDup, .op .opHash160, .data pkhMe,
    .op .opEndIf, .op .opEqualVerify, .op .opCheckSig]

def addressToPubKeyHash (net : Network) (addrString : String) : Except GoError (List UInt8) :=
  match net.decodeAddress addrString with
  | .error _ =>
      .error (.errorf s!"address {addrString} is not intended for use on {net.name}")
  | .ok (.pubKeyHash hash160) => .ok hash160
  | .ok (.other _) => .error (.errorf "%s is not p2pkh address")

def buildInitiateScript (net : Network) (swap : Swap) : Except GoError (List UInt8 × String) := do
  let fundingAddr ← (addressToPubKeyHash net swap.fundingAddress).mapError
    (errDecodeAddress swap.fundingAddress)
  let spendingAddr ← (addressToPubKeyHash net swap.spendingAddress).mapError
    (errDecodeAddress swap.spendingAddress)
  let initiateScript ← (newInitiateScript net fundingAddr spendingAddr swap.timeLock
    swap.secretHash.1).mapError errBuildScript
  let scriptAddr ← (net.addressScriptHash initiateScript).mapError errBuildScript
  return (initiateScript, scriptAddr)

/-- The binder of a Bitcoin leg. `swap` has the minimum broker fee applied and the broker
    fee added to its value. -/
structure SwapContractBinder where
  scriptAddr : String
  script : List UInt8
  swap : Swap
  fee : Int
  cost : Cost

/-- A broker fee below the dust limit is raised to it. -/
def minBrokerFee (brokerFee : Int) : Int :=
  if int64 brokerFee ≠ 0 ∧ int64 brokerFee < 600 then 600 else brokerFee

def newBTCSwapContractBinder (net : Network) (swap : Swap) (cost : Cost) :
    Except GoError SwapContractBinder := do
  let (script, scriptAddr) ← buildInitiateScript net swap
  let cost := if "BTC" ∈ cost then cost else cost.insert "BTC" 0
  let swap := { swap with brokerFee := minBrokerFee swap.brokerFee }
  let swap := { swap with value := swap.value + swap.brokerFee }
  return ⟨scriptAddr, script, swap, int64 swap.fee, cost⟩

end Swapperd.Bitcoin
