/-
  Swapperd/Foundation.lean
  ========================
  **Tokens, swap blobs and swaps** (`foundation/blockchain`, `foundation/swap`).

  A `SwapBlob` is what travels through JSON, the store and the task queues; a `Swap`
  is one leg of it as the binders use it.  Fields and defaults are the source's: a
  field that is left out has Go's zero value.
-/
import Swapperd.GoLibrary
import Mathlib.Data.Finmap

namespace Swapperd

open GoLibrary

/-! ### Errors

Go compares the sentinel errors by identity; every other error is its text, with the
text of the error it wraps if it wraps one. -/

inductive GoError where
  | swapExpired
  | auditPending
  | swapDetailsUnavailable
  | swapCancelled
  | preConditionCheckFailed
  | errorf (text : String)
  | wrapped (text : String) (err : GoError)
deriving DecidableEq, Repr

/-- The error of `base64.StdEncoding.DecodeString`. Bytes are counted without line breaks. -/
def base64Error (s : String) : GoError :=
  .errorf ("illegal base64 data at input byte " ++
    toString (corruptOffset 0 0 ((stringBytes s).filter fun c => c != 0x0D && c != 0x0A)))

/-- The error of `hex.DecodeString`, which checks the length first. -/
def hexError (s : String) : GoError :=
  let src := stringBytes s
  if src.length % 2 = 1 then .errorf "encoding/hex: odd length hex string"
  else
    match src.find? fun c => (hexDigit (Char.ofNat c.toNat)).isNone with
    | some c => .errorf ("encoding/hex: invalid byte: " ++ formatByte c)
    | none => .errorf "encoding/hex: odd length hex string"

/-- Thirty-two bytes: a hash, a secret or a swap identifier before encoding. -/
abbrev Bytes32 := { bytes : List UInt8 // bytes.length = 32 }

/-- The hash functions of `crypto/sha256` and `golang.org/x/crypto/sha3`. -/
structure Hashes where
  sha256 : List UInt8 → Bytes32
  sha3Sum256 : List UInt8 → Bytes32

/-- Hash functions to run examples with. -/
def zeroHashes : Hashes where
  sha256 _ := ⟨List.replicate 32 0, List.length_replicate⟩
  sha3Sum256 _ := ⟨List.replicate 32 0, List.length_replicate⟩

/-! ### Tokens -/

inductive BlockchainName where
  | bitcoin
  | ethereum
  | erc20
deriving DecidableEq, Repr

def BlockchainName.text : BlockchainName → String
  | .bitcoin => "bitcoin"
  | .ethereum => "ethereum"
  | .erc20 => "erc20"

abbrev TokenName := String

structure Token where
  name : TokenName
  decimals : Nat
  blockchain : BlockchainName
deriving DecidableEq, Repr

def tokenBTC : Token := ⟨"BTC", 8, .bitcoin⟩
def tokenETH : Token := ⟨"ETH", 18, .ethereum⟩
def tokenWBTC : Token := ⟨"WBTC", 8, .erc20⟩
def tokenREN : Token := ⟨"REN", 18, .erc20⟩
def tokenDGX : Token := ⟨"DGX", 9, .erc20⟩
def tokenZRX : Token := ⟨"ZRX", 18, .erc20⟩
def tokenOMG : Token := ⟨"OMG", 18, .erc20⟩
def tokenTUSD : Token := ⟨"TUSD", 18, .erc20⟩
def tokenDAI : Token := ⟨"DAI", 18, .erc20⟩
def tokenUSDC : Token := ⟨"USDC", 6, .erc20⟩
def tokenGUSD : Token := ⟨"GUSD", 2, .erc20⟩
def tokenPAX : Token := ⟨"PAX", 18, .erc20⟩

def supportedTokens : List Token :=
  [tokenBTC, tokenETH, tokenWBTC, tokenREN, tokenDGX, tokenZRX, tokenOMG, tokenTUSD, tokenDAI,
    tokenUSDC, tokenGUSD, tokenPAX]

def errUnsupportedToken (token : TokenName) : GoError :=
  .errorf ("unsupported token: " ++ token)

def patchToken (token : String) : Except GoError Token :=
  let token := trimSpace (toLower token)
  match token with
  | "bitcoin" | "btc" | "xbt" => .ok tokenBTC
  | "wrappedbtc" | "wbtc" | "wrappedbitcoin" => .ok tokenWBTC
  | "ethereum" | "eth" | "ether" => .ok tokenETH
  | "ren" | "republictoken" | "republic token" => .ok tokenREN
  | "tusd" | "trueusd" | "true-usd" => .ok tokenTUSD
  | "digix-gold-token" | "dgx" | "dgt" => .ok tokenDGX
  | "zerox" | "zrx" | "0x" => .ok tokenZRX
  | "omisego" | "omg" | "omise-go" => .ok tokenOMG
  | "usdc" | "usd-coin" | "usdcoin" => .ok tokenUSDC
  | "dai" | "maker-dai" | "makerdai" => .ok tokenDAI
  | "gusd" | "gemini-dollar" | "geminidollar" => .ok tokenGUSD
  | "pax" | "paxosstandardtoken" | "paxos-standard-token" => .ok tokenPAX
  | _ => .error (errUnsupportedToken token)

theorem patchToken_mem {name : String} {token : Token} (h : patchToken name = .ok token) :
    token ∈ supportedTokens := by
  unfold patchToken at h
  dsimp only at h
  split at h <;> cases h <;> decide

/-- The tokens of a chain: Bitcoin and Ethereum have one each, and only Ether has its name
    and only DGX that of its own. -/
theorem Token.eq_btc {token : Token} (h : token ∈ supportedTokens)
    (hchain : token.blockchain = .bitcoin) : token = tokenBTC := by
  revert token
  decide

theorem Token.eq_eth {token : Token} (h : token ∈ supportedTokens)
    (hchain : token.blockchain = .ethereum) : token = tokenETH := by
  revert token
  decide

theorem Token.erc20_name {token : Token} (h : token ∈ supportedTokens)
    (hchain : token.blockchain = .erc20) :
    token.name ≠ "ETH" ∧ (token.name = "DGX" → token = tokenDGX) := by
  revert token
  decide

/-- The miner fee or gas price used when a blob carries no fee of its own. -/
def Token.blockchainTxFees (token : Token) : Int :=
  match token.blockchain with
  | .ethereum | .erc20 => 12000000000
  | .bitcoin => 10000

/-- What a swap has cost so far, by token. -/
abbrev Cost := Finmap fun _ : TokenName => Int

/-! ### Swaps -/

abbrev SwapID := String

def expiryUnit : Int := 2 * 60 * 60

inductive Status where
  | inactive
  | initiated
  | audited
  | auditPending
  | auditFailed
  | redeemed
  | auditedSecret
  | refunded
  | refundFailed
  | cancelled
  | expired
deriving DecidableEq, Repr

/-- One leg of an atomic swap, as a binder executes it. -/
structure Swap where
  id : SwapID
  token : Token
  value : Int
  fee : Int
  brokerFee : Int
  secretHash : Bytes32
  timeLock : Int
  spendingAddress : String
  withdrawAddress : String := ""
  fundingAddress : String
  brokerAddress : String
deriving DecidableEq

/-- A swap as it is posted, stored and sent between tasks. Amounts and fees are
    decimal strings, `brokerFee` is in basis points. -/
structure SwapBlob where
  id : SwapID := ""
  sendToken : TokenName := ""
  receiveToken : TokenName := ""
  sendFee : String := ""
  sendAmount : String := ""
  receiveFee : String := ""
  receiveAmount : String := ""
  minimumReceiveAmount : String := ""
  sendTo : String := ""
  receiveFrom : String := ""
  timeLock : Int := 0
  secretHash : String := ""
  shouldInitiateFirst : Bool := false
  delay : Bool := false
  delayInfo : List UInt8 := []
  delayCallbackURL : String := ""
  brokerFee : Int := 0
  brokerSendTokenAddr : String := ""
  brokerReceiveTokenAddr : String := ""
  withdrawAddress : String := ""
  responseURL : String := ""
  password : String := ""
  passwordHash : String := ""
deriving DecidableEq, Repr

def SwapBlob.withPassword (blob : SwapBlob) (password : String) : SwapBlob :=
  { blob with password := password }

@[simp] theorem SwapBlob.withPassword_id (blob : SwapBlob) (password : String) :
    (blob.withPassword password).id = blob.id := rfl

@[simp] theorem SwapBlob.withPassword_delay (blob : SwapBlob) (password : String) :
    (blob.withPassword password).delay = blob.delay := rfl

@[simp] theorem SwapBlob.withPassword_withPassword (blob : SwapBlob) (p q : String) :
    (blob.withPassword p).withPassword q = blob.withPassword q := rfl

@[simp] theorem SwapBlob.withPassword_password (blob : SwapBlob) :
    blob.withPassword blob.password = blob := rfl

/-! ### Receipt updates

A receipt update is a function on a receipt; here it is represented by what that
function captures.  A status update also writes the costs of the two contracts,
which are read when the update is applied. -/

inductive ReceiptChange where
  | setStatus (status : Status)
  | cancel
  | fill (receiveAmount sendAmount : String) (timeLock : Int)
  | activate
deriving DecidableEq, Repr

structure ReceiptUpdate where
  id : SwapID
  change : ReceiptChange
deriving DecidableEq, Repr

end Swapperd
