/-
  Swapperd/SwapBuilder.lean
  =========================
  **Building the two legs of a swap** (`adapter/binder`).

  The wallet is the source's interface: its addresses come from keys that are derived
  from the mnemonic and the password, and are the same whenever they are asked for.

  `buildComplementarySwaps` computes an expiry for each leg and hands it to the two
  builders, but both put the blob's own `timeLock` in the swap
  (`timeLocks_never_ordered`).
-/
import Swapperd.Foundation

namespace Swapperd

open GoLibrary

/-! ### The wallet -/

structure Wallet where
  getAddress : (password : String) → BlockchainName → Except GoError String
  verifyAddress : BlockchainName → (address : String) → Except GoError Unit
  /-- The `Sign` of the signer that `ECDSASigner` loads. -/
  ecdsaSigner : (password : String) → Except GoError (Bytes32 → Except GoError (List UInt8))

/-- The balance check of a wallet, at one moment. -/
abbrev VerifyBalance :=
  (password : String) → Token → (amount : Option Int) → Except GoError Unit

/-! ### The builder -/

namespace Builder

/-- The expiries of the native and of the foreign swap. -/
def calculateTimeLocks (swap : SwapBlob) : Int × Int :=
  if swap.shouldInitiateFirst then
    (swap.timeLock, int64 (swap.timeLock - 24 * 60 * 60))
  else
    (int64 (swap.timeLock - 24 * 60 * 60), swap.timeLock)

def calculateAddresses (W : Wallet) (swap : SwapBlob) : Except GoError (String × String) := do
  let sendToken ← patchToken swap.sendToken
  let sendAddress ← W.getAddress swap.password sendToken.blockchain
  let receiveToken ← patchToken swap.receiveToken
  let receiveAddress ← W.getAddress swap.password receiveToken.blockchain
  return (sendAddress, receiveAddress)

def unmarshalSecretHash (secretHash : String) : Except GoError Bytes32 :=
  match decodeString secretHash with
  | none => .error (base64Error secretHash)
  | some hashBytes =>
      if h : hashBytes.length = 32 then .ok ⟨hashBytes, h⟩
      else .error (.errorf "invalid secret hash")

/-- The broker's share of a leg, in basis points of its value. -/
def brokerFee (W : Wallet) (blob : SwapBlob) (side : String) (token : Token) (value : Int)
    (brokerAddress : String) : Except GoError Int :=
  if blob.brokerFee ≠ 0 then
    match W.verifyAddress token.blockchain brokerAddress with
    | .error _ => .error (.errorf s!"corrupted {side} broker address: {brokerAddress}")
    | .ok () => .ok (value * blob.brokerFee / 10000)
  else
    .ok 0

/-- What the two builders have in common: a swap without its timelock and addresses of
    the parties. -/
def buildSwap (W : Wallet) (blob : SwapBlob) (side : String) (tokenName : TokenName)
    (amount fee brokerAddress : String) : Except GoError Swap := do
  let token ← patchToken tokenName
  let some value := setString amount
    | .error (.errorf s!"corrupted {side} value: {amount}")
  let fee := (setString fee).getD token.blockchainTxFees
  let brokerFee ← brokerFee W blob side token value brokerAddress
  let secretHash ← unmarshalSecretHash blob.secretHash
  return {
    id := blob.id
    token := token
    value := value
    fee := fee
    brokerFee := brokerFee
    secretHash := secretHash
    timeLock := 0
    spendingAddress := ""
    fundingAddress := ""
    brokerAddress := brokerAddress }

/-- The `timelock` argument is not used: the swap gets the timelock of the blob. -/
def buildNativeSwap (W : Wallet) (blob : SwapBlob) (_timelock : Int) (fundingAddress : String) :
    Except GoError Swap := do
  let swap ← buildSwap W blob "send" blob.sendToken blob.sendAmount blob.sendFee
    blob.brokerSendTokenAddr
  return { swap with
    timeLock := blob.timeLock
    spendingAddress := blob.sendTo
    fundingAddress := fundingAddress }

/-- Here the `timelock` argument is not used either. -/
def buildForeignSwap (W : Wallet) (blob : SwapBlob) (_timelock : Int)
    (spendingAddress : String) : Except GoError Swap := do
  let swap ← buildSwap W blob "receive" blob.receiveToken blob.receiveAmount blob.receiveFee
    blob.brokerReceiveTokenAddr
  let withdrawAddress :=
    if blob.withdrawAddress ≠ "" then blob.withdrawAddress else spendingAddress
  return { swap with
    timeLock := blob.timeLock
    spendingAddress := spendingAddress
    fundingAddress := blob.receiveFrom
    withdrawAddress := withdrawAddress }

def buildComplementarySwaps (W : Wallet) (blob : SwapBlob) : Except GoError (Swap × Swap) := do
  let (fundingAddr, spendingAddr) ← calculateAddresses W blob
  let (nativeExpiry, foreignExpiry) := calculateTimeLocks blob
  let nativeSwap ← buildNativeSwap W blob nativeExpiry fundingAddr
  let foreignSwap ← buildForeignSwap W blob foreignExpiry spendingAddr
  return (nativeSwap, foreignSwap)

/-! ### What the builders return -/

/-- A swap that was built from the given fields of a blob. -/
structure IsLeg (blob : SwapBlob) (tokenName : TokenName) (amount brokerAddress : String)
    (swap : Swap) : Prop where
  id : swap.id = blob.id
  token : patchToken tokenName = .ok swap.token
  value : setString amount = some swap.value
  brokerFee : swap.brokerFee =
    if blob.brokerFee ≠ 0 then swap.value * blob.brokerFee / 10000 else 0
  secretHash : unmarshalSecretHash blob.secretHash = .ok swap.secretHash
  brokerAddress : swap.brokerAddress = brokerAddress

/-- Two legs built from the same fields carry the same values. -/
theorem IsLeg.agree {blob blob' : SwapBlob} {tokenName tokenName' : TokenName}
    {amount amount' brokerAddress brokerAddress' : String} {swap swap' : Swap}
    (h : IsLeg blob tokenName amount brokerAddress swap)
    (h' : IsLeg blob' tokenName' amount' brokerAddress' swap')
    (htoken : tokenName = tokenName') (hamount : amount = amount')
    (hbroker : brokerAddress = brokerAddress') (hfee : blob.brokerFee = blob'.brokerFee)
    (hhash : blob.secretHash = blob'.secretHash) :
    swap.token = swap'.token ∧ swap.value = swap'.value ∧ swap.secretHash = swap'.secretHash ∧
      swap.brokerFee = swap'.brokerFee ∧ swap.brokerAddress = swap'.brokerAddress := by
  subst htoken hamount hbroker
  have hvalue : swap.value = swap'.value := Option.some.inj (h.value.symm.trans h'.value)
  refine ⟨Except.ok.inj (h.token.symm.trans h'.token), hvalue, ?_, ?_, ?_⟩
  · have hsecret := h.secretHash
    rw [hhash] at hsecret
    exact Except.ok.inj (hsecret.symm.trans h'.secretHash)
  · rw [h.brokerFee, h'.brokerFee, hvalue, hfee]
  · rw [h.brokerAddress, h'.brokerAddress]

variable {W : Wallet} {blob : SwapBlob}

theorem brokerFee_eq {side : String} {token : Token} {value fee : Int} {brokerAddress : String}
    (h : brokerFee W blob side token value brokerAddress = .ok fee) :
    fee = if blob.brokerFee ≠ 0 then value * blob.brokerFee / 10000 else 0 := by
  unfold brokerFee at h
  by_cases hfee : blob.brokerFee ≠ 0
  · simp only [if_pos hfee] at h ⊢
    split at h
    · cases h
    · cases h
      rfl
  · simp only [if_neg hfee] at h ⊢
    cases h
    rfl

theorem buildSwap_isLeg {side : String} {tokenName : TokenName}
    {amount fee brokerAddress : String} {swap : Swap}
    (h : buildSwap W blob side tokenName amount fee brokerAddress = .ok swap) :
    IsLeg blob tokenName amount brokerAddress swap := by
  unfold buildSwap at h
  obtain ⟨token, htoken, h⟩ := except_bind_eq_ok_iff.mp h
  cases hvalue : setString amount with
  | none =>
      rw [hvalue] at h
      cases h
  | some value =>
      rw [hvalue] at h
      obtain ⟨share, hshare, h⟩ := except_bind_eq_ok_iff.mp h
      obtain ⟨hash, hhash, h⟩ := except_bind_eq_ok_iff.mp h
      cases h
      exact ⟨rfl, htoken, hvalue, brokerFee_eq hshare, hhash, rfl⟩

theorem buildNativeSwap_ok {timelock : Int} {fundingAddress : String} {native : Swap}
    (h : buildNativeSwap W blob timelock fundingAddress = .ok native) :
    IsLeg blob blob.sendToken blob.sendAmount blob.brokerSendTokenAddr native ∧
      native.timeLock = blob.timeLock ∧ native.spendingAddress = blob.sendTo ∧
      native.fundingAddress = fundingAddress := by
  unfold buildNativeSwap at h
  obtain ⟨swap, hswap, h⟩ := except_bind_eq_ok_iff.mp h
  have hleg := buildSwap_isLeg hswap
  cases h
  exact ⟨⟨hleg.id, hleg.token, hleg.value, hleg.brokerFee, hleg.secretHash,
    hleg.brokerAddress⟩, rfl, rfl, rfl⟩

/-- The miner fee is the blob's, where it has one. -/
theorem buildNativeSwap_fee {timelock : Int} {fundingAddress : String} {native : Swap}
    (h : buildNativeSwap W blob timelock fundingAddress = .ok native) :
    native.fee = (setString blob.sendFee).getD native.token.blockchainTxFees := by
  unfold buildNativeSwap buildSwap at h
  obtain ⟨swap, hswap, h⟩ := except_bind_eq_ok_iff.mp h
  obtain ⟨token, -, hswap⟩ := except_bind_eq_ok_iff.mp hswap
  cases hvalue : setString blob.sendAmount with
  | none =>
      rw [hvalue] at hswap
      cases hswap
  | some value =>
      rw [hvalue] at hswap
      obtain ⟨_, -, hswap⟩ := except_bind_eq_ok_iff.mp hswap
      obtain ⟨_, -, hswap⟩ := except_bind_eq_ok_iff.mp hswap
      cases hswap
      cases h
      rfl

theorem buildForeignSwap_ok {timelock : Int} {spendingAddress : String} {foreign : Swap}
    (h : buildForeignSwap W blob timelock spendingAddress = .ok foreign) :
    IsLeg blob blob.receiveToken blob.receiveAmount blob.brokerReceiveTokenAddr foreign ∧
      foreign.timeLock = blob.timeLock ∧ foreign.spendingAddress = spendingAddress ∧
      foreign.fundingAddress = blob.receiveFrom := by
  unfold buildForeignSwap at h
  obtain ⟨swap, hswap, h⟩ := except_bind_eq_ok_iff.mp h
  have hleg := buildSwap_isLeg hswap
  cases h
  exact ⟨⟨hleg.id, hleg.token, hleg.value, hleg.brokerFee, hleg.secretHash,
    hleg.brokerAddress⟩, rfl, rfl, rfl⟩

theorem calculateAddresses_ok {fundingAddr spendingAddr : String}
    (h : calculateAddresses W blob = .ok (fundingAddr, spendingAddr)) :
    (∃ token, patchToken blob.sendToken = .ok token ∧
      W.getAddress blob.password token.blockchain = .ok fundingAddr) ∧
    ∃ token, patchToken blob.receiveToken = .ok token ∧
      W.getAddress blob.password token.blockchain = .ok spendingAddr := by
  unfold calculateAddresses at h
  obtain ⟨sendToken, hsend, h⟩ := except_bind_eq_ok_iff.mp h
  obtain ⟨sendAddress, hfunding, h⟩ := except_bind_eq_ok_iff.mp h
  obtain ⟨receiveToken, hreceive, h⟩ := except_bind_eq_ok_iff.mp h
  obtain ⟨receiveAddress, hspending, h⟩ := except_bind_eq_ok_iff.mp h
  cases h
  exact ⟨⟨sendToken, hsend, hfunding⟩, receiveToken, hreceive, hspending⟩

/-- The two swaps of a blob: their legs, timelocks and addresses. -/
structure AreComplementary (W : Wallet) (blob : SwapBlob) (native foreign : Swap) : Prop where
  native_leg : IsLeg blob blob.sendToken blob.sendAmount blob.brokerSendTokenAddr native
  foreign_leg : IsLeg blob blob.receiveToken blob.receiveAmount blob.brokerReceiveTokenAddr foreign
  native_timeLock : native.timeLock = blob.timeLock
  foreign_timeLock : foreign.timeLock = blob.timeLock
  native_spending : native.spendingAddress = blob.sendTo
  native_funding : W.getAddress blob.password native.token.blockchain = .ok native.fundingAddress
  foreign_spending :
    W.getAddress blob.password foreign.token.blockchain = .ok foreign.spendingAddress
  foreign_funding : foreign.fundingAddress = blob.receiveFrom

theorem buildComplementarySwaps_ok {native foreign : Swap}
    (h : buildComplementarySwaps W blob = .ok (native, foreign)) :
    AreComplementary W blob native foreign := by
  unfold buildComplementarySwaps at h
  obtain ⟨⟨fundingAddr, spendingAddr⟩, haddresses, h⟩ := except_bind_eq_ok_iff.mp h
  obtain ⟨nativeSwap, hnative, h⟩ := except_bind_eq_ok_iff.mp h
  obtain ⟨foreignSwap, hforeign, h⟩ := except_bind_eq_ok_iff.mp h
  cases h
  obtain ⟨hnleg, hntime, hnspend, hnfund⟩ := buildNativeSwap_ok hnative
  obtain ⟨hfleg, hftime, hfspend, hffund⟩ := buildForeignSwap_ok hforeign
  obtain ⟨⟨token, htoken, hfunding⟩, token', htoken', hspending⟩ :=
    calculateAddresses_ok haddresses
  have hnt : token = native.token := Except.ok.inj (htoken.symm.trans hnleg.token)
  have hft : token' = foreign.token := Except.ok.inj (htoken'.symm.trans hfleg.token)
  subst hnt hft
  exact ⟨hnleg, hfleg, hntime, hftime, hnspend, by rw [hnfund, hfunding],
    by rw [hfspend, hspending], hffund⟩

/-! ### The order of the timelocks -/

/-- Each leg carries the expiry computed for it: the leg that the responder funds
    expires 24 hours before the other one. -/
def TimeLocksOrdered (blob : SwapBlob) (native foreign : Swap) : Prop :=
  (native.timeLock, foreign.timeLock) = calculateTimeLocks blob

theorem sub_day_ne (timeLock : Int) : timeLock ≠ int64 (timeLock - 24 * 60 * 60) := by
  intro h
  have hmod := int64_emod (timeLock - 24 * 60 * 60)
  rw [← h] at hmod
  omega

/-- **The timelocks are never in order**: both swaps of every blob expire at the same
    time. -/
theorem timeLocks_never_ordered {native foreign : Swap}
    (h : buildComplementarySwaps W blob = .ok (native, foreign)) :
    ¬ TimeLocksOrdered blob native foreign := by
  have hswaps := buildComplementarySwaps_ok h
  unfold TimeLocksOrdered calculateTimeLocks
  rw [hswaps.native_timeLock, hswaps.foreign_timeLock]
  cases blob.shouldInitiateFirst with
  | true => simpa using sub_day_ne blob.timeLock
  | false => simpa using sub_day_ne blob.timeLock

/-- A wallet with one address a chain, for runs on fixed inputs. -/
def sampleWallet (bitcoinAddress ethereumAddress : String) : Wallet where
  getAddress _ chain := .ok (if chain = .bitcoin then bitcoinAddress else ethereumAddress)
  verifyAddress _ _ := .ok ()
  ecdsaSigner _ := .ok fun _ => .ok []

def sampleBlob : SwapBlob where
  id := "c7t5VHbJdx2M0PtRS6G3lN2nrRH1fX0arUoZYkFBlvI="
  sendToken := "BTC"
  receiveToken := "ETH"
  sendAmount := "20000"
  receiveAmount := "5000000000000000"
  sendTo := "mwK6DzHe2P3UyoyoSVEKpC6Ymg7cmsBmkL"
  receiveFrom := "0x9b9a3e7c6aD1a8b7B4b5E3f1F2b8bC0f51b3C0A2"
  secretHash := "c7t5VHbJdx2M0PtRS6G3lN2nrRH1fX0arUoZYkFBlvI="
  timeLock := 1550000000

def responderWallet : Wallet :=
  sampleWallet "mfkvQyDzw2kh6QgFMdRoPr2yBbgqMGNXdR" "0x52bc44d5378309ee2abf1539bf71de1b7d7be3b5"

def sampleHash : Bytes32 :=
  (unmarshalSecretHash sampleBlob.secretHash).toOption.getD (zeroHashes.sha256 [])

def sampleNative : Swap where
  id := sampleBlob.id
  token := tokenBTC
  value := 20000
  fee := 10000
  brokerFee := 0
  secretHash := sampleHash
  timeLock := 1550000000
  spendingAddress := sampleBlob.sendTo
  fundingAddress := "mfkvQyDzw2kh6QgFMdRoPr2yBbgqMGNXdR"
  brokerAddress := ""

def sampleForeign : Swap where
  id := sampleBlob.id
  token := tokenETH
  value := 5000000000000000
  fee := 12000000000
  brokerFee := 0
  secretHash := sampleHash
  timeLock := 1550000000
  spendingAddress := "0x52bc44d5378309ee2abf1539bf71de1b7d7be3b5"
  withdrawAddress := "0x52bc44d5378309ee2abf1539bf71de1b7d7be3b5"
  fundingAddress := sampleBlob.receiveFrom
  brokerAddress := ""

theorem sample_build :
    buildComplementarySwaps responderWallet sampleBlob = .ok (sampleNative, sampleForeign) := by
  decide +kernel

theorem timeLocks_never_ordered_sample :
    ¬ TimeLocksOrdered sampleBlob sampleNative sampleForeign :=
  timeLocks_never_ordered sample_build

/-- The responder's native swap should expire a day before its foreign swap. -/
theorem sample_timeLocks_unordered :
    buildComplementarySwaps responderWallet sampleBlob = .ok (sampleNative, sampleForeign) ∧
      sampleNative.timeLock ≠ sampleBlob.timeLock - 86400 := by
  refine ⟨sample_build, ?_⟩
  decide

end Builder

end Swapperd
