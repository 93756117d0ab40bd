/-
  Swapperd/SwapHandler.lean
  =========================
  **Admission of swaps** (`adapter/server/handler.go`).

  The clock reading and the random ID of a request are arguments of the functions that
  use them.  `patchSwap` and `patchDelayedSwap` decide which swaps enter the daemon;
  `buildSwapResponse` makes the swap that the counterparty is to post.
-/
import Swapperd.SwapBuilder

namespace Swapperd.Handler

open GoLibrary

/-! ### Secrets -/

def genereateSecret (H : Hashes) (password : String) (id : SwapID) : Bytes32 :=
  H.sha3Sum256 (stringBytes password ++ stringBytes id)

/-- The `secretHash` of a swap that is opened by `genereateSecret`. -/
def secretHash (H : Hashes) (password : String) (id : SwapID) : String :=
  encodeToString (H.sha256 (genereateSecret H password id).1).1

def passwordHash (H : Hashes) (password : String) : String :=
  encodeToString (H.sha3Sum256 (stringBytes password)).1

/-! ### Admission -/

def withFees (amount bips : Int) : Int := amount * int64 (bips + 10000) / 10000

def verifySendAmount (verifyBalance : VerifyBalance) (password : String) (token : Token)
    (amount : String) (fee : Int) : Except GoError Unit :=
  match setString amount with
  | none => .error (.errorf "invalid send amount")
  | some sendAmount => verifyBalance password token (some (withFees sendAmount fee))

def verifyReceiveAmount (verifyBalance : VerifyBalance) (password : String) (token : Token) :
    Except GoError Unit :=
  verifyBalance password token none

/-- The last part of `patchSwap`, for a blob with an ID: the initiator gets its secret
    hash and timelock here, the responder's are checked. -/
def patchTerms (H : Hashes) (now : Int) (swapBlob : SwapBlob) : Except GoError SwapBlob :=
  if swapBlob.shouldInitiateFirst then
    .ok { swapBlob with
      timeLock := int64 (now + 3 * expiryUnit)
      secretHash := secretHash H swapBlob.password swapBlob.id }
  else
    match decodeString swapBlob.secretHash with
    | none => .error (.errorf "invalid secret hash")
    | some bytes =>
        if bytes.length ≠ 32 then .error (.errorf "invalid secret hash")
        else if int64 (now + 2 * expiryUnit) > swapBlob.timeLock then
          .error (.errorf "not enough time to do the atomic swap")
        else .ok swapBlob

def patchSwap (H : Hashes) (W : Wallet) (verifyBalance : VerifyBalance) (now : Int)
    (swapID : Bytes32) (swapBlob : SwapBlob) : Except GoError SwapBlob := do
  let sendToken ← patchToken swapBlob.sendToken
  W.verifyAddress sendToken.blockchain swapBlob.sendTo
  let receiveToken ← patchToken swapBlob.receiveToken
  W.verifyAddress receiveToken.blockchain swapBlob.receiveFrom
  if swapBlob.withdrawAddress ≠ "" then
    W.verifyAddress receiveToken.blockchain swapBlob.withdrawAddress
  verifySendAmount verifyBalance swapBlob.password sendToken swapBlob.sendAmount
    swapBlob.brokerFee
  verifyReceiveAmount verifyBalance swapBlob.password receiveToken
  patchTerms H now { swapBlob with id := encodeToString swapID.1 }

def patchDelayedSwap (H : Hashes) (verifyBalance : VerifyBalance) (now : Int)
    (swapID : Bytes32) (blob : SwapBlob) : Except GoError SwapBlob := do
  if blob.delayCallbackURL = "" then
    .error (.errorf "delay url cannot be empty")
  let blob := { blob with id := encodeToString swapID.1 }
  let sendToken ← patchToken blob.sendToken
  verifySendAmount verifyBalance blob.password sendToken blob.sendAmount blob.brokerFee
  let receiveToken ← patchToken blob.receiveToken
  verifyReceiveAmount verifyBalance blob.password receiveToken
  return { blob with
    secretHash := secretHash H blob.password blob.id
    timeLock := int64 (now + 3 * expiryUnit) }

section Admission

variable {H : Hashes} {W : Wallet} {verifyBalance : VerifyBalance} {now : Int}
  {swapID : Bytes32} {request blob : SwapBlob}

/-- What admission leaves of a request: everything but the ID, the secret hash and the
    timelock. -/
def Patches (request blob : SwapBlob) : Prop :=
  blob = { request with id := blob.id, secretHash := blob.secretHash, timeLock := blob.timeLock }

theorem patchTerms_patches (h : patchTerms H now request = .ok blob) :
    Patches request blob ∧ blob.id = request.id := by
  unfold patchTerms at h
  split at h
  · cases h
    exact ⟨rfl, rfl⟩
  · split at h
    · cases h
    · split at h
      · cases h
      · split at h
        · cases h
        · cases h
          exact ⟨rfl, rfl⟩

theorem patchTerms_initiator (h : patchTerms H now request = .ok blob)
    (hrole : request.shouldInitiateFirst = true) :
    blob.secretHash = secretHash H blob.password blob.id ∧
      blob.timeLock = int64 (now + 3 * expiryUnit) := by
  unfold patchTerms at h
  rw [if_pos hrole] at h
  cases h
  exact ⟨rfl, rfl⟩

theorem patchTerms_responder (h : patchTerms H now request = .ok blob)
    (hrole : request.shouldInitiateFirst = false) :
    blob = request ∧ int64 (now + 2 * expiryUnit) ≤ blob.timeLock := by
  unfold patchTerms at h
  rw [if_neg (by simp [hrole])] at h
  split at h
  · cases h
  · split at h
    · cases h
    · split at h
      · cases h
      · rename_i hlate
        cases h
        exact ⟨rfl, by omega⟩

/-- A responder's secret hash is the base64 of 32 bytes. -/
theorem patchTerms_secretHash (h : patchTerms H now request = .ok blob)
    (hrole : request.shouldInitiateFirst = false) :
    ∃ bytes, decodeString blob.secretHash = some bytes ∧ bytes.length = 32 := by
  obtain ⟨rfl, -⟩ := patchTerms_responder h hrole
  unfold patchTerms at h
  rw [if_neg (by simp [hrole])] at h
  split at h
  · cases h
  · rename_i bytes hbytes
    by_cases hlength : bytes.length = 32
    · exact ⟨bytes, hbytes, hlength⟩
    · rw [if_pos hlength] at h
      cases h

/-- What a request has passed when it is admitted. -/
structure Admits (W : Wallet) (verifyBalance : VerifyBalance) (request : SwapBlob)
    (send receive : Token) : Prop where
  sendToken : patchToken request.sendToken = .ok send
  sendTo : W.verifyAddress send.blockchain request.sendTo = .ok ()
  receiveToken : patchToken request.receiveToken = .ok receive
  receiveFrom : W.verifyAddress receive.blockchain request.receiveFrom = .ok ()
  withdrawAddress : request.withdrawAddress ≠ "" →
    W.verifyAddress receive.blockchain request.withdrawAddress = .ok ()
  sendAmount : verifySendAmount verifyBalance request.password send request.sendAmount
    request.brokerFee = .ok ()
  receiveAmount : verifyReceiveAmount verifyBalance request.password receive = .ok ()

theorem patchSwap_ok_iff : patchSwap H W verifyBalance now swapID request = .ok blob ↔
    (∃ sendToken receiveToken, Admits W verifyBalance request sendToken receiveToken) ∧
      patchTerms H now { request with id := encodeToString swapID.1 } = .ok blob := by
  unfold patchSwap
  constructor
  · intro h
    obtain ⟨sendToken, hsend, h⟩ := except_bind_eq_ok_iff.mp h
    obtain ⟨_, hsendTo, h⟩ := except_bind_eq_ok_iff.mp h
    obtain ⟨receiveToken, hreceive, h⟩ := except_bind_eq_ok_iff.mp h
    obtain ⟨_, hreceiveFrom, h⟩ := except_bind_eq_ok_iff.mp h
    split at h
    · obtain ⟨_, hwithdraw, h⟩ := except_bind_eq_ok_iff.mp h
      obtain ⟨_, hsendAmount, h⟩ := except_bind_eq_ok_iff.mp h
      obtain ⟨_, hreceiveAmount, h⟩ := except_bind_eq_ok_iff.mp h
      exact ⟨⟨_, _, hsend, hsendTo, hreceive, hreceiveFrom, fun _ => hwithdraw, hsendAmount,
        hreceiveAmount⟩, h⟩
    · rename_i hwithdraw
      obtain ⟨_, hsendAmount, h⟩ := except_bind_eq_ok_iff.mp h
      obtain ⟨_, hreceiveAmount, h⟩ := except_bind_eq_ok_iff.mp h
      exact ⟨⟨_, _, hsend, hsendTo, hreceive, hreceiveFrom, fun hne => absurd hne hwithdraw,
        hsendAmount, hreceiveAmount⟩, h⟩
  · rintro ⟨⟨sendToken, receiveToken, hadmits⟩, h⟩
    refine except_bind_eq_ok_iff.mpr ⟨_, hadmits.sendToken, ?_⟩
    refine except_bind_eq_ok_iff.mpr ⟨_, hadmits.sendTo, ?_⟩
    refine except_bind_eq_ok_iff.mpr ⟨_, hadmits.receiveToken, ?_⟩
    refine except_bind_eq_ok_iff.mpr ⟨_, hadmits.receiveFrom, ?_⟩
    split
    · rename_i hwithdraw
      refine except_bind_eq_ok_iff.mpr ⟨_, hadmits.withdrawAddress hwithdraw, ?_⟩
      refine except_bind_eq_ok_iff.mpr ⟨_, hadmits.sendAmount, ?_⟩
      exact except_bind_eq_ok_iff.mpr ⟨_, hadmits.receiveAmount, h⟩
    · refine except_bind_eq_ok_iff.mpr ⟨_, hadmits.sendAmount, ?_⟩
      exact except_bind_eq_ok_iff.mpr ⟨_, hadmits.receiveAmount, h⟩

theorem patchSwap_ok (h : patchSwap H W verifyBalance now swapID request = .ok blob) :
    patchTerms H now { request with id := encodeToString swapID.1 } = .ok blob :=
  (patchSwap_ok_iff.mp h).2

theorem patchSwap_patches (h : patchSwap H W verifyBalance now swapID request = .ok blob) :
    Patches request blob ∧ blob.id = encodeToString swapID.1 := by
  obtain ⟨hpatches, hid⟩ := patchTerms_patches (patchSwap_ok h)
  refine ⟨?_, hid⟩
  unfold Patches at hpatches ⊢
  exact hpatches

/-- An initiator's secret hash is that of the secret it will reveal. -/
theorem patchSwap_secretHash (h : patchSwap H W verifyBalance now swapID request = .ok blob)
    (hrole : blob.shouldInitiateFirst = true) :
    blob.secretHash = secretHash H blob.password blob.id := by
  have hpatches := (patchSwap_patches h).1
  have hrequest : request.shouldInitiateFirst = true := by
    rw [hpatches] at hrole
    exact hrole
  exact (patchTerms_initiator (patchSwap_ok h) hrequest).1

theorem patchDelayedSwap_ok
    (h : patchDelayedSwap H verifyBalance now swapID request = .ok blob) :
    Patches request blob ∧ blob.id = encodeToString swapID.1 ∧
      blob.secretHash = secretHash H blob.password blob.id := by
  unfold patchDelayedSwap at h
  split at h
  · cases h
  · obtain ⟨_, -, h⟩ := except_bind_eq_ok_iff.mp h
    obtain ⟨_, -, h⟩ := except_bind_eq_ok_iff.mp h
    obtain ⟨_, -, h⟩ := except_bind_eq_ok_iff.mp h
    obtain ⟨_, -, h⟩ := except_bind_eq_ok_iff.mp h
    cases h
    exact ⟨rfl, rfl, rfl⟩

end Admission

/-! ### Responses -/

def sign (H : Hashes) (W : Wallet) (password : String) (message : List UInt8) :
    Except GoError (List UInt8) :=
  match W.ecdsaSigner password with
  | .error err => .error (.wrapped "unable to load ecdsa signer" err)
  | .ok signer =>
      match signer (H.sha3Sum256 message) with
      | .error err => .error (.wrapped "failed to sign swap response" err)
      | .ok sig => .ok sig

/-- The JSON encodings that are signed. -/
structure Json where
  marshalBlob : SwapBlob → List UInt8
  marshalSigned : (message : List UInt8) → (signature : String) → Except GoError (List UInt8)

def signDelayInfo (H : Hashes) (W : Wallet) (J : Json) (blob : SwapBlob) :
    Except GoError SwapBlob :=
  match sign H W blob.password blob.delayInfo with
  | .error err => .error (.wrapped "failed to sign delay info" err)
  | .ok delayInfoSig =>
      match J.marshalSigned blob.delayInfo (encodeToString delayInfoSig) with
      | .error err => .error (.wrapped "unable to marshal signed delay info" err)
      | .ok signedDelayInfo => .ok { blob with delayInfo := signedDelayInfo }

structure PostSwapResponse where
  id : SwapID := ""
  swap : SwapBlob := {}
  signature : String := ""
deriving DecidableEq

/-- What posting a response to the `responseURL` may end in: no answer, or a status code
    and the reading of the body. -/
abbrev PostResult := Except GoError (Int × Except GoError String)

/-- The blob of a response, for the addresses of the wallet. -/
def responseBlob (blob : SwapBlob) (sendTo receiveFrom : String) : SwapBlob where
  sendToken := blob.receiveToken
  receiveToken := blob.sendToken
  sendAmount := blob.receiveAmount
  receiveAmount := blob.sendAmount
  sendTo := sendTo
  receiveFrom := receiveFrom
  secretHash := blob.secretHash
  timeLock := blob.timeLock
  brokerFee := blob.brokerFee
  brokerSendTokenAddr := blob.brokerReceiveTokenAddr
  brokerReceiveTokenAddr := blob.brokerSendTokenAddr

/-- What is posted to the response URL: only an initiator sends its blob. -/
def postedResponse (blob response : SwapBlob) (sig : List UInt8) : PostSwapResponse :=
  if blob.shouldInitiateFirst then { swap := response, signature := encodeToString sig } else {}

def buildSwapResponse (H : Hashes) (W : Wallet) (J : Json)
    (post : PostSwapResponse → PostResult) (blob : SwapBlob) :
    Except GoError PostSwapResponse := do
  let sendToken ← patchToken blob.receiveToken
  let receiveToken ← patchToken blob.sendToken
  let sendTo ← W.getAddress blob.password sendToken.blockchain
  let receiveFrom ← W.getAddress blob.password receiveToken.blockchain
  let responseBlobSig ← sign H W blob.password
    (J.marshalBlob (responseBlob blob sendTo receiveFrom))
  let swapResponse :=
    postedResponse blob (responseBlob blob sendTo receiveFrom) responseBlobSig
  if blob.responseURL ≠ "" then
    let (statusCode, respBytes) ← post swapResponse
    if statusCode ≠ 200 then
      let respBytes ← respBytes
      .error (.errorf (s!"unexpected status code ({statusCode}) while" ++
        s!"posting to the response url: {respBytes}"))
  return { swapResponse with id := blob.id }

/-- What posting a delayed swap writes to the receiver. -/
def postDelayedSwaps (H : Hashes) (W : Wallet) (J : Json) (verifyBalance : VerifyBalance)
    (now : Int) (swapID : Bytes32) (swapReq : SwapBlob) : Except GoError SwapBlob := do
  let blob ← patchDelayedSwap H verifyBalance now swapID swapReq
  signDelayInfo H W J blob

section Responses

variable {H : Hashes} {W : Wallet} {J : Json} {blob : SwapBlob}

theorem signDelayInfo_ok {signed : SwapBlob} (h : signDelayInfo H W J blob = .ok signed) :
    signed = { blob with delayInfo := signed.delayInfo } := by
  unfold signDelayInfo at h
  split at h
  · cases h
  · split at h
    · cases h
    · cases h
      rfl

/-- The swap that the counterparty of an initiator is to post. -/
structure IsResponse (W : Wallet) (blob response : SwapBlob) : Prop where
  sendToken : response.sendToken = blob.receiveToken
  receiveToken : response.receiveToken = blob.sendToken
  sendAmount : response.sendAmount = blob.receiveAmount
  receiveAmount : response.receiveAmount = blob.sendAmount
  sendTo : ∀ token, patchToken blob.receiveToken = .ok token →
    W.getAddress blob.password token.blockchain = .ok response.sendTo
  receiveFrom : ∀ token, patchToken blob.sendToken = .ok token →
    W.getAddress blob.password token.blockchain = .ok response.receiveFrom
  secretHash : response.secretHash = blob.secretHash
  timeLock : response.timeLock = blob.timeLock
  shouldInitiateFirst : response.shouldInitiateFirst = false
  brokerFee : response.brokerFee = blob.brokerFee
  brokerSendTokenAddr : response.brokerSendTokenAddr = blob.brokerReceiveTokenAddr
  brokerReceiveTokenAddr : response.brokerReceiveTokenAddr = blob.brokerSendTokenAddr

theorem postedResponse_initiator (hrole : blob.shouldInitiateFirst = true) (response : SwapBlob)
    (sig : List UInt8) :
    postedResponse blob response sig = { swap := response, signature := encodeToString sig } :=
  if_pos hrole

theorem buildSwapResponse_ok {post : PostSwapResponse → PostResult}
    {response : PostSwapResponse} (h : buildSwapResponse H W J post blob = .ok response)
    (hrole : blob.shouldInitiateFirst = true) : IsResponse W blob response.swap := by
  unfold buildSwapResponse at h
  obtain ⟨sendToken, hsend, h⟩ := except_bind_eq_ok_iff.mp h
  obtain ⟨receiveToken, hreceive, h⟩ := except_bind_eq_ok_iff.mp h
  obtain ⟨sendTo, hsendTo, h⟩ := except_bind_eq_ok_iff.mp h
  obtain ⟨receiveFrom, hreceiveFrom, h⟩ := except_bind_eq_ok_iff.mp h
  obtain ⟨sig, -, h⟩ := except_bind_eq_ok_iff.mp h
  have hto : ∀ token, patchToken blob.receiveToken = .ok token →
      W.getAddress blob.password token.blockchain = .ok sendTo := by
    intro token htoken
    rw [Except.ok.inj (htoken.symm.trans hsend)]
    exact hsendTo
  have hfrom : ∀ token, patchToken blob.sendToken = .ok token →
      W.getAddress blob.password token.blockchain = .ok receiveFrom := by
    intro token htoken
    rw [Except.ok.inj (htoken.symm.trans hreceive)]
    exact hreceiveFrom
  simp only [postedResponse_initiator hrole] at h
  -- posting the response does not change it
  split at h
  · obtain ⟨⟨statusCode, respBytes⟩, -, h⟩ := except_bind_eq_ok_iff.mp h
    dsimp only at h
    split at h
    · obtain ⟨_, -, h⟩ := except_bind_eq_ok_iff.mp h
      cases h
    · cases h
      exact ⟨rfl, rfl, rfl, rfl, hto, hfrom, rfl, rfl, rfl, rfl, rfl, rfl⟩
  · cases h
    exact ⟨rfl, rfl, rfl, rfl, hto, hfrom, rfl, rfl, rfl, rfl, rfl, rfl⟩

end Responses

end Swapperd.Handler
