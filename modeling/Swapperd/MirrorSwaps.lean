/-
  Swapperd/MirrorSwaps.lean
  =========================
  **Both parties build the same two contracts.**

  The initiator's daemon answers a posted swap with the swap that the responder is to
  post.  When the responder posts it unchanged, what one party builds as its native
  swap the other builds as its foreign swap (`both_build_same_swaps`), down to the
  Bitcoin script, its address and the value locked in it.
-/
import Swapperd.SwapHandler
import Swapperd.BitcoinScript

namespace Swapperd

open GoLibrary Handler Builder

/-- The two swaps are the same contract. They may differ in the ID and the fee, and in
    where the redeemed funds go. -/
structure Mirrors (swap swap' : Swap) : Prop where
  token : swap.token = swap'.token
  value : swap.value = swap'.value
  secretHash : swap.secretHash = swap'.secretHash
  timeLock : swap.timeLock = swap'.timeLock
  fundingAddress : swap.fundingAddress = swap'.fundingAddress
  spendingAddress : swap.spendingAddress = swap'.spendingAddress
  brokerFee : swap.brokerFee = swap'.brokerFee
  brokerAddress : swap.brokerAddress = swap'.brokerAddress

/-- Everything of a response but the ID is what the responder's daemon admits. -/
theorem patchSwap_response {H : Hashes} {W : Wallet} {verifyBalance : VerifyBalance} {now : Int}
    {swapID : Bytes32} {response blob : SwapBlob}
    (h : patchSwap H W verifyBalance now swapID response = .ok blob)
    (hrole : response.shouldInitiateFirst = false) :
    blob = { response with id := encodeToString swapID.1 } :=
  (patchTerms_responder (patchSwap_ok h) hrole).1

/-- The swaps of an initiator and of a responder whose blobs mirror each other. -/
theorem complementary_mirrors {WI WR : Wallet} {initiator response responder : SwapBlob}
    {nativeI foreignI nativeR foreignR : Swap} (hresponse : IsResponse WI initiator response)
    (hresponder : responder = { response with id := responder.id, password := responder.password })
    (hsendTo : ∀ token, patchToken initiator.sendToken = .ok token →
      WR.getAddress responder.password token.blockchain = .ok initiator.sendTo)
    (hreceiveFrom : ∀ token, patchToken initiator.receiveToken = .ok token →
      WR.getAddress responder.password token.blockchain = .ok initiator.receiveFrom)
    (hI : AreComplementary WI initiator nativeI foreignI)
    (hR : AreComplementary WR responder nativeR foreignR) :
    Mirrors nativeI foreignR ∧ Mirrors foreignI nativeR := by
  have hsendToken : responder.sendToken = initiator.receiveToken := by
    rw [hresponder]; exact hresponse.sendToken
  have hreceiveToken : responder.receiveToken = initiator.sendToken := by
    rw [hresponder]; exact hresponse.receiveToken
  have hsendAmount : responder.sendAmount = initiator.receiveAmount := by
    rw [hresponder]; exact hresponse.sendAmount
  have hreceiveAmount : responder.receiveAmount = initiator.sendAmount := by
    rw [hresponder]; exact hresponse.receiveAmount
  have hfee : initiator.brokerFee = responder.brokerFee := by
    rw [hresponder]; exact hresponse.brokerFee.symm
  have hhash : initiator.secretHash = responder.secretHash := by
    rw [hresponder]; exact hresponse.secretHash.symm
  have htime : initiator.timeLock = responder.timeLock := by
    rw [hresponder]; exact hresponse.timeLock.symm
  have hbrokerSend : responder.brokerSendTokenAddr = initiator.brokerReceiveTokenAddr := by
    rw [hresponder]; exact hresponse.brokerSendTokenAddr
  have hbrokerReceive : responder.brokerReceiveTokenAddr = initiator.brokerSendTokenAddr := by
    rw [hresponder]; exact hresponse.brokerReceiveTokenAddr
  have hto : responder.sendTo = response.sendTo := by rw [hresponder]
  have hfrom : responder.receiveFrom = response.receiveFrom := by rw [hresponder]
  constructor
  · obtain ⟨htoken, hvalue, hsecret, hshare, hbroker⟩ :=
      hI.native_leg.agree hR.foreign_leg hreceiveToken.symm hreceiveAmount.symm
        hbrokerReceive.symm hfee hhash
    refine ⟨htoken, hvalue, hsecret, ?_, ?_, ?_, hshare, hbroker⟩
    · rw [hI.native_timeLock, hR.foreign_timeLock, htime]
    · have haddress := hresponse.receiveFrom _ hI.native_leg.token
      rw [hR.foreign_funding, hfrom]
      exact Except.ok.inj (hI.native_funding.symm.trans haddress)
    · have haddress := hsendTo _ hI.native_leg.token
      rw [htoken] at haddress
      rw [hI.native_spending]
      exact Except.ok.inj (haddress.symm.trans hR.foreign_spending)
  · obtain ⟨htoken, hvalue, hsecret, hshare, hbroker⟩ :=
      hI.foreign_leg.agree hR.native_leg hsendToken.symm hsendAmount.symm
        hbrokerSend.symm hfee hhash
    refine ⟨htoken, hvalue, hsecret, ?_, ?_, ?_, hshare, hbroker⟩
    · rw [hI.foreign_timeLock, hR.native_timeLock, htime]
    · have haddress := hreceiveFrom _ hI.foreign_leg.token
      rw [htoken] at haddress
      rw [hI.foreign_funding]
      exact Except.ok.inj (haddress.symm.trans hR.native_funding)
    · have haddress := hresponse.sendTo _ hI.foreign_leg.token
      rw [hR.native_spending, hto]
      exact Except.ok.inj (hI.foreign_spending.symm.trans haddress)

/-! ### Bitcoin -/

/-- What the counterparty of a Bitcoin leg can see of it: the script, its address and the
    value locked. -/
def bitcoinContract (net : Bitcoin.Network) (swap : Swap) (cost : Cost) :
    Except GoError (List UInt8 × String × Int) := do
  let binder ← Bitcoin.newBTCSwapContractBinder net swap cost
  return (binder.script, binder.scriptAddr, binder.swap.value)

/-- Swaps that mirror each other have the same HTLC script and script address, and can be
    built or not alike. -/
theorem Mirrors.buildInitiateScript_eq {swap swap' : Swap} (h : Mirrors swap swap')
    (net : Bitcoin.Network) :
    Bitcoin.buildInitiateScript net swap = Bitcoin.buildInitiateScript net swap' := by
  unfold Bitcoin.buildInitiateScript
  rw [h.fundingAddress, h.spendingAddress, h.timeLock, h.secretHash]

theorem Mirrors.bitcoinContract_eq {swap swap' : Swap} (h : Mirrors swap swap')
    (net : Bitcoin.Network) (cost cost' : Cost) :
    bitcoinContract net swap cost = bitcoinContract net swap' cost' := by
  unfold bitcoinContract Bitcoin.newBTCSwapContractBinder
  rw [h.buildInitiateScript_eq net]
  cases Bitcoin.buildInitiateScript net swap' with
  | error err => rfl
  | ok contract =>
      show Except.ok _ = Except.ok _
      simp [h.value, h.brokerFee]

/-! ### The two parties -/

/-- **Both parties build the same two swaps.**  The initiator's request pays to and is
    funded from the responder's addresses; the responder posts the initiator's response
    under its own password. -/
theorem both_build_same_swaps {H : Hashes} {WI WR : Wallet} {J : Json}
    {post : PostSwapResponse → PostResult} {balanceI balanceR : VerifyBalance}
    {nowI nowR : Int} {idI idR : Bytes32} {request initiator responder : SwapBlob}
    {response : PostSwapResponse} {password : String}
    {nativeI foreignI nativeR foreignR : Swap}
    (hrole : request.shouldInitiateFirst = true)
    (hsendTo : ∀ token, patchToken request.sendToken = .ok token →
      WR.getAddress password token.blockchain = .ok request.sendTo)
    (hreceiveFrom : ∀ token, patchToken request.receiveToken = .ok token →
      WR.getAddress password token.blockchain = .ok request.receiveFrom)
    (hpatchI : patchSwap H WI balanceI nowI idI request = .ok initiator)
    (hresponse : buildSwapResponse H WI J post initiator = .ok response)
    (hpatchR : patchSwap H WR balanceR nowR idR (response.swap.withPassword password) =
      .ok responder)
    (hbuildI : buildComplementarySwaps WI initiator = .ok (nativeI, foreignI))
    (hbuildR : buildComplementarySwaps WR responder = .ok (nativeR, foreignR)) :
    Mirrors nativeI foreignR ∧ Mirrors foreignI nativeR ∧
      ∀ net cost cost',
        bitcoinContract net nativeI cost = bitcoinContract net foreignR cost' ∧
        bitcoinContract net foreignI cost = bitcoinContract net nativeR cost' := by
  have hpatches := (patchSwap_patches hpatchI).1
  have hroleI : initiator.shouldInitiateFirst = true := by
    rw [hpatches]; exact hrole
  have hswap := buildSwapResponse_ok hresponse hroleI
  have hresponder := patchSwap_response hpatchR hswap.shouldInitiateFirst
  have hmirrors : Mirrors nativeI foreignR ∧ Mirrors foreignI nativeR := by
    apply complementary_mirrors hswap _ _ _ (buildComplementarySwaps_ok hbuildI)
      (buildComplementarySwaps_ok hbuildR)
    · rw [hresponder]; rfl
    · intro token htoken
      rw [hpatches] at htoken ⊢
      rw [hresponder]
      exact hsendTo token htoken
    · intro token htoken
      rw [hpatches] at htoken ⊢
      rw [hresponder]
      exact hreceiveFrom token htoken
  refine ⟨hmirrors.1, hmirrors.2, ?_⟩
  intro net cost cost'
  exact ⟨hmirrors.1.bitcoinContract_eq net cost cost',
    hmirrors.2.bitcoinContract_eq net cost cost'⟩

/-! ### A pair of parties -/

def initiatorWallet : Wallet :=
  sampleWallet "mwK6DzHe2P3UyoyoSVEKpC6Ymg7cmsBmkL" "0x9b9a3e7c6aD1a8b7B4b5E3f1F2b8bC0f51b3C0A2"

def sampleID : Bytes32 := ⟨List.replicate 32 7, List.length_replicate⟩

def sampleJson : Json where
  marshalBlob _ := []
  marshalSigned message _ := .ok message

/-- Bitcoin for ether, with a broker fee of five basis points. -/
def sampleRequest : SwapBlob where
  sendToken := "bitcoin"
  receiveToken := "ETH"
  sendAmount := "20000"
  receiveAmount := "5000000000000000"
  sendTo := "mfkvQyDzw2kh6QgFMdRoPr2yBbgqMGNXdR"
  receiveFrom := "0x52bc44d5378309ee2abf1539bf71de1b7d7be3b5"
  shouldInitiateFirst := true
  brokerFee := 5
  brokerSendTokenAddr := "mfkvQyDzw2kh6QgFMdRoPr2yBbgqMGNXdR"
  brokerReceiveTokenAddr := "0x52bc44d5378309ee2abf1539bf71de1b7d7be3b5"
  password := "initiator"

def sampleInitiator : SwapBlob :=
  (patchSwap zeroHashes initiatorWallet (fun _ _ _ => .ok ()) 1550000000 sampleID
    sampleRequest).toOption.getD {}

def sampleResponse : PostSwapResponse :=
  (buildSwapResponse zeroHashes initiatorWallet sampleJson (fun _ => .ok (200, .ok ""))
    sampleInitiator).toOption.getD {}

def sampleResponder : SwapBlob :=
  (patchSwap zeroHashes responderWallet (fun _ _ _ => .ok ()) 1550000060 sampleID
    (sampleResponse.swap.withPassword "responder")).toOption.getD {}

def samplePair (W : Wallet) (blob : SwapBlob) : Swap × Swap :=
  (buildComplementarySwaps W blob).toOption.getD (sampleNative, sampleForeign)

theorem both_build_same_swaps_sample :
    Mirrors (samplePair initiatorWallet sampleInitiator).1
      (samplePair responderWallet sampleResponder).2 := by
  have hsendTo : ∀ token, patchToken sampleRequest.sendToken = .ok token →
      responderWallet.getAddress "responder" token.blockchain = .ok sampleRequest.sendTo := by
    intro token htoken
    have hbitcoin : patchToken sampleRequest.sendToken = .ok tokenBTC := by decide +kernel
    rw [← Except.ok.inj (hbitcoin.symm.trans htoken)]
    rfl
  have hreceiveFrom : ∀ token, patchToken sampleRequest.receiveToken = .ok token →
      responderWallet.getAddress "responder" token.blockchain =
        .ok sampleRequest.receiveFrom := by
    intro token htoken
    have hether : patchToken sampleRequest.receiveToken = .ok tokenETH := by decide +kernel
    rw [← Except.ok.inj (hether.symm.trans htoken)]
    rfl
  have hpatchI : patchSwap zeroHashes initiatorWallet (fun _ _ _ => .ok ()) 1550000000 sampleID
      sampleRequest = .ok sampleInitiator := eq_ok_getD_of_isOk _ (by decide +kernel)
  have hresponse : buildSwapResponse zeroHashes initiatorWallet sampleJson
      (fun _ => .ok (200, .ok "")) sampleInitiator = .ok sampleResponse :=
    eq_ok_getD_of_isOk _ (by decide +kernel)
  have hpatchR : patchSwap zeroHashes responderWallet (fun _ _ _ => .ok ()) 1550000060 sampleID
      (sampleResponse.swap.withPassword "responder") = .ok sampleResponder :=
    eq_ok_getD_of_isOk _ (by decide +kernel)
  have hbuildI : buildComplementarySwaps initiatorWallet sampleInitiator =
      .ok (samplePair initiatorWallet sampleInitiator) := eq_ok_getD_of_isOk _ (by decide +kernel)
  have hbuildR : buildComplementarySwaps responderWallet sampleResponder =
      .ok (samplePair responderWallet sampleResponder) := eq_ok_getD_of_isOk _ (by decide +kernel)
  exact (both_build_same_swaps rfl hsendTo hreceiveFrom hpatchI hresponse hpatchR hbuildI
    hbuildR).1

end Swapperd
