/-
  Swapperd/BitcoinRefunds.lean
  ============================
  **When a Bitcoin HTLC can be taken back** (`patchSwap`, `buildNativeSwap`,
  `newInitiateScript` and `Refund`).

  The script asks for the timelock of the swap, an `int64`; the transaction of `Refund`
  carries its low 32 bits.  Both are the timelock that the request came with, or that an
  initiator was given.
-/
import Swapperd.BitcoinAmounts
import Swapperd.BitcoinSpends

namespace Swapperd.Bitcoin

open GoLibrary Chain Handler Builder ScriptMachine

/-! ### The script of a binder -/

theorem addressToPubKeyHash_ok {net : Network} (hnet : net.Canonical) {address : String}
    {hash160 : Bytes} (h : addressToPubKeyHash net address = .ok hash160) :
    hash160.length = 20 := by
  unfold addressToPubKeyHash at h
  split at h
  · cases h
  · rename_i haddress
    cases h
    exact hnet.hash160 _ _ haddress
  · cases h

/-- The script of a binder is the one that `newInitiateScript` builds from its swap. -/
theorem newBTCSwapContractBinder_script {net : Network} (hnet : net.Canonical) {swap : Swap}
    {cost : Cost} {b : SwapContractBinder}
    (h : newBTCSwapContractBinder net swap cost = .ok b) :
    ∃ pkhMe pkhThem : KeyHash,
      addressToPubKeyHash net b.swap.fundingAddress = .ok pkhMe.1 ∧
        newInitiateScript net pkhMe.1 pkhThem.1 b.swap.timeLock b.swap.secretHash.1 =
          .ok b.script := by
  unfold newBTCSwapContractBinder at h
  obtain ⟨contract, hcontract, h⟩ := except_bind_eq_ok_iff.mp h
  cases h
  unfold buildInitiateScript at hcontract
  obtain ⟨pkhMe, hme, hcontract⟩ := except_bind_eq_ok_iff.mp hcontract
  obtain ⟨pkhThem, hthem, hcontract⟩ := except_bind_eq_ok_iff.mp hcontract
  obtain ⟨script, hscript, hcontract⟩ := except_bind_eq_ok_iff.mp hcontract
  obtain ⟨scriptAddr, -, hcontract⟩ := except_bind_eq_ok_iff.mp hcontract
  cases hcontract
  rw [mapError_eq_ok_iff] at hme hthem hscript
  exact ⟨⟨pkhMe, addressToPubKeyHash_ok hnet hme⟩, ⟨pkhThem, addressToPubKeyHash_ok hnet hthem⟩,
    hme, hscript⟩

/-! ### Lock times -/

/-- A transaction with a lock time can be mined in a block after `height` and `time`. -/
def Final (lockTime : Int) (height time : Int) : Prop :=
  lockTime = 0 ∨ lockTime < (if lockTime < lockTimeThreshold then height else time)

/-- A context in which a transaction spends. -/
def spendContext (ctx : Context) (tx : Tx) : Context :=
  { ctx with lockTime := tx.lockTime.toNat, sequence := tx.sequence }

namespace SwapContractBinder

/-- `Refund` sends `tx`, for some answer of the chain. -/
def SendsRefund (b : SwapContractBinder) (tx : Tx) : Prop :=
  ∃ pkScript answer, (b.refundCheck pkScript).read answer = some tx

/-- The HTLC can be taken back once its timelock is over: the script reads the timelock as
    its operand, the transaction that `Refund` sends carries the same, and after that time
    it is final and unlocks the HTLC for every key of the funding address that has
    signed. -/
structure RefundableAfterExpiry (net : Network) (b : SwapContractBinder) : Prop where
  operand : ∃ before lock after,
    parse b.script =
        some (before ++ .op (.push lock) :: .op .checkLockTimeVerify :: after) ∧
      readScriptNum 5 lock = some b.swap.timeLock
  lockTime : ∀ tx, b.SendsRefund tx → tx.lockTime = b.swap.timeLock
  final : ∀ tx, b.SendsRefund tx → ∀ height time, b.swap.timeLock < time →
    Final tx.lockTime height time
  spends : ∀ tx, b.SendsRefund tx → ∀ ctx cleanStack sig pubKey,
    sig.length ≤ 520 → pubKey.length ≤ 520 →
    addressToPubKeyHash net b.swap.fundingAddress = .ok (ctx.hash160 (pushData pubKey)) →
    ctx.checkSig (pushData sig) (pushData pubKey) = some true →
    ∃ sigScript, signatureScript net b.script tx sig pubKey = .ok sigScript ∧
      Unlocks (spendContext ctx tx) cleanStack (ctx.hash160 b.script) sigScript

variable {net : Network} {b : SwapContractBinder} {tx : Tx}

theorem SendsRefund.eq (h : b.SendsRefund tx) :
    ∃ outs, tx = .btcRefund outs (b.swap.timeLock % 2 ^ 32) := by
  obtain ⟨pkScript, answer, hread⟩ := h
  unfold refundCheck at hread
  dsimp only at hread
  split at hread
  · cases hread
  · cases hread
  · cases hread
    exact ⟨_, rfl⟩

theorem sendsRefund (b : SwapContractBinder) :
    ∃ outs, b.SendsRefund (.btcRefund outs (b.swap.timeLock % 2 ^ 32)) :=
  ⟨_, [], .ok (true, 0), rfl⟩

/-- A lock time that is final after any later time is no block height. -/
theorem timeLock_of_final {lockTime : Int} (hpos : 0 ≤ lockTime)
    (h : ∀ height time, lockTime < time → Final lockTime height time) :
    lockTime = 0 ∨ 500000000 ≤ lockTime := by
  rcases h 0 (lockTime + 1) (by omega) with hzero | hfinal
  · exact .inl hzero
  · unfold lockTimeThreshold at hfinal
    split_ifs at hfinal <;> omega

theorem final_of_timeLock {lockTime height time : Int}
    (hlock : lockTime = 0 ∨ 500000000 ≤ lockTime) (hover : lockTime < time) :
    Final lockTime height time := by
  unfold Final lockTimeThreshold
  rcases hlock with hzero | htime
  · exact .inl hzero
  · rw [if_neg (by omega)]
    exact .inr hover

/-- The transaction of `Refund` carries a timelock that fits in 32 bits. -/
theorem spendContext_satisfies {ctx : Context} {outs : List TxOut} {lockTime : Int}
    (hpos : 0 ≤ lockTime) :
    (spendContext ctx (.btcRefund outs lockTime)).SatisfiesLockTime lockTime := by
  have hctx : ((spendContext ctx (.btcRefund outs lockTime)).lockTime : Int) = lockTime :=
    Int.toNat_of_nonneg hpos
  unfold Context.SatisfiesLockTime
  rw [hctx]
  exact ⟨hpos, Iff.rfl, le_refl _, by simp [spendContext, Tx.sequence]⟩

/-- The script of an HTLC reads the lock time that is pushed. -/
theorem operand_of_script {pkhMe pkhThem : KeyHash} (hnet : net.Canonical)
    (hscript : newInitiateScript net pkhMe.1 pkhThem.1 b.swap.timeLock b.swap.secretHash.1 =
      .ok b.script) (hlength : (scriptNum b.swap.timeLock).length ≤ 5) :
    ∃ before lock after,
      parse b.script =
          some (before ++ .op (.push lock) :: .op .checkLockTimeVerify :: after) ∧
        readScriptNum 5 lock = some b.swap.timeLock := by
  obtain ⟨hassemble, hshort⟩ := newInitiateScript_ok hnet hscript
  refine ⟨.branchIf :: (List.map .op (sizeLock 32 ++ hashLock b.swap.secretHash.1 ++
      [.dup, .hash160, .push pkhThem.1]) ++ [.branchElse]), scriptNum b.swap.timeLock,
    List.map .op [.drop, .dup, .hash160, .push pkhMe.1] ++
      (.branchEnd :: List.map .op [.equalVerify, .checkSig]), ?_,
    readScriptNum_scriptNum_iff.mpr ⟨hlength, rfl⟩⟩
  rw [hassemble, parse_assemble hshort]
  simp [htlcScript, conditional, timeLock]

theorem refundable_iff_timeLock (hnet : net.Canonical) {swap : Swap} {cost : Cost}
    (hbind : newBTCSwapContractBinder net swap cost = .ok b) :
    b.RefundableAfterExpiry net ↔
      (b.swap.timeLock = 0 ∨ 500000000 ≤ b.swap.timeLock) ∧ b.swap.timeLock < 2 ^ 32 := by
  obtain ⟨pkhMe, pkhThem, hfunding, hscript⟩ := newBTCSwapContractBinder_script hnet hbind
  constructor
  · intro h
    obtain ⟨outs, hsends⟩ := b.sendsRefund
    have hlock : b.swap.timeLock % 2 ^ 32 = b.swap.timeLock := h.lockTime _ hsends
    refine ⟨timeLock_of_final (by omega) fun height time hover => ?_, by omega⟩
    have hfinal := h.final _ hsends height time hover
    rwa [h.lockTime _ hsends] at hfinal
  · rintro ⟨htime, hhigh⟩
    have hlock : b.swap.timeLock % 2 ^ 32 = b.swap.timeLock := by omega
    have hlength : (scriptNum b.swap.timeLock).length ≤ 5 :=
      length_scriptNum_le (k := 4) (by omega)
    refine ⟨operand_of_script hnet hscript hlength, ?_, ?_, ?_⟩
    · intro tx hsends
      obtain ⟨outs, rfl⟩ := hsends.eq
      exact hlock
    · intro tx hsends height time hover
      obtain ⟨outs, rfl⟩ := hsends.eq
      show Final (b.swap.timeLock % 2 ^ 32) height time
      rw [hlock]
      exact final_of_timeLock htime hover
    · intro tx hsends ctx cleanStack sig pubKey hsig hpubKey hkey hvalid
      obtain ⟨outs, rfl⟩ := hsends.eq
      rw [hlock]
      obtain ⟨sigScript, h⟩ := exists_newRefundScript hnet hscript hlength hsig hpubKey
      have hown : ctx.hash160 (pushData pubKey) = pkhMe.1 :=
        Except.ok.inj (hkey.symm.trans hfunding)
      refine ⟨sigScript, h, ?_⟩
      -- the hash functions and signatures of the context are those of `ctx`
      let spend := spendContext ctx (.btcRefund outs b.swap.timeLock)
      show Unlocks spend cleanStack (spend.hash160 b.script) sigScript
      rw [newRefundScript_unlocks_iff hnet hscript h]
      exact ⟨⟨hlength, spendContext_satisfies (by omega)⟩, hown, hvalid⟩

end SwapContractBinder

/-! ### Timelocks of requests -/

/-- The timelock of an accepted swap: an initiator's is set from the clock, a responder's
    is the one that is posted. -/
def acceptedTimeLock (now : Int) (request : SwapBlob) : Int :=
  if request.shouldInitiateFirst then int64 (now + 3 * expiryUnit) else request.timeLock

theorem patchSwap_acceptedTimeLock {H : Hashes} {W : Wallet} {verifyBalance : VerifyBalance}
    {now : Int} {swapID : Bytes32} {request blob : SwapBlob}
    (h : patchSwap H W verifyBalance now swapID request = .ok blob) :
    blob.timeLock = acceptedTimeLock now request := by
  have hpatch := patchSwap_ok h
  unfold acceptedTimeLock
  cases hrole : request.shouldInitiateFirst with
  | true =>
      rw [if_pos rfl]
      exact (patchTerms_initiator hpatch hrole).2
  | false =>
      rw [if_neg (by decide), (patchTerms_responder hpatch hrole).1]

/-- **A funded HTLC can be taken back after expiry exactly when the accepted timelock is a
    time that fits in 32 bits.** -/
theorem refundable_iff {H : Hashes} {W : Wallet} {verifyBalance : VerifyBalance} {now : Int}
    {swapID : Bytes32} {request blob : SwapBlob} {timelock : Int} {fundingAddress : String}
    {native : Swap} {net : Network} {cost : Cost} {b : SwapContractBinder}
    (hnet : net.Canonical)
    (hpatch : patchSwap H W verifyBalance now swapID request = .ok blob)
    (hbuild : buildNativeSwap W blob timelock fundingAddress = .ok native)
    (hbind : newBTCSwapContractBinder net native cost = .ok b) :
    b.RefundableAfterExpiry net ↔
      (acceptedTimeLock now request = 0 ∨ 500000000 ≤ acceptedTimeLock now request) ∧
        acceptedTimeLock now request < 2 ^ 32 := by
  have htime : b.swap.timeLock = acceptedTimeLock now request := by
    rw [(newBTCSwapContractBinder_ok hbind).2]
    exact (buildNativeSwap_ok hbuild).2.1.trans (patchSwap_acceptedTimeLock hpatch)
  rw [SwapContractBinder.refundable_iff_timeLock hnet hbind, htime]

/-- No transaction at all satisfies a lock time that does not fit in 32 bits. -/
theorem unspendable_of_timeLock_high {net : Network} {swap : Swap} {cost : Cost}
    {b : SwapContractBinder} (hnet : net.Canonical)
    (hbind : newBTCSwapContractBinder net swap cost = .ok b)
    (hhigh : 2 ^ 32 ≤ b.swap.timeLock) {ctx : Context} (hctx : ctx.lockTime < 2 ^ 32)
    {cleanStack : Bool} {sig pubKey sigScript : Bytes}
    (h : newRefundScript net b.script sig pubKey = .ok sigScript) :
    ¬ Unlocks ctx cleanStack (ctx.hash160 b.script) sigScript := by
  intro hunlocks
  obtain ⟨pkhMe, pkhThem, -, hscript⟩ := newBTCSwapContractBinder_script hnet hbind
  obtain ⟨⟨-, -, -, hlock, -⟩, -⟩ :=
    (newRefundScript_unlocks_iff hnet hscript h).mp hunlocks
  omega

/-! ### A timelock in the year 2155 -/

/-- The test network with the script builder. -/
def farNet : Network := { Admission.testNet3 with script := buildScript }

theorem farNet_canonical : farNet.Canonical where
  script_iff := buildScript_iff
  hash160 := by
    intro address hash160 h
    unfold farNet Admission.testNet3 at h
    dsimp only at h
    split_ifs at h
    · cases h
      rfl
    · cases h
      rfl
    · cases h

/-- A responder's request to send Bitcoin, whose counterparty chose the timelock. -/
def farRequest : SwapBlob :=
  { Admission.testRequest Admission.theirAddress with timeLock := 5844967296 }

def farNative : Swap :=
  (buildNativeSwap Admission.testWallet farRequest 0 Admission.ownAddress).toOption.getD
    sampleNative

theorem far_accepted :
    patchSwap zeroHashes Admission.testWallet (fun _ _ _ => .ok ()) 1549900000 sampleHash
      farRequest = .ok farRequest := by
  decide +kernel

theorem far_built :
    buildNativeSwap Admission.testWallet farRequest 0 Admission.ownAddress = .ok farNative ∧
      ∃ b, newBTCSwapContractBinder farNet farNative ∅ = .ok b := by
  refine ⟨eq_ok_getD_of_isOk _ ?_, exists_binder ∅ ?_⟩
  · decide +kernel
  · decide +kernel

theorem refundable_iff_far :
    ∃ b, newBTCSwapContractBinder farNet farNative ∅ = .ok b ∧
      (b.RefundableAfterExpiry farNet ↔
        (acceptedTimeLock 1549900000 farRequest = 0 ∨
            500000000 ≤ acceptedTimeLock 1549900000 farRequest) ∧
          acceptedTimeLock 1549900000 farRequest < 2 ^ 32) := by
  obtain ⟨hbuilt, b, hb⟩ := far_built
  exact ⟨b, hb, refundable_iff farNet_canonical far_accepted hbuilt hb⟩

/-- Its HTLC asks for a lock time that no transaction can carry. -/
theorem far_not_refundable :
    patchSwap zeroHashes Admission.testWallet (fun _ _ _ => .ok ()) 1549900000 sampleHash
        farRequest = .ok farRequest ∧
      buildNativeSwap Admission.testWallet farRequest 0 Admission.ownAddress = .ok farNative ∧
      ∃ b, newBTCSwapContractBinder farNet farNative ∅ = .ok b ∧
        ¬ b.RefundableAfterExpiry farNet ∧
        ∀ ctx : Context, ctx.lockTime < 2 ^ 32 → ∀ cleanStack sig pubKey sigScript,
          newRefundScript farNet b.script sig pubKey = .ok sigScript →
            ¬ Unlocks ctx cleanStack (ctx.hash160 b.script) sigScript := by
  obtain ⟨hbuilt, b, hb⟩ := far_built
  have htime : b.swap.timeLock = 5844967296 := by
    rw [(newBTCSwapContractBinder_ok hb).2]
    exact (buildNativeSwap_ok hbuilt).2.1
  refine ⟨far_accepted, hbuilt, b, hb, ?_, ?_⟩
  · rw [SwapContractBinder.refundable_iff_timeLock farNet_canonical hb, htime]
    decide
  · intro ctx hctx cleanStack sig pubKey sigScript h
    exact unspendable_of_timeLock_high farNet_canonical hb (by rw [htime]; decide) hctx h

end Swapperd.Bitcoin
