/-
  Swapperd/BitcoinAmounts.lean
  ============================
  **What the Bitcoin binder pays and what it accepts** (`adapter/binder/btc/btc.go`).

  Amounts are unbounded integers in a blob and `int64` in a transaction.  The outputs of
  `Initiate`, `Redeem` and `Refund` are compared to what should be paid out of an HTLC,
  and the amounts that pass `Audit` to the amount that was agreed.
-/
import Swapperd.SwapAdmission
import Swapperd.SwapContracts

namespace Swapperd.Bitcoin

open CallProgram GoLibrary Chain

/-! ### Binders -/

theorem exists_binder {net : Network} {swap : Swap} (cost : Cost)
    (h : (buildInitiateScript net swap).isOk = true) :
    ∃ b, newBTCSwapContractBinder net swap cost = .ok b := by
  unfold newBTCSwapContractBinder
  cases hscript : buildInitiateScript net swap with
  | error err =>
      rw [hscript] at h
      cases h
  | ok contract => exact ⟨_, rfl⟩

/-- What a binder is made of. -/
theorem newBTCSwapContractBinder_ok {net : Network} {swap : Swap} {cost : Cost}
    {b : SwapContractBinder} (h : newBTCSwapContractBinder net swap cost = .ok b) :
    b.fee = int64 swap.fee ∧
      b.swap = { swap with
        brokerFee := minBrokerFee swap.brokerFee
        value := swap.value + minBrokerFee swap.brokerFee } := by
  unfold newBTCSwapContractBinder at h
  obtain ⟨contract, -, h⟩ := except_bind_eq_ok_iff.mp h
  cases h
  exact ⟨rfl, rfl⟩

/-- A broker fee that counts as one is not dust. -/
theorem minBrokerFee_dust {brokerFee : Int} (h : int64 (minBrokerFee brokerFee) ≠ 0) :
    600 ≤ int64 (minBrokerFee brokerFee) := by
  unfold minBrokerFee at h ⊢
  split_ifs at h ⊢ with hsmall
  · decide
  · omega

theorem isInt64_int64 (x : Int) : IsInt64 (int64 x) := by
  unfold IsInt64 int64
  omega

theorem int64_eq_iff {x : Int} : int64 x = x ↔ IsInt64 x := by
  constructor
  · intro h
    unfold int64 at h
    unfold IsInt64
    omega
  · exact int64_of_isInt64

/-! ### Outputs -/

/-- What is paid out of an HTLC that holds `val`: the broker's fee where there is one, and
    the rest. -/
structure PaysOut (brokerFee fee val : Int) (pkScript feePkScript : List UInt8)
    (outs : List TxOut) : Prop where
  no_dust : ∀ out ∈ outs, 600 ≤ out.value
  conserves : (outs.map TxOut.value).sum + fee = val
  broker : ∃ paid, outs =
    (if brokerFee = 0 then [] else [⟨brokerFee, feePkScript⟩]) ++ [⟨paid, pkScript⟩]

namespace SwapContractBinder

/-- `Initiate` adds no dust, whatever the chain reports. -/
def InitiatePays (b : SwapContractBinder) : Prop :=
  ∀ pkScript answer outs, (b.initiateCheck pkScript).read answer = some (.btcInitiate outs) →
    ∀ out ∈ outs, 600 ≤ out.value

/-- `Redeem` pays out an HTLC for which the chain reports `val`, or adds nothing. -/
def RedeemPays (b : SwapContractBinder) (val : Int) : Prop :=
  ∀ secret pkScript feePkScript outs,
    (b.redeemCheck secret pkScript feePkScript).read (.ok (false, val)) =
      some (.btcRedeem outs secret) →
    PaysOut b.swap.brokerFee b.fee val pkScript feePkScript outs

/-- `Refund` takes all of an HTLC for which the chain reports `val`. -/
def RefundPays (b : SwapContractBinder) (val : Int) : Prop :=
  ∀ pkScript outs lockTime,
    (b.refundCheck pkScript).read (.ok (true, val)) = some (.btcRefund outs lockTime) →
    PaysOut 0 b.fee val pkScript [] outs

variable {b : SwapContractBinder} {val : Int}

theorem initiate_pays (b : SwapContractBinder) : b.InitiatePays := by
  intro pkScript answer outs h
  unfold initiateCheck at h
  dsimp only at h
  split at h
  · cases h
  · cases h
  · split at h
    · cases h
    · cases h
      rename_i hdust
      intro out hout
      rw [List.mem_singleton.mp hout]
      exact not_lt.mp hdust

theorem refund_pays_iff : b.RefundPays val ↔ 600 ≤ val - b.fee ∧ IsInt64 (val - b.fee) := by
  constructor
  · intro h
    obtain ⟨hdust, hsum, -⟩ := h [] _ _ rfl
    have hvalue : int64 (val - b.fee) = val - b.fee := by
      simp only [List.map_cons, List.map_nil, List.sum_cons, List.sum_nil] at hsum
      omega
    have hdust' : 600 ≤ int64 (val - b.fee) := hdust _ List.mem_cons_self
    rw [hvalue] at hdust'
    exact ⟨hdust', int64_eq_iff.mp hvalue⟩
  · rintro ⟨hdust, hrange⟩ pkScript outs lockTime hread
    cases hread
    rw [int64_of_isInt64 hrange]
    refine ⟨?_, by simp, _, rfl⟩
    intro out hout
    rw [List.mem_singleton.mp hout]
    exact hdust

/-- What `Redeem` adds when it adds anything. -/
theorem redeemCheck_eq_some_iff {secret : Bytes32} {pkScript feePkScript : List UInt8}
    {outs : List TxOut} :
    (b.redeemCheck secret pkScript feePkScript).read (.ok (false, val)) =
        some (.btcRedeem outs secret) ↔
      600 ≤ int64 (val - int64 b.swap.brokerFee - b.fee) ∧
        outs = [⟨int64 b.swap.brokerFee, feePkScript⟩,
          ⟨int64 (val - int64 b.swap.brokerFee - b.fee), pkScript⟩] := by
  unfold redeemCheck
  dsimp only
  split
  · rename_i hdust
    simp only [reduceCtorEq, false_iff]
    rintro ⟨hpaid, -⟩
    omega
  · rename_i hpaid
    simp only [Option.some_inj, Tx.btcRedeem.injEq, and_true]
    constructor
    · intro h
      exact ⟨not_lt.mp hpaid, h.symm⟩
    · exact fun h => h.2.symm

theorem redeem_pays_iff
    (hmin : int64 b.swap.brokerFee ≠ 0 → 600 ≤ int64 b.swap.brokerFee) :
    b.RedeemPays val ↔ int64 (val - int64 b.swap.brokerFee - b.fee) < 600 ∨
      b.swap.brokerFee ≠ 0 ∧ IsInt64 b.swap.brokerFee ∧
        IsInt64 (val - b.swap.brokerFee - b.fee) := by
  constructor
  · intro h
    rcases lt_or_ge (int64 (val - int64 b.swap.brokerFee - b.fee)) 600 with hlow | hpaid
    · exact .inl hlow
    right
    obtain ⟨-, hsum, paid, hbroker⟩ :=
      h (zeroHashes.sha256 []) [] [] _ (redeemCheck_eq_some_iff.mpr ⟨hpaid, rfl⟩)
    -- there are two outputs, so there is a broker fee
    have hfee : b.swap.brokerFee ≠ 0 := by
      intro hzero
      rw [if_pos hzero] at hbroker
      cases hbroker
    rw [if_neg hfee] at hbroker
    have hexact : int64 b.swap.brokerFee = b.swap.brokerFee :=
      congrArg TxOut.value (List.cons.inj hbroker).1
    refine ⟨hfee, int64_eq_iff.mp hexact, int64_eq_iff.mp ?_⟩
    rw [hexact] at hsum
    simp only [List.map_cons, List.map_nil, List.sum_cons, List.sum_nil] at hsum
    omega
  · rintro (hlow | ⟨hfee, hrange, hrest⟩) secret pkScript feePkScript outs hread
    · obtain ⟨hpaid, -⟩ := redeemCheck_eq_some_iff.mp hread
      omega
    · obtain ⟨hpaid, rfl⟩ := redeemCheck_eq_some_iff.mp hread
      have hexact : int64 b.swap.brokerFee = b.swap.brokerFee := int64_of_isInt64 hrange
      rw [hexact] at hpaid hmin ⊢
      rw [int64_of_isInt64 hrest] at hpaid ⊢
      refine ⟨?_, ?_, val - b.swap.brokerFee - b.fee, ?_⟩
      · intro out hout
        rcases List.mem_cons.mp hout with rfl | hout
        · exact hmin hfee
        · rw [List.mem_singleton.mp hout]
          exact hpaid
      · simp only [List.map_cons, List.map_nil, List.sum_cons, List.sum_nil]
        omega
      · rw [if_neg hfee]
        rfl

/-- **The binder pays out what an HTLC holds, without dust, exactly in these cases.**
    `Initiate` always does.  `Redeem` does when it adds nothing, or when there is a broker
    fee and no amount overflows.  `Refund` does when what is left after the fee is an amount
    and no dust. -/
theorem outputs_pay_iff {net : Network} {swap : Swap} {cost : Cost}
    (h : newBTCSwapContractBinder net swap cost = .ok b) (val : Int) :
    b.InitiatePays ∧
      (b.RedeemPays val ↔
        int64 (val - int64 (minBrokerFee swap.brokerFee) - int64 swap.fee) < 600 ∨
          minBrokerFee swap.brokerFee ≠ 0 ∧ IsInt64 (minBrokerFee swap.brokerFee) ∧
            IsInt64 (val - minBrokerFee swap.brokerFee - int64 swap.fee)) ∧
      (b.RefundPays val ↔ 600 ≤ val - int64 swap.fee ∧ IsInt64 (val - int64 swap.fee)) := by
  obtain ⟨hfee, hswap⟩ := newBTCSwapContractBinder_ok h
  have hbroker : b.swap.brokerFee = minBrokerFee swap.brokerFee := congrArg Swap.brokerFee hswap
  rw [← hbroker, ← hfee]
  refine ⟨initiate_pays b, redeem_pays_iff ?_, refund_pays_iff⟩
  rw [hbroker]
  exact minBrokerFee_dust

end SwapContractBinder

/-! ### Audits -/

/-- The chain reports `amount` for the script address, which is funded when that is what
    was asked for at least. -/
def Reports (amount : Int) : (query : Query) → Answer query → Prop
  | .scriptFunded value, answer => answer = .ok (decide (value ≤ amount), amount)
  | _, _ => True

def reportStep (amount : Int) : Behaviour Chain.Op Reply Unit Unit :=
  fun op _ _ reply _ => Reports amount op.query reply

namespace SwapContractBinder

variable {b : SwapContractBinder}

/-- `Audit` may return nil where the chain reports `amount`. -/
def AuditPasses (b : SwapContractBinder) (amount : Int) : Prop :=
  ∃ events, Exec (reportStep amount) b.audit () events (.ok ()) ()

theorem audit_passes_iff {amount : Int} :
    b.AuditPasses amount ↔
      int64 b.swap.value ≤ amount ∧ int64 (b.swap.value - b.swap.brokerFee) ≤ amount := by
  unfold AuditPasses audit Htlc.ask
  constructor
  · rintro ⟨events, h⟩
    obtain ⟨_, answer, _, rest, _, hanswer, h⟩ := exec_perform_bind_iff.mp h
    obtain rfl : answer = .ok (decide (int64 b.swap.value ≤ amount), amount) := hanswer
    by_cases hfunded : int64 b.swap.value ≤ amount
    · rw [decide_eq_true hfunded] at h
      dsimp only at h
      split at h
      · obtain ⟨-, hfailed, -⟩ := exec_pure_iff.mp h
        cases hfailed
      · rename_i hamount
        exact ⟨hfunded, not_lt.mp hamount⟩
    · rw [decide_eq_false hfunded] at h
      dsimp only at h
      obtain ⟨_, now, _, rest', _, _, h⟩ := exec_perform_bind_iff.mp h
      split at h
      · obtain ⟨-, hexpired, -⟩ := exec_pure_iff.mp h
        cases hexpired
      · obtain ⟨-, hpending, -⟩ := exec_pure_iff.mp h
        cases hpending
  · rintro ⟨hfunded, hamount⟩
    refine ⟨_, exec_perform_bind_iff.mpr ⟨(), _, (), [], rfl, rfl, ?_⟩⟩
    rw [decide_eq_true hfunded]
    dsimp only
    rw [if_neg (not_lt.mpr hamount)]
    exact exec_pure_iff.mpr ⟨rfl, rfl, rfl⟩

/-- The amounts that pass for a swap of `value`, whatever is added to it: none is too low
    exactly when `value` is below `2 ^ 63`. -/
theorem passing_exact_iff (value fee : Int) :
    (∀ amount, IsInt64 amount → int64 (value + fee) ≤ amount ∧ int64 value ≤ amount →
      value ≤ amount) ↔ value < 2 ^ 63 := by
  constructor
  · intro h
    by_contra hvalue
    -- the larger of the two bounds passes, and it is an `int64`
    have hsum := isInt64_int64 (value + fee)
    have hself := isInt64_int64 value
    rcases le_total (int64 (value + fee)) (int64 value) with hle | hle
    · have hpassed := h (int64 value) hself ⟨hle, le_refl _⟩
      unfold IsInt64 at hself
      omega
    · have hpassed := h (int64 (value + fee)) hsum ⟨le_refl _, hle⟩
      unfold IsInt64 at hsum
      omega
  · intro hvalue amount hamount hpassed
    have hself := isInt64_int64 value
    by_cases hrange : IsInt64 value
    · rw [int64_of_isInt64 hrange] at hpassed
      exact hpassed.2
    · unfold IsInt64 at hrange hself
      omega

/-- **`Audit` never passes for less than the agreed amount exactly when that amount is below
    `2 ^ 63`.** -/
theorem audit_exact_iff {net : Network} {W : Wallet} {blob : SwapBlob} {timelock : Int}
    {spendingAddress : String} {foreign : Swap} {cost : Cost}
    (hbuild : Builder.buildForeignSwap W blob timelock spendingAddress = .ok foreign)
    (hbind : newBTCSwapContractBinder net foreign cost = .ok b) :
    ∃ receiveAmount, setString blob.receiveAmount = some receiveAmount ∧
      ((∀ amount, IsInt64 amount → b.AuditPasses amount → receiveAmount ≤ amount) ↔
        receiveAmount < 2 ^ 63) := by
  obtain ⟨hleg, -⟩ := Builder.buildForeignSwap_ok hbuild
  refine ⟨foreign.value, hleg.value, ?_⟩
  have hvalue : b.swap.value = foreign.value + minBrokerFee foreign.brokerFee := by
    rw [(newBTCSwapContractBinder_ok hbind).2]
  have hlocked : b.swap.value - b.swap.brokerFee = foreign.value := by
    rw [(newBTCSwapContractBinder_ok hbind).2]
    exact Int.add_sub_cancel _ _
  simp only [audit_passes_iff, hlocked]
  rw [hvalue]
  exact passing_exact_iff foreign.value (minBrokerFee foreign.brokerFee)

end SwapContractBinder

/-! ### Swaps of the example wallet -/

/-- Ether for Bitcoin: the foreign leg is the one on Bitcoin. -/
def bitcoinBlob (receiveAmount : String) : SwapBlob :=
  { Builder.sampleBlob with
    sendToken := "ETH"
    receiveToken := "BTC"
    receiveAmount := receiveAmount
    receiveFrom := Admission.theirAddress }

def bitcoinForeign (receiveAmount : String) : Swap :=
  (Builder.buildForeignSwap Admission.testWallet (bitcoinBlob receiveAmount) 0
    Admission.ownAddress).toOption.getD Builder.sampleForeign

/-- A blob without a broker fee, and its binder. -/
theorem feeless_built :
    Builder.buildForeignSwap Admission.testWallet (bitcoinBlob "100000") 0 Admission.ownAddress =
        .ok (bitcoinForeign "100000") ∧
      ∃ b, newBTCSwapContractBinder Admission.testNet3 (bitcoinForeign "100000") ∅ = .ok b := by
  refine ⟨eq_ok_getD_of_isOk _ ?_, exists_binder ∅ ?_⟩
  · decide +kernel
  · decide +kernel

theorem outputs_pay_iff_feeless :
    ∃ b, newBTCSwapContractBinder Admission.testNet3 (bitcoinForeign "100000") ∅ = .ok b ∧
      b.InitiatePays ∧
      (b.RedeemPays 100000 ↔
        int64 (100000 - int64 (minBrokerFee (bitcoinForeign "100000").brokerFee) -
            int64 (bitcoinForeign "100000").fee) < 600 ∨
          minBrokerFee (bitcoinForeign "100000").brokerFee ≠ 0 ∧
            IsInt64 (minBrokerFee (bitcoinForeign "100000").brokerFee) ∧
            IsInt64 (100000 - minBrokerFee (bitcoinForeign "100000").brokerFee -
              int64 (bitcoinForeign "100000").fee)) ∧
      (b.RefundPays 100000 ↔ 600 ≤ 100000 - int64 (bitcoinForeign "100000").fee ∧
        IsInt64 (100000 - int64 (bitcoinForeign "100000").fee)) := by
  obtain ⟨b, hb⟩ := feeless_built.2
  exact ⟨b, hb, SwapContractBinder.outputs_pay_iff hb 100000⟩

/-- Without a broker fee, `Redeem` still adds an output to the broker, of nothing. -/
theorem feeless_output_dust :
    Builder.buildForeignSwap Admission.testWallet (bitcoinBlob "100000") 0 Admission.ownAddress =
        .ok (bitcoinForeign "100000") ∧
      ∃ b, newBTCSwapContractBinder Admission.testNet3 (bitcoinForeign "100000") ∅ = .ok b ∧
        (b.redeemCheck (zeroHashes.sha256 []) [1] []).read (.ok (false, 100000)) =
          some (.btcRedeem [⟨0, []⟩, ⟨90000, [1]⟩] (zeroHashes.sha256 [])) ∧
        ¬ b.RedeemPays 100000 := by
  obtain ⟨hbuilt, b, hb⟩ := feeless_built
  obtain ⟨hfee, hswap⟩ := newBTCSwapContractBinder_ok hb
  have hbroker : b.swap.brokerFee = 0 := by
    rw [hswap]
    decide +kernel
  have hminer : b.fee = 10000 := by
    rw [hfee]
    decide +kernel
  have hread : (b.redeemCheck (zeroHashes.sha256 []) [1] []).read (.ok (false, 100000)) =
      some (.btcRedeem [⟨0, []⟩, ⟨90000, [1]⟩] (zeroHashes.sha256 [])) := by
    rw [SwapContractBinder.redeemCheck_eq_some_iff, hbroker, hminer]
    decide
  refine ⟨hbuilt, b, hb, hread, ?_⟩
  intro hpays
  have hdust := (hpays _ _ _ _ hread).no_dust ⟨0, []⟩ List.mem_cons_self
  exact absurd hdust (by decide)

/-- A blob that asks for `2 ^ 64`, and its binder. -/
theorem wrapped_built :
    Builder.buildForeignSwap Admission.testWallet (bitcoinBlob "18446744073709551616") 0
        Admission.ownAddress = .ok (bitcoinForeign "18446744073709551616") ∧
      ∃ b, newBTCSwapContractBinder Admission.testNet3 (bitcoinForeign "18446744073709551616")
        ∅ = .ok b := by
  refine ⟨eq_ok_getD_of_isOk _ ?_, exists_binder ∅ ?_⟩
  · decide +kernel
  · decide +kernel

theorem audit_exact_iff_wrapped :
    ∃ b : SwapContractBinder, ∃ receiveAmount,
      setString "18446744073709551616" = some receiveAmount ∧
      ((∀ amount, IsInt64 amount → b.AuditPasses amount → receiveAmount ≤ amount) ↔
        receiveAmount < 2 ^ 63) := by
  obtain ⟨hbuilt, b, hb⟩ := wrapped_built
  exact ⟨b, SwapContractBinder.audit_exact_iff hbuilt hb⟩

/-- The audit of that blob passes on an address that holds nothing. -/
theorem wrapped_audit_passes :
    Builder.buildForeignSwap Admission.testWallet (bitcoinBlob "18446744073709551616") 0
        Admission.ownAddress = .ok (bitcoinForeign "18446744073709551616") ∧
      ∃ b, newBTCSwapContractBinder Admission.testNet3 (bitcoinForeign "18446744073709551616")
          ∅ = .ok b ∧
        b.AuditPasses 0 ∧ setString "18446744073709551616" = some (2 ^ 64) := by
  obtain ⟨hbuilt, b, hb⟩ := wrapped_built
  refine ⟨hbuilt, b, hb, ?_, by decide +kernel⟩
  rw [SwapContractBinder.audit_passes_iff, (newBTCSwapContractBinder_ok hb).2]
  decide +kernel

end Swapperd.Bitcoin
