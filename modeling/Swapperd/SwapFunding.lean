/-
  Swapperd/SwapFunding.lean
  =========================
  **What admission checks of the wallet's balance, and what `Initiate` takes of it.**

  Admission asks for the amount with the broker's share (`withFees`) and a reserve for
  transactions.  The binders lock the amount and the share as the builder computed them;
  on Bitcoin the share has a minimum and the miner fee is the user's, and a transfer of
  DGX costs a fee of its own.

  `covered_iff` — for which requests every balance that admission accepts is enough.
-/
import Swapperd.SwapHandler
import Swapperd.SwapContracts
import Swapperd.TransactionCosts

namespace Swapperd.Funding

open GoLibrary Handler Costs Builder

/-! ### What is locked -/

/-- The swap that the binders of Ethereum work with: its value includes the broker fee. -/
def ethereumSwap (swap : Swap) : Swap := { swap with value := swap.value + swap.brokerFee }

/-- The amount that the native binder's `Initiate` locks. -/
def lockedValue (maps : CostMaps) (native : Swap) : Int :=
  match native.token.blockchain with
  | .bitcoin => native.value + Bitcoin.minBrokerFee native.brokerFee
  | .ethereum => (ethereumSwap native).value
  | .erc20 => (sendValue maps (ethereumSwap native)).2

/-- The Ether that `TransactionCost` puts down for a transaction. -/
def etherCost (maps : CostMaps) (native : Swap) : Int :=
  ((returnedCost maps native.token native.value).lookup "ETH").getD 0

/-- What `Initiate` locks is positive, and the wallet holds it and the cost of the
    transaction. -/
def Affords (maps : CostMaps) (balance : Balances) (password : String) (native : Swap) : Prop :=
  0 < lockedValue maps native ∧
    match native.token.blockchain with
    | .bitcoin => ∃ b, Holds balance password tokenBTC b ∧
        lockedValue maps native + int64 native.fee ≤ b
    | .ethereum => ∃ b, Holds balance password tokenETH b ∧
        lockedValue maps native + etherCost maps native ≤ b
    | .erc20 => (∃ b, Holds balance password native.token b ∧ lockedValue maps native ≤ b) ∧
        ∃ b, Holds balance password tokenETH b ∧ etherCost maps native ≤ b

/-- The binder of a leg locks that value: the Bitcoin binder for its miner fee, the others
    with what they send to the swap contract. -/
structure Locks (maps : CostMaps) (native : Swap) : Prop where
  bitcoin : native.token.blockchain = .bitcoin → ∀ net cost binder,
    Bitcoin.newBTCSwapContractBinder net native cost = .ok binder →
      binder.swap.value = lockedValue maps native ∧ binder.fee = int64 native.fee
  ethereum : native.token.blockchain = .ethereum → ∀ id,
    (Chain.EthBinder.mk id (ethereumSwap native)).swap.value = lockedValue maps native
  erc20 : native.token.blockchain = .erc20 → ∀ id,
    (Chain.EthBinder.mk id (ethereumSwap native)).sendValue = lockedValue maps native

/-- What the native binder's `Initiate` locks is positive, and the wallet holds it and the
    cost of the transaction. -/
def Covered (maps : CostMaps) (balance : Balances) (password : String) (native : Swap) : Prop :=
  Locks maps native ∧ Affords maps balance password native

theorem btc_lockedValue {net : Bitcoin.Network} {native : Swap} {cost : Cost} {maps : CostMaps}
    {binder : Bitcoin.SwapContractBinder}
    (h : Bitcoin.newBTCSwapContractBinder net native cost = .ok binder)
    (hchain : native.token.blockchain = .bitcoin) :
    binder.swap.value = lockedValue maps native ∧ binder.fee = int64 native.fee := by
  unfold Bitcoin.newBTCSwapContractBinder at h
  obtain ⟨⟨script, scriptAddr⟩, -, h⟩ := except_bind_eq_ok_iff.mp h
  cases h
  simp [lockedValue, hchain]

/-! ### For which requests it is enough -/

/-- The broker's share of an amount. -/
def share (amount bips : Int) : Int := amount * bips / 10000

/-- What the balance check asks for beyond the amount and the broker's share, where it
    adds `check` to the amount with fees. -/
def reserve (check amount bips : Int) : Int :=
  withFees amount bips + check - (amount + share amount bips)

/-- The miner fee of a Bitcoin leg. -/
def minerFee (request : SwapBlob) : Int := int64 ((setString request.sendFee).getD 10000)

/-- What a transfer of a token costs in the token. -/
def transferFee (token : Token) (value : Int) : Int :=
  if token = tokenDGX then calculateFeesFromBips value 13 else 0

/-- What is locked is positive, and its costs are within the reserve. -/
def SufficientFor (maps : CostMaps) (request : SwapBlob) (token : Token) (amount : Int) : Prop :=
  let bips := request.brokerFee
  let share := share amount bips
  match token.blockchain with
  | .bitcoin => 0 < amount + Bitcoin.minBrokerFee share ∧
      minerFee request + (Bitcoin.minBrokerFee share - share) ≤ reserve 10600 amount bips
  | .ethereum => 0 < amount + share ∧ 0 ≤ reserve 0 amount bips
  | .erc20 => 0 < amount + share ∧
      transferFee token (amount + share) ≤ reserve (maps.entry .ethereum token.name) amount bips

def Sufficient (maps : CostMaps) (request : SwapBlob) : Prop :=
  ∀ token amount, patchToken request.sendToken = .ok token →
    setString request.sendAmount = some amount → SufficientFor maps request token amount

theorem erc20_lockedValue_eq {leg : Swap} (calls : List CostCall)
    (htoken : leg.token ∈ supportedTokens) (hchain : leg.token.blockchain = .erc20) :
    lockedValue (after calls) leg = leg.value + leg.brokerFee +
      transferFee leg.token (leg.value + leg.brokerFee) := by
  obtain ⟨heth, hname⟩ := Token.erc20_name htoken hchain
  unfold lockedValue transferFee
  rw [hchain]
  dsimp only
  by_cases hdgx : (ethereumSwap leg).token = tokenDGX
  · rw [sendValue_dgx _ hdgx]
    simp only [ethereumSwap] at hdgx ⊢
    rw [if_pos hdgx]
  · rw [sendValue_of_ne calls (ethereumSwap leg) hchain heth (mt hname hdgx)]
    simp only [ethereumSwap] at hdgx ⊢
    rw [if_neg hdgx, Int.add_zero]

/-- The ERC20 binder sends that value. -/
theorem erc20_lockedValue {id : Bytes32} {native : Swap} (calls : List CostCall)
    (htoken : native.token ∈ supportedTokens) (hchain : native.token.blockchain = .erc20) :
    (Chain.EthBinder.mk id (ethereumSwap native)).sendValue =
      lockedValue (after calls) native := by
  rw [erc20_lockedValue_eq calls htoken hchain]
  unfold Chain.EthBinder.sendValue transferFee ethereumSwap calculateFeesFromBips
  dsimp only
  split
  · rfl
  · rw [Int.add_zero]

theorem locks {native : Swap} (calls : List CostCall) (htoken : native.token ∈ supportedTokens) :
    Locks (after calls) native where
  bitcoin hchain _ _ _ hbinder := btc_lockedValue hbinder hchain
  ethereum hchain _ := by
    unfold lockedValue
    rw [hchain]
  erc20 hchain _ := erc20_lockedValue calls htoken hchain

/-- The fee of a transfer does not change the sign of what is sent. -/
theorem add_transferFee_pos {token : Token} {value : Int} :
    0 < value + transferFee token value ↔ 0 < value := by
  unfold transferFee calculateFeesFromBips
  split <;> omega

/-! ### Chain by chain -/

/-- Admission's two balance checks of a request whose native swap this is. -/
structure Accepts (maps : CostMaps) (balance : Balances) (request : SwapBlob) (native : Swap)
    (receive : Token) : Prop where
  send : balanceVerdict maps balance request.password native.token
    (some (withFees native.value request.brokerFee)) = .ok ()
  receive : balanceVerdict maps balance request.password receive none = .ok ()

/-- The fields of a native swap that come from the request. -/
structure IsNative (request : SwapBlob) (native : Swap) : Prop where
  token : patchToken request.sendToken = .ok native.token
  value : setString request.sendAmount = some native.value
  brokerFee : native.brokerFee = share native.value request.brokerFee
  fee : native.fee = (setString request.sendFee).getD native.token.blockchainTxFees

section Chains

variable {request : SwapBlob} {native : Swap} {receive : Token} {calls later : List CostCall}

theorem receive_ok {balance : Balances} {password : String} {b : Int}
    (h : Holds balance password tokenETH b) (hle : 12000000000000000 ≤ b) :
    balanceVerdict (after calls) balance password receive none = .ok () := by
  have hcost : (after calls).entry .ethereum "ETH" ≤ b := by rwa [entry_eth]
  unfold balanceVerdict verifyBalance
  cases receive.blockchain with
  | bitcoin => rfl
  | ethereum => exact (verifyEthereumBalance_iff _).mpr ⟨_, h, by simpa using hcost⟩
  | erc20 => exact (verifyERC20Balance_iff _).mpr ⟨⟨_, h, hcost⟩, by simp⟩

theorem send_btc_iff {balance : Balances} (htoken : native.token = tokenBTC) :
    balanceVerdict (after calls) balance request.password native.token
        (some (withFees native.value request.brokerFee)) = .ok () ↔
      20000 ≤ withFees native.value request.brokerFee ∧
        ∃ b, Holds balance request.password tokenBTC b ∧
          withFees native.value request.brokerFee + 10600 ≤ b := by
  rw [htoken]
  refine (verifyBitcoinBalance_iff _).trans ?_
  rw [entry_btc]
  constructor
  · intro h
    obtain ⟨hmin, b, hb, hle⟩ := h _ rfl
    exact ⟨hmin, b, hb, by omega⟩
  · rintro ⟨hmin, b, hb, hle⟩ a ha
    cases ha
    exact ⟨hmin, b, hb, by omega⟩

/-- When what `Initiate` takes is covered by a balance of one token, and admission asks for a
    least such balance, comparing the two decides. -/
theorem affords_iff_of_bounds {token : Token} {locked need bound : Int}
    (hcovered : ∀ balance, Accepts (after calls) balance request native receive →
      (Affords (after later) balance request.password native ↔
        0 < locked ∧ ∃ b, Holds balance request.password token b ∧ need ≤ b))
    (hleast : ∀ balance, Accepts (after calls) balance request native receive →
      ∃ b, Holds balance request.password token b ∧ bound ≤ b)
    (htight : ∃ balance, Accepts (after calls) balance request native receive ∧
      ∃ b, Holds balance request.password token b ∧ (0 < locked → need ≤ b → need ≤ bound)) :
    (∀ balance, Accepts (after calls) balance request native receive →
        Affords (after later) balance request.password native) ↔
      0 < locked ∧ need ≤ bound := by
  constructor
  · intro h
    obtain ⟨balance, haccepts, b, hown, hbound⟩ := htight
    obtain ⟨hpos, b', hb', hle⟩ := (hcovered balance haccepts).mp (h balance haccepts)
    exact ⟨hpos, hbound hpos (hb'.unique hown ▸ hle)⟩
  · rintro ⟨hpos, hle⟩ balance haccepts
    obtain ⟨b, hb, hreserve⟩ := hleast balance haccepts
    exact (hcovered balance haccepts).mpr ⟨hpos, b, hb, hle.trans hreserve⟩

theorem affords_iff_btc (hnative : IsNative request native) (htoken : native.token = tokenBTC)
    {balance₀ : Balances} (hseen : Accepts (after calls) balance₀ request native receive) :
    (∀ balance, Accepts (after calls) balance request native receive →
        Affords (after later) balance request.password native) ↔
      SufficientFor (after calls) request native.token native.value := by
  have hlocked : lockedValue (after later) native =
      native.value + Bitcoin.minBrokerFee (share native.value request.brokerFee) := by
    unfold lockedValue
    rw [htoken, ← hnative.brokerFee]
    rfl
  have hfee : int64 native.fee = minerFee request := by
    rw [hnative.fee, htoken]
    rfl
  have hsufficient : SufficientFor (after calls) request native.token native.value ↔
      0 < lockedValue (after later) native ∧
        lockedValue (after later) native + int64 native.fee ≤
          withFees native.value request.brokerFee + 10600 := by
    unfold SufficientFor reserve
    rw [htoken, hlocked, hfee]
    dsimp only [tokenBTC]
    refine and_congr_right fun hpos => ?_
    omega
  rw [hsufficient]
  refine @affords_iff_of_bounds request native receive calls later tokenBTC _ _ _ ?_ ?_ ?_
  · intro balance _
    unfold Affords
    rw [htoken]
    rfl
  · intro balance haccepts
    exact ((send_btc_iff htoken).mp haccepts.send).2
  · obtain ⟨hmin, -⟩ := (send_btc_iff htoken).mp hseen.send
    -- a wallet with just what the check asks for
    obtain ⟨balance, hholds⟩ := exists_balances tokenBTC
      (withFees native.value request.brokerFee + 10600) 12000000000000000
    obtain ⟨hown, hother⟩ := hholds request.password
    exact ⟨balance, ⟨(send_btc_iff htoken).mpr ⟨hmin, _, hown, le_refl _⟩,
      receive_ok (hother _ (by decide)) (le_refl _)⟩, _, hown, fun _ hle => hle⟩

theorem send_eth_iff {balance : Balances} (htoken : native.token = tokenETH) :
    balanceVerdict (after calls) balance request.password native.token
        (some (withFees native.value request.brokerFee)) = .ok () ↔
      ∃ b, Holds balance request.password tokenETH b ∧
        withFees native.value request.brokerFee + 12000000000000000 ≤ b := by
  rw [htoken]
  refine (verifyEthereumBalance_iff _).trans ?_
  rw [entry_eth, Option.getD_some]
  constructor
  · rintro ⟨b, hb, hle⟩
    exact ⟨b, hb, by omega⟩
  · rintro ⟨b, hb, hle⟩
    exact ⟨b, hb, by omega⟩

theorem etherCost_eq (hchain : native.token.blockchain ≠ .bitcoin) :
    etherCost (after later) native = 12000000000000000 := by
  have hcost : etherCost (after later) native =
      (after (later ++ [.transactionCost native.token native.value])).entry .ethereum "ETH" := by
    unfold etherCost returnedCost CostMaps.entry
    rw [after_append, CostCall.run]
    unfold transactionCost erc20TransactionCost
    cases h : native.token.blockchain with
    | bitcoin => exact absurd h hchain
    | ethereum => rfl
    | erc20 =>
        dsimp only
        split <;> rfl
  rw [hcost, entry_eth]

theorem affords_iff_eth (hnative : IsNative request native) (htoken : native.token = tokenETH) :
    (∀ balance, Accepts (after calls) balance request native receive →
        Affords (after later) balance request.password native) ↔
      SufficientFor (after calls) request native.token native.value := by
  have hcost : etherCost (after later) native = 12000000000000000 :=
    etherCost_eq (by rw [htoken]; decide)
  have hlocked : lockedValue (after later) native =
      native.value + share native.value request.brokerFee := by
    unfold lockedValue
    rw [htoken, ← hnative.brokerFee]
    rfl
  have hsufficient : SufficientFor (after calls) request native.token native.value ↔
      0 < lockedValue (after later) native ∧ lockedValue (after later) native + 12000000000000000 ≤
        withFees native.value request.brokerFee + 12000000000000000 := by
    unfold SufficientFor reserve
    rw [htoken, hlocked]
    dsimp only [tokenETH]
    refine and_congr_right fun hpos => ?_
    omega
  rw [hsufficient]
  refine @affords_iff_of_bounds request native receive calls later tokenETH _ _ _ ?_ ?_ ?_
  · intro balance _
    unfold Affords
    rw [htoken, hcost]
    rfl
  · intro balance haccepts
    exact (send_eth_iff htoken).mp haccepts.send
  · -- a wallet with just what the check asks for, on the side that is received too
    obtain ⟨balance, hholds⟩ := exists_balances tokenETH
      (max (withFees native.value request.brokerFee) 0 + 12000000000000000) 0
    obtain ⟨hown, -⟩ := hholds request.password
    exact ⟨balance, ⟨(send_eth_iff htoken).mpr ⟨_, hown, by omega⟩, receive_ok hown (by omega)⟩, _,
      hown, by omega⟩

theorem send_erc20_iff {balance : Balances} (hchain : native.token.blockchain = .erc20) :
    balanceVerdict (after calls) balance request.password native.token
        (some (withFees native.value request.brokerFee)) = .ok () ↔
      (∃ b, Holds balance request.password tokenETH b ∧ 12000000000000000 ≤ b) ∧
        ∃ b, Holds balance request.password native.token b ∧
          withFees native.value request.brokerFee +
            (after calls).entry .ethereum native.token.name ≤ b := by
  unfold balanceVerdict verifyBalance
  rw [hchain]
  refine (verifyERC20Balance_iff _).trans ?_
  rw [entry_eth]
  simp

theorem affords_iff_erc20 (hnative : IsNative request native)
    (hchain : native.token.blockchain = .erc20) :
    (∀ balance, Accepts (after calls) balance request native receive →
        Affords (after later) balance request.password native) ↔
      SufficientFor (after calls) request native.token native.value := by
  have htoken := patchToken_mem hnative.token
  have hcost : etherCost (after later) native = 12000000000000000 :=
    etherCost_eq (by rw [hchain]; decide)
  have hlocked : lockedValue (after later) native =
      native.value + share native.value request.brokerFee +
        transferFee native.token (native.value + share native.value request.brokerFee) := by
    rw [← hnative.brokerFee]
    exact erc20_lockedValue_eq later htoken hchain
  have hsufficient : SufficientFor (after calls) request native.token native.value ↔
      0 < lockedValue (after later) native ∧ lockedValue (after later) native ≤
        withFees native.value request.brokerFee +
          (after calls).entry .ethereum native.token.name := by
    unfold SufficientFor reserve
    rw [hchain, hlocked, add_transferFee_pos]
    dsimp only
    refine and_congr_right fun hpos => ?_
    omega
  rw [hsufficient]
  refine @affords_iff_of_bounds request native receive calls later native.token _ _ _ ?_ ?_ ?_
  · intro balance haccepts
    -- the ether for the transactions is there
    obtain ⟨hether, -⟩ := (send_erc20_iff hchain).mp haccepts.send
    unfold Affords
    rw [hchain, hcost]
    exact and_congr_right fun _ => and_iff_left hether
  · intro balance haccepts
    exact ((send_erc20_iff hchain).mp haccepts.send).2
  · obtain ⟨balance, hholds⟩ := exists_balances native.token
      (withFees native.value request.brokerFee +
        (after calls).entry .ethereum native.token.name) 12000000000000000
    obtain ⟨hown, hother⟩ := hholds request.password
    have hne : tokenETH ≠ native.token := by
      intro heq
      rw [← heq] at hchain
      cases hchain
    exact ⟨balance, ⟨(send_erc20_iff hchain).mpr ⟨⟨_, hother _ hne, le_refl _⟩, _, hown, le_refl _⟩,
      receive_ok (hother _ hne) (le_refl _)⟩, _, hown, fun _ hle => hle⟩

end Chains

/-! ### Accepted requests -/

section Requests

variable {H : Hashes} {W : Wallet} {now : Int} {swapID : Bytes32} {request blob : SwapBlob}
  {calls later : List CostCall} {balance₀ : Balances} {native : Swap} {timelock : Int}
  {fundingAddress : String}

theorem isNative {verifyBalance : VerifyBalance}
    (h : patchSwap H W verifyBalance now swapID request = .ok blob)
    (hbuild : buildNativeSwap W blob timelock fundingAddress = .ok native) :
    IsNative request native := by
  have hpatches := (patchSwap_patches h).1
  obtain ⟨hleg, -⟩ := buildNativeSwap_ok hbuild
  have hfee := buildNativeSwap_fee hbuild
  rw [hpatches] at hleg hfee
  refine ⟨hleg.token, hleg.value, ?_, hfee⟩
  have hbroker : native.brokerFee =
      if request.brokerFee ≠ 0 then native.value * request.brokerFee / 10000 else 0 :=
    hleg.brokerFee
  rw [hbroker]
  unfold share
  by_cases hzero : request.brokerFee = 0
  · simp [hzero]
  · rw [if_pos hzero]

theorem verifySendAmount_iff {verifyBalance : VerifyBalance} {password : String} {token : Token}
    {amount : String} {value fee : Int} (hvalue : setString amount = some value) :
    verifySendAmount verifyBalance password token amount fee = .ok () ↔
      verifyBalance password token (some (withFees value fee)) = .ok () := by
  unfold verifySendAmount
  rw [hvalue]

/-- Another wallet is accepted exactly when it passes the two balance checks. -/
theorem patchSwap_iff_accepts
    (h : patchSwap H W (balanceVerdict (after calls) balance₀) now swapID request = .ok blob)
    (hnative : IsNative request native) :
    ∃ receive, ∀ balance,
      patchSwap H W (balanceVerdict (after calls) balance) now swapID request = .ok blob ↔
        Accepts (after calls) balance request native receive := by
  obtain ⟨⟨sendToken, receiveToken, hadmits⟩, hterms⟩ := patchSwap_ok_iff.mp h
  have hsend : sendToken = native.token :=
    Except.ok.inj (hadmits.sendToken.symm.trans hnative.token)
  subst hsend
  refine ⟨receiveToken, ?_⟩
  intro balance
  rw [patchSwap_ok_iff]
  constructor
  · rintro ⟨⟨sendToken, receiveToken', hadmits'⟩, -⟩
    obtain rfl : sendToken = native.token :=
      Except.ok.inj (hadmits'.sendToken.symm.trans hnative.token)
    obtain rfl : receiveToken' = receiveToken :=
      Except.ok.inj (hadmits'.receiveToken.symm.trans hadmits.receiveToken)
    exact ⟨(verifySendAmount_iff hnative.value).mp hadmits'.sendAmount, hadmits'.receiveAmount⟩
  · intro haccepts
    refine ⟨⟨native.token, receiveToken, ?_⟩, hterms⟩
    exact { hadmits with
      sendAmount := (verifySendAmount_iff hnative.value).mpr haccepts.send
      receiveAmount := haccepts.receive }

/-- **The wallets that admission accepts can all fund the swap exactly when the request is
    sufficient**: nothing else that the request carries, and no balance, matters. -/
theorem covered_iff
    (h : patchSwap H W (balanceVerdict (after calls) balance₀) now swapID request = .ok blob)
    (hbuild : buildNativeSwap W blob timelock fundingAddress = .ok native) :
    (∀ balance,
        patchSwap H W (balanceVerdict (after calls) balance) now swapID request = .ok blob →
          Covered (after later) balance request.password native) ↔
      Sufficient (after calls) request := by
  have hnative := isNative h hbuild
  have htoken := patchToken_mem hnative.token
  have hfor : Sufficient (after calls) request ↔
      SufficientFor (after calls) request native.token native.value := by
    constructor
    · intro hall
      exact hall _ _ hnative.token hnative.value
    · intro hone token amount htoken hamount
      obtain rfl : token = native.token := Except.ok.inj (htoken.symm.trans hnative.token)
      obtain rfl : amount = native.value := Option.some.inj (hamount.symm.trans hnative.value)
      exact hone
  obtain ⟨receive, hiff⟩ := patchSwap_iff_accepts h hnative
  have hseen := (hiff balance₀).mp h
  have hlocks : Locks (after later) native := locks later htoken
  simp only [hiff, hfor, Covered, hlocks, true_and]
  cases hchain : native.token.blockchain with
  | bitcoin => exact affords_iff_btc hnative (Token.eq_btc htoken hchain) hseen
  | ethereum => exact affords_iff_eth hnative (Token.eq_eth htoken hchain)
  | erc20 => exact affords_iff_erc20 hnative hchain

end Requests

/-- A responder's request for Bitcoin, with a miner fee of its own. -/
def feeRequest : SwapBlob := { sampleBlob with sendFee := "20000" }

def feeNative : Swap := { sampleNative with fee := 20000 }

/-- A wallet with what admission asks for 20000 SAT. -/
def feeBalances : Balances := fun _ token =>
  .ok (if token = tokenBTC then "30600" else "12000000000000000")

theorem feeRequest_accepted :
    patchSwap zeroHashes responderWallet (balanceVerdict (after []) feeBalances) 1549900000
      sampleHash feeRequest = .ok feeRequest := by
  decide +kernel

theorem feeRequest_build :
    buildNativeSwap responderWallet feeRequest 1550000000 "mfkvQyDzw2kh6QgFMdRoPr2yBbgqMGNXdR" =
      .ok feeNative := by
  decide +kernel

theorem covered_iff_feeRequest :
    (∀ balance, patchSwap zeroHashes responderWallet (balanceVerdict (after []) balance)
        1549900000 sampleHash feeRequest = .ok feeRequest →
          Covered (after []) balance feeRequest.password feeNative) ↔
      Sufficient (after []) feeRequest :=
  covered_iff feeRequest_accepted feeRequest_build

/-- The wallet is accepted with 30600 SAT, and needs 40000. -/
theorem feeRequest_not_covered :
    patchSwap zeroHashes responderWallet (balanceVerdict (after []) feeBalances) 1549900000
        sampleHash feeRequest = .ok feeRequest ∧
      buildNativeSwap responderWallet feeRequest 1550000000
        "mfkvQyDzw2kh6QgFMdRoPr2yBbgqMGNXdR" = .ok feeNative ∧
      ¬ Covered (after []) feeBalances feeRequest.password feeNative := by
  refine ⟨feeRequest_accepted, feeRequest_build, ?_⟩
  rintro ⟨-, -, b, hb, hle⟩
  have hheld : Holds feeBalances feeRequest.password tokenBTC 30600 :=
    ⟨"30600", rfl, by decide⟩
  rw [hb.unique hheld] at hle
  revert hle
  decide

end Swapperd.Funding
