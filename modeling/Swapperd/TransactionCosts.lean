/-
  Swapperd/TransactionCosts.lean
  ==============================
  **Transaction costs and balance checks** (`foundation/blockchain/cost.go`,
  `adapter/wallet/amount.go`, `sendValue` of `adapter/binder/erc20`).

  The costs of each chain are in a map of the package, and `TransactionCost` returns that
  map itself.  For DGX it writes the fee for the asked amount into the map of Ethereum
  first, where every later caller finds it: costs and balance checks are those of a fresh
  process as long as nobody has asked for DGX (`asFresh_iff`).
-/
import Swapperd.SwapBuilder

namespace Swapperd.Costs

open GoLibrary

/-! ### The maps of the package -/

structure CostMaps where
  ethereumTransactionCost : Cost
  bitcoinTransactionCost : Cost

/-- The maps of a process that has just started. -/
def CostMaps.fresh : CostMaps where
  ethereumTransactionCost := Finmap.insert "ETH" 12000000000000000 ∅
  bitcoinTransactionCost := Finmap.insert "BTC" 10000 ∅

/-- Maps are returned by reference. -/
inductive CostRef where
  | ethereum
  | bitcoin
deriving DecidableEq

def CostMaps.read (maps : CostMaps) : CostRef → Cost
  | .ethereum => maps.ethereumTransactionCost
  | .bitcoin => maps.bitcoinTransactionCost

/-- An entry of a returned map. Go's nil entry is never used: it is read only where the
    map has one. -/
def CostMaps.entry (maps : CostMaps) (ref : CostRef) (name : TokenName) : Int :=
  ((maps.read ref).lookup name).getD 0

def calculateFeesFromBips (value bips : Int) : Int := value * bips / (10000 - bips)

def erc20TransactionCost (maps : CostMaps) (token : Token) (amount : Int) : CostMaps × CostRef :=
  if token = tokenDGX then
    ({ maps with
        ethereumTransactionCost :=
          maps.ethereumTransactionCost.insert "DGX" (calculateFeesFromBips amount 13) },
      .ethereum)
  else (maps, .ethereum)

def transactionCost (maps : CostMaps) (token : Token) (amount : Int) : CostMaps × CostRef :=
  match token.blockchain with
  | .erc20 => erc20TransactionCost maps token amount
  | .ethereum => (maps, .ethereum)
  | .bitcoin => (maps, .bitcoin)

/-- The map that `TransactionCost` returns, as it is when it returns. -/
def returnedCost (maps : CostMaps) (token : Token) (amount : Int) : Cost :=
  let (maps, ref) := transactionCost maps token amount
  maps.read ref

/-- `sendValue` of the ERC20 binder, whose swap has its broker fee in its value. -/
def sendValue (maps : CostMaps) (swap : Swap) : CostMaps × Int :=
  let (maps, ref) := transactionCost maps swap.token swap.value
  match (maps.read ref).lookup swap.token.name with
  | some fee => (maps, swap.value + fee)
  | none => (maps, swap.value)

/-! ### Balance checks -/

/-- The balances that a wallet's nodes report, as decimal strings, at one moment. -/
abbrev Balances := (password : String) → Token → Except GoError String

def errInvalidBalance (amount : String) : GoError := .errorf s!"Invalid balance amount: {amount}"

def errTransactionFees (fee amount : Int) : GoError :=
  .errorf ("You must have at least " ++ s!"{fee} WEI remaining in your wallet to cover " ++
    s!"transaction fees. You have {amount} WEI")

def verifyEthereumBalance (maps : CostMaps) (balance : Balances) (password : String)
    (amount : Option Int) : CostMaps × Except GoError Unit :=
  match balance password tokenETH with
  | .error err => (maps, .error err)
  | .ok text =>
      match setString text with
      | none => (maps, .error (errInvalidBalance text))
      | some balanceAmount =>
          let balanceAmount := balanceAmount - amount.getD 0
          -- the amount decides nothing for Ether
          let (maps, ref) := transactionCost maps tokenETH (amount.getD 0)
          let fee := maps.entry ref "ETH"
          (maps, if balanceAmount < fee then .error (errTransactionFees fee balanceAmount)
            else .ok ())

/-- What the wallet must hold of the token itself. -/
def verifyTokenBalance (fee : Cost) (balance : Balances) (password : String) (token : Token)
    (amount : Int) : Except GoError Unit := do
  let text ← balance password token
  let some erc20Amount := setString text
    | .error (errInvalidBalance text)
  let expectedAmount := amount + (fee.lookup token.name).getD 0
  if erc20Amount < expectedAmount then
    .error (.errorf (s!"You must have at least {expectedAmount} {token.name} remaining in your " ++
      s!"wallet to execute the swap. You have {erc20Amount} {token.name}"))
  else .ok ()

def verifyERC20Balance (maps : CostMaps) (balance : Balances) (password : String) (token : Token)
    (amount : Option Int) : CostMaps × Except GoError Unit :=
  match balance password tokenETH with
  | .error err => (maps, .error err)
  | .ok text =>
      match setString text with
      | none => (maps, .error (errInvalidBalance text))
      | some ethAmount =>
          let (maps, ref) := transactionCost maps tokenETH (amount.getD 0)
          let covered :=
            match amount with
            | some amount => verifyTokenBalance (maps.read ref) balance password token amount
            | none => .ok ()
          match covered with
          | .error err => (maps, .error err)
          | .ok () =>
              let fee := maps.entry ref "ETH"
              (maps, if ethAmount < fee then .error (errTransactionFees fee ethAmount) else .ok ())

def verifyBitcoinBalance (maps : CostMaps) (balance : Balances) (password : String)
    (amount : Option Int) : CostMaps × Except GoError Unit :=
  match amount with
  | none => (maps, .ok ())
  | some amount =>
      if amount < 20000 then
        (maps, .error (.errorf ("invalid bitcoin amount: minimum swappable bitcoin amount " ++
          "20000 SAT (or 0.0002 BTC)")))
      else
        let (maps, ref) := transactionCost maps tokenBTC amount
        match balance password tokenBTC with
        | .error err => (maps, .error err)
        | .ok text =>
            match setString text with
            | none => (maps, .error (errInvalidBalance text))
            | some balanceAmount =>
                let leftover := balanceAmount - amount
                (maps, if leftover < maps.entry ref "BTC" + 600 then
                    .error (.errorf ("You need at least 10600 SAT (or 0.000106 BTC) remaining " ++
                      s!"in your wallet to cover transaction fees. You have: {leftover}"))
                  else .ok ())

def verifyBalance (maps : CostMaps) (balance : Balances) (password : String) (token : Token)
    (amount : Option Int) : CostMaps × Except GoError Unit :=
  match token.blockchain with
  | .ethereum => verifyEthereumBalance maps balance password amount
  | .erc20 => verifyERC20Balance maps balance password token amount
  | .bitcoin => verifyBitcoinBalance maps balance password amount

/-- The balance check that the handler makes. -/
def balanceVerdict (maps : CostMaps) (balance : Balances) : VerifyBalance :=
  fun password token amount => (verifyBalance maps balance password token amount).2

/-! ### What a call does to the maps -/

section Maps

variable (maps : CostMaps)

theorem transactionCost_of_ne {token : Token} (h : token ≠ tokenDGX) (amount : Int) :
    (transactionCost maps token amount).1 = maps := by
  unfold transactionCost
  cases token.blockchain with
  | erc20 => simp [erc20TransactionCost, h]
  | _ => rfl

@[simp] theorem transactionCost_eth (amount : Int) :
    transactionCost maps tokenETH amount = (maps, .ethereum) := rfl

@[simp] theorem transactionCost_btc (amount : Int) :
    transactionCost maps tokenBTC amount = (maps, .bitcoin) := rfl

theorem transactionCost_dgx (amount : Int) :
    transactionCost maps tokenDGX amount =
      ({ maps with
          ethereumTransactionCost :=
            maps.ethereumTransactionCost.insert "DGX" (calculateFeesFromBips amount 13) },
        .ethereum) :=
  rfl

theorem sendValue_maps (swap : Swap) :
    (sendValue maps swap).1 = (transactionCost maps swap.token swap.value).1 := by
  unfold sendValue
  dsimp only
  split <;> rfl

theorem verifyEthereumBalance_maps (balance : Balances) (password : String)
    (amount : Option Int) : (verifyEthereumBalance maps balance password amount).1 = maps := by
  unfold verifyEthereumBalance
  split
  · rfl
  · split <;> rfl

theorem verifyERC20Balance_maps (balance : Balances) (password : String) (token : Token)
    (amount : Option Int) : (verifyERC20Balance maps balance password token amount).1 = maps := by
  unfold verifyERC20Balance
  split
  · rfl
  · split
    · rfl
    · dsimp only
      split <;> rfl

theorem verifyBitcoinBalance_maps (balance : Balances) (password : String)
    (amount : Option Int) : (verifyBitcoinBalance maps balance password amount).1 = maps := by
  unfold verifyBitcoinBalance
  split
  · rfl
  · split
    · rfl
    · dsimp only
      split
      · rfl
      · split <;> rfl

/-- A balance check leaves the maps as they are. -/
theorem verifyBalance_maps (balance : Balances) (password : String) (token : Token)
    (amount : Option Int) : (verifyBalance maps balance password token amount).1 = maps := by
  unfold verifyBalance
  cases token.blockchain with
  | ethereum => exact verifyEthereumBalance_maps maps balance password amount
  | erc20 => exact verifyERC20Balance_maps maps balance password token amount
  | bitcoin => exact verifyBitcoinBalance_maps maps balance password amount

end Maps

/-! ### Histories -/

/-- A call that reads or writes the maps. -/
inductive CostCall where
  | transactionCost (token : Token) (amount : Int)
  | sendValue (swap : Swap)
  | verifyBalance (balance : Balances) (password : String) (token : Token) (amount : Option Int)

def CostCall.run (maps : CostMaps) : CostCall → CostMaps
  | .transactionCost token amount => (Costs.transactionCost maps token amount).1
  | .sendValue swap => (Costs.sendValue maps swap).1
  | .verifyBalance balance password token amount =>
      (Costs.verifyBalance maps balance password token amount).1

/-- The maps after a history of calls. -/
def after (calls : List CostCall) : CostMaps := calls.foldl CostCall.run .fresh

/-- The call asks for the cost of a DGX transfer. -/
def CostCall.PricesDGX : CostCall → Prop
  | .transactionCost token _ => token = tokenDGX
  | .sendValue swap => swap.token = tokenDGX
  | .verifyBalance .. => False

/-- Every call has the result that it has in a fresh process. -/
structure AsFresh (maps : CostMaps) : Prop where
  cost : ∀ token amount, returnedCost maps token amount = returnedCost .fresh token amount
  sendValue : ∀ swap, (Costs.sendValue maps swap).2 = (Costs.sendValue .fresh swap).2
  verdict : ∀ balance password token amount,
    balanceVerdict maps balance password token amount =
      balanceVerdict .fresh balance password token amount

theorem CostCall.run_of_not {c : CostCall} (h : ¬ c.PricesDGX) (maps : CostMaps) :
    c.run maps = maps := by
  cases c with
  | transactionCost token amount => exact transactionCost_of_ne maps h amount
  | sendValue swap => exact (sendValue_maps maps swap).trans (transactionCost_of_ne maps h _)
  | verifyBalance balance password token amount =>
      exact verifyBalance_maps maps balance password token amount

/-- A DGX entry that is there stays there. -/
theorem CostCall.run_dgx {maps : CostMaps} (c : CostCall)
    (h : c.PricesDGX ∨ "DGX" ∈ maps.ethereumTransactionCost) :
    "DGX" ∈ (c.run maps).ethereumTransactionCost := by
  by_cases hprices : c.PricesDGX
  · cases c with
    | transactionCost token amount =>
        obtain rfl : token = tokenDGX := hprices
        simp [CostCall.run, transactionCost_dgx]
    | sendValue swap =>
        have htoken : swap.token = tokenDGX := hprices
        simp [CostCall.run, sendValue_maps, htoken, transactionCost_dgx]
    | verifyBalance => cases hprices
  · rw [CostCall.run_of_not hprices]
    exact h.resolve_left hprices

theorem after_append (calls : List CostCall) (c : CostCall) :
    after (calls ++ [c]) = c.run (after calls) := by
  simp [after]

/-- A history leaves the fresh maps, or a DGX entry. -/
theorem after_cases (calls : List CostCall) :
    ((∀ c ∈ calls, ¬ c.PricesDGX) → after calls = .fresh) ∧
      ((∃ c ∈ calls, c.PricesDGX) → "DGX" ∈ (after calls).ethereumTransactionCost) := by
  induction calls using List.reverseRecOn with
  | nil => exact ⟨fun _ => rfl, by simp⟩
  | append_singleton calls c ih =>
      obtain ⟨hfresh, hdgx⟩ := ih
      rw [after_append]
      constructor
      · intro h
        rw [CostCall.run_of_not (h c (by simp))]
        exact hfresh fun c' hc' => h c' (by simp [hc'])
      · rintro ⟨c', hc', hprices⟩
        apply CostCall.run_dgx
        rcases List.mem_append.mp hc' with hold | hlast
        · exact .inr (hdgx ⟨c', hold, hprices⟩)
        · rw [List.mem_singleton.mp hlast] at hprices
          exact .inl hprices

/-- The maps differ from fresh ones in the DGX entry at most. -/
theorem after_entries (calls : List CostCall) :
    (after calls).bitcoinTransactionCost = CostMaps.fresh.bitcoinTransactionCost ∧
      ∀ name ≠ "DGX", (after calls).ethereumTransactionCost.lookup name =
        CostMaps.fresh.ethereumTransactionCost.lookup name := by
  induction calls using List.reverseRecOn with
  | nil => exact ⟨rfl, fun _ _ => rfl⟩
  | append_singleton calls c ih =>
      rw [after_append]
      by_cases hprices : c.PricesDGX
      · have hwrites : ∃ fee, c.run (after calls) = { after calls with
            ethereumTransactionCost := (after calls).ethereumTransactionCost.insert "DGX" fee } := by
          cases c with
          | transactionCost token amount =>
              obtain rfl : token = tokenDGX := hprices
              exact ⟨_, rfl⟩
          | sendValue swap =>
              have htoken : swap.token = tokenDGX := hprices
              exact ⟨_, by simp only [CostCall.run, sendValue_maps, htoken]; rfl⟩
          | verifyBalance => cases hprices
        obtain ⟨fee, hrun⟩ := hwrites
        rw [hrun]
        refine ⟨ih.1, ?_⟩
        intro name hname
        rw [Finmap.lookup_insert_of_ne _ hname]
        exact ih.2 name hname
      · rw [CostCall.run_of_not hprices]
        exact ih

/-! ### What is sent of a token -/

theorem sendValue_dgx (maps : CostMaps) {swap : Swap} (h : swap.token = tokenDGX) :
    (sendValue maps swap).2 = swap.value + calculateFeesFromBips swap.value 13 := by
  unfold sendValue
  rw [h, transactionCost_dgx]
  simp [CostMaps.read, tokenDGX]

theorem sendValue_of_ne (calls : List CostCall) (swap : Swap)
    (hchain : swap.token.blockchain = .erc20) (heth : swap.token.name ≠ "ETH")
    (hdgx : swap.token.name ≠ "DGX") : (sendValue (after calls) swap).2 = swap.value := by
  have hne : swap.token ≠ tokenDGX := fun h => hdgx (by rw [h]; rfl)
  have hcost : transactionCost (after calls) swap.token swap.value = (after calls, .ethereum) := by
    unfold transactionCost
    rw [hchain]
    simp [erc20TransactionCost, hne]
  have hentry : (after calls).ethereumTransactionCost.lookup swap.token.name = none := by
    rw [(after_entries calls).2 _ hdgx]
    simp [CostMaps.fresh, Finmap.lookup_insert_of_ne _ heth]
  unfold sendValue
  rw [hcost]
  simp [CostMaps.read, hentry]

/-! ### What arrives of a token that takes a fee -/

/-- What a token takes from a transfer at a rate in basis points. -/
def tokenFee (amount bips : Int) : Int := amount * bips / 10000

/-- What the recipient of a transfer gets. -/
def received (amount bips : Int) : Int := amount - tokenFee amount bips

section Bips

variable {value bips : Int}

/-- The added fee is the share of what is left, rounded down. -/
theorem calculateFeesFromBips_bounds (value : Int) (hlt : bips < 10000) :
    calculateFeesFromBips value bips * (10000 - bips) ≤ value * bips ∧
      value * bips < (calculateFeesFromBips value bips + 1) * (10000 - bips) :=
  ⟨Int.ediv_mul_le _ (by omega), Int.lt_ediv_add_one_mul_self _ (by omega)⟩

/-- The token takes as much from the increased amount as was added to it. -/
theorem tokenFee_calculateFeesFromBips (hbips : 0 ≤ bips) (hlt : bips < 10000) :
    tokenFee (value + calculateFeesFromBips value bips) bips =
      calculateFeesFromBips value bips := by
  obtain ⟨hle, hgt⟩ := calculateFeesFromBips_bounds value hlt
  unfold tokenFee
  generalize calculateFeesFromBips value bips = fee at *
  have hsum : (value + fee) * bips = value * bips + fee * bips := Int.add_mul ..
  have hfee : fee * (10000 - bips) = fee * 10000 - fee * bips := Int.mul_sub ..
  have hnext : (fee + 1) * (10000 - bips) = fee * 10000 - fee * bips + (10000 - bips) := by
    rw [Int.add_mul, hfee, Int.one_mul]
  apply le_antisymm
  · refine Int.lt_add_one_iff.mp (Int.ediv_lt_of_lt_mul (by decide) ?_)
    omega
  · refine Int.le_ediv_of_mul_le (by decide) ?_
    omega

theorem received_calculateFeesFromBips (hbips : 0 ≤ bips) (hlt : bips < 10000) :
    received (value + calculateFeesFromBips value bips) bips = value := by
  unfold received
  rw [tokenFee_calculateFeesFromBips hbips hlt, Int.add_sub_cancel]

theorem calculateFeesFromBips_mono {value' : Int} (hbips : 0 ≤ bips) (hlt : bips < 10000)
    (hle : value ≤ value') : calculateFeesFromBips value bips ≤ calculateFeesFromBips value' bips :=
  Int.ediv_le_ediv (by omega) (Int.mul_le_mul_of_nonneg_right hle hbips)

end Bips

/-- **The added fee is exact at every rate**, and the ERC20 binder's swap contract receives
    the value of a DGX swap of any size, whatever the maps hold. -/
theorem fees_exact {bips : Int} (hbips : 0 ≤ bips) (hlt : bips < 10000) (value : Int) :
    (value + calculateFeesFromBips value bips) * bips / 10000 =
        calculateFeesFromBips value bips ∧
      received (value + calculateFeesFromBips value bips) bips = value ∧
      (∀ value' ≥ value, calculateFeesFromBips value bips ≤ calculateFeesFromBips value' bips) ∧
      ∀ maps swap, swap.token = tokenDGX → swap.value = value →
        received (sendValue maps swap).2 13 = value := by
  refine ⟨tokenFee_calculateFeesFromBips hbips hlt, received_calculateFeesFromBips hbips hlt,
    fun value' hle => calculateFeesFromBips_mono hbips hlt hle, ?_⟩
  rintro maps swap htoken rfl
  rw [sendValue_dgx maps htoken]
  exact received_calculateFeesFromBips (by decide) (by decide)

theorem fees_exact_dgx :
    (9987000 + calculateFeesFromBips 9987000 13) * 13 / 10000 = calculateFeesFromBips 9987000 13 ∧
      received (9987000 + calculateFeesFromBips 9987000 13) 13 = 9987000 ∧
      (∀ value' ≥ 9987000, calculateFeesFromBips 9987000 13 ≤ calculateFeesFromBips value' 13) ∧
      ∀ maps swap, swap.token = tokenDGX → swap.value = 9987000 →
        received (sendValue maps swap).2 13 = 9987000 :=
  fees_exact (by decide) (by decide) 9987000

/-! ### When a balance check passes -/

/-- The wallet's balance of a token. -/
def Holds (balance : Balances) (password : String) (token : Token) (amount : Int) : Prop :=
  ∃ text, balance password token = .ok text ∧ setString text = some amount

theorem Holds.unique {balance : Balances} {password : String} {token : Token} {a b : Int}
    (ha : Holds balance password token a) (hb : Holds balance password token b) : a = b := by
  obtain ⟨text, htext, ha⟩ := ha
  obtain ⟨text', htext', hb⟩ := hb
  obtain rfl : text = text' := Except.ok.inj (htext.symm.trans htext')
  exact Option.some.inj (ha.symm.trans hb)

/-- There is a wallet with these amounts of a token and of every other. -/
theorem exists_balances (token : Token) (own other : Int) : ∃ balance : Balances,
    ∀ password, Holds balance password token own ∧
      ∀ token' ≠ token, Holds balance password token' other := by
  obtain ⟨ownText, hown⟩ := exists_setString own
  obtain ⟨otherText, hother⟩ := exists_setString other
  refine ⟨fun _ t => .ok (if t = token then ownText else otherText), ?_⟩
  intro password
  refine ⟨⟨ownText, by simp, hown⟩, ?_⟩
  intro token' hne
  exact ⟨otherText, by simp [hne], hother⟩

section Verdicts

variable {balance : Balances} {password : String} {token : Token}

theorem verifyEthereumBalance_iff (maps : CostMaps) {amount : Option Int} :
    (verifyEthereumBalance maps balance password amount).2 = .ok () ↔
      ∃ b, Holds balance password tokenETH b ∧
        maps.entry .ethereum "ETH" ≤ b - amount.getD 0 := by
  unfold verifyEthereumBalance Holds
  cases htext : balance password tokenETH with
  | error err => simp
  | ok text =>
      dsimp only
      cases hb : setString text with
      | none => simp [hb]
      | some b =>
          by_cases hlt : b - amount.getD 0 < maps.entry .ethereum "ETH"
          · simp [hb, hlt]
          · simpa [hb, hlt] using Int.not_lt.mp hlt

theorem verifyTokenBalance_iff {fee : Cost} {amount : Int} :
    verifyTokenBalance fee balance password token amount = .ok () ↔
      ∃ b, Holds balance password token b ∧ amount + (fee.lookup token.name).getD 0 ≤ b := by
  unfold verifyTokenBalance Holds
  rw [except_bind_eq_ok_iff]
  constructor
  · rintro ⟨text, htext, h⟩
    cases hb : setString text with
    | none => simp [hb] at h
    | some b =>
        refine ⟨b, ⟨text, htext, hb⟩, ?_⟩
        by_contra hlt
        simp [hb, Int.not_le.mp hlt] at h
  · rintro ⟨b, ⟨text, htext, hb⟩, hle⟩
    exact ⟨text, htext, by simp [hb, Int.not_lt.mpr hle]⟩

theorem verifyERC20Balance_iff (maps : CostMaps) {amount : Option Int} :
    (verifyERC20Balance maps balance password token amount).2 = .ok () ↔
      (∃ b, Holds balance password tokenETH b ∧ maps.entry .ethereum "ETH" ≤ b) ∧
        ∀ a, amount = some a → ∃ b, Holds balance password token b ∧
          a + maps.entry .ethereum token.name ≤ b := by
  have htoken : ∀ a, verifyTokenBalance (maps.read .ethereum) balance password token a = .ok () ↔
      ∃ b, Holds balance password token b ∧ a + maps.entry .ethereum token.name ≤ b :=
    fun a => verifyTokenBalance_iff
  have hcovered : (match amount with
        | some a => verifyTokenBalance (maps.read .ethereum) balance password token a
        | none => .ok ()) = .ok () ↔
      ∀ a, amount = some a → ∃ b, Holds balance password token b ∧
        a + maps.entry .ethereum token.name ≤ b := by
    cases amount with
    | none => simp
    | some a => simpa using htoken a
  rw [← hcovered]
  unfold verifyERC20Balance Holds
  cases htext : balance password tokenETH with
  | error err => simp
  | ok text =>
      dsimp only
      cases hb : setString text with
      | none => simp [hb]
      | some b =>
          simp only [transactionCost_eth]
          split
          · rename_i herr
            simp [herr]
          · rename_i hok
            by_cases hlt : b < maps.entry .ethereum "ETH"
            · simp [hb, hlt]
            · simpa [hb, hlt, hok] using Int.not_lt.mp hlt

theorem verifyBitcoinBalance_iff (maps : CostMaps) {amount : Option Int} :
    (verifyBitcoinBalance maps balance password amount).2 = .ok () ↔
      ∀ a, amount = some a → 20000 ≤ a ∧ ∃ b, Holds balance password tokenBTC b ∧
        maps.entry .bitcoin "BTC" + 600 ≤ b - a := by
  unfold verifyBitcoinBalance Holds
  cases amount with
  | none => simp
  | some a =>
      by_cases hmin : a < 20000
      · simp [hmin]
      · have hle : 20000 ≤ a := Int.not_lt.mp hmin
        cases htext : balance password tokenBTC with
        | error err => simp [hmin]
        | ok text =>
            cases hb : setString text with
            | none => simp [hmin, hb]
            | some b =>
                by_cases hlt : b - a < maps.entry .bitcoin "BTC" + 600
                · simp [hmin, hb, hlt]
                · simpa [hmin, hb, hlt, hle] using Int.not_lt.mp hlt

theorem entry_eth (calls : List CostCall) :
    (after calls).entry .ethereum "ETH" = 12000000000000000 := by
  unfold CostMaps.entry CostMaps.read
  rw [(after_entries calls).2 "ETH" (by decide)]
  rfl

theorem entry_btc (calls : List CostCall) : (after calls).entry .bitcoin "BTC" = 10000 := by
  unfold CostMaps.entry CostMaps.read
  rw [(after_entries calls).1]
  rfl

end Verdicts

/-- **Costs and balance checks are those of a fresh process exactly as long as nobody has
    asked for the cost of a DGX transfer.** -/
theorem asFresh_iff (calls : List CostCall) :
    AsFresh (after calls) ↔ ∀ c ∈ calls, ¬ c.PricesDGX := by
  constructor
  · intro h c hc hprices
    have hdgx := (after_cases calls).2 ⟨c, hc, hprices⟩
    -- the cost of an Ether transfer now has an entry for DGX
    have heq : (after calls).ethereumTransactionCost = CostMaps.fresh.ethereumTransactionCost :=
      h.cost tokenETH 0
    rw [heq] at hdgx
    simp [CostMaps.fresh, Finmap.notMem_empty] at hdgx
  · intro h
    rw [(after_cases calls).1 h]
    exact ⟨fun _ _ => rfl, fun _ => rfl, fun _ _ _ _ => rfl⟩

/-- A wallet with this much of every token. -/
def sampleBalances (amount : String) : Balances := fun _ _ => .ok amount

/-- A cost that was asked for DGX is found in the cost of an Ether transfer, and makes the
    wallet refuse an amount of DGX that it accepts in a fresh process. -/
theorem dgx_cost_stays :
    returnedCost (after [.transactionCost tokenDGX 9987000]) tokenETH 0 ≠
        returnedCost .fresh tokenETH 0 ∧
      balanceVerdict .fresh (sampleBalances "12000000000000000") "" tokenDGX
        (some 12000000000000000) = .ok () ∧
      balanceVerdict (after [.transactionCost tokenDGX 9987000])
        (sampleBalances "12000000000000000") "" tokenDGX (some 12000000000000000) ≠ .ok () := by
  decide +kernel

end Swapperd.Costs
