/-
  Swapperd/Statuses.lean
  ======================
  **The daemon with its status task** (`core/wallet/wallet.go`, `core/wallet/status`,
  `adapter/db/swapper.go`).

  The wallet sends the receipt of a posted swap to the status task before it sends the swap
  to the swapper, and passes receipt updates on from the swapper to the status task, which
  alone writes the table of receipts.  A crash keeps this table and that of pending swaps.

  Without what is about receipts the steps are those of `Daemon.Moves` (`Moves.base`).
-/
import Swapperd.DaemonSwaps
import Swapperd.SwapReceipts

namespace Swapperd.Statuses

open CallProgram RetryTask TransitionRuns GoLibrary Daemon

/-! ### The status task -/

abbrev Receipts := Store SwapID SwapReceipt

/-- What the wallet sends to the status task. -/
inductive Message where
  | receipt (receipt : SwapReceipt)
  | receiptUpdate (update : ReceiptUpdate)
deriving DecidableEq

def Message.id : Message → SwapID
  | .receipt new => new.id
  | .receiptUpdate update => update.id

def putReceipt (receipts : Receipts) (receipt : SwapReceipt) : Receipts :=
  receipts.insert receipt.id receipt

def updateReceipt (receipts : Receipts) (update : ReceiptUpdate) (costs : ContractCosts) :
    Except GoError Receipts :=
  match receipts.lookup update.id with
  | none => .error (.errorf "leveldb: not found")
  | some receipt => .ok (receipts.insert update.id (update.update costs receipt))

def loadCosts (receipts : Receipts) (swapID : SwapID) : CostOrNil × CostOrNil :=
  match receipts.lookup swapID with
  | none => (∅, ∅)
  | some receipt => (costBlobToCost receipt.sendCost, costBlobToCost receipt.receiveCost)

/-- What a message makes of the table when the storage works. An update reads the costs of
    the contracts when it is applied. -/
def reduce (receipts : Receipts) (costs : ContractCosts) : Message → Except GoError Receipts
  | .receipt receipt => .ok (putReceipt receipts receipt)
  | .receiptUpdate update => updateReceipt receipts update costs

/-- How the table and the storage's answer go together. -/
def Writes (receipts : Receipts) (msg : Message) (costs : ContractCosts)
    (result : Except GoError Unit) (receipts' : Receipts) : Prop :=
  reduce receipts costs msg = .ok receipts' ∧ result = .ok () ∨
    receipts' = receipts ∧ ∃ err, result = .error err

/-! ### States and steps -/

/-- The daemon, the queue from the swapper to the wallet and that of the status task, and
    the table of receipts. -/
structure System where
  daemon : State
  swapperOut : List Output
  statusIn : List Message
  receipts : Receipts

/-- A daemon that starts with these tables. -/
def System.start (pending : PendingTable) (owner : Store SwapID String) (receipts : Receipts) :
    System where
  daemon := .start pending owner
  swapperOut := []
  statusIn := []
  receipts := receipts

def System.init : System := .start ∅ ∅ ∅

/-- `wallet` is a message that the wallet takes from its parent, `forward` one from the
    swapper. -/
inductive Label where
  | daemon (l : Daemon.Label)
  | wallet (msg : WalletMessage) (now : Int)
  | forward (output : Output)
  | status (msg : Message) (costs : ContractCosts) (result : Except GoError Unit)

/-- The receipt that a posted swap gets. -/
def newReceipts (now : Int) : WalletMessage → List Message
  | .swapRequest blob => [.receipt (newSwapReceipt now blob)]
  | _ => []

/-- Errors go to the log. -/
def forwards : Output → List Message
  | .receiptUpdate update => [.receiptUpdate update]
  | .error _ => []

inductive Moves (D : Config) : System → Label → System → Prop where
  | thread {s : System} {d : State} (h : Daemon.Moves D s.daemon .thread d) :
      Moves D s (.daemon .thread) { s with daemon := d }
  | accept {s : System} {msg : WalletMessage} {rest : List WalletMessage}
      (h : s.daemon.receiver = msg :: rest) :
      Moves D s (.daemon .wallet)
        { s with daemon :=
            { s.daemon with receiver := rest, walletIn := s.daemon.walletIn ++ [msg] } }
  | tick {s : System} :
      Moves D s (.daemon .wallet)
        { s with daemon := { s.daemon with walletIn := s.daemon.walletIn ++ [.tick] } }
  | wallet {s : System} {msg : WalletMessage} {rest : List WalletMessage}
      (h : s.daemon.walletIn = msg :: rest) (now : Int) :
      Moves D s (.wallet msg now)
        { s with
          daemon := { s.daemon with walletIn := rest, swapperIn := s.daemon.swapperIn ++ [msg] }
          statusIn := s.statusIn ++ newReceipts now msg }
  | swapper {s : System} {d : State} {msg : SwapperMessage} {R : StorageReplies}
      (h : Daemon.Moves D s.daemon (.swapper msg R) d) (hcosts : R.loadCosts = loadCosts s.receipts) :
      Moves D s (.daemon (.swapper msg R))
        { s with daemon := d, swapperOut := s.swapperOut ++ (Daemon.reduce D R msg).2 }
  | immediate {s : System} {d : State} {l : ImmediateReduction}
      (h : Daemon.Moves D s.daemon (.immediate l) d) :
      Moves D s (.daemon (.immediate l)) { s with daemon := d }
  | delayed {s : System} {d : State} {l : DelayedReduction}
      (h : Daemon.Moves D s.daemon (.delayed l) d) :
      Moves D s (.daemon (.delayed l)) { s with daemon := d }
  | forward {s : System} {output : Output} {rest : List Output} (h : s.swapperOut = output :: rest) :
      Moves D s (.forward output)
        { s with swapperOut := rest, statusIn := s.statusIn ++ forwards output }
  | status {s : System} {msg : Message} {rest : List Message} {costs : ContractCosts}
      {result : Except GoError Unit} {receipts : Receipts} (h : s.statusIn = msg :: rest)
      (hwrites : Writes s.receipts msg costs result receipts) :
      Moves D s (.status msg costs result) { s with statusIn := rest, receipts := receipts }
  | crash {s : System} :
      Moves D s (.daemon .crash) (.start s.daemon.pending s.daemon.owner s.receipts)

/-! ### The daemon in the system -/

/-- The step of the daemon, if there is one. -/
def Label.base : Label → Option Daemon.Label
  | .daemon l => some l
  | .wallet _ _ => some .wallet
  | .forward _ | .status _ _ _ => none

variable {D : Config} {s s' : System} {l : Label}

/-- **Simulation.**  A step of the system is one of the daemon, or leaves the daemon as it
    is. -/
theorem Moves.base (h : Moves D s l s') :
    (∃ l₀, l.base = some l₀ ∧ Daemon.Moves D s.daemon l₀ s'.daemon) ∨
      l.base = none ∧ s'.daemon = s.daemon := by
  cases h with
  | thread h | swapper h | immediate h | delayed h => exact .inl ⟨_, rfl, h⟩
  | accept h => exact .inl ⟨_, rfl, .accept h⟩
  | tick => exact .inl ⟨_, rfl, .tick⟩
  | wallet h => exact .inl ⟨_, rfl, .wallet h⟩
  | crash => exact .inl ⟨_, rfl, .crash⟩
  | forward | status => exact .inr ⟨rfl, rfl⟩

/-- What every step of the daemon keeps holds throughout a run of the system. -/
theorem Moves.keeps {P : State → Prop} {C : Daemon.Label → Prop}
    (hstep : ∀ {d l d'}, P d → Daemon.Moves D d l d' → C l → P d') (hs : P s.daemon)
    (h : Moves D s l s') (hC : ∀ l₀, l.base = some l₀ → C l₀) : P s'.daemon := by
  rcases h.base with ⟨l₀, hbase, hmoves⟩ | ⟨-, hsame⟩
  · exact hstep hs hmoves (hC l₀ hbase)
  · rwa [hsame]

/-! ### The table of receipts -/

@[simp] theorem lookup_putReceipt (receipts : Receipts) (receipt : SwapReceipt) (id : SwapID) :
    (putReceipt receipts receipt).lookup id =
      if receipt.id = id then some receipt else receipts.lookup id := by
  unfold putReceipt
  by_cases hid : receipt.id = id
  · rw [if_pos hid, ← hid, Finmap.lookup_insert]
  · rw [if_neg hid, Finmap.lookup_insert_of_ne _ (Ne.symm hid)]

/-- An update of a receipt that is stored is applied to it, and to no other. -/
theorem updateReceipt_ok {receipts receipts' : Receipts} {update : ReceiptUpdate}
    {costs : ContractCosts} (h : updateReceipt receipts update costs = .ok receipts') :
    update.id ∈ receipts ∧ ∀ id, receipts'.lookup id =
      if update.id = id then (receipts.lookup id).map (update.update costs)
      else receipts.lookup id := by
  unfold updateReceipt at h
  cases hlookup : receipts.lookup update.id with
  | none =>
      rw [hlookup] at h
      cases h
  | some receipt =>
      rw [hlookup] at h
      cases h
      refine ⟨Finmap.mem_of_lookup_eq_some hlookup, ?_⟩
      intro id
      by_cases hid : update.id = id
      · rw [if_pos hid, ← hid, Finmap.lookup_insert, hlookup, Option.map_some]
      · rw [if_neg hid, Finmap.lookup_insert_of_ne _ (Ne.symm hid)]

/-- An update fails for want of a receipt only. -/
theorem updateReceipt_of_mem {receipts : Receipts} {update : ReceiptUpdate}
    (h : update.id ∈ receipts) (costs : ContractCosts) :
    ∃ receipts', updateReceipt receipts update costs = .ok receipts' := by
  obtain ⟨receipt, hlookup⟩ := Finmap.mem_iff.mp h
  exact ⟨_, by rw [updateReceipt, hlookup]⟩

/-- What the message makes of the receipt of its swap. -/
def Message.apply (msg : Message) (costs : ContractCosts) (receipt : Option SwapReceipt) :
    Option SwapReceipt :=
  match msg with
  | .receipt new => some new
  | .receiptUpdate update => receipt.map (update.update costs)

/-- A message changes the receipt of its swap only. -/
theorem reduce_lookup {receipts receipts' : Receipts} {msg : Message} {costs : ContractCosts}
    (h : reduce receipts costs msg = .ok receipts') (id : SwapID) :
    receipts'.lookup id =
      if msg.id = id then msg.apply costs (receipts.lookup id) else receipts.lookup id := by
  cases msg with
  | receipt receipt =>
      cases h
      exact lookup_putReceipt receipts receipt id
  | receiptUpdate update => exact (updateReceipt_ok h).2 id

/-- Receipts are never deleted. -/
theorem Writes.mem {receipts receipts' : Receipts} {msg : Message} {costs : ContractCosts}
    {result : Except GoError Unit} (h : Writes receipts msg costs result receipts') {id : SwapID}
    (hid : id ∈ receipts) : id ∈ receipts' := by
  rcases h with ⟨hreduce, -⟩ | ⟨rfl, -⟩
  · rw [← Finmap.lookup_isSome] at hid ⊢
    rw [reduce_lookup hreduce]
    split
    · cases msg with
      | receipt receipt => rfl
      | receiptUpdate update => simpa [Message.apply] using hid
    · exact hid
  · exact hid

/-- The storage answers a message when it can: an update needs a receipt. -/
def Works (receipts : Receipts) : Label → Prop
  | .status msg costs result => (∃ receipts', reduce receipts costs msg = .ok receipts') →
      result = .ok ()
  | _ => True

theorem Works.result_ok {receipts : Receipts} {msg : Message} {costs : ContractCosts}
    {result : Except GoError Unit} (hworks : Works receipts (.status msg costs result))
    (hid : msg.id ∈ receipts) : result = .ok () := by
  apply hworks
  cases msg with
  | receipt receipt => exact ⟨_, rfl⟩
  | receiptUpdate update => exact updateReceipt_of_mem hid costs

/-- When the storage works, a message does to the receipt of its swap what it says; an
    update without a receipt does nothing. -/
theorem Writes.lookup {receipts receipts' : Receipts} {msg : Message} {costs : ContractCosts}
    {result : Except GoError Unit} (h : Writes receipts msg costs result receipts')
    (hworks : Works receipts (.status msg costs result)) (id : SwapID) :
    receipts'.lookup id =
      if msg.id = id then msg.apply costs (receipts.lookup id) else receipts.lookup id := by
  rcases h with ⟨hreduce, -⟩ | ⟨rfl, err, hfails⟩
  · exact reduce_lookup hreduce id
  · by_cases hid : msg.id = id
    · have hnone : ¬ ∃ receipts'', reduce receipts' costs msg = .ok receipts'' := by
        intro hsome
        cases hfails.symm.trans (hworks hsome)
      rw [if_pos hid]
      cases msg with
      | receipt receipt => exact absurd ⟨_, rfl⟩ hnone
      | receiptUpdate update =>
          have hmem : id ∉ receipts' := by
            rw [← hid]
            exact fun hmem => hnone (updateReceipt_of_mem hmem costs)
          rw [Finmap.lookup_eq_none.mpr hmem]
          rfl
    · rw [if_neg hid]

end Swapperd.Statuses
