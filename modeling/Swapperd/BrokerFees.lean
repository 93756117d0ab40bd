/-
  Swapperd/BrokerFees.lean
  ========================
  **The broker fee in the recorded cost** (`Initiate` and `Refund` of `adapter/binder/btc`,
  `eth` and `erc20`).

  The Ethereum binders add the fee to the cost whenever they send a transaction that funds
  the HTLC, and take it off whenever they send a refund; the Bitcoin binder does both when
  a poll sees the transaction.  So the cost is right exactly as long as every call that
  sends does so once, and is confirmed before it returns (`feeKept_iff`).
-/
import Swapperd.ContractWorld
import Swapperd.SwapAdmission
import Swapperd.TransitionRuns
import Mathlib.Tactic.Ring

namespace Swapperd.Chain

open CallProgram TransitionRuns GoLibrary
open Bitcoin (SwapContractBinder Network newBTCSwapContractBinder minBrokerFee
  buildInitiateScript)

/-! ### Costs -/

/-- A cost, and the transaction fees that are in it. -/
structure Books where
  cost : Cost := ∅
  txFees : Cost := ∅

def addTo (cost : Cost) (name : TokenName) (amount : Int) : Cost :=
  cost.insert name ((cost.lookup name).getD 0 + amount)

/-- The entry that a constructor makes. -/
def ensure (cost : Cost) (name : TokenName) : Cost :=
  if name ∈ cost then cost else cost.insert name 0

namespace Books

def payTxFee (books : Books) (name : TokenName) (amount : Int) : Books where
  cost := addTo books.cost name amount
  txFees := addTo books.txFees name amount

def addBrokerFee (books : Books) (name : TokenName) (amount : Int) : Books :=
  { books with cost := addTo books.cost name amount }

/-- The rest of the cost. -/
def brokerPart (books : Books) (name : TokenName) : Int :=
  (books.cost.lookup name).getD 0 - (books.txFees.lookup name).getD 0

end Books

/-! ### Binders that record costs -/

inductive FeeOp where
  | initiate
  | refund
deriving DecidableEq

def FeeOp.program : FeeOp → Binder → Calls (Except GoError Unit)
  | initiate, b => b.initiate
  | refund, b => b.refund

/-- The note of an event is the gas of the transaction that it sends. -/
abbrev GasEvent := Event Op Reply World Int

def gasStep : Behaviour Op Reply World Int := fun op w _ reply w' => clientStep op w () reply w'

/-- The transaction that was sent by a call. -/
def sentBy : (op : Op) → Reply op → Option Tx
  | ⟨_, .send tx⟩, .ok () => some tx
  | _, _ => none

def sent? (e : GasEvent) : Option Tx := sentBy e.op e.reply

def Tx.withFees : Tx → Bool
  | .initiateWithFees .. => true
  | _ => false

/-- The answer is that the script address holds its value, or that it was spent. -/
def answersFunded : (op : Op) → Reply op → Bool
  | ⟨_, .scriptFunded _⟩, .ok (funded, _) => funded
  | _, _ => false

def answersSpent : (op : Op) → Reply op → Bool
  | ⟨_, .scriptSpent⟩, .ok spent => spent
  | _, _ => false

/-- The callbacks that send: `fundName` is the entry that the fee of `InitiateWithFees` is
    added to. -/
def EthBinder.record (b : EthBinder) (fundName : TokenName) (books : Books) (e : GasEvent) :
    Books :=
  match sent? e with
  | none => books
  | some (.initiateWithFees ..) =>
      (books.addBrokerFee fundName b.swap.brokerFee).payTxFee "ETH" (b.swap.fee * e.note)
  | some .refund =>
      let books := books.payTxFee "ETH" (b.swap.fee * e.note)
      if b.swap.token.name ∈ books.cost then
        books.addBrokerFee b.swap.token.name (-b.swap.brokerFee)
      else books
  | some _ => books.payTxFee "ETH" (b.swap.fee * e.note)

/-- The post-condition of `Initiate`. -/
def recordFunded (b : SwapContractBinder) (books : Books) (e : GasEvent) : Books :=
  if answersFunded e.op e.reply then
    (books.payTxFee "BTC" b.fee).addBrokerFee "BTC" b.swap.brokerFee
  else books

/-- The post-condition of `Refund`. -/
def recordSpent (b : SwapContractBinder) (books : Books) (e : GasEvent) : Books :=
  if answersSpent e.op e.reply then
    (books.payTxFee "BTC" b.fee).addBrokerFee "BTC" (-b.swap.brokerFee)
  else books

/-- What a call does to the cost. The first event of a call for Bitcoin is the query of the
    pre-condition, which records nothing. -/
def Binder.record : Binder → FeeOp → Books → List GasEvent → Books
  | .eth b, _, books, events => events.foldl (b.record "ETH") books
  | .erc20 b, _, books, events => events.foldl (b.record b.swap.token.name) books
  | .btc _ b, .initiate, books, events => events.tail.foldl (recordFunded b) books
  | .btc _ b, .refund, books, events => events.tail.foldl (recordSpent b) books

def newETHSwapContractBinder (id : Bytes32) (swap : Swap) (cost : Cost) : EthBinder × Cost :=
  (⟨id, { swap with value := swap.value + swap.brokerFee }⟩, ensure cost "ETH")

def newERC20SwapContractBinder (id : Bytes32) (swap : Swap) (cost : Cost) : EthBinder × Cost :=
  (⟨id, { swap with value := swap.value + swap.brokerFee }⟩,
    ensure (ensure cost "ETH") swap.token.name)

/-- The binders that can be built for a swap over a cost, and the cost after that. `id` is
    what the swap contract calls the swap. -/
inductive Rebuilt (net : Network) (id : Bytes32) (swap : Swap) (cost : Cost) :
    Binder → Cost → Prop where
  | btc {account : Bitcoin.Account} {b : SwapContractBinder}
      (hchain : swap.token.blockchain = .bitcoin)
      (hbind : newBTCSwapContractBinder net swap cost = .ok b) :
      Rebuilt net id swap cost (.btc account b) b.cost
  | eth (hchain : swap.token.blockchain = .ethereum) :
      Rebuilt net id swap cost (.eth (newETHSwapContractBinder id swap cost).1)
        (newETHSwapContractBinder id swap cost).2
  | erc20 (hchain : swap.token.blockchain = .erc20) :
      Rebuilt net id swap cost (.erc20 (newERC20SwapContractBinder id swap cost).1)
        (newERC20SwapContractBinder id swap cost).2

/-! ### Runs of one HTLC -/

structure FeeState where
  books : Books := {}
  world : World

/-- A call by a rebuilt binder. -/
structure FeeCall where
  b : Binder
  op : FeeOp
  events : List GasEvent
  result : Except GoError Unit
  after : World

/-- Calls, and what happens between them. -/
inductive Act where
  | call (c : FeeCall)
  | evolve (after : World)

section Definitions

variable (net : Network) (id : Bytes32) (swap : Swap)

def FeeMoves (s : FeeState) : Act → FeeState → Prop
  | .call c, s' => ∃ cost, Rebuilt net id swap s.books.cost c.b cost ∧
      Exec gasStep (c.op.program c.b) s.world c.events c.result c.after ∧
      s' = ⟨c.b.record c.op { s.books with cost := cost } c.events, c.after⟩
  | .evolve after, s' => s.world.Evolves after ∧ s' = ⟨s.books, after⟩

/-- The address of the HTLC, or its ID. -/
def htlcAddr : String :=
  match swap.token.blockchain with
  | .bitcoin => match buildInitiateScript net swap with
      | .ok (_, scriptAddr) => scriptAddr
      | .error _ => ""
  | .ethereum | .erc20 => encodeToString id.1

/-- The broker fee of the binders. -/
def chargedFee : Int :=
  match swap.token.blockchain with
  | .bitcoin => minBrokerFee swap.brokerFee
  | .ethereum | .erc20 => swap.brokerFee

instance (p : Phase) : Decidable p.Unheld :=
  inferInstanceAs (Decidable (p = .unfunded ∨ p = .refunded))

/-- The recorded broker fee is that of an HTLC that has been funded and not refunded. -/
structure FeeKept (s : FeeState) : Prop where
  part : s.books.brokerPart swap.token.name =
    if (s.world.phase (htlcAddr net id swap)).Unheld then 0 else chargedFee swap
  nonneg : 0 ≤ s.books.brokerPart swap.token.name

end Definitions

/-- How often a call funds or refunds: on Ethereum by a transaction that is sent, on Bitcoin
    by one that a poll sees. -/
def Binder.charges : Binder → FeeOp → List GasEvent → Nat
  | .eth _, .initiate, events | .erc20 _, .initiate, events =>
      events.countP fun e => (sent? e).any Tx.withFees
  | .eth _, .refund, events | .erc20 _, .refund, events =>
      events.countP fun e => sent? e = some .refund
  | .btc .., .initiate, events => events.tail.countP fun e => answersFunded e.op e.reply
  | .btc .., .refund, events => events.tail.countP fun e => answersSpent e.op e.reply

/-- What the operation does to the HTLC when it takes effect. -/
def FeeOp.TakesEffect : FeeOp → (before after : Phase) → Prop
  | initiate, before, after => before.Unheld ∧ ¬ after.Unheld
  | refund, before, after => ¬ before.Unheld ∧ after.Unheld

/-- A call that charges does so once, and has taken effect when it returns; nothing else
    funds or refunds the HTLC. -/
def Settled (net : Network) (id : Bytes32) (swap : Swap) (s : FeeState) : Act → Prop
  | .call c =>
      let before := s.world.phase c.b.htlc.addr
      let after := c.after.phase c.b.htlc.addr
      c.b.charges c.op c.events = 0 ∧ (before.Unheld ↔ after.Unheld) ∨
        c.b.charges c.op c.events = 1 ∧ c.op.TakesEffect before after
  | .evolve after =>
      (s.world.phase (htlcAddr net id swap)).Unheld ↔ (after.phase (htlcAddr net id swap)).Unheld

/-! ### What is recorded -/

section Costs

variable {cost : Cost} {name other : TokenName} {amount : Int} {books : Books}

theorem lookup_addTo (cost : Cost) (name other : TokenName) (amount : Int) :
    ((addTo cost name amount).lookup other).getD 0 =
      (cost.lookup other).getD 0 + if other = name then amount else 0 := by
  unfold addTo
  by_cases h : other = name
  · rw [h, Finmap.lookup_insert, if_pos rfl]
    rfl
  · rw [Finmap.lookup_insert_of_ne _ h, if_neg h, add_zero]

theorem mem_addTo (h : name ∈ cost) : name ∈ addTo cost other amount :=
  Finmap.mem_insert.mpr (.inr h)

theorem lookup_ensure (cost : Cost) (name other : TokenName) :
    ((ensure cost name).lookup other).getD 0 = (cost.lookup other).getD 0 := by
  unfold ensure
  split_ifs with hmem
  · rfl
  · by_cases h : other = name
    · rw [h, Finmap.lookup_insert, Finmap.lookup_eq_none.mpr hmem]
      rfl
    · rw [Finmap.lookup_insert_of_ne _ h]

theorem mem_ensure (cost : Cost) (name : TokenName) : name ∈ ensure cost name := by
  unfold ensure
  split_ifs with hmem
  · exact hmem
  · exact Finmap.mem_insert.mpr (.inl rfl)

@[simp] theorem brokerPart_payTxFee :
    (books.payTxFee other amount).brokerPart name = books.brokerPart name := by
  simp only [Books.payTxFee, Books.brokerPart, lookup_addTo]
  omega

theorem brokerPart_addBrokerFee :
    (books.addBrokerFee other amount).brokerPart name =
      books.brokerPart name + if name = other then amount else 0 := by
  simp only [Books.addBrokerFee, Books.brokerPart, lookup_addTo]
  omega

end Costs

section Records

variable {books : Books} {events : List GasEvent}

/-- What one event does to the broker fee. -/
theorem EthBinder.record_event (b : EthBinder) (hmem : b.swap.token.name ∈ books.cost)
    (e : GasEvent) :
    (b.record b.swap.token.name books e).brokerPart b.swap.token.name =
        books.brokerPart b.swap.token.name +
          (if (sent? e).any Tx.withFees then b.swap.brokerFee else 0) -
          (if sent? e = some .refund then b.swap.brokerFee else 0) ∧
      b.swap.token.name ∈ (b.record b.swap.token.name books e).cost := by
  have hpaid : b.swap.token.name ∈ (books.payTxFee "ETH" (b.swap.fee * e.note)).cost :=
    mem_addTo hmem
  unfold EthBinder.record
  cases hsent : sent? e with
  | none => simp [hmem]
  | some tx =>
      cases tx with
      | initiateWithFees =>
          refine ⟨?_, mem_addTo (mem_addTo hmem)⟩
          simp [brokerPart_addBrokerFee, Tx.withFees]
      | refund =>
          dsimp only
          rw [if_pos hpaid]
          refine ⟨?_, mem_addTo hpaid⟩
          simp [brokerPart_addBrokerFee, Tx.withFees]
          omega
      | _ => exact ⟨by simp [Tx.withFees], hpaid⟩

/-- A fee that some events add is added once for each of them. -/
theorem brokerPart_foldl (books : Books) (events : List GasEvent) {name : TokenName}
    {record : Books → GasEvent → Books} (charges : GasEvent → Bool) (fee : Int)
    (P : Books → Prop) (hP : P books)
    (hrecord : ∀ books, P books → ∀ e ∈ events, (record books e).brokerPart name =
      books.brokerPart name + (if charges e then fee else 0) ∧ P (record books e)) :
    (events.foldl record books).brokerPart name =
      books.brokerPart name + (events.countP charges : Int) * fee := by
  induction events generalizing books with
  | nil => simp
  | cons e events ih =>
      obtain ⟨hpart, hnext⟩ := hrecord books hP e List.mem_cons_self
      have hrest := ih _ hnext fun books hbooks e' he' =>
        hrecord books hbooks e' (List.mem_cons_of_mem _ he')
      rw [List.foldl_cons, hrest, hpart, List.countP_cons]
      push_cast
      split_ifs <;> ring

theorem recordFunded_event (b : SwapContractBinder) (books : Books) (e : GasEvent) :
    (recordFunded b books e).brokerPart "BTC" =
      books.brokerPart "BTC" + if answersFunded e.op e.reply then b.swap.brokerFee else 0 := by
  unfold recordFunded
  split_ifs
  · simp [brokerPart_addBrokerFee]
  · simp

theorem recordSpent_event (b : SwapContractBinder) (books : Books) (e : GasEvent) :
    (recordSpent b books e).brokerPart "BTC" =
      books.brokerPart "BTC" + if answersSpent e.op e.reply then -b.swap.brokerFee else 0 := by
  unfold recordSpent
  split_ifs
  · simp [brokerPart_addBrokerFee]
  · simp

end Records

/-! ### What the programs send -/

/-- A call of an Ethereum binder to fund the HTLC sends no refund, and the other way round. -/
def FeeOp.Sends : FeeOp → Tx → Prop
  | initiate, tx => tx ≠ .refund
  | refund, tx => tx.withFees = false

/-- Only transactions with `Q` are sent. -/
def SendsOnly (Q : Tx → Prop) (op : Op) : Prop := ∀ tx, op.query = .send tx → Q tx

section Programs

variable {Q : Tx → Prop} {htlc : Htlc}

theorem sendsOnly_of_reads {query : Query} (h : query.Reads) : SendsOnly Q ⟨htlc, query⟩ := by
  intro tx htx
  dsimp only at htx
  rw [htx] at h
  exact absurd h id

theorem runRounds_sendsOnly {tx : Tx} (htx : Q tx) {post : Option (Check Unit)}
    (hpost : ∀ c ∈ post, c.query.Reads) (giveUp : String) (rounds : List Round) :
    (runRounds htlc tx post giveUp rounds).Performs (SendsOnly Q) := by
  induction rounds with
  | nil => trivial
  | cons round rounds ih =>
      cases round with
      | send =>
          refine .perform_bind ?_ fun _ => ih
          rintro tx' heq
          cases heq
          exact htx
      | poll =>
          cases post with
          | none => trivial
          | some c =>
              refine .bind (.perform_bind (sendsOnly_of_reads (hpost c rfl)) fun _ => trivial) ?_
              intro answer
              cases answer with
              | none => exact ih
              | some _ => trivial -- a poll that passes ends the rounds

theorem submit_sendsOnly {tx : Tx} (htx : Q tx) {post : Option (Check Unit)}
    (hpost : ∀ c ∈ post, c.query.Reads) : (submit htlc tx post).Performs (SendsOnly Q) := by
  refine .perform_bind ?_ fun schedule => runRounds_sendsOnly htx hpost _ _
  intro tx heq
  cases heq

theorem transact_sendsOnly {pre : Check Tx} {post : Check Unit} (hpre : pre.query.Reads)
    (hpost : post.query.Reads) (htx : ∀ answer tx, pre.read answer = some tx → Q tx)
    {f : Except GoError Unit → Except GoError Unit} :
    ((transact htlc pre post).bind fun err => .pure (f err)).Performs (SendsOnly Q) := by
  refine .bind ?_ fun _ => trivial
  refine .perform_bind (sendsOnly_of_reads hpre) fun answer => ?_
  dsimp only
  split
  · trivial
  · rename_i tx hread
    refine submit_sendsOnly (htx answer tx hread) ?_
    rintro c hc
    cases hc
    exact hpost

theorem EthBinder.sends_initiateTx (b : EthBinder) (value : Int) :
    FeeOp.initiate.Sends (b.initiateTx value) := by
  unfold EthBinder.initiateTx
  split <;> simp [FeeOp.Sends]

theorem EthBinder.initiate_sendsOnly (b : EthBinder) :
    b.initiate.Performs (SendsOnly FeeOp.initiate.Sends) := by
  unfold EthBinder.initiate
  apply transact_sendsOnly
  · trivial
  · trivial
  intro answer tx hread
  rw [(expect_eq_some_iff.mp hread).2]
  exact b.sends_initiateTx _

theorem EthBinder.initiateERC20_sendsOnly (b : EthBinder) :
    b.initiateERC20.Performs (SendsOnly FeeOp.initiate.Sends) := by
  unfold EthBinder.initiateERC20
  refine .perform_bind (sendsOnly_of_reads trivial) fun answer => ?_
  split
  · trivial
  · trivial
  · refine .bind (submit_sendsOnly (by simp [FeeOp.Sends]) (by simp)) fun approved => ?_
    split
    · trivial
    · apply submit_sendsOnly
      · exact b.sends_initiateTx _
      rintro c hc
      cases hc
      trivial

theorem EthBinder.refund_sendsOnly (b : EthBinder) :
    b.refund.Performs (SendsOnly FeeOp.refund.Sends) := by
  unfold EthBinder.refund
  apply transact_sendsOnly
  · trivial
  · trivial
  intro answer tx hread
  rw [(expect_eq_some_iff.mp hread).2]
  rfl

theorem query_of_sent {e : GasEvent} {tx : Tx} (h : sent? e = some tx) : e.op.query = .send tx := by
  obtain ⟨⟨htlc, query⟩, before, gas, reply, after⟩ := e
  cases query with
  | send tx' =>
      cases reply with
      | error err => cases h
      | ok u =>
          cases h
          rfl
  | _ => cases h

end Programs

/-! ### What a call does to the broker fee -/

/-- The sign of the fee. -/
def FeeOp.sign : FeeOp → Int
  | initiate => 1
  | refund => -1

theorem newBTCSwapContractBinder_built {net : Network} {swap : Swap} {cost : Cost}
    {b : SwapContractBinder} (h : newBTCSwapContractBinder net swap cost = .ok b) :
    (∃ script, buildInitiateScript net swap = .ok (script, b.scriptAddr)) ∧
      b.cost = ensure cost "BTC" ∧ b.swap.brokerFee = minBrokerFee swap.brokerFee := by
  unfold newBTCSwapContractBinder at h
  rcases except_bind_eq_ok_iff.mp h with ⟨⟨script, scriptAddr⟩, hscript, h⟩
  cases h
  exact ⟨⟨script, hscript⟩, rfl, rfl⟩

theorem minBrokerFee_pos {brokerFee : Int} (h : 0 < brokerFee) : 0 < minBrokerFee brokerFee := by
  unfold minBrokerFee
  split_ifs <;> omega

theorem chargedFee_pos {swap : Swap} (h : 0 < swap.brokerFee) : 0 < chargedFee swap := by
  unfold chargedFee
  split
  · exact minBrokerFee_pos h
  · exact h
  · exact h

theorem Rebuilt.htlc_addr {net : Network} {id : Bytes32} {swap : Swap} {cost cost' : Cost}
    {b : Binder} (h : Rebuilt net id swap cost b cost') : b.htlc.addr = htlcAddr net id swap := by
  unfold htlcAddr
  cases h with
  | btc hchain hbind =>
      rcases (newBTCSwapContractBinder_built hbind).1 with ⟨script, hscript⟩
      rw [hchain]
      dsimp only
      rw [hscript]
      rfl
  | eth hchain =>
      rw [hchain]
      rfl
  | erc20 hchain =>
      rw [hchain]
      rfl

theorem brokerPart_ensure (books : Books) (name other : TokenName) :
    ({ books with cost := ensure books.cost other } : Books).brokerPart name =
      books.brokerPart name := by
  unfold Books.brokerPart
  rw [lookup_ensure]

section Calls

variable {net : Network} {id : Bytes32} {swap : Swap} {cost : Cost} {b : Binder}
  {books : Books} {w w' : World} {events : List GasEvent} {result : Except GoError Unit}

theorem EthBinder.brokerPart_call (b : EthBinder) (books : Books) {op : FeeOp}
    (hmem : b.swap.token.name ∈ books.cost) (hsends : ∀ e ∈ events, SendsOnly op.Sends e.op) :
    (events.foldl (b.record b.swap.token.name) books).brokerPart b.swap.token.name =
      books.brokerPart b.swap.token.name +
        op.sign * (((Binder.eth b).charges op events : Nat) : Int) * b.swap.brokerFee := by
  cases op with
  | initiate =>
      rw [brokerPart_foldl _ _ (fun e => (sent? e).any Tx.withFees) b.swap.brokerFee
        (fun books => b.swap.token.name ∈ books.cost) hmem]
      · simp [FeeOp.sign, Binder.charges]
      · intro books hmem e he
        obtain ⟨hpart, hnext⟩ := b.record_event hmem e
        have hrefund : sent? e ≠ some .refund := fun h => hsends e he _ (query_of_sent h) rfl
        rw [if_neg hrefund, sub_zero] at hpart
        exact ⟨hpart, hnext⟩
  | refund =>
      rw [brokerPart_foldl _ _ (fun e => sent? e = some .refund) (-b.swap.brokerFee)
        (fun books => b.swap.token.name ∈ books.cost) hmem]
      · simp only [FeeOp.sign, Binder.charges]
        ring
      · intro books hmem e he
        obtain ⟨hpart, hnext⟩ := b.record_event hmem e
        have hfees : (sent? e).any Tx.withFees = false := by
          cases hsent : sent? e with
          | none => rfl
          | some tx => exact hsends e he tx (query_of_sent hsent)
        rw [hfees, if_neg Bool.false_ne_true, add_zero] at hpart
        refine ⟨?_, hnext⟩
        rw [hpart]
        by_cases hsent : sent? e = some .refund
        · simp [hsent]
          rfl
        · simp [hsent]

theorem SwapContractBinder.brokerPart_call (account : Bitcoin.Account) (b : SwapContractBinder)
    (op : FeeOp) :
    ((Binder.btc account b).record op books events).brokerPart "BTC" =
      books.brokerPart "BTC" +
        op.sign * ((Binder.btc account b).charges op events : Int) * b.swap.brokerFee := by
  cases op with
  | initiate =>
      have hfold := brokerPart_foldl books events.tail
        (fun e => answersFunded e.op e.reply) b.swap.brokerFee (fun _ => True) trivial
        fun books _ e _ => ⟨recordFunded_event b books e, trivial⟩
      simpa [FeeOp.sign, Binder.record, Binder.charges] using hfold
  | refund =>
      have hfold := brokerPart_foldl books events.tail
        (fun e => answersSpent e.op e.reply) (-b.swap.brokerFee) (fun _ => True) trivial
        fun books _ e _ => ⟨recordSpent_event b books e, trivial⟩
      simpa [FeeOp.sign, Binder.record, Binder.charges] using hfold

/-- A call adds or takes off the broker fee as often as it charges. -/
theorem brokerPart_call (htoken : swap.token ∈ supportedTokens) {op : FeeOp}
    (hb : Rebuilt net id swap books.cost b cost)
    (h : Exec gasStep (op.program b) w events result w') :
    (b.record op { books with cost := cost } events).brokerPart swap.token.name =
      books.brokerPart swap.token.name +
        op.sign * (b.charges op events : Int) * chargedFee swap := by
  -- each constructor makes the entry of the token, which its binder then writes to
  cases hb with
  | @btc account b hchain hbind =>
      rcases newBTCSwapContractBinder_built hbind with ⟨-, hcost, hfee⟩
      have hname : swap.token.name = "BTC" := congrArg Token.name (Token.eq_btc htoken hchain)
      have hcharged : chargedFee swap = b.swap.brokerFee := by
        unfold chargedFee
        rw [hchain, hfee]
      rw [hname, hcharged, hcost, SwapContractBinder.brokerPart_call, brokerPart_ensure]
  | eth hchain =>
      have hname : swap.token.name = "ETH" := congrArg Token.name (Token.eq_eth htoken hchain)
      have hcharged : chargedFee swap = swap.brokerFee := by
        unfold chargedFee
        rw [hchain]
      have hsends : ∀ e ∈ events, SendsOnly op.Sends e.op := by
        cases op with
        | initiate => exact h.performs (EthBinder.initiate_sendsOnly _)
        | refund => exact h.performs (EthBinder.refund_sendsOnly _)
      have hmem : swap.token.name ∈ ensure books.cost "ETH" := by
        rw [hname]
        exact mem_ensure _ _
      have hcall := (newETHSwapContractBinder id swap books.cost).1.brokerPart_call
        { books with cost := ensure books.cost "ETH" } hmem hsends
      rw [brokerPart_ensure] at hcall
      rw [hcharged]
      show (events.foldl ((newETHSwapContractBinder id swap books.cost).1.record "ETH")
        _).brokerPart _ = _
      rw [← hname]
      exact hcall
  | erc20 hchain =>
      have hcharged : chargedFee swap = swap.brokerFee := by
        unfold chargedFee
        rw [hchain]
      have hsends : ∀ e ∈ events, SendsOnly op.Sends e.op := by
        cases op with
        | initiate => exact h.performs (EthBinder.initiateERC20_sendsOnly _)
        | refund => exact h.performs (EthBinder.refund_sendsOnly _)
      have hcall := (newERC20SwapContractBinder id swap books.cost).1.brokerPart_call
        { books with cost := ensure (ensure books.cost "ETH") swap.token.name }
        (mem_ensure _ _) hsends
      rw [brokerPart_ensure { books with cost := ensure books.cost "ETH" },
        brokerPart_ensure] at hcall
      rw [hcharged]
      cases op <;> exact hcall

end Calls

/-! ### The fee over runs -/

section Runs

variable {net : Network} {id : Bytes32} {swap : Swap} {w : World}

/-- Whether the HTLC holds its funds, or the funds were redeemed. -/
def Phase.held (p : Phase) : Int := if p.Unheld then 0 else 1

theorem feeKept_iff_part {s : FeeState} (hfee : 0 < chargedFee swap) :
    FeeKept net id swap s ↔ s.books.brokerPart swap.token.name =
      (s.world.phase (htlcAddr net id swap)).held * chargedFee swap := by
  have hpart : (if (s.world.phase (htlcAddr net id swap)).Unheld then 0 else chargedFee swap) =
      (s.world.phase (htlcAddr net id swap)).held * chargedFee swap := by
    unfold Phase.held
    split_ifs <;> ring
  constructor
  · intro h
    rw [h.part, hpart]
  · intro h
    refine ⟨h.trans hpart.symm, ?_⟩
    rw [h, ← hpart]
    split_ifs <;> omega

theorem held_eq_iff {p q : Phase} : p.held = q.held ↔ (p.Unheld ↔ q.Unheld) := by
  unfold Phase.held
  split_ifs with hp hq hq <;> simp [hp, hq]

theorem held_add_iff {p q : Phase} {op : FeeOp} {n : Nat} :
    p.held + op.sign * n = q.held ↔
      n = 0 ∧ (p.Unheld ↔ q.Unheld) ∨ n = 1 ∧ op.TakesEffect p q := by
  unfold Phase.held
  -- an HTLC is held once or not at all, so nothing charges twice
  cases op <;> dsimp only [FeeOp.sign, FeeOp.TakesEffect] <;>
    split_ifs with hp hq hq <;> simp [hp, hq] <;> omega

theorem settled_call_iff {s : FeeState} {c : FeeCall} :
    Settled net id swap s (.call c) ↔
      (s.world.phase c.b.htlc.addr).held + c.op.sign * (c.b.charges c.op c.events : Int) =
        (c.after.phase c.b.htlc.addr).held :=
  held_add_iff.symm

/-- **Step lemma.** The fee stays right exactly over the steps that settle. -/
theorem feeKept_step (htoken : swap.token ∈ supportedTokens) (hfee : 0 < chargedFee swap)
    {s s' : FeeState} {act : Act} (hs : FeeKept net id swap s)
    (h : FeeMoves net id swap s act s') :
    FeeKept net id swap s' ↔ Settled net id swap s act := by
  rw [feeKept_iff_part hfee] at hs ⊢
  cases act with
  | evolve after =>
      rcases h with ⟨-, rfl⟩
      show s.books.brokerPart _ = (after.phase _).held * _ ↔ _
      rw [hs, mul_left_inj' hfee.ne', held_eq_iff]
      rfl
  | call c =>
      rcases h with ⟨cost, hb, hexec, rfl⟩
      show (c.b.record c.op _ _).brokerPart _ = (c.after.phase _).held * _ ↔ _
      rw [settled_call_iff, hb.htlc_addr, brokerPart_call htoken hb hexec, hs, ← add_mul,
        mul_left_inj' hfee.ne']

/-- **The recorded broker fee.** Over all calls for one HTLC it is that of an HTLC that has
    been funded and not refunded exactly as long as every step settles. -/
theorem feeKept_iff (htoken : swap.token ∈ supportedTokens) (hfee : 0 < swap.brokerFee)
    (hfresh : w.phase (htlcAddr net id swap) = .unfunded) {s : FeeState}
    {ts : List (Transition FeeState Act)} (h : Run (FeeMoves net id swap) ⟨{}, w⟩ ts s) :
    (∀ t ∈ ts, FeeKept net id swap t.target) ↔
      ∀ t ∈ ts, Settled net id swap t.source t.label := by
  have hpos : 0 < chargedFee swap := chargedFee_pos hfee
  have hstart : FeeKept net id swap ⟨{}, w⟩ := by
    rw [feeKept_iff_part hpos]
    simp [Books.brokerPart, Phase.held, Phase.Unheld, hfresh]
  exact Run.forall_iff (fun hs hstep => feeKept_step htoken hpos hs hstep) h hstart

end Runs

/-! ### An `Initiate` that is sent twice

The first transaction is not mined before the context of the call ends. The next tick
sends another one. -/

def brokeredSwap : Swap where
  id := "c7t5VHbJdx2M0PtRS6G3lN2nrRH1fX0arUoZYkFBlvI="
  token := tokenETH
  value := 5000000000000000
  fee := 12000000000
  brokerFee := 10000000000000
  secretHash := zeroHashes.sha256 []
  timeLock := 1550021600
  spendingAddress := "0x52bc44d5378309EE2abF1539BF71dE1b7d7bE3b5"
  fundingAddress := "0x9b9a3e7c6aD1a8b7B4b5E3f1F2b8bC0f51b3C0A2"
  brokerAddress := "0xFc7a9d1F41ef3c4bA4D2c5E9bB2f1F3b0dF2b5C1"

def brokeredId : Bytes32 := ⟨List.replicate 32 3, List.length_replicate⟩

def brokeredBinder : EthBinder := (newETHSwapContractBinder brokeredId brokeredSwap ∅).1

def brokeredTx : Tx := brokeredBinder.initiateTx brokeredBinder.swap.value

def worldAt (phase : Phase) : World where
  clock := 1550000000
  blockTime := 1550000000
  phase _ := phase
  revealed _ := []

/-- A call that asks, sends and then polls once. -/
def sendingCall (answer : Except GoError Bool) (result : Except GoError Unit) (after : World) :
    FeeCall where
  b := .eth brokeredBinder
  op := .initiate
  events :=
    [⟨⟨brokeredBinder.htlc, .initiatable⟩, worldAt .unfunded, 0, .ok true, worldAt .unfunded⟩,
      ⟨⟨brokeredBinder.htlc, .schedule⟩, worldAt .unfunded, 0,
        ([.send, .poll], "context deadline exceeded"), worldAt .unfunded⟩,
      ⟨⟨brokeredBinder.htlc, .send brokeredTx⟩, worldAt .unfunded, 21000, .ok (), after⟩,
      ⟨⟨brokeredBinder.htlc, .initiatable⟩, after, 0, answer, after⟩]
  result := result
  after := after

def confirmedCall : FeeCall := sendingCall (.ok false) (.ok ()) (worldAt .opened)

def lostCall : FeeCall :=
  sendingCall (.ok true) (.error (.errorf "context deadline exceeded")) (worldAt .unfunded)

def FeeState.call (s : FeeState) (c : FeeCall) : FeeState :=
  ⟨c.b.record c.op { s.books with cost := ensure s.books.cost "ETH" } c.events, c.after⟩

def unfundedState : FeeState := ⟨{}, worldAt .unfunded⟩

theorem worldAt_evolves (phase : Phase) : (worldAt .unfunded).Evolves (worldAt phase) :=
  ⟨le_refl _, le_refl _, fun _ => trivial, fun _ => List.Subset.refl _⟩

theorem confirmedCall_moves {s : FeeState} (h : s.world = worldAt .unfunded) (net : Network) :
    FeeMoves net brokeredId brokeredSwap s (.call confirmedCall) (s.call confirmedCall) := by
  refine ⟨ensure s.books.cost "ETH", .eth rfl, ?_, rfl⟩
  rw [h]
  exact .call ⟨.refl _, rfl⟩ (.call ⟨.refl _, trivial⟩
    (.call ⟨worldAt_evolves _, trivial⟩ (.call ⟨.refl _, rfl⟩ (.pure _ _))))

theorem lostCall_moves {s : FeeState} (h : s.world = worldAt .unfunded) (net : Network) :
    FeeMoves net brokeredId brokeredSwap s (.call lostCall) (s.call lostCall) := by
  refine ⟨ensure s.books.cost "ETH", .eth rfl, ?_, rfl⟩
  rw [h]
  exact .call ⟨.refl _, rfl⟩ (.call ⟨.refl _, trivial⟩
    (.call ⟨.refl _, trivial⟩ (.call ⟨.refl _, rfl⟩ (.pure _ _))))

def confirmedStep (s : FeeState) : Transition FeeState Act :=
  ⟨s, .call confirmedCall, s.call confirmedCall⟩

theorem confirmedCall_settled (net : Network) :
    Settled net brokeredId brokeredSwap unfundedState (.call confirmedCall) := by
  refine .inr ⟨rfl, .inl rfl, ?_⟩
  simp [Phase.Unheld, confirmedCall, sendingCall, worldAt]

/-- Without the first transaction the fee is right. -/
theorem feeKept_confirmed :
    FeeKept Admission.testNet3 brokeredId brokeredSwap (unfundedState.call confirmedCall) := by
  have hrun : Run (FeeMoves Admission.testNet3 brokeredId brokeredSwap) ⟨{}, worldAt .unfunded⟩
      [confirmedStep unfundedState] (unfundedState.call confirmedCall) :=
    .cons (confirmedCall_moves rfl _) (.nil _)
  have hsettled : ∀ t ∈ [confirmedStep unfundedState],
      Settled Admission.testNet3 brokeredId brokeredSwap t.source t.label := by
    intro t ht
    rw [List.mem_singleton.mp ht]
    exact confirmedCall_settled _
  exact (feeKept_iff (by decide) (by decide) rfl hrun).mpr hsettled _ (List.mem_singleton_self _)

def retriedSteps : List (Transition FeeState Act) :=
  [⟨unfundedState, .call lostCall, unfundedState.call lostCall⟩,
    confirmedStep (unfundedState.call lostCall)]

/-- The HTLC is funded once, and its fee is in the cost twice. -/
theorem retried_initiate_charged_twice :
    Run (FeeMoves Admission.testNet3 brokeredId brokeredSwap) unfundedState retriedSteps
        ((unfundedState.call lostCall).call confirmedCall) ∧
      ((unfundedState.call lostCall).call confirmedCall).books.brokerPart "ETH" =
        2 * brokeredSwap.brokerFee ∧
      ¬ ∀ t ∈ retriedSteps, FeeKept Admission.testNet3 brokeredId brokeredSwap t.target := by
  have hcharged : ((unfundedState.call lostCall).call confirmedCall).books.brokerPart "ETH" =
      2 * brokeredSwap.brokerFee := by
    decide +kernel
  refine ⟨.cons (lostCall_moves rfl _) (.cons (confirmedCall_moves rfl _) (.nil _)), hcharged, ?_⟩
  intro hkept
  have hlast : ((unfundedState.call lostCall).call confirmedCall).books.brokerPart "ETH" =
      1 * brokeredSwap.brokerFee :=
    (feeKept_iff_part (by decide)).mp (hkept _ (List.mem_cons_of_mem _ List.mem_cons_self))
  rw [hcharged] at hlast
  exact absurd hlast (by decide)

end Swapperd.Chain
