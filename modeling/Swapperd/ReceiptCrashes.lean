/-
  Swapperd/ReceiptCrashes.lean
  ============================
  **Pending swaps and their receipts, across crashes.**

  The wallet sends the receipt of a swap to the status task before it sends the swap to the
  swapper.  The two tasks have queues of their own, so the swapper may store the swap before
  the status task stores the receipt, and a crash in between loses the receipt.

  `receipts_backed` — a pending swap has a receipt throughout a run exactly if the swapper
  never takes a posted swap whose receipt still waits; then every swap that is resumed is
  shown to its owner, has its recorded costs, and its updates are applied.

  `crash_loses_receipt` — the run of the code as it is that breaks this.
-/
import Swapperd.ReceiptQueries
import Swapperd.ReceiptUpdates
import Swapperd.DaemonOwners

namespace Swapperd.Statuses

open CallProgram RetryTask TransitionRuns GoLibrary Daemon

variable {D : Config} {s s' : System} {id : SwapID}

/-! ### Where the receipt of a swap is -/

/-- Every pending swap has a receipt. -/
def Backed (s : System) : Prop := ∀ id ∈ s.daemon.pending, id ∈ s.receipts

def Message.isReceipt (id : SwapID) : Message → Bool
  | .receipt new => new.id = id
  | .receiptUpdate _ => false

/-- The receipts that were made for the swap, in the queue of the status task or stored. -/
def made (s : System) (id : SwapID) : Nat :=
  s.statusIn.countP (Message.isReceipt id) + if id ∈ s.receipts then 1 else 0

/-- A swap gets one receipt, when its request leaves the wallet. -/
structure Receipted (id : SwapID) (s : System) : Prop where
  once : unforwarded s.daemon id + made s id ≤ 1
  fresh : id ∉ s.daemon.owner → unforwarded s.daemon id + made s id = 0
  ahead : 0 < forwarded s.daemon id → 0 < made s id

theorem receipted_init : Receipted id .init where
  once := by simp [unforwarded, made, System.init, System.start, State.start, Finmap.notMem_empty]
  fresh _ := by
    simp [unforwarded, made, System.init, System.start, State.start, Finmap.notMem_empty]
  ahead h := by simp [forwarded, System.init, System.start, State.start] at h

/-- A step that leaves the receipts as they are, and takes swaps or admits one. -/
theorem Receipted.of_counts (hs : Receipted id s) (hstatus : s'.statusIn = s.statusIn)
    (hreceipts : s'.receipts = s.receipts)
    (hunforwarded : unforwarded s'.daemon id ≤ unforwarded s.daemon id ∨
      Admits id s.daemon s'.daemon)
    (hforwarded : forwarded s'.daemon id ≤ forwarded s.daemon id)
    (howner : id ∈ s.daemon.owner → id ∈ s'.daemon.owner) : Receipted id s' := by
  have hmade : made s' id = made s id := by
    simp only [made, hstatus, hreceipts]
  have hahead := hs.ahead
  refine ⟨?_, ?_, fun hpos => by omega⟩
  · rcases hunforwarded with hle | hadmits
    · have honce := hs.once
      omega
    · have hzero := hs.fresh hadmits.fresh
      have hone := hadmits.upstream
      rw [upstream_eq, upstream_eq] at hone
      omega
  · intro hid
    rcases hunforwarded with hle | hadmits
    · have hzero := hs.fresh fun hmem => hid (howner hmem)
      omega
    · exact absurd hadmits.owned hid

/-- A step in which as many requests leave the wallet as receipts are made. -/
theorem Receipted.of_made (hs : Receipted id s) {n : Nat}
    (hunforwarded : unforwarded s.daemon id = unforwarded s'.daemon id + n)
    (hforwarded : forwarded s'.daemon id = forwarded s.daemon id + n)
    (hmade : made s' id = made s id + n) (howner : s'.daemon.owner = s.daemon.owner) :
    Receipted id s' := by
  have honce := hs.once
  have hahead := hs.ahead
  refine ⟨by omega, ?_, fun hpos => by omega⟩
  intro hid
  have hzero := hs.fresh (howner ▸ hid)
  omega

theorem receives_forwarded {d d₁ : State} {msg : SwapperMessage} (h : Receives d msg d₁) :
    forwarded d₁ id ≤ forwarded d id := by
  cases h with
  | @wallet msg rest h =>
      apply List.Sublist.countP_le
      rw [h]
      exact (List.sublist_cons_self msg rest).filterMap _
  | immediate | delayed => exact le_refl _

theorem newReceipts_countP (msg : WalletMessage) (now : Int) :
    (newReceipts now msg).countP (Message.isReceipt id) =
      (Label.issued id (.wallet msg now)).length := by
  cases msg with
  | swapRequest blob =>
      by_cases hid : blob.id = id <;>
        simp [newReceipts, Label.issued, Message.isReceipt, newSwapReceipt, hid]
  | _ => rfl

theorem forwards_countP (output : Output) :
    (forwards output).countP (Message.isReceipt id) = 0 := by
  cases output <;> rfl

/-- The status task stores receipts, and deletes none. -/
theorem Writes.mem_iff {receipts receipts' : Receipts} {msg : Message} {costs : ContractCosts}
    {result : Except GoError Unit} (h : Writes receipts msg costs result receipts')
    (hworks : Works receipts (.status msg costs result)) :
    id ∈ receipts' ↔ msg.isReceipt id = true ∨ id ∈ receipts := by
  rw [← Finmap.lookup_isSome, ← Finmap.lookup_isSome, h.lookup hworks]
  cases msg with
  | receipt receipt =>
      by_cases hid : receipt.id = id <;> simp [Message.id, Message.apply, Message.isReceipt, hid]
  | receiptUpdate update =>
      by_cases hid : update.id = id <;> simp [Message.id, Message.apply, Message.isReceipt, hid]

theorem Receipted.moves {l : Label} (hs : Receipted id s) (h : Moves D s l s')
    (hworks : Works s.receipts l) : Receipted id s' := by
  have howner : ∀ {l d}, Daemon.Moves D s.daemon l d → id ∈ s.daemon.owner → id ∈ d.owner := by
    intro l d hmoves hid
    obtain ⟨password, hlookup⟩ := Finmap.mem_iff.mp hid
    exact Finmap.mem_of_lookup_eq_some (moves_lookup hmoves hlookup)
  cases h with
  | thread h =>
      have hcounts : CountsLe id s.daemon _ := front_counts h (.inl rfl) (thread_swapperIn h)
      refine hs.of_counts rfl rfl hcounts.unforwarded (le_of_eq ?_) (howner h)
      simp only [forwarded, thread_swapperIn h]
  | accept h =>
      have hmoves : Daemon.Moves D s.daemon .wallet _ := .accept h
      have hcounts : CountsLe id s.daemon _ := front_counts hmoves (.inr rfl) rfl
      exact hs.of_counts rfl rfl hcounts.unforwarded (le_refl _) fun hid => hid
  | tick =>
      have hmoves : Daemon.Moves D s.daemon .wallet _ := .tick
      have hcounts : CountsLe id s.daemon _ := front_counts hmoves (.inr rfl) rfl
      exact hs.of_counts rfl rfl hcounts.unforwarded (le_refl _) fun hid => hid
  | @wallet msg rest h now =>
      obtain ⟨hunforwarded, hforwarded⟩ := @wallet_counts id _ msg rest h now
      refine hs.of_made hunforwarded hforwarded ?_ rfl
      simp only [made, List.countP_append, newReceipts_countP]
      omega
  | @swapper d msg R h hcosts =>
      cases h with
      | @swapper s₁ _ _ pending hreceives hstored =>
          have hunforwarded : unforwarded s₁ id = unforwarded s.daemon id :=
            receives_unforwarded hreceives
          have hforwarded : forwarded s₁ id ≤ forwarded s.daemon id := receives_forwarded hreceives
          exact hs.of_counts rfl rfl (.inl hunforwarded.le) hforwarded
            (howner (.swapper hreceives hstored))
  | immediate h =>
      cases h with
      | immediate => exact hs.of_counts rfl rfl (.inl (le_refl _)) (le_refl _) fun hid => hid
  | delayed h =>
      cases h with
      | delayed => exact hs.of_counts rfl rfl (.inl (le_refl _)) (le_refl _) fun hid => hid
  | forward h =>
      refine hs.of_made (n := 0) rfl rfl ?_ rfl
      simp only [made, List.countP_append, forwards_countP, Nat.add_zero]
  | @status msg rest costs result receipts h hwrites =>
      have honce := hs.once
      have hmem : id ∈ receipts ↔ msg.isReceipt id = true ∨ id ∈ s.receipts :=
        hwrites.mem_iff hworks
      refine hs.of_made (n := 0) rfl rfl ?_ rfl
      simp only [made, h, List.countP_cons, hmem] at honce ⊢
      by_cases hreceipt : msg.isReceipt id = true
      · -- the receipt was not stored before
        have hnew : id ∉ s.receipts := by
          intro hold
          rw [if_pos hreceipt, if_pos hold] at honce
          omega
        simp [hreceipt, hnew]
      · simp [hreceipt]
  | crash =>
      have hle : made (.start s.daemon.pending s.daemon.owner s.receipts) id ≤ made s id := by
        unfold made
        exact Nat.add_le_add_right (Nat.zero_le _) _
      have hnone : unforwarded (State.start s.daemon.pending s.daemon.owner) id = 0 := by
        simp [unforwarded, State.start]
      have honce := hs.once
      refine ⟨?_, ?_, ?_⟩
      · change unforwarded (State.start s.daemon.pending s.daemon.owner) id + _ ≤ 1
        omega
      · intro hid
        have hzero := hs.fresh hid
        change unforwarded (State.start s.daemon.pending s.daemon.owner) id + _ = 0
        omega
      · intro hpos
        simp [forwarded, System.start, State.start] at hpos

/-! ### Pending swaps have receipts -/

/-- The swapper takes a posted swap when the status task has stored its receipt. -/
def ReceiptHandled (s : System) : Label → Prop
  | .daemon (.swapper (.swapRequest blob) _) =>
      ∀ receipt, .receipt receipt ∈ s.statusIn → receipt.id ≠ blob.id
  | _ => True

/-- The storage does not fail. -/
def StorageWorks (s : System) : Label → Prop
  | .daemon (.swapper _ R) => R.putSwap = .ok ()
  | l => Works s.receipts l

theorem StorageWorks.works {l : Label} (h : StorageWorks s l) : Works s.receipts l := by
  cases l with
  | status => exact h
  | _ => trivial

/-- Every swap that is stored or with a child has a receipt, and so has every update that is
    on its way. -/
structure Recorded (s : System) : Prop where
  everywhere : Everywhere (fun _ => True) s.daemon
  pending : Backed s
  children : ∀ id, 0 < s.daemon.atDelayed id + s.daemon.atImmediate id → id ∈ s.receipts
  updates : ∀ id, inFlight id s ≠ [] → id ∈ s.receipts

theorem recorded_start {pending : PendingTable} {owner : Store SwapID String}
    {receipts : Receipts} (hbacked : ∀ id ∈ pending, id ∈ receipts) :
    Recorded (.start pending owner receipts) where
  everywhere := everywhere_start fun _ blob _ => ⟨blob.password, trivial⟩
  pending := hbacked
  children id hpos := by
    simp [System.start, State.start, State.atDelayed, State.atImmediate, held_empty] at hpos
  updates id hne := by
    simp [inFlight, System.start, State.start, State.delayedUpdates, State.immediateUpdates] at hne

theorem carries_true {d d' : State} {l : Daemon.Label} :
    Carries D (fun _ => True) (fun _ => True) d l d' :=
  ⟨fun _ _ => trivial, fun _ _ _ => trivial, fun _ _ _ _ _ _ _ _ _ _ => trivial,
    fun _ _ _ _ _ _ _ _ _ => trivial⟩

/-- The receipt of a posted swap is stored when the status task has handled it. -/
theorem Receipted.handled {blob : SwapBlob} (hs : Receipted blob.id s)
    (hpos : 0 < forwarded s.daemon blob.id)
    (hhandled : ∀ receipt, .receipt receipt ∈ s.statusIn → receipt.id ≠ blob.id) :
    blob.id ∈ s.receipts := by
  have hmade := hs.ahead hpos
  have hnone : s.statusIn.countP (Message.isReceipt blob.id) = 0 := by
    rw [List.countP_eq_zero]
    intro msg hmsg
    cases msg with
    | receipt receipt => simpa [Message.isReceipt] using hhandled receipt hmsg
    | receiptUpdate update => simp [Message.isReceipt]
  by_contra hmem
  rw [made, hnone, if_neg hmem] at hmade
  omega

section Swapper

variable {s₁ : State} {msg : SwapperMessage} {R : StorageReplies} {pending : PendingTable}

/-- A swap that the swapper takes has a receipt. -/
theorem Recorded.taken (hs : Recorded s) (hreceipted : Receipted id s)
    (h : Receives s.daemon msg s₁) (hhandled : ReceiptHandled s (.daemon (.swapper msg R)))
    {blob : SwapBlob} (hblob : msg.blob = some blob) (hid : blob.id = id) : id ∈ s.receipts := by
  subst hid
  cases h with
  | @wallet msg rest h =>
      cases msg with
      | swapRequest blob' =>
          obtain rfl : blob' = blob := Option.some.inj hblob
          refine hreceipted.handled ?_ hhandled
          refine List.countP_pos_iff.mpr ⟨blob', ?_, by simp⟩
          rw [h]
          exact List.mem_cons_self
      | _ => cases hblob
  | immediate => cases hblob
  | @delayed msg rest h =>
      cases msg with
      | swapRequest blob' =>
          obtain rfl : blob' = blob := Option.some.inj hblob
          apply hs.children
          have hfills : 0 < s.daemon.delayedOut.countP (fills blob'.id) := by
            refine List.countP_pos_iff.mpr ⟨_, h ▸ List.mem_cons_self, ?_⟩
            simp [fills]
          unfold State.atDelayed
          omega
      | _ => cases hblob

/-- A swap that the swapper hands over has a receipt. -/
theorem Recorded.sent (hs : Recorded s) (hreceipted : ∀ id, Receipted id s)
    (h : Receives s.daemon msg s₁) (hstored : Stored s.daemon.pending R msg pending)
    (hhandled : ReceiptHandled s (.daemon (.swapper msg R))) {blob : SwapBlob}
    (hblob : blob ∈ sentBlobs D (.swapper msg R)) : blob.id ∈ s.receipts := by
  obtain ⟨send, hsend, heq⟩ := mem_sentBlobs hblob
  obtain ⟨-, hmsg | ⟨password, pendingSwaps, rfl, hpending, pendingSwap, hmem, -, rfl⟩⟩ :=
    reduce_sends hsend heq
  · exact hs.taken (hreceipted _) h hhandled hmsg rfl
  · obtain ⟨-, hlists⟩ := hstored
    apply hs.pending
    exact Finmap.mem_of_lookup_eq_some ((hlists pendingSwaps hpending).2 pendingSwap hmem)

theorem Recorded.stored (hs : Recorded s) (hreceipted : ∀ id, Receipted id s)
    (h : Receives s.daemon msg s₁) (hstored : Stored s.daemon.pending R msg pending)
    (hhandled : ReceiptHandled s (.daemon (.swapper msg R))) :
    ∀ id ∈ pending, id ∈ s.receipts := by
  intro id hid
  rcases hstored.mem hid with ⟨blob, hblob, hblobid⟩ | hold
  · exact hs.taken (hreceipted id) h hhandled hblob hblobid
  · exact hs.pending id hold

/-- The updates that are in the children's queues or passed on have a receipt. -/
theorem Recorded.passed (hs : Recorded s) (hreceipted : ∀ id, Receipted id s)
    (h : Receives s.daemon msg s₁) (hstored : Stored s.daemon.pending R msg pending)
    (hhandled : ReceiptHandled s (.daemon (.swapper msg R)))
    (hne : Daemon.Label.passed D id (.swapper msg R) ++ (s₁.delayedUpdates id ++
      s₁.immediateUpdates id) ≠ []) : id ∈ s.receipts := by
  by_contra hmem
  -- a `Bootload` sends a swap with each of its updates
  have hnot : NotResent D id (.swapper msg R) := by
    rintro password R' hlabel blob hblob rfl
    cases hlabel
    exact hmem (hs.sent hreceipted h hstored hhandled hblob)
  have hnone : s.daemon.delayedUpdates id = [] ∧ s.daemon.immediateUpdates id = [] := by
    have hflight : inFlight id s = [] := by
      by_contra hflight
      exact hmem (hs.updates id hflight)
    simp only [inFlight, List.append_eq_nil_iff] at hflight
    exact hflight.2.2
  apply hne
  rcases receives_passed h hnot with ⟨hsame, heq⟩ | ⟨hsame, heq⟩
  · rw [hnone.2] at heq
    obtain ⟨hpassed, hrest⟩ := List.append_eq_nil_iff.mp heq.symm
    rw [hpassed, hrest, hsame, hnone.1]
    rfl
  · rw [hnone.1] at heq
    obtain ⟨hpassed, hrest⟩ := List.append_eq_nil_iff.mp heq.symm
    rw [hpassed, hrest, hsame, hnone.2]
    rfl

end Swapper

section Steps

variable {d : State}

theorem Recorded.everywhere_moves {l : Label} (hs : Recorded s) (h : Moves D s l s') :
    Everywhere (fun _ => True) s'.daemon :=
  h.keeps (P := Everywhere fun _ => True) (C := fun _ => True)
    (fun hP hmoves _ => hP.moves hmoves carries_true) hs.everywhere fun _ _ => trivial

/-- A step before the swapper, which sends no update. -/
theorem Recorded.of_front {msgs : List Message} (hs : Recorded s) {l : Daemon.Label}
    (h : Daemon.Moves D s.daemon l d) (hl : l = .thread ∨ l = .wallet)
    (heverywhere : Everywhere (fun _ => True) d)
    (hmsgs : ∀ id, updatesFor Message.update? id msgs = []) :
    Recorded { s with daemon := d, statusIn := s.statusIn ++ msgs } := by
  have hback := front_sameBack h hl
  refine ⟨heverywhere, ?_, ?_, ?_⟩
  · intro id hid
    exact hs.pending id (hback.pending ▸ hid)
  · intro id hpos
    apply hs.children
    simpa only [hback.atDelayed, hback.atImmediate] using hpos
  · intro id hne
    apply hs.updates
    simpa only [inFlight, updatesFor_append, hmsgs, List.append_nil, State.delayedUpdates,
      State.immediateUpdates, hback.delayedOut, front_outputs h hl] using hne

theorem Recorded.of_quiet (hs : Recorded s) {l : Daemon.Label} (h : Daemon.Moves D s.daemon l d)
    (hl : l = .thread ∨ l = .wallet) (heverywhere : Everywhere (fun _ => True) d) :
    Recorded { s with daemon := d } := by
  have hstep : Recorded { s with daemon := d, statusIn := s.statusIn ++ [] } :=
    hs.of_front h hl heverywhere fun _ => rfl
  rwa [List.append_nil] at hstep

theorem Recorded.swapper {msg : SwapperMessage} {R : StorageReplies} (hs : Recorded s)
    (hreceipted : ∀ id, Receipted id s) (h : Daemon.Moves D s.daemon (.swapper msg R) d)
    (hhandled : ReceiptHandled s (.daemon (.swapper msg R)))
    (heverywhere : Everywhere (fun _ => True) d) :
    Recorded { s with daemon := d, swapperOut := s.swapperOut ++ (Daemon.reduce D R msg).2 } := by
  cases h with
  | @swapper s₁ _ _ pending hreceives hstored =>
      refine ⟨heverywhere, hs.stored hreceipted hreceives hstored hhandled, ?_, ?_⟩
      · intro id hpos
        by_cases hsent : 0 < Daemon.sent (Daemon.reduce D R msg).1 id
        · obtain ⟨blob, hblob, hid⟩ := List.countP_pos_iff.mp hsent
          obtain rfl := of_decide_eq_true hid
          exact hs.sent hreceipted hreceives hstored hhandled hblob
        · apply hs.children
          have hle : (s₁.swapped pending msg (Daemon.reduce D R msg).1).atDelayed id + _ ≤ _ :=
            swapped_child_le hreceives id
          dsimp only at hpos
          omega
      · intro id hne
        by_cases hold : updatesFor Message.update? id s.statusIn ++
            updatesFor Output.update? id s.swapperOut = []
        · apply hs.passed hreceipted hreceives hstored hhandled
          rw [inFlight, updatesFor_append, List.append_assoc, ← List.append_assoc, hold] at hne
          exact hne
        · apply hs.updates
          rw [inFlight, ← List.append_assoc]
          exact fun hnil => hold (List.append_eq_nil_iff.mp hnil).1

/-- A child works for the swaps that it has, and updates no others. -/
theorem Recorded.of_child (hs : Recorded s) (heverywhere : Everywhere (fun _ => True) d)
    (hpending : d.pending = s.daemon.pending)
    (htokens : ∀ id, TokensLe id s.daemon d) (hup : ∀ id, d.upstream id = s.daemon.upstream id)
    (hupdates : ∀ id, s.daemon.atDelayed id + s.daemon.atImmediate id = 0 →
      d.delayedUpdates id = s.daemon.delayedUpdates id ∧
        d.immediateUpdates id = s.daemon.immediateUpdates id) :
    Recorded { s with daemon := d } := by
  refine ⟨heverywhere, ?_, ?_, ?_⟩
  · intro id hid
    exact hs.pending id (hpending ▸ hid)
  · intro id hpos
    apply hs.children
    have hall := (htokens id).all
    have hsame := hup id
    dsimp only at hpos
    omega
  · intro id hne
    by_contra hmem
    have hzero : s.daemon.atDelayed id + s.daemon.atImmediate id = 0 := by
      by_contra hpos
      exact hmem (hs.children id (Nat.pos_of_ne_zero hpos))
    obtain ⟨hdelayed, himmediate⟩ := hupdates id hzero
    simp only [inFlight, hdelayed, himmediate] at hne
    exact hmem (hs.updates id hne)

theorem Recorded.immediate {l : ImmediateReduction} (hs : Recorded s)
    (h : Daemon.Moves D s.daemon (.immediate l) d)
    (heverywhere : Everywhere (fun _ => True) d) : Recorded { s with daemon := d } := by
  cases h with
  | immediate h hstart hreduces =>
      have hkeys := hs.everywhere.immediateKeys
      refine hs.of_child heverywhere rfl
        (fun id => immediate_tokens_le hkeys h hstart hreduces) (fun id => rfl) ?_
      intro id hzero
      have hnone : Daemon.Label.produced id (.immediate l) = [] :=
        immediate_produced_nil hkeys h hstart hreduces (by omega)
      refine ⟨rfl, ?_⟩
      simp only [State.immediateUpdates, updatesFor_append]
      exact (congrArg _ hnone).trans (List.append_nil _)

theorem Recorded.delayed {l : DelayedReduction} (hs : Recorded s)
    (h : Daemon.Moves D s.daemon (.delayed l) d) (hkeeps : Delayed.KeepsIDs l)
    (heverywhere : Everywhere (fun _ => True) d) : Recorded { s with daemon := d } := by
  cases h with
  | delayed h hstart hreduces =>
      have hkeys := hs.everywhere.delayedKeys
      refine hs.of_child heverywhere rfl
        (fun id => delayed_tokens_le hkeys h hstart hreduces hkeeps) (fun id => rfl) ?_
      intro id hzero
      have hwaiting : s.daemon.waiting id = 0 := by
        simp only [State.atDelayed] at hzero
        unfold State.waiting
        omega
      have hnone : Daemon.Label.produced id (.delayed l) = [] :=
        delayed_produced_nil hkeys h hstart hreduces hkeeps hwaiting
      refine ⟨?_, rfl⟩
      simp only [State.delayedUpdates, updatesFor_append]
      exact (congrArg _ hnone).trans (List.append_nil _)

theorem updatesFor_forwards (output : Output) :
    updatesFor Message.update? id (forwards output) = updatesFor Output.update? id [output] := by
  cases output <;> rfl

theorem updatesFor_newReceipts (msg : WalletMessage) (now : Int) :
    updatesFor Message.update? id (newReceipts now msg) = [] := by
  cases msg <;> rfl

/-- **Step rule.**  When the swapper takes no swap whose receipt still waits, what has a
    receipt goes on to have one. -/
theorem Recorded.moves {l : Label} (hs : Recorded s) (hreceipted : ∀ id, Receipted id s)
    (h : Moves D s l s') (hkeeps : ∀ l₀, l.base = some l₀ → KeepsIDs l₀)
    (hhandled : ReceiptHandled s l) (hworks : Works s.receipts l) : Recorded s' := by
  have heverywhere := hs.everywhere_moves h
  cases h with
  | thread h => exact hs.of_quiet h (.inl rfl) heverywhere
  | accept h =>
      have hmoves : Daemon.Moves D s.daemon .wallet _ := .accept h
      exact hs.of_quiet hmoves (.inr rfl) heverywhere
  | tick =>
      have hmoves : Daemon.Moves D s.daemon .wallet _ := .tick
      exact hs.of_quiet hmoves (.inr rfl) heverywhere
  | wallet h now =>
      have hmoves : Daemon.Moves D s.daemon .wallet _ := .wallet h
      exact hs.of_front hmoves (.inr rfl) heverywhere fun _ => updatesFor_newReceipts _ now
  | swapper h _ => exact hs.swapper hreceipted h hhandled heverywhere
  | immediate h => exact hs.immediate h heverywhere
  | @delayed _ l h => exact hs.delayed h (hkeeps (.delayed l) rfl) heverywhere
  | @forward output rest h =>
      refine ⟨heverywhere, hs.pending, hs.children, ?_⟩
      intro id hne
      apply hs.updates
      simpa only [inFlight, updatesFor_append, updatesFor_forwards, h,
        updatesFor_cons output rest, List.append_assoc] using hne
  | @status msg rest costs result receipts h hwrites =>
      refine ⟨heverywhere, fun id hid => hwrites.mem (hs.pending id hid),
        fun id hpos => hwrites.mem (hs.children id hpos), ?_⟩
      intro id hne
      apply hwrites.mem
      apply hs.updates
      intro hnil
      rw [inFlight, h, updatesFor_cons, List.append_assoc] at hnil
      exact hne (List.append_eq_nil_iff.mp hnil).2
  | crash => exact recorded_start hs.pending

end Steps

/-! ### Receipts and their owners -/

section Owners

variable {generate : String → List UInt8 → Prop}

/-- The receipt has a hash of the password that its swap was posted with. -/
def OwnedReceipt (generate : String → List UInt8 → Prop) (owner : Store SwapID String)
    (receipt : SwapReceipt) : Prop :=
  ∃ password hash, owner.lookup receipt.id = some password ∧ generate password hash ∧
    receipt.passwordHash = encodeToString hash

/-- Every receipt is its owner's, as is every swap that can get one. -/
structure ReceiptsOwned (generate : String → List UInt8 → Prop) (s : System) : Prop where
  front : ∀ blob ∈ s.daemon.front, Owned generate s.daemon.owner blob
  queued : ∀ receipt, .receipt receipt ∈ s.statusIn → OwnedReceipt generate s.daemon.owner receipt
  stored : Stores (OwnedReceipt generate s.daemon.owner) s.receipts
  keys : KeysAgree SwapReceipt.id s.receipts

theorem receiptsOwned_init : ReceiptsOwned generate .init where
  front := by simp [System.init, System.start, State.front, State.start]
  queued := by simp [System.init, System.start]
  stored := stores_empty _
  keys := keysAgree_empty _

/-- Swaps on their way to the swapper are posted ones. -/
theorem front_owned {d d' : State} {l : Daemon.Label}
    (hs : ∀ blob ∈ d.front, Owned generate d.owner blob) (h : Daemon.Moves D d l d')
    (hposts : PostsAuthorized generate d) : ∀ blob ∈ d'.front, Owned generate d'.owner blob := by
  intro blob hblob
  have hfront : l = .thread ∨ l = .wallet → Owned generate d'.owner blob := by
    intro hl
    rcases front_cases h hl with ⟨hsub, -⟩ | ⟨now, new, hadmitted⟩
    · exact (hs blob (hsub.subset hblob)).moves h
    · rcases List.mem_cons.mp (hadmitted.front.mem_iff.mp hblob) with rfl | hold
      · exact admitted_owned hposts hadmitted
      · exact (hs blob hold).moves h
  cases l with
  | thread => exact hfront (.inl rfl)
  | wallet => exact hfront (.inr rfl)
  | swapper msg R =>
      cases h with
      | @swapper s₁ _ _ pending hreceives hstored =>
          have hsub : blob ∈ d.front := receives_front hreceives hblob
          exact (hs blob hsub).moves (.swapper hreceives hstored)
  | immediate l =>
      cases h with
      | immediate h hstart hreduces => exact hs blob hblob
  | delayed l =>
      cases h with
      | delayed h hstart hreduces => exact hs blob hblob
  | crash =>
      cases h with
      | crash => simp [State.front, State.start] at hblob

theorem OwnedReceipt.mono {owner owner' : Store SwapID String} {receipt : SwapReceipt}
    (howned : OwnedReceipt generate owner receipt)
    (h : ∀ id password, owner.lookup id = some password → owner'.lookup id = some password) :
    OwnedReceipt generate owner' receipt := by
  obtain ⟨password, hash, hlookup, hrest⟩ := howned
  exact ⟨password, hash, h _ _ hlookup, hrest⟩

/-- A receipt for the status task is made for a posted swap. -/
theorem Moves.queued {l : Label} (h : Moves D s l s') {receipt : SwapReceipt}
    (hreceipt : .receipt receipt ∈ s'.statusIn) : .receipt receipt ∈ s.statusIn ∨
      ∃ blob ∈ s.daemon.front, ∃ now, receipt = newSwapReceipt now blob := by
  cases h with
  | thread | accept | tick | swapper | immediate | delayed => exact .inl hreceipt
  | @wallet msg rest h now =>
      rcases List.mem_append.mp hreceipt with hold | hnew
      · exact .inl hold
      · cases msg with
        | swapRequest blob =>
            obtain rfl : receipt = newSwapReceipt now blob := by simpa [newReceipts] using hnew
            exact .inr ⟨blob, by simp [State.front, h, WalletMessage.blob], now, rfl⟩
        | _ => cases hnew
  | @forward output rest h =>
      rcases List.mem_append.mp hreceipt with hold | hnew
      · exact .inl hold
      · cases output with
        | receiptUpdate update => simp [forwards] at hnew
        | error err => cases hnew
  | status h => exact .inl (h ▸ List.mem_cons_of_mem _ hreceipt)
  | crash => cases hreceipt

/-- Only the status task writes receipts. -/
theorem Moves.written {l : Label} (h : Moves D s l s') : s'.receipts = s.receipts ∨
    ∃ msg ∈ s.statusIn, ∃ costs, reduce s.receipts costs msg = .ok s'.receipts := by
  cases h with
  | status h hwrites =>
      rcases hwrites with ⟨hreduce, -⟩ | ⟨hsame, -⟩
      · exact .inr ⟨_, h ▸ List.mem_cons_self, _, hreduce⟩
      · exact .inl hsame
  | _ => exact .inl rfl

/-- What is stored is a new receipt, or one that keeps its ID and hash. -/
theorem reduce_stored {receipts receipts' : Receipts} {msg : Message} {costs : ContractCosts}
    (hkeys : KeysAgree SwapReceipt.id receipts) (h : reduce receipts costs msg = .ok receipts')
    {id : SwapID} {receipt : SwapReceipt} (hlookup : receipts'.lookup id = some receipt) :
    receipt.id = id ∧ (msg = .receipt receipt ∨ ∃ old, receipts.lookup id = some old ∧
      receipt.passwordHash = old.passwordHash) := by
  rw [reduce_lookup h] at hlookup
  by_cases hid : msg.id = id
  · rw [if_pos hid] at hlookup
    cases msg with
    | receipt new =>
        obtain rfl : new = receipt := Option.some.inj hlookup
        exact ⟨hid, .inl rfl⟩
    | receiptUpdate update =>
        obtain ⟨old, hold, rfl⟩ := Option.map_eq_some_iff.mp hlookup
        have hupdate : update.id = id := hid
        refine ⟨?_, .inr ⟨old, hold, by simp⟩⟩
        rw [ReceiptUpdate.update_id ((hkeys id old hold).trans hupdate.symm), hupdate]
  · rw [if_neg hid] at hlookup
    exact ⟨hkeys id receipt hlookup, .inr ⟨receipt, hlookup, rfl⟩⟩

theorem ReceiptsOwned.moves {l : Label} (hs : ReceiptsOwned generate s) (h : Moves D s l s')
    (hposts : PostsAuthorized generate s.daemon) : ReceiptsOwned generate s' := by
  obtain ⟨hfront, howner⟩ : (∀ blob ∈ s'.daemon.front, Owned generate s'.daemon.owner blob) ∧
      ∀ id password, s.daemon.owner.lookup id = some password →
        s'.daemon.owner.lookup id = some password := by
    rcases h.base with ⟨l₀, -, hmoves⟩ | ⟨-, hsame⟩
    · exact ⟨front_owned hs.front hmoves hposts, fun id password => moves_lookup hmoves⟩
    · rw [hsame]
      exact ⟨hs.front, fun id password hlookup => hlookup⟩
  have hqueued : ∀ receipt, .receipt receipt ∈ s'.statusIn →
      OwnedReceipt generate s'.daemon.owner receipt := by
    intro receipt hreceipt
    rcases h.queued hreceipt with hold | ⟨blob, hblob, now, rfl⟩
    · exact (hs.queued receipt hold).mono howner
    · have hblob : OwnedReceipt generate s.daemon.owner (newSwapReceipt now blob) :=
        hs.front blob hblob
      exact hblob.mono howner
  rcases h.written with hsame | ⟨msg, hmsg, costs, hreduce⟩
  · refine ⟨hfront, hqueued, ?_, hsame ▸ hs.keys⟩
    intro id receipt hlookup
    exact (hs.stored id receipt (hsame ▸ hlookup)).mono howner
  · refine ⟨hfront, hqueued, ?_, ?_⟩
    · intro id receipt hlookup
      obtain ⟨hid, rfl | ⟨old, hold, hhash⟩⟩ := reduce_stored hs.keys hreduce hlookup
      · exact (hs.queued receipt hmsg).mono howner
      · obtain ⟨password, hash, hpassword, hgenerate, heq⟩ := (hs.stored id old hold).mono howner
        rw [hs.keys id old hold, ← hid] at hpassword
        exact ⟨password, hash, hpassword, hgenerate, hhash.trans heq⟩
    · intro id receipt hlookup
      exact (reduce_stored hs.keys hreduce hlookup).1

/-! ### What callers see -/

/-- `GetSwaps` with the password answers, and shows the swap. -/
def ShownTo (D : Config) (s : System) (id : SwapID) (password : String) : Prop :=
  ∀ list order, ListsReceipts s.receipts list → OrderOf s.receipts order →
    ∃ swaps, getSwaps D password (.ok list) order = .ok swaps ∧ ∃ swap ∈ swaps, swap.id = id

/-- The swap is shown to its owner. -/
def Shown (D : Config) (s : System) (id : SwapID) : Prop :=
  ∃ password, s.daemon.owner.lookup id = some password ∧ ShownTo D s id password

theorem OwnedReceipt.show_eq (hbcrypt : Bcrypt D generate) {owner : Store SwapID String}
    {receipt : SwapReceipt} (howned : OwnedReceipt generate owner receipt) (q : String) :
    showReceipt D q receipt = .ok (if owner.lookup receipt.id = some q
      then some { receipt with passwordHash := "" } else none) := by
  obtain ⟨password, hash, hlookup, hgenerate, hhash⟩ := howned
  have hiff := hbcrypt.compare hgenerate q
  rw [showReceipt, hhash, if_neg (encodeToString_ne (hbcrypt.nonempty hgenerate)),
    decodeString_encodeToString, hlookup]
  by_cases hq : q = password
  · subst hq
    simp [hiff.mpr rfl]
  · have hcompare : D.compareHashAndPassword hash q = false := by
      rw [← Bool.not_eq_true]
      exact fun htrue => hq (hiff.mp htrue)
    simp [hcompare, Ne.symm hq]

/-- What a `Bootload` resumes has a receipt that its password is shown, unless the two have
    different hashes. -/
theorem showReceipt_of_resumes {q : String} {blob : SwapBlob} {receipt : SwapReceipt}
    (hresumes : resumes D q blob = true) (hhash : receipt.passwordHash = blob.passwordHash) :
    ∃ swap, showReceipt D q receipt = .ok (some swap) ∧ swap.id = receipt.id := by
  unfold resumes at hresumes
  unfold showReceipt
  rw [hhash]
  split at hresumes
  · rename_i hempty
    exact ⟨receipt, by rw [if_pos hempty], rfl⟩
  · rename_i hne
    rw [if_neg hne]
    cases hdecode : decodeString blob.passwordHash with
    | none =>
        rw [hdecode] at hresumes
        cases hresumes
    | some hash =>
        rw [hdecode] at hresumes
        exact ⟨{ receipt with passwordHash := "" }, if_pos hresumes, rfl⟩

theorem ReceiptsOwned.shownTo (hs : ReceiptsOwned generate s) (hbcrypt : Bcrypt D generate)
    {q : String} {receipt swap : SwapReceipt} (hlookup : s.receipts.lookup id = some receipt)
    (hshow : showReceipt D q receipt = .ok (some swap)) (hswap : swap.id = id) :
    ShownTo D s id q := by
  intro list order hlist horder
  obtain ⟨swaps, hswaps, hmem⟩ := getSwaps_shows hs.keys
    (fun id receipt hlookup => ⟨_, (hs.stored id receipt hlookup).show_eq hbcrypt q⟩) hlist horder
    hlookup hshow
  exact ⟨swaps, hswaps, swap, hmem, hswap⟩

theorem ReceiptsOwned.shown (hs : ReceiptsOwned generate s) (hbcrypt : Bcrypt D generate)
    (hid : id ∈ s.receipts) : Shown D s id := by
  obtain ⟨receipt, hlookup⟩ := Finmap.mem_iff.mp hid
  have hreceipt := hs.keys id receipt hlookup
  have howned : OwnedReceipt generate s.daemon.owner receipt := hs.stored id receipt hlookup
  have ⟨password, _, hpassword, _⟩ := howned
  have hshow := howned.show_eq hbcrypt password
  rw [if_pos hpassword] at hshow
  exact ⟨password, hreceipt ▸ hpassword, hs.shownTo hbcrypt hlookup hshow hreceipt⟩

/-! ### Runs -/

/-- What follows for a run when every pending swap has a receipt. -/
structure Consistent (D : Config) (ts : History) : Prop where
  /-- A swap that is resumed has a receipt, and gets the costs that it records. -/
  costs : ∀ t ∈ ts, ∀ password R, t.label = .daemon (.swapper (.bootload password) R) →
    ∀ blob ∈ sentBlobs D (.swapper (.bootload password) R), ∃ receipt,
      t.source.receipts.lookup blob.id = some receipt ∧
        R.loadCosts blob.id = (costBlobToCost receipt.sendCost, costBlobToCost receipt.receiveCost)
  /-- Every message of the status task is applied. -/
  applied : ∀ t ∈ ts, ∀ msg costs result, t.label = .status msg costs result → result = .ok ()
  stays : ∀ t ∈ ts, ∀ id ∈ t.source.receipts, id ∈ t.target.receipts

/-- What `GetSwaps` shows in a run. -/
structure Visible (D : Config) (ts : History) : Prop where
  /-- A swap with a receipt is shown to its owner. -/
  shown : ∀ t ∈ ts, (∀ id ∈ t.source.receipts, Shown D t.source id) ∧
    ∀ id ∈ t.target.receipts, Shown D t.target id
  /-- A swap that is resumed is shown to the password that resumes it, unless the hash it was
      posted with has changed. -/
  resumed : ∀ t ∈ ts, ∀ password R, t.label = .daemon (.swapper (.bootload password) R) →
    ∀ blob ∈ sentBlobs D (.swapper (.bootload password) R), ∀ receipt,
      t.source.receipts.lookup blob.id = some receipt →
        receipt.passwordHash = blob.passwordHash → ShownTo D t.source blob.id password

theorem Moves.keeps_receipts {l : Label} (h : Moves D s l s') (hid : id ∈ s.receipts) :
    id ∈ s'.receipts := by
  cases h with
  | status h hwrites => exact hwrites.mem hid
  | _ => exact hid

/-- When the receipt is stored, it waits no longer. -/
theorem Receipted.not_waiting (hs : Receipted id s) (hid : id ∈ s.receipts)
    {receipt : SwapReceipt} (hreceipt : .receipt receipt ∈ s.statusIn) : receipt.id ≠ id := by
  intro heq
  have hpos : 0 < s.statusIn.countP (Message.isReceipt id) :=
    List.countP_pos_iff.mpr ⟨_, hreceipt, decide_eq_true heq⟩
  have honce := hs.once
  rw [made, if_pos hid] at honce
  omega

/-- What a `Bootload` sends is a pending swap that it resumes, with its password. -/
theorem Moves.resumed {password : String} {R : StorageReplies}
    (h : Moves D s (.daemon (.swapper (.bootload password) R)) s') {blob : SwapBlob}
    (hblob : blob ∈ sentBlobs D (.swapper (.bootload password) R)) :
    blob.id ∈ s.daemon.pending ∧ resumes D password blob = true ∧
      R.loadCosts = loadCosts s.receipts := by
  cases h with
  | swapper h hcosts =>
      cases h with
      | swapper hreceives hstored =>
          obtain ⟨send, hsend, heq⟩ := mem_sentBlobs hblob
          obtain ⟨-, hmsg | ⟨_, pendingSwaps, hmsg, hpending, pendingSwap, hmem, hresumes, rfl⟩⟩ :=
            reduce_sends hsend heq
          · cases hmsg
          · cases hmsg
            have hlookup := (hstored.2 pendingSwaps hpending).2 pendingSwap hmem
            exact ⟨Finmap.mem_of_lookup_eq_some hlookup, hresumes, hcosts⟩

/-- The status task applies what it takes. -/
theorem Recorded.status_ok (hs : Recorded s) {msg : Message} {costs : ContractCosts}
    {result : Except GoError Unit} (h : Moves D s (.status msg costs result) s')
    (hworks : Works s.receipts (.status msg costs result)) : result = .ok () := by
  cases msg with
  | receipt receipt => exact hworks ⟨_, rfl⟩
  | receiptUpdate update =>
      apply hworks.result_ok
      cases h with
      | status h hwrites =>
          apply hs.updates
          intro hnil
          rw [inFlight, h, updatesFor_cons, List.append_assoc] at hnil
          have hnone := (List.append_eq_nil_iff.mp hnil).1
          simp [updatesFor, Message.update?, Message.id] at hnone

/-- A swap that the swapper stores has its receipt only if the receipt waits no longer. -/
theorem Moves.handled {l : Label} (hreceipted : ∀ id, Receipted id s) (h : Moves D s l s')
    (hworks : StorageWorks s l) (hbacked : Backed s') : ReceiptHandled s l := by
  cases h with
  | @swapper d msg R h hcosts =>
      cases msg with
      | swapRequest blob =>
          cases h with
          | swapper hreceives hstored =>
              intro receipt hreceipt
              have hid := hbacked blob.id (hstored.put hworks rfl)
              exact (hreceipted blob.id).not_waiting hid hreceipt
      | _ => trivial
  | _ => trivial

section Run

variable {ts : History}

theorem run_receipted (h : Run (Moves D) .init ts s)
    (hworks : ∀ t ∈ ts, StorageWorks t.source t.label) :
    ∀ t ∈ ts, ∀ id, Receipted id t.source := by
  obtain ⟨-, hall⟩ := h.invariant (P := fun s => ∀ id, Receipted id s)
    (C := fun s l => Works s.receipts l) (fun hs hmoves hworks id => (hs id).moves hmoves hworks)
    (fun id => receipted_init) fun t ht => (hworks t ht).works
  exact fun t ht => (hall t ht).1

/-- **Run rule.**  What has a receipt has one throughout a run that meets the condition. -/
theorem run_recorded (h : Run (Moves D) .init ts s)
    (hworks : ∀ t ∈ ts, StorageWorks t.source t.label)
    (hkeeps : ∀ t ∈ ts, ∀ l, t.label.base = some l → KeepsIDs l)
    (hhandled : ∀ t ∈ ts, ReceiptHandled t.source t.label) :
    ∀ t ∈ ts, Recorded t.source ∧ Recorded t.target := by
  obtain ⟨-, hall⟩ := h.invariant (P := fun s => (∀ id, Receipted id s) ∧ Recorded s)
    (C := fun s l => Works s.receipts l ∧ (∀ l₀, l.base = some l₀ → KeepsIDs l₀) ∧
      ReceiptHandled s l)
    (fun hs hmoves hC => ⟨fun id => (hs.1 id).moves hmoves hC.1,
      hs.2.moves hs.1 hmoves hC.2.1 hC.2.2 hC.1⟩)
    ⟨fun id => receipted_init, recorded_start fun id hid => absurd hid Finmap.notMem_empty⟩
    fun t ht => ⟨(hworks t ht).works, hkeeps t ht, hhandled t ht⟩
  exact fun t ht => ⟨(hall t ht).1.2, (hall t ht).2.2⟩

theorem run_consistent (h : Run (Moves D) .init ts s)
    (hworks : ∀ t ∈ ts, StorageWorks t.source t.label)
    (hrecorded : ∀ t ∈ ts, Recorded t.source ∧ Recorded t.target) : Consistent D ts := by
  refine ⟨?_, ?_, fun t ht id => (h.step_of_mem t ht).keeps_receipts⟩
  · intro t ht password R hlabel blob hblob
    have hmoves := h.step_of_mem t ht
    rw [hlabel] at hmoves
    obtain ⟨hpending, -, hcosts⟩ := hmoves.resumed hblob
    obtain ⟨receipt, hlookup⟩ := Finmap.mem_iff.mp ((hrecorded t ht).1.pending blob.id hpending)
    exact ⟨receipt, hlookup, by rw [hcosts, loadCosts, hlookup]⟩
  · intro t ht msg costs result hlabel
    have hmoves := h.step_of_mem t ht
    have hstep := hworks t ht
    rw [hlabel] at hmoves hstep
    exact (hrecorded t ht).1.status_ok hmoves hstep

theorem run_visible (hbcrypt : Bcrypt D generate) (h : Run (Moves D) .init ts s)
    (hposts : ∀ t ∈ ts, PostsAuthorized generate t.source.daemon) : Visible D ts := by
  obtain ⟨-, howned⟩ := h.invariant (P := ReceiptsOwned generate)
    (C := fun s _ => PostsAuthorized generate s.daemon)
    (fun hs hmoves hposts => hs.moves hmoves hposts) receiptsOwned_init hposts
  refine ⟨fun t ht => ⟨fun id => (howned t ht).1.shown hbcrypt,
    fun id => (howned t ht).2.shown hbcrypt⟩, ?_⟩
  intro t ht password R hlabel blob hblob receipt hlookup hhash
  have hmoves := h.step_of_mem t ht
  rw [hlabel] at hmoves
  obtain ⟨-, hresumes, -⟩ := hmoves.resumed hblob
  obtain ⟨swap, hshow, hswap⟩ := showReceipt_of_resumes hresumes hhash
  have hid := (howned t ht).1.keys _ _ hlookup
  exact (howned t ht).1.shownTo hbcrypt hlookup hshow (hswap.trans hid)

/-- **Crash consistency.**  Over every run from empty tables, crashes included, with a storage
    that works and callbacks that keep IDs: every pending swap has a receipt after every step
    exactly if the swapper takes no posted swap whose receipt still waits for the status
    task.  Then whatever is resumed has its costs, every update is applied, and, when the
    server posts swaps with a hash of their password, `GetSwaps` shows them. -/
theorem receipts_backed (h : Run (Moves D) .init ts s)
    (hworks : ∀ t ∈ ts, StorageWorks t.source t.label)
    (hkeeps : ∀ t ∈ ts, ∀ l, t.label.base = some l → KeepsIDs l) :
    ((∀ t ∈ ts, Backed t.target) ↔ ∀ t ∈ ts, ReceiptHandled t.source t.label) ∧
      ((∀ t ∈ ts, ReceiptHandled t.source t.label) → Consistent D ts ∧
        ∀ generate, Bcrypt D generate →
          (∀ t ∈ ts, PostsAuthorized generate t.source.daemon) → Visible D ts) := by
  refine ⟨⟨?_, ?_⟩, ?_⟩
  · intro hbacked t ht
    exact (h.step_of_mem t ht).handled (run_receipted h hworks t ht) (hworks t ht) (hbacked t ht)
  · intro hhandled t ht
    exact (run_recorded h hworks hkeeps hhandled t ht).2.pending
  · intro hhandled
    have hrecorded := run_recorded h hworks hkeeps hhandled
    refine ⟨run_consistent h hworks hrecorded, ?_⟩
    intro generate hbcrypt hposts
    exact run_visible hbcrypt h hposts

end Run

end Owners

/-! ### A crash between two tables

Alice's swap is posted, and stored before or after its receipt. Then the daemon crashes, and
alice comes back. -/

/-- What the storage answers in a state with these receipts. -/
def repliesWith (receipts : Receipts) (pendingSwaps : List SwapBlob) : StorageReplies :=
  { storageReplies pendingSwaps with loadCosts := loadCosts receipts }

/-- Alice's swap and its receipt have left the wallet. -/
def postedSystem (statusIn : List Message) (receipts : Receipts) : System where
  daemon := { State.start ∅ ((∅ : Store SwapID String).insert ownedBlob.id "alice") with
    swapperIn := [.swapRequest ownedBlob] }
  swapperOut := []
  statusIn := statusIn
  receipts := receipts

def ownedReceipt : SwapReceipt := newSwapReceipt 1549000000 ownedBlob

/-- The storage works, callbacks keep IDs, and the server posts. -/
def Fair (t : Transition System Label) : Prop :=
  StorageWorks t.source t.label ∧ (∀ l, t.label.base = some l → KeepsIDs l) ∧
    PostsAuthorized (fun password hash => hash = plainHash password) t.source.daemon

theorem posted_run : ∃ ts, Run (Moves ownerConfig) .init ts
    (postedSystem [.receipt ownedReceipt] ∅) ∧ (∀ t ∈ ts, Fair t) ∧
    ∀ t ∈ ts, ReceiptHandled t.source t.label := by
  refine ⟨_, .cons (.thread (.http (.postSwaps ownedRequest))) <|
    .cons (.thread (@Daemon.Moves.notBootloaded _ _ [] [] _ rfl
      (by simp [System.init, System.start, State.start]))) <|
    .cons (.thread (@Daemon.Moves.bootloadFailed _ _ [] [] _ rfl)) <|
    .cons (.thread (@Daemon.Moves.patch _ _ [] [] _ _ _ _ _ rfl owned_admitted
      Finmap.notMem_empty)) <|
    .cons (.thread (@Daemon.Moves.writeRequest _ _ [] [] _ rfl)) <|
    .cons (.accept rfl) <| .cons (.wallet rfl 1549000000) (.nil _), ?_, ?_⟩
  · simpa [Fair, StorageWorks, Works, Label.base, KeepsIDs, PostsAuthorized, System.init,
      System.start, State.start] using ⟨"alice", delayedRequest, rfl⟩
  · simp [ReceiptHandled]

theorem fair_of_nothing {t : Transition System Label} (hworks : StorageWorks t.source t.label)
    (hkeeps : ∀ l, t.label.base = some l → KeepsIDs l) (h : PostsNothing t.source.daemon) :
    Fair t :=
  ⟨hworks, hkeeps, fun swapReq hmem => absurd hmem (h swapReq)⟩

/-- The status task stores the receipt first. -/
theorem recorded_run : ∃ ts, Run (Moves ownerConfig) .init ts
    (postedSystem [] (putReceipt ∅ ownedReceipt)) ∧ (∀ t ∈ ts, Fair t) ∧
    ∀ t ∈ ts, ReceiptHandled t.source t.label := by
  obtain ⟨ts, hposted, hfair, hhandled⟩ := posted_run
  have hreceipt : Moves ownerConfig (postedSystem [.receipt ownedReceipt] ∅)
      (.status (.receipt ownedReceipt) {} (.ok ()))
      (postedSystem [] (putReceipt ∅ ownedReceipt)) := .status rfl (.inl ⟨rfl, rfl⟩)
  refine ⟨_, hposted.append (.cons hreceipt (.nil _)), ?_, ?_⟩
  · rw [List.forall_mem_append, List.forall_mem_singleton]
    refine ⟨hfair, fair_of_nothing (fun _ => rfl) (by simp [Label.base]) ?_⟩
    simp [PostsNothing, postedSystem, State.start]
  · rw [List.forall_mem_append, List.forall_mem_singleton]
    exact ⟨hhandled, trivial⟩

theorem bootload_owned_reduces (receipts : Receipts) :
    Daemon.reduce ownerConfig (repliesWith receipts [ownedBlob.withPassword ""])
      (.bootload "alice") =
        ([.delayed (.request (ownedBlob.withPassword "alice"))],
          [.receiptUpdate ⟨ownedBlob.id, .activate⟩]) := by
  have hresumes : resumes ownerConfig "alice" (ownedBlob.withPassword "") = true := by
    decide +kernel
  simp only [Daemon.reduce, handleBootload, repliesWith, storageReplies]
  rw [List.filter_cons_of_pos hresumes]
  rfl

/-- The swapper stores the swap and the daemon crashes. After the restart alice's first request
    resumes the swap, and its update goes to the status task. -/
theorem crash_run (statusIn : List Message) (receipts : Receipts) : ∃ s ts,
    Run (Moves ownerConfig) (postedSystem statusIn receipts) ts s ∧ (∀ t ∈ ts, Fair t) ∧
      (statusIn = [] → ∀ t ∈ ts, ReceiptHandled t.source t.label) ∧
      (∃ t ∈ ts, t.label = .daemon .crash ∧ ownedBlob.id ∈ t.target.daemon.pending ∧
        t.target.receipts = receipts) ∧
      (∃ t ∈ ts, ∃ R, t.label = .daemon (.swapper (.bootload "alice") R) ∧
        ownedBlob.withPassword "alice" ∈ sentBlobs ownerConfig (.swapper (.bootload "alice") R)) ∧
      s.statusIn = [.receiptUpdate ⟨ownedBlob.id, .activate⟩] ∧ s.receipts = receipts ∧
      PostsNothing s.daemon := by
  have hloads := bootload_owned_reduces receipts
  have hlists : Lists ((∅ : PendingTable).insert ownedBlob.id (ownedBlob.withPassword ""))
      (repliesWith receipts [ownedBlob.withPassword ""]).pendingSwaps :=
    @lists_singleton _ (ownedBlob.withPassword "") (Finmap.lookup_insert _)
  have hsent : ownedBlob.withPassword "alice" ∈ sentBlobs ownerConfig
      (.swapper (.bootload "alice") (repliesWith receipts [ownedBlob.withPassword ""])) := by
    rw [sentBlobs, hloads]
    exact List.mem_singleton_self _
  refine ⟨_, _, .cons (swapper_reduces (R := repliesWith receipts [])
      (@Receives.wallet _ (.swapRequest ownedBlob) [] rfl) (.inl rfl) rfl rfl) <|
    .cons .crash <| .cons (.thread (.http (.get "alice"))) <|
    .cons (.thread (@Daemon.Moves.notBootloaded _ _ [] [] _ rfl
      (by simp [System.start, State.start]))) <|
    .cons (.thread (@Daemon.Moves.writeBootload _ _ [] [] _ rfl)) <|
    .cons (.accept rfl) <| .cons (.wallet rfl 1549000000) <|
    .cons (swapper_reduces (@Receives.wallet _ (.bootload "alice") [] rfl) ⟨rfl, hlists⟩ rfl
      hloads) <|
    .cons (.forward rfl) (.nil _), ?_, ?_, ?_, ?_, rfl, rfl, ?_⟩
  · simp [Fair, StorageWorks, Works, Label.base, KeepsIDs, PostsAuthorized, postedSystem,
      System.start, State.start, State.swapped, repliesWith, storageReplies]
  · rintro rfl
    simp [ReceiptHandled, toSwapper, postedSystem]
  · refine ⟨_, .tail _ <| .head _, rfl, ?_, rfl⟩
    exact Finmap.mem_insert.mpr (.inl rfl)
  · exact ⟨_, .tail _ <| .tail _ <| .tail _ <| .tail _ <| .tail _ <| .tail _ <| .tail _ <|
      .head _, _, rfl, hsent⟩
  · simp [PostsNothing, State.swapped, System.start, State.start]

/-- **The receipt is lost.**  The swapper stores the swap, and the daemon crashes before the
    status task has stored the receipt.  When the swap is resumed, its update fails, and
    `GetSwaps` shows nothing. -/
theorem crash_loses_receipt : ∃ s ts, Run (Moves ownerConfig) .init ts s ∧ (∀ t ∈ ts, Fair t) ∧
    (∃ t ∈ ts, t.label = .daemon .crash ∧ ¬ Backed t.target) ∧
    (∃ t ∈ ts, ∃ R, t.label = .daemon (.swapper (.bootload "alice") R) ∧
      ownedBlob.withPassword "alice" ∈ sentBlobs ownerConfig (.swapper (.bootload "alice") R)) ∧
    (∃ t ∈ ts, ∃ costs err, t.label = .status (.receiptUpdate ⟨ownedBlob.id, .activate⟩) costs
      (.error err) ∧ updateReceipt t.source.receipts ⟨ownedBlob.id, .activate⟩ costs = .error err) ∧
    ∀ password list order, ListsReceipts s.receipts list → OrderOf s.receipts order →
      getSwaps ownerConfig password (.ok list) order = .ok [] := by
  obtain ⟨ts, hposted, hfair, -⟩ := posted_run
  obtain ⟨s, us, hcrashed, hfair', -, ⟨c, hc, hcrash, hpending, hlost⟩, ⟨t, ht, hresumed⟩, hstatus,
    hempty, hnone⟩ := crash_run [.receipt ownedReceipt] ∅
  have herror : updateReceipt s.receipts ⟨ownedBlob.id, .activate⟩ {} =
      .error (.errorf "leveldb: not found") := by
    rw [hempty]
    rfl
  have hfails : Moves ownerConfig s (.status (.receiptUpdate ⟨ownedBlob.id, .activate⟩) {}
      (.error (.errorf "leveldb: not found"))) { s with statusIn := [] } :=
    .status hstatus (.inr ⟨rfl, _, rfl⟩)
  refine ⟨_, _, hposted.append (hcrashed.append (.cons hfails (.nil _))), ?_, ?_, ?_, ?_, ?_⟩
  · rw [List.forall_mem_append, List.forall_mem_append, List.forall_mem_singleton]
    refine ⟨hfair, hfair', fair_of_nothing ?_ (by simp [Label.base]) hnone⟩
    rintro ⟨receipts, hworks⟩
    cases hworks.symm.trans herror
  · refine ⟨c, by simp [hc], hcrash, ?_⟩
    intro hbacked
    exact Finmap.notMem_empty (hlost ▸ hbacked ownedBlob.id hpending)
  · exact ⟨t, by simp [ht], hresumed⟩
  · exact ⟨_, List.mem_append_right _ (List.mem_append_right _ (.head _)), _, _, rfl, herror⟩
  · intro password list order hlist horder
    change ListsReceipts s.receipts list at hlist
    change OrderOf s.receipts order at horder
    rw [hempty] at hlist horder
    have hlist : list = [] := by
      apply List.eq_nil_iff_forall_not_mem.mpr
      intro receipt hreceipt
      simpa using (hlist receipt).mp hreceipt
    have horder : order = [] := by
      apply List.eq_nil_iff_forall_not_mem.mpr
      intro id hid
      exact Finmap.notMem_empty ((horder.2 id).mp hid)
    rw [hlist, horder]
    rfl

/-- When the status task stores the receipt first, the crash does no harm. -/
theorem receipts_backed_restarted : ∃ s ts, Run (Moves ownerConfig) .init ts s ∧
    (∃ t ∈ ts, t.label = .daemon .crash) ∧
    (∃ t ∈ ts, ∃ R, t.label = .daemon (.swapper (.bootload "alice") R) ∧
      ownedBlob.withPassword "alice" ∈ sentBlobs ownerConfig (.swapper (.bootload "alice") R)) ∧
    (∀ t ∈ ts, Backed t.target) ∧ Consistent ownerConfig ts ∧ Visible ownerConfig ts := by
  obtain ⟨ts, hrecorded, hfair, hhandled⟩ := recorded_run
  obtain ⟨s, us, hcrashed, hfair', hhandled', ⟨c, hc, hcrash, -⟩, ⟨t, ht, hresumed⟩, -⟩ :=
    crash_run [] (putReceipt ∅ ownedReceipt)
  have hfair : ∀ t ∈ ts ++ us, Fair t := List.forall_mem_append.mpr ⟨hfair, hfair'⟩
  have hhandled : ∀ t ∈ ts ++ us, ReceiptHandled t.source t.label :=
    List.forall_mem_append.mpr ⟨hhandled, hhandled' rfl⟩
  have hrun := hrecorded.append hcrashed
  obtain ⟨hiff, himplies⟩ := receipts_backed hrun (fun t ht => (hfair t ht).1)
    fun t ht => (hfair t ht).2.1
  obtain ⟨hconsistent, hvisible⟩ := himplies hhandled
  exact ⟨s, ts ++ us, hrun, ⟨c, by simp [hc], hcrash⟩, ⟨t, by simp [ht], hresumed⟩,
    hiff.mpr hhandled, hconsistent, hvisible _ plain_bcrypt fun t ht => (hfair t ht).2.2⟩

end Swapperd.Statuses
