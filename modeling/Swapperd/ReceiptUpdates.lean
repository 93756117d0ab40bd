/-
  Swapperd/ReceiptUpdates.lean
  ============================
  **Receipt updates are neither lost, duplicated nor reordered.**

  The receipt of a posted swap goes to the status task ahead of the swap; its updates come
  back through the queues of a child, of the swapper and of the wallet.  What the status
  task is sent about a swap is its receipt and then its updates, in the order in which the
  children produce them (`Tracked.flow`), so the stored receipt is the fold of those that
  were applied (`receipt_updates_in_order`).
-/
import Swapperd.DaemonPaths
import Swapperd.Statuses

namespace Swapperd

open CallProgram RetryTask TransitionRuns GoLibrary

/-! ### Folds of updates -/

/-- The receipt after these updates, each with the costs that it reads. -/
def updateAll (updates : List (ReceiptUpdate × ContractCosts)) (receipt : SwapReceipt) :
    SwapReceipt :=
  updates.foldl (fun receipt u => u.1.update u.2 receipt) receipt

/-- The status of a receipt is the last one that was written. -/
theorem updateAll_status (updates : List (ReceiptUpdate × ContractCosts)) (receipt : SwapReceipt) :
    (updateAll updates receipt).status =
      ((updates.map Prod.fst).filterMap ReceiptUpdate.status?).getLast?.getD receipt.status := by
  induction updates using List.reverseRecOn with
  | nil => rfl
  | append_singleton updates u ih =>
      have hlast : updateAll (updates ++ [u]) receipt =
          u.1.update u.2 (updateAll updates receipt) := by
        simp [updateAll]
      rw [hlast, ReceiptUpdate.update_status, ih, List.map_append, List.filterMap_append]
      cases hstatus : u.1.status? with
      | none => simp [hstatus]
      | some status => simp [hstatus]

namespace Statuses

open Daemon

variable {D : Config} {id : SwapID}

def Message.update? : Message → Option ReceiptUpdate
  | .receipt _ => none
  | .receiptUpdate update => some update

/-- The updates among messages. -/
def updatesOf (msgs : List (Message × ContractCosts)) : List (ReceiptUpdate × ContractCosts) :=
  msgs.filterMap fun m => m.1.update?.map fun update => (update, m.2)

def applyAll (msgs : List (Message × ContractCosts)) (receipt : Option SwapReceipt) :
    Option SwapReceipt :=
  msgs.foldl (fun receipt m => m.1.apply m.2 receipt) receipt

@[simp] theorem updatesOf_append (msgs msgs' : List (Message × ContractCosts)) :
    updatesOf (msgs ++ msgs') = updatesOf msgs ++ updatesOf msgs' :=
  List.filterMap_append

@[simp] theorem applyAll_append (msgs msgs' : List (Message × ContractCosts))
    (receipt : Option SwapReceipt) :
    applyAll (msgs ++ msgs') receipt = applyAll msgs' (applyAll msgs receipt) :=
  List.foldl_append

theorem applyAll_isSome (msgs : List (Message × ContractCosts)) (receipt : SwapReceipt) :
    (applyAll msgs (some receipt)).isSome = true := by
  induction msgs generalizing receipt with
  | nil => rfl
  | cons m msgs ih =>
      obtain ⟨msg, costs⟩ := m
      cases msg with
      | receipt new => exact ih new
      | receiptUpdate update => exact ih _

theorem applyAll_updates {msgs : List (Message × ContractCosts)}
    (h : ∀ m ∈ msgs, ∃ update, m.1 = .receiptUpdate update) (receipt : SwapReceipt) :
    applyAll msgs (some receipt) = some (updateAll (updatesOf msgs) receipt) := by
  induction msgs generalizing receipt with
  | nil => rfl
  | cons m msgs ih =>
      obtain ⟨msg, costs⟩ := m
      obtain ⟨update, rfl⟩ := h _ List.mem_cons_self
      exact ih (fun m hm => h m (List.mem_cons_of_mem _ hm)) _

/-! ### What happened to a swap -/

abbrev History := List (Transition System Label)

/-- The updates that the children produce for the swap. -/
def Label.produced (id : SwapID) : Label → List ReceiptUpdate
  | .daemon l => l.produced id
  | _ => []

/-- The receipts that the wallet makes for the swap. -/
def Label.issued (id : SwapID) : Label → List SwapReceipt
  | .wallet (.swapRequest blob) now => if blob.id = id then [newSwapReceipt now blob] else []
  | _ => []

/-- The messages for the swap that the status task handles. -/
def Label.handled (id : SwapID) : Label → List (Message × ContractCosts)
  | .status msg costs _ => if msg.id = id then [(msg, costs)] else []
  | _ => []

/-- The updates of the swap that are applied, each with the costs at that time. -/
def Label.applied (id : SwapID) : Label → List (ReceiptUpdate × ContractCosts)
  | .status (.receiptUpdate update) costs (.ok ()) =>
      if update.id = id then [(update, costs)] else []
  | _ => []

def produced (id : SwapID) (past : History) : List ReceiptUpdate :=
  past.flatMap fun t => t.label.produced id

def issued (id : SwapID) (past : History) : List SwapReceipt :=
  past.flatMap fun t => t.label.issued id

def handled (id : SwapID) (past : History) : List (Message × ContractCosts) :=
  past.flatMap fun t => t.label.handled id

def applied (id : SwapID) (past : History) : List (ReceiptUpdate × ContractCosts) :=
  past.flatMap fun t => t.label.applied id

section Concat

variable (past : History) (t : Transition System Label)

@[simp] theorem produced_concat : produced id (past ++ [t]) = produced id past ++ t.label.produced id := by
  simp [produced]

@[simp] theorem issued_concat : issued id (past ++ [t]) = issued id past ++ t.label.issued id := by
  simp [issued]

@[simp] theorem handled_concat : handled id (past ++ [t]) = handled id past ++ t.label.handled id := by
  simp [handled]

@[simp] theorem applied_concat : applied id (past ++ [t]) = applied id past ++ t.label.applied id := by
  simp [applied]

end Concat

/-! ### Where a swap and its updates are -/

/-- The requests for the swap that have not reached the wallet. -/
def unforwarded (d : State) (id : SwapID) : Nat :=
  (d.threads.filterMap Thread.blob ++ d.receiver.filterMap WalletMessage.blob ++
    d.walletIn.filterMap WalletMessage.blob).countP fun blob => blob.id = id

/-- The requests for the swap between the wallet and the swapper. -/
def forwarded (d : State) (id : SwapID) : Nat :=
  (d.swapperIn.filterMap WalletMessage.blob).countP fun blob => blob.id = id

theorem upstream_eq (d : State) (id : SwapID) :
    d.upstream id = unforwarded d id + forwarded d id :=
  List.countP_append

/-- The messages for the swap in the queue of the status task. -/
def waiting (s : System) (id : SwapID) : List Message :=
  s.statusIn.filter fun msg => msg.id = id

/-- The updates of the swap on their way to the status task. -/
def inFlight (id : SwapID) (s : System) : List ReceiptUpdate :=
  updatesFor Message.update? id s.statusIn ++ (updatesFor Output.update? id s.swapperOut ++
    (s.daemon.delayedUpdates id ++ s.daemon.immediateUpdates id))

/-- What holds of a swap after a history in which it was posted, or not. -/
structure Tracked (id : SwapID) (past : History) (s : System) : Prop where
  path : Path id s.daemon
  once : unforwarded s.daemon id + (issued id past).length ≤ 1
  fresh : id ∉ s.daemon.owner → issued id past = []
  early : id ∉ s.daemon.owner ∨ 0 < s.daemon.upstream id → produced id past = []
  backed : 0 < forwarded s.daemon id + s.daemon.atDelayed id + s.daemon.atImmediate id ∨
    produced id past ≠ [] → issued id past ≠ []
  /-- What the status task was sent is the receipt and then updates, in their order. -/
  flow : ∃ sent, (handled id past).map Prod.fst ++ waiting s id =
      (issued id past).map .receipt ++ sent.map .receiptUpdate ∧
    produced id past = sent ++ (updatesFor Output.update? id s.swapperOut ++
      (s.daemon.delayedUpdates id ++ s.daemon.immediateUpdates id))
  stored : s.receipts.lookup id = applyAll (handled id past) none
  applied : applied id past = updatesOf (handled id past)
  delayedFirst : (∃ u ∈ past, ∃ l, u.label = .daemon (.immediate l) ∧ u.label.produced id ≠ []) →
    s.daemon.upstream id + s.daemon.atDelayed id = 0

theorem tracked_start {pending : PendingTable} {owner : Store SwapID String}
    {receipts : Receipts} (hreceipts : id ∉ receipts) :
    Tracked id [] (.start pending owner receipts) where
  path := path_start
  once := by simp [unforwarded, issued, System.start, State.start]
  fresh _ := rfl
  early _ := rfl
  backed h := by
    simp [forwarded, produced, System.start, State.start, State.atDelayed, State.atImmediate,
      held_empty] at h
  flow := ⟨[], rfl, rfl⟩
  stored := Finmap.lookup_eq_none.mpr hreceipts
  applied := rfl
  delayedFirst := by simp

/-! ### Steps of the daemon -/

/-- Before the wallet and after it a step makes no token, unless it admits the swap. -/
structure CountsLe (id : SwapID) (d d' : State) : Prop where
  unforwarded : unforwarded d' id ≤ unforwarded d id ∨ Admits id d d'
  forwarded : forwarded d' id + d'.atDelayed id + d'.atImmediate id ≤
    forwarded d id + d.atDelayed id + d.atImmediate id

theorem front_counts {d d' : State} {l : Daemon.Label} (h : Daemon.Moves D d l d')
    (hl : l = .thread ∨ l = .wallet) (hsame : d'.swapperIn = d.swapperIn) : CountsLe id d d' := by
  have hback := front_sameBack h hl
  have hdelayed := hback.atDelayed id
  have himmediate := hback.atImmediate id
  have hforwarded : forwarded d' id = forwarded d id := by
    simp only [forwarded, hsame]
  refine ⟨?_, by omega⟩
  have htokens : TokensLe id d d' ∨ Admits id d d' := front_tokens h hl
  rcases htokens with hle | hadmits
  · left
    have hup := hle.upstream
    rw [upstream_eq, upstream_eq] at hup
    omega
  · exact .inr hadmits

theorem thread_swapperIn {d d' : State} (h : Daemon.Moves D d .thread d') :
    d'.swapperIn = d.swapperIn := by
  cases h <;> rfl

/-- A step from the swapper on leaves what is before it. -/
theorem back_counts {d d' : State} (hle : TokensLe id d d')
    (hsame : unforwarded d' id = unforwarded d id) : CountsLe id d d' := by
  have hall := hle.all
  rw [upstream_eq, upstream_eq] at hall
  exact ⟨.inl hsame.le, by omega⟩

theorem receives_unforwarded {d d₁ : State} {msg : SwapperMessage} (h : Receives d msg d₁) :
    unforwarded d₁ id = unforwarded d id := by
  cases h <;> rfl

section

variable {past : History} {s s' : System}

/-- A step of the daemon that sends nothing to the status task. -/
theorem Tracked.of_daemon {l : Daemon.Label} (hs : Tracked id past s)
    (h : Daemon.Moves D s.daemon l s'.daemon) (hl : Undisturbed D id l)
    (hcounts : CountsLe id s.daemon s'.daemon) (hstatus : s'.statusIn = s.statusIn)
    (hreceipts : s'.receipts = s.receipts)
    (hout : updatesFor Output.update? id s'.swapperOut =
      updatesFor Output.update? id s.swapperOut ++ l.passed D id) :
    Tracked id (past ++ [⟨s, .daemon l, s'⟩]) s' := by
  have htokens : TokensLe id s.daemon s'.daemon ∨ Admits id s.daemon s'.daemon :=
    hs.path.moves_tokens h hl
  have hnone : s.daemon.atDelayed id + s.daemon.atImmediate id = 0 → l.produced id = [] :=
    hs.path.produced_nil h hl.keeps
  have hissued : issued id (past ++ [⟨s, .daemon l, s'⟩]) = issued id past := by
    simp [Label.issued]
  have hhandled : handled id (past ++ [⟨s, .daemon l, s'⟩]) = handled id past := by
    simp [Label.handled]
  have hproduced : produced id (past ++ [⟨s, .daemon l, s'⟩]) =
      produced id past ++ l.produced id := produced_concat past _
  have hup := upstream_eq s.daemon id
  have hup' := upstream_eq s'.daemon id
  have htoken := hs.path.token
  refine ⟨hs.path.moves h hl, ?_, ?_, ?_, ?_, ?_, ?_, ?_, ?_⟩
  · rw [hissued]
    have honce := hs.once
    rcases hcounts.unforwarded with hle | hadmits
    · omega
    · have hzero := hs.path.fresh hadmits.fresh
      have hone := hadmits.upstream
      rw [hs.fresh hadmits.fresh, List.length_nil]
      omega
  · intro hid
    rw [hissued]
    rcases htokens with hle | hadmits
    · exact hs.fresh (hle.owner hid)
    · exact absurd hadmits.owned hid
  · intro hearly
    have hbefore := early_of_tokens htokens hearly
    rw [hproduced, hs.early hbefore, List.nil_append]
    apply hnone
    rcases hbefore with hid | hpos
    · have hzero := hs.path.fresh hid
      omega
    · omega
  · intro hbacked
    rw [hissued]
    apply hs.backed
    have hle := hcounts.forwarded
    rcases hbacked with hpos | hne
    · exact .inl (by omega)
    · by_cases hpast : produced id past = []
      · left
        by_contra hzero
        rw [hproduced, hpast, hnone (by omega)] at hne
        exact hne rfl
      · exact .inr hpast
  · obtain ⟨sent, hsent, hflow⟩ := hs.flow
    refine ⟨sent, ?_, ?_⟩
    · rw [hissued, hhandled, waiting, hstatus]
      exact hsent
    · rw [hproduced, hflow, hout]
      have horder := hs.path.flow h hl
      simp only [List.append_assoc] at horder ⊢
      rw [horder]
  · rw [hreceipts, hhandled]
    exact hs.stored
  · rw [hhandled]
    simpa [Label.applied] using hs.applied
  · rintro ⟨u, hu, l', hlabel, hne⟩
    rcases List.mem_append.mp hu with hold | hnew
    · have hzero := hs.delayedFirst ⟨u, hold, l', hlabel, hne⟩
      rcases htokens with hle | hadmits
      · have hearly := hle.early
        omega
      · have hempty := hs.early (.inl hadmits.fresh)
        exact absurd (List.flatMap_eq_nil_iff.mp hempty u hold) hne
    · obtain rfl := List.mem_singleton.mp hnew
      obtain rfl : l = .immediate l' := Label.daemon.inj hlabel
      have hzero := hs.path.immediate_late h hne
      rcases htokens with hle | hadmits
      · have hearly := hle.early
        omega
      · have hfresh := hs.path.fresh hadmits.fresh
        exact absurd (hnone (by omega)) hne

theorem Tracked.daemon {l : Daemon.Label} (hs : Tracked id past s)
    (h : Moves D s (.daemon l) s') (hl : Undisturbed D id l) :
    Tracked id (past ++ [⟨s, .daemon l, s'⟩]) s' := by
  have hsame : ∀ {out : List Output}, updatesFor Output.update? id out =
      updatesFor Output.update? id out ++ [] := (List.append_nil _).symm
  cases h with
  | thread h =>
      exact hs.of_daemon h hl (front_counts h (.inl rfl) (thread_swapperIn h)) rfl rfl hsame
  | accept h =>
      have hmoves : Daemon.Moves D s.daemon .wallet _ := .accept h
      exact hs.of_daemon hmoves hl (front_counts hmoves (.inr rfl) rfl) rfl rfl hsame
  | tick =>
      have hmoves : Daemon.Moves D s.daemon .wallet _ := .tick
      exact hs.of_daemon hmoves hl (front_counts hmoves (.inr rfl) rfl) rfl rfl hsame
  | @swapper d msg R h hcosts =>
      refine hs.of_daemon h hl ?_ rfl rfl (updatesFor_append _ _)
      cases h with
      | @swapper s₁ _ _ pending hreceives hstored =>
          have hsame : unforwarded s₁ id = unforwarded s.daemon id := receives_unforwarded hreceives
          exact back_counts (swapper_tokens hreceives hl.notResent) hsame
  | immediate h =>
      refine hs.of_daemon h hl ?_ rfl rfl hsame
      cases h with
      | immediate h hstart hreduces =>
          exact back_counts (immediate_tokens_le hs.path.immediateKeys h hstart hreduces) rfl
  | delayed h =>
      refine hs.of_daemon h hl ?_ rfl rfl hsame
      cases h with
      | delayed h hstart hreduces =>
          exact back_counts (delayed_tokens_le hs.path.delayedKeys h hstart hreduces hl.keeps) rfl
  | crash => exact absurd rfl hl.live

/-! ### Steps of the wallet and of the status task -/

theorem newReceipts_filter (msg : WalletMessage) (now : Int) :
    (newReceipts now msg).filter (fun msg => msg.id = id) =
      (Label.issued id (.wallet msg now)).map .receipt := by
  cases msg with
  | swapRequest blob =>
      by_cases hid : blob.id = id <;> simp [newReceipts, Label.issued, Message.id, hid, newSwapReceipt]
  | _ => rfl

theorem forwards_filter (output : Output) :
    (forwards output).filter (fun msg => msg.id = id) =
      (updatesFor Output.update? id [output]).map .receiptUpdate := by
  cases output with
  | receiptUpdate update =>
      by_cases hid : update.id = id <;>
        simp [forwards, updatesFor, Output.update?, Message.id, hid]
  | error err => rfl

/-- The wallet takes as many requests for the swap as it makes receipts. -/
theorem wallet_counts {d : State} {msg : WalletMessage} {rest : List WalletMessage}
    (h : d.walletIn = msg :: rest) (now : Int) :
    unforwarded d id =
        unforwarded { d with walletIn := rest, swapperIn := d.swapperIn ++ [msg] } id +
          (Label.issued id (.wallet msg now)).length ∧
      forwarded { d with walletIn := rest, swapperIn := d.swapperIn ++ [msg] } id =
        forwarded d id + (Label.issued id (.wallet msg now)).length := by
  have hone : ([msg].filterMap WalletMessage.blob).countP (fun blob => blob.id = id) =
      (Label.issued id (.wallet msg now)).length := by
    cases msg with
    | swapRequest blob =>
        by_cases hid : blob.id = id <;> simp [WalletMessage.blob, Label.issued, hid]
    | _ => rfl
  have hrest : (msg :: rest).filterMap WalletMessage.blob =
      [msg].filterMap WalletMessage.blob ++ rest.filterMap WalletMessage.blob := by
    rw [← List.filterMap_append]
    rfl
  constructor
  · simp only [unforwarded, h, hrest, List.countP_append, hone]
    omega
  · simp only [forwarded, List.filterMap_append, List.countP_append, hone]

theorem Tracked.wallet {msg : WalletMessage} {now : Int} (hs : Tracked id past s)
    (h : Moves D s (.wallet msg now) s') (hl : Undisturbed D id .wallet) :
    Tracked id (past ++ [⟨s, .wallet msg now, s'⟩]) s' := by
  cases h with
  | @wallet _ rest h now =>
      have hmoves : Daemon.Moves D s.daemon .wallet _ := .wallet h
      have hpath := hs.path.moves hmoves hl
      obtain ⟨hunforwarded, hforwarded⟩ := @wallet_counts id _ msg rest h now
      generalize hd : ({ s.daemon with
        walletIn := rest, swapperIn := s.daemon.swapperIn ++ [msg] } : State) = d
        at hmoves hpath hunforwarded hforwarded ⊢
      have howner : d.owner = s.daemon.owner := hd ▸ rfl
      have hdelayed : d.atDelayed id = s.daemon.atDelayed id := hd ▸ rfl
      have himmediate : d.atImmediate id = s.daemon.atImmediate id := hd ▸ rfl
      have hup := upstream_eq s.daemon id
      have hup' := upstream_eq d id
      have honce := hs.once
      -- before its request is taken a swap has no receipt and no updates
      have hfirst : Label.issued id (.wallet msg now) ≠ [] →
          issued id past = [] ∧ produced id past = [] := by
        intro hne
        have hpos := List.length_pos_of_ne_nil hne
        refine ⟨List.eq_nil_of_length_eq_zero (by omega), ?_⟩
        exact hs.early (.inr (by omega))
      have hproduced : ∀ t : Transition System Label, t.label = .wallet msg now →
          produced id (past ++ [t]) = produced id past := by
        rintro ⟨_, _, _⟩ rfl
        simp [Label.produced]
      have hhandled : ∀ t : Transition System Label, t.label = .wallet msg now →
          handled id (past ++ [t]) = handled id past := by
        rintro ⟨_, _, _⟩ rfl
        simp [Label.handled]
      refine ⟨hpath, ?_, ?_, ?_, ?_, ?_, ?_, ?_, ?_⟩
      · rw [issued_concat, List.length_append]
        dsimp only
        omega
      · intro hid
        have hid : id ∉ s.daemon.owner := howner ▸ hid
        have hzero := hs.path.fresh hid
        have hnone : Label.issued id (.wallet msg now) = [] :=
          List.eq_nil_of_length_eq_zero (by omega)
        rw [issued_concat, hs.fresh hid, hnone, List.append_nil]
      · intro hearly
        rw [hproduced _ rfl]
        dsimp only at hearly
        rw [howner] at hearly
        exact hs.early (hearly.imp_right fun hpos => by omega)
      · intro hbacked
        rw [hproduced _ rfl] at hbacked
        dsimp only at hbacked
        rw [issued_concat, Ne, List.append_eq_nil_iff, not_and]
        intro hnone hnew
        rw [hnew, List.length_nil] at hforwarded
        apply hs.backed _ hnone
        exact hbacked.imp_left fun hpos => by omega
      · obtain ⟨sent, hsent, hflow⟩ := hs.flow
        refine ⟨sent, ?_, ?_⟩
        · have hwaiting : waiting { s with daemon := d, statusIn := s.statusIn ++ newReceipts now msg }
              id = waiting s id ++ (Label.issued id (.wallet msg now)).map .receipt := by
            rw [← newReceipts_filter]
            exact List.filter_append _ _
          rw [hhandled _ rfl, issued_concat, List.map_append]
          refine (congrArg _ hwaiting).trans ?_
          rw [← List.append_assoc, hsent]
          by_cases hnew : Label.issued id (.wallet msg now) = []
          · simp [hnew]
          · have hnil : sent = [] := by
              rw [(hfirst hnew).2] at hflow
              exact (List.append_eq_nil_iff.mp hflow.symm).1
            simp [hnil]
        · rw [hproduced _ rfl, hflow]
          subst hd
          rfl
      · rw [hhandled _ rfl]
        exact hs.stored
      · rw [hhandled _ rfl]
        simpa [Label.applied] using hs.applied
      · rintro ⟨u, hu, l', hlabel, hne⟩
        rcases List.mem_append.mp hu with hold | hnew
        · have hzero := hs.delayedFirst ⟨u, hold, l', hlabel, hne⟩
          dsimp only
          omega
        · obtain rfl := List.mem_singleton.mp hnew
          cases hlabel

/-- A step beside the daemon, which makes no receipts and no updates. -/
theorem Tracked.of_same {l : Label} (hs : Tracked id past s) (hdaemon : s'.daemon = s.daemon)
    (hproduced : l.produced id = []) (hissued : l.issued id = [])
    (hflow : ∃ sent, ((handled id past ++ l.handled id).map Prod.fst) ++ waiting s' id =
        (issued id past).map .receipt ++ sent.map .receiptUpdate ∧
      produced id past = sent ++ (updatesFor Output.update? id s'.swapperOut ++
        (s.daemon.delayedUpdates id ++ s.daemon.immediateUpdates id)))
    (hstored : s'.receipts.lookup id = applyAll (handled id past ++ l.handled id) none)
    (happlied : l.applied id = updatesOf (l.handled id)) :
    Tracked id (past ++ [⟨s, l, s'⟩]) s' := by
  have hproduced' : produced id (past ++ [⟨s, l, s'⟩]) = produced id past := by
    rw [produced_concat, hproduced, List.append_nil]
  have hissued' : issued id (past ++ [⟨s, l, s'⟩]) = issued id past := by
    rw [issued_concat, hissued, List.append_nil]
  refine ⟨hdaemon ▸ hs.path, ?_, ?_, ?_, ?_, ?_, ?_, ?_, ?_⟩
  · rw [hdaemon, hissued']
    exact hs.once
  · rw [hdaemon, hissued']
    exact hs.fresh
  · rw [hdaemon, hproduced']
    exact hs.early
  · rw [hdaemon, hproduced', hissued']
    exact hs.backed
  · rw [hdaemon, hproduced', hissued', handled_concat]
    exact hflow
  · rw [handled_concat]
    exact hstored
  · rw [applied_concat, handled_concat, updatesOf_append, hs.applied]
    exact congrArg _ happlied
  · rw [hdaemon]
    rintro ⟨u, hu, l', hlabel, hne⟩
    rcases List.mem_append.mp hu with hold | hnew
    · exact hs.delayedFirst ⟨u, hold, l', hlabel, hne⟩
    · obtain rfl := List.mem_singleton.mp hnew
      exact absurd hproduced hne

theorem Tracked.forward {output : Output} (hs : Tracked id past s)
    (h : Moves D s (.forward output) s') :
    Tracked id (past ++ [⟨s, .forward output, s'⟩]) s' := by
  cases h with
  | @forward _ rest h =>
      refine hs.of_same rfl rfl rfl ?_ ?_ rfl
      · obtain ⟨sent, hsent, hflow⟩ := hs.flow
        refine ⟨sent ++ updatesFor Output.update? id [output], ?_, ?_⟩
        · have hwaiting : waiting { s with swapperOut := rest, statusIn := s.statusIn ++ forwards output }
              id = waiting s id ++ (updatesFor Output.update? id [output]).map .receiptUpdate := by
            rw [← forwards_filter]
            exact List.filter_append _ _
          simp only [Label.handled, List.append_nil, List.map_append]
          rw [hwaiting, ← List.append_assoc, hsent, List.append_assoc]
        · rw [h, updatesFor_cons] at hflow
          simpa using hflow
      · simpa [Label.handled] using hs.stored

theorem waiting_cons {msg : Message} {rest : List Message} (h : s.statusIn = msg :: rest) :
    waiting s id = (if msg.id = id then [msg] else []) ++ rest.filter fun msg => msg.id = id := by
  rw [waiting, h, List.filter_cons]
  by_cases hid : msg.id = id <;> simp [hid]

/-- What was handled first is the receipt. -/
theorem Tracked.handled_first (hs : Tracked id past s) {receipt : SwapReceipt}
    (hissued : issued id past = [receipt]) (hne : handled id past ≠ []) :
    ∃ costs msgs, handled id past = (.receipt receipt, costs) :: msgs ∧
      ∀ m ∈ msgs, ∃ update, m.1 = .receiptUpdate update := by
  obtain ⟨sent, hsent, -⟩ := hs.flow
  cases hhandled : handled id past with
  | nil => exact absurd hhandled hne
  | cons m msgs =>
      rw [hhandled, hissued] at hsent
      obtain ⟨hfirst, hrest⟩ := List.cons.inj hsent
      obtain ⟨msg, costs⟩ := m
      obtain rfl : msg = .receipt receipt := hfirst
      refine ⟨costs, msgs, rfl, ?_⟩
      intro m hm
      have hrest : msgs.map Prod.fst ++ waiting s id = sent.map Message.receiptUpdate := hrest
      have hmem : m.1 ∈ sent.map Message.receiptUpdate := by
        rw [← hrest]
        exact List.mem_append_left _ (List.mem_map_of_mem hm)
      obtain ⟨update, -, heq⟩ := List.mem_map.mp hmem
      exact ⟨update, heq.symm⟩

theorem Tracked.issued_le (hs : Tracked id past s) :
    issued id past = [] ∨ ∃ receipt, issued id past = [receipt] := by
  have honce := hs.once
  cases hissued : issued id past with
  | nil => exact .inl rfl
  | cons receipt more =>
      right
      rw [hissued, List.length_cons] at honce
      obtain rfl := List.eq_nil_of_length_eq_zero (show more.length = 0 by omega)
      exact ⟨receipt, rfl⟩

/-- The status task comes to an update when it has stored the receipt. -/
theorem Tracked.update_stored (hs : Tracked id past s) {update : ReceiptUpdate}
    {rest : List Message} (h : s.statusIn = .receiptUpdate update :: rest) (hid : update.id = id) :
    id ∈ s.receipts := by
  obtain ⟨sent, hsent, hflow⟩ := hs.flow
  have hwaiting : waiting s id = [.receiptUpdate update] ++ _ :=
    (waiting_cons h).trans (by rw [if_pos (show Message.id (.receiptUpdate update) = id from hid)])
  rw [hwaiting] at hsent
  rcases hs.issued_le with hnone | ⟨receipt, hone⟩
  · -- without a receipt nothing was sent
    have hproduced : produced id past = [] := by
      by_contra hne
      exact hs.backed (.inr hne) hnone
    rw [hproduced] at hflow
    rw [hnone, (List.append_eq_nil_iff.mp hflow.symm).1] at hsent
    simp at hsent
  · have hne : handled id past ≠ [] := by
      intro hnil
      rw [hnil, hone] at hsent
      cases (List.cons.inj hsent).1
    obtain ⟨costs, msgs, hhandled, -⟩ := hs.handled_first hone hne
    rw [← Finmap.lookup_isSome, hs.stored, hhandled]
    exact applyAll_isSome msgs receipt

theorem Tracked.status {msg : Message} {costs : ContractCosts} {result : Except GoError Unit}
    (hs : Tracked id past s) (h : Moves D s (.status msg costs result) s')
    (hworks : Works s.receipts (.status msg costs result)) :
    Tracked id (past ++ [⟨s, .status msg costs result, s'⟩]) s' := by
  cases h with
  | @status _ rest _ _ receipts h hwrites =>
      have hlabel : Label.handled id (.status msg costs result) =
          if msg.id = id then [(msg, costs)] else [] := rfl
      refine hs.of_same rfl rfl rfl ?_ ?_ ?_
      · obtain ⟨sent, hsent, hflow⟩ := hs.flow
        refine ⟨sent, ?_, hflow⟩
        rw [waiting_cons h, ← List.append_assoc] at hsent
        rw [List.map_append, ← hsent, hlabel]
        congr 2
        split <;> rfl
      · rw [hwrites.lookup hworks, hs.stored, hlabel, applyAll_append]
        split <;> rfl
      · rw [hlabel]
        cases msg with
        | receipt receipt => split <;> rfl
        | receiptUpdate update =>
            by_cases hid : update.id = id
            · have hmem : update.id ∈ s.receipts := hid ▸ hs.update_stored h hid
              obtain rfl := hworks.result_ok hmem
              simp [Label.applied, Message.id, hid]
              rfl
            · cases result <;> simp [Label.applied, Message.id, hid] <;> rfl

end

/-! ### Runs -/

theorem Tracked.moves {past : History} {t : Transition System Label} (hs : Tracked id past t.source)
    (h : Moves D t.source t.label t.target) (hworks : Works t.source.receipts t.label)
    (hl : ∀ l, t.label.base = some l → Undisturbed D id l) : Tracked id (past ++ [t]) t.target := by
  obtain ⟨s, l, s'⟩ := t
  cases l with
  | daemon l => exact hs.daemon h (hl l rfl)
  | wallet msg now => exact hs.wallet h (hl .wallet rfl)
  | forward output => exact hs.forward h
  | status msg costs result => exact hs.status h hworks

theorem updatesOf_fst (msgs : List (Message × ContractCosts)) :
    (msgs.map Prod.fst).filterMap Message.update? = (updatesOf msgs).map Prod.fst := by
  induction msgs with
  | nil => rfl
  | cons m msgs ih =>
      obtain ⟨msg, costs⟩ := m
      cases msg with
      | receipt receipt => exact ih
      | receiptUpdate update => exact congrArg (List.cons update) ih

theorem waiting_updates (s : System) :
    (waiting s id).filterMap Message.update? = updatesFor Message.update? id s.statusIn := by
  unfold waiting updatesFor
  rw [List.filterMap_filter, List.filter_filterMap]
  congr 1
  funext msg
  cases msg with
  | receipt receipt => simp [Message.update?]
  | receiptUpdate update =>
      by_cases hid : update.id = id <;> simp [Message.update?, Message.id, Option.filter, hid]

/-- The updates that were produced are those that were applied, and then those on their
    way. -/
theorem Tracked.produced_eq {past : History} {s : System} (hs : Tracked id past s) :
    produced id past = (Statuses.applied id past).map Prod.fst ++ inFlight id s := by
  obtain ⟨sent, hsent, hflow⟩ := hs.flow
  have hupdates := congrArg (List.filterMap Message.update?) hsent
  have hreceipts : ((issued id past).map Message.receipt).filterMap Message.update? = [] := by
    simp [List.filterMap_map, Function.comp_def, Message.update?]
  have hall : (sent.map Message.receiptUpdate).filterMap Message.update? = sent := by
    simp [List.filterMap_map, Function.comp_def, Message.update?]
  rw [List.filterMap_append, List.filterMap_append, updatesOf_fst, waiting_updates, hreceipts,
    hall, List.nil_append] at hupdates
  rw [hflow, ← hupdates, hs.applied, inFlight, List.append_assoc]

/-- The stored receipt is the one that the wallet made, with the updates that were
    applied. -/
theorem Tracked.lookup {past : History} {s : System} (hs : Tracked id past s)
    {receipt : SwapReceipt} (hissued : issued id past = [receipt])
    (hhandled : .receipt receipt ∉ s.statusIn) :
    s.receipts.lookup id = some (updateAll (Statuses.applied id past) receipt) := by
  have hne : handled id past ≠ [] := by
    intro hnil
    obtain ⟨sent, hsent, -⟩ := hs.flow
    rw [hnil, hissued] at hsent
    have hmem : .receipt receipt ∈ waiting s id := by
      have heq : waiting s id = .receipt receipt :: sent.map .receiptUpdate := hsent
      rw [heq]
      exact List.mem_cons_self
    exact hhandled (List.mem_of_mem_filter hmem)
  obtain ⟨costs, msgs, hfirst, hupdates⟩ := hs.handled_first hissued hne
  rw [hs.stored, hs.applied, hfirst]
  exact applyAll_updates hupdates receipt

/-- A message for one swap leaves the receipts of the others. -/
theorem Writes.frame {receipts receipts' : Receipts} {msg : Message} {costs : ContractCosts}
    {result : Except GoError Unit} (h : Writes receipts msg costs result receipts') {id : SwapID}
    (hid : msg.id ≠ id) : receipts'.lookup id = receipts.lookup id := by
  rcases h with ⟨hreduce, -⟩ | ⟨rfl, -⟩
  · rw [reduce_lookup hreduce, if_neg hid]
  · rfl

/-- What the theorems of this module are about a swap: what became of its receipt and of the
    updates that were produced for it. -/
structure InOrder (id : SwapID) (ts : History) (s : System) : Prop where
  /-- The status task applies every update that reaches it, to a receipt that is stored. -/
  stored_first : ∀ t ∈ ts, ∀ update costs result,
    t.label = .status (.receiptUpdate update) costs result → update.id = id →
      id ∈ t.source.receipts ∧ result = .ok ()
  /-- Every update is applied once, in the order in which it was produced, or under way. -/
  applied_once : produced id ts = (applied id ts).map Prod.fst ++ inFlight id s
  /-- Those of the delayed swapper are first. -/
  delayed_first : ∀ us t vs, ts = us ++ t :: vs → ∀ l, t.label = .daemon (.delayed l) →
    t.label.produced id ≠ [] → ∀ u ∈ us, ∀ l', u.label = .daemon (.immediate l') →
      u.label.produced id = []
  receipt_made : produced id ts ≠ [] → ∃ receipt, issued id ts = [receipt]
  folds : ∀ receipt, issued id ts = [receipt] → .receipt receipt ∉ s.statusIn →
    s.receipts.lookup id = some (updateAll (applied id ts) receipt)
  last_status : ∀ receipt, issued id ts = [receipt] → .receipt receipt ∉ s.statusIn →
    inFlight id s = [] → (s.receipts.lookup id).map SwapReceipt.status =
      some (((produced id ts).filterMap ReceiptUpdate.status?).getLast?.getD .inactive)
  frame : ∀ t ∈ ts, ∀ update costs result,
    t.label = .status (.receiptUpdate update) costs result → ∀ id' ≠ update.id,
      t.target.receipts.lookup id' = t.source.receipts.lookup id'

theorem issued_status {past : History} {receipt : SwapReceipt} (h : receipt ∈ issued id past) :
    receipt.status = .inactive := by
  obtain ⟨t, -, hreceipt⟩ := List.mem_flatMap.mp h
  generalize t.label = l at hreceipt
  cases l with
  | wallet msg now =>
      cases msg with
      | swapRequest blob =>
          by_cases hid : blob.id = id
          · obtain rfl : receipt = newSwapReceipt now blob := by
              simpa [Label.issued, hid] using hreceipt
            rfl
          · simp [Label.issued, hid] at hreceipt
      | _ => cases hreceipt
  | _ => cases hreceipt

/-- **Receipt updates.**  In the life of a process, from any tables, with a storage that
    works and callbacks that keep IDs: whatever the interleaving of the tasks and however
    many swaps there are, the updates of a swap that has no receipt at first and that no
    `Bootload` sends again are applied each once, to its receipt, in the order in which the
    children produce them. -/
theorem receipt_updates_in_order {pending : PendingTable} {owner : Store SwapID String}
    {receipts : Receipts} (hnew : id ∉ receipts) {s : System} {ts : History}
    (h : Run (Moves D) (.start pending owner receipts) ts s)
    (hworks : ∀ t ∈ ts, Works t.source.receipts t.label)
    (hlife : ∀ t ∈ ts, ∀ l, t.label.base = some l → Undisturbed D id l) : InOrder id ts s := by
  have hmem : ∀ {us t vs}, ts = us ++ t :: vs → t ∈ ts := by
    rintro us t vs rfl
    simp
  obtain ⟨hlast, hall⟩ := h.history (P := Tracked id)
    (C := fun _ t => Works t.source.receipts t.label ∧
      ∀ l, t.label.base = some l → Undisturbed D id l)
    (fun hs hmoves hC => hs.moves hmoves hC.1 hC.2) (tracked_start hnew)
    fun us t vs hts => ⟨hworks t (hmem hts), hlife t (hmem hts)⟩
  have hlast : Tracked id ts s := hlast
  have hat : ∀ us t vs, ts = us ++ t :: vs → Tracked id us t.source := hall
  refine ⟨?_, hlast.produced_eq, ?_, ?_, fun receipt => hlast.lookup, ?_, ?_⟩
  · rintro t ht update costs result hlabel hid
    obtain ⟨us, vs, hts⟩ := List.append_of_mem ht
    have hmoves := h.step_of_mem t ht
    have hstep := hworks t ht
    rw [hlabel] at hmoves hstep
    have hstored : id ∈ t.source.receipts := by
      generalize t.target = s' at hmoves
      cases hmoves with
      | status hstatus hwrites => exact (hat us t vs hts).update_stored hstatus hid
    exact ⟨hstored, hstep.result_ok (show update.id ∈ _ from hid ▸ hstored)⟩
  · intro us t vs hts l hlabel hne u hu l' hulabel
    by_contra hproduced
    have hs : Tracked id us t.source := hat us t vs hts
    have hzero := hs.delayedFirst ⟨u, hu, l', hulabel, hproduced⟩
    have hmoves := h.step_of_mem t (hmem hts)
    rw [hlabel] at hmoves hne
    have hl : Undisturbed D id (.delayed l) := hlife t (hmem hts) _ (by rw [hlabel]; rfl)
    generalize t.target = s' at hmoves
    cases hmoves with
    | delayed hmoves => exact hne (hs.path.delayed_nil hmoves hl.keeps (by omega))
  · intro hne
    rcases hlast.issued_le with hnone | hone
    · exact absurd hnone (hlast.backed (.inr hne))
    · exact hone
  · intro receipt hissued hhandled hflight
    rw [hlast.lookup hissued hhandled, Option.map_some, updateAll_status, hlast.produced_eq, hflight,
      List.append_nil, issued_status (hissued ▸ List.mem_singleton_self receipt)]
  · intro t ht update costs result hlabel id' hid'
    have hmoves := h.step_of_mem t ht
    rw [hlabel] at hmoves
    generalize t.target = s' at hmoves ⊢
    cases hmoves with
    | status hstatus hwrites => exact hwrites.frame hid'.symm

/-! ### A swap that expires -/

theorem loadCosts_empty : loadCosts ∅ = fun _ => (∅, ∅) := by
  funext id
  simp [loadCosts]

theorem swapper_reduces {s : System} {s₁ : State} {msg : SwapperMessage} {R : StorageReplies}
    {pending : PendingTable} {sends : List Send} {out : List Output}
    (h : Receives s.daemon msg s₁) (hstored : Stored s.daemon.pending R msg pending)
    (hcosts : R.loadCosts = loadCosts s.receipts)
    (hreduce : Daemon.reduce D R msg = (sends, out)) :
    Moves D s (.daemon (.swapper msg R))
      { s with daemon := s₁.swapped pending msg sends, swapperOut := s.swapperOut ++ out } := by
  have hmoves : Moves D s (.daemon (.swapper msg R)) _ := .swapper (.swapper h hstored) hcosts
  rwa [hreduce] at hmoves

/-- The swapper stores the swap, and hands it to the immediate swapper. -/
theorem expiring_handed {s : System} {rest : List WalletMessage}
    (h : s.daemon.swapperIn = .swapRequest expiringBlob :: rest) (hreceipts : s.receipts = ∅) :
    Moves sampleConfig s (.daemon (.swapper (.swapRequest expiringBlob) (storageReplies [])))
      { s with
        daemon := ({ s.daemon with swapperIn := rest } : State).swapped
          (s.daemon.pending.insert expiringBlob.id (expiringBlob.withPassword ""))
          (.swapRequest expiringBlob) [.immediate (.request ⟨expiringBlob, ∅, ∅⟩)]
        swapperOut := s.swapperOut ++ [] } := by
  have hreceives : Receives s.daemon (.swapRequest expiringBlob) _ :=
    @Receives.wallet _ (.swapRequest expiringBlob) _ h
  refine swapper_reduces hreceives (.inl rfl) ?_ rfl
  rw [hreceipts, loadCosts_empty]
  rfl

theorem update_taken {s : System} {update : ReceiptUpdate} {rest : List Immediate.Message}
    (h : s.daemon.immediateOut = .receiptUpdate update :: rest) (hreceipts : s.receipts = ∅) :
    Moves sampleConfig s (.daemon (.swapper (.immediate (.receiptUpdate update)) (storageReplies [])))
      { s with
        daemon := ({ s.daemon with immediateOut := rest } : State).swapped s.daemon.pending
          (.immediate (.receiptUpdate update)) []
        swapperOut := s.swapperOut ++ [.receiptUpdate update] } := by
  refine swapper_reduces (.immediate h) rfl ?_ rfl
  rw [hreceipts, loadCosts_empty]
  rfl

/-- The immediate swapper is done with the swap before the status task stores its receipt;
    the update waits behind the receipt. -/
theorem receipt_updates_in_order_expiring : ∃ s ts, Run (Moves sampleConfig) .init ts s ∧
    produced expiringBlob.id ts = [Immediate.newReceiptUpdate expiringBlob.id .expired] ∧
    inFlight expiringBlob.id s = [] ∧
    (s.receipts.lookup expiringBlob.id).map SwapReceipt.status = some .expired ∧
    InOrder expiringBlob.id ts s := by
  obtain ⟨s, ts, hrun, hproduced, hflight, hissued, hhandled, hworks, hlife⟩ : ∃ s ts,
      Run (Moves sampleConfig) .init ts s ∧
        produced expiringBlob.id ts = [Immediate.newReceiptUpdate expiringBlob.id .expired] ∧
        inFlight expiringBlob.id s = [] ∧
        (∃ receipt, issued expiringBlob.id ts = [receipt]) ∧ s.statusIn = [] ∧
        (∀ t ∈ ts, Works t.source.receipts t.label) ∧
        ∀ t ∈ ts, ∀ l, t.label.base = some l → Undisturbed sampleConfig expiringBlob.id l := by
    refine ⟨_, _, .cons (.thread (.http (.postSwaps expiringRequest))) <|
      .cons (.thread (@Daemon.Moves.notBootloaded _ _ [] [] _ rfl
        (by simp [System.init, System.start, State.start]))) <|
      .cons (.thread (@Daemon.Moves.bootloadFailed _ _ [] [] _ rfl)) <|
      .cons (.thread (@Daemon.Moves.patch _ _ [] [] _ _ _ _ _ rfl expiring_admitted
        Finmap.notMem_empty)) <|
      .cons (.thread (@Daemon.Moves.writeRequest _ _ [] [] _ rfl)) <|
      .cons (.accept rfl) <| .cons (.wallet rfl 1549000000) <|
      .cons (expiring_handed rfl rfl) <|
      .cons (.immediate (.immediate (l := expiredReduction) rfl rfl (expired_reduces _))) <|
      .cons (update_taken rfl rfl) <| .cons (.forward rfl) <|
      .cons (@Moves.status _ _ _ _ {} _ _ rfl (.inl ⟨rfl, rfl⟩)) <|
      .cons (@Moves.status _ _ _ _ {} _ _ rfl (.inl ⟨rfl, rfl⟩)) (.nil _),
      ?_, ?_, ?_, ?_, ?_, ?_⟩
    · simp [produced, Label.produced, Daemon.Label.produced, updatesFor, expiredReduction,
        Immediate.Message.update?, Immediate.newReceiptUpdate]
    · simp [inFlight, updatesFor, State.delayedUpdates, State.immediateUpdates, System.init,
        System.start, State.start, State.swapped, expiredReduction, Immediate.Message.update?]
    · simp [issued, Label.issued]
    · rfl
    · simp [Works]
    · have hquiet : ∀ l : Daemon.Label, l ≠ .crash → KeepsIDs l →
          (∀ password R, l ≠ .swapper (.bootload password) R) →
          Undisturbed sampleConfig expiringBlob.id l :=
        fun l hlive hkeeps hnot => ⟨hlive, hkeeps, fun password R hl => absurd hl (hnot password R)⟩
      simp only [List.forall_mem_cons, Label.base, Option.some.injEq, forall_eq', reduceCtorEq,
        IsEmpty.forall_iff, List.not_mem_nil, implies_true, and_true]
      refine ⟨?_, ?_, ?_, ?_, ?_, ?_, ?_, ?_, ?_, ?_⟩ <;>
        exact hquiet _ (by simp) trivial (by simp)
  have horder : InOrder expiringBlob.id ts s :=
    receipt_updates_in_order Finmap.notMem_empty hrun hworks hlife
  obtain ⟨receipt, hone⟩ := hissued
  refine ⟨s, ts, hrun, hproduced, hflight, ?_, horder⟩
  have hlast := horder.last_status receipt hone (by simp [hhandled]) hflight
  rw [hlast, hproduced]
  rfl

end Statuses

end Swapperd
