/-
  Swapperd/DaemonPaths.lean
  =========================
  **The way of one swap through the daemon.**

  A swap that no `Bootload` sends again is in one place at a time: before the swapper, at
  the delayed swapper, or at the immediate one (`Path`).  So its receipt updates reach the
  swapper in the order in which they are produced, although they come through two queues
  (`Path.flow`): while the immediate swapper has the swap, no update of the delayed one is
  left.
-/
import Swapperd.DaemonRuns
import Swapperd.DaemonSwaps

namespace Swapperd

open CallProgram RetryTask TransitionRuns GoLibrary

def Immediate.Message.update? : Immediate.Message → Option ReceiptUpdate
  | .receiptUpdate update => some update
  | _ => none

def Delayed.Message.update? : Delayed.Message → Option ReceiptUpdate
  | .receiptUpdate update => some update
  | _ => none

namespace Daemon

def Output.update? : Output → Option ReceiptUpdate
  | .receiptUpdate update => some update
  | .error _ => none

/-! ### Updates in queues -/

section Updates

variable {M : Type} {f : M → Option ReceiptUpdate} {id : SwapID}

/-- The updates for a swap among messages, in their order. -/
def updatesFor (f : M → Option ReceiptUpdate) (id : SwapID) (msgs : List M) :
    List ReceiptUpdate :=
  (msgs.filterMap f).filter fun update => update.id = id

@[simp] theorem updatesFor_nil : updatesFor f id [] = [] := rfl

@[simp] theorem updatesFor_append (msgs msgs' : List M) :
    updatesFor f id (msgs ++ msgs') = updatesFor f id msgs ++ updatesFor f id msgs' := by
  simp [updatesFor]

theorem updatesFor_cons (msg : M) (msgs : List M) :
    updatesFor f id (msg :: msgs) = updatesFor f id [msg] ++ updatesFor f id msgs :=
  updatesFor_append [msg] msgs

theorem updatesFor_eq_nil_iff {msgs : List M} :
    updatesFor f id msgs = [] ↔ ∀ msg ∈ msgs, ∀ update, f msg = some update → update.id ≠ id := by
  simp only [updatesFor, List.filter_eq_nil_iff, List.mem_filterMap, decide_eq_true_eq]
  constructor
  · intro h msg hmsg update hupdate
    exact h update ⟨msg, hmsg, hupdate⟩
  · rintro h update ⟨msg, hmsg, hupdate⟩
    exact h msg hmsg update hupdate

end Updates

variable {D : Config} {id : SwapID} {s s' : State}

def State.delayedUpdates (s : State) (id : SwapID) : List ReceiptUpdate :=
  updatesFor Delayed.Message.update? id s.delayedOut

def State.immediateUpdates (s : State) (id : SwapID) : List ReceiptUpdate :=
  updatesFor Immediate.Message.update? id s.immediateOut

/-- The updates for the swap that a child produces in a step. -/
def Label.produced (id : SwapID) : Label → List ReceiptUpdate
  | .immediate l => updatesFor Immediate.Message.update? id l.output
  | .delayed l => updatesFor Delayed.Message.update? id l.output
  | _ => []

/-- The updates for the swap that the swapper passes on in a step. -/
def Label.passed (D : Config) (id : SwapID) : Label → List ReceiptUpdate
  | .swapper msg R => updatesFor Output.update? id (reduce D R msg).2
  | _ => []

/-- No `Bootload` sends the swap again. -/
def NotResent (D : Config) (id : SwapID) (l : Label) : Prop :=
  ∀ password R, l = .swapper (.bootload password) R →
    ∀ blob ∈ sentBlobs D (.swapper (.bootload password) R), blob.id ≠ id

/-- Where the swap is, and where its updates are. -/
structure Path (id : SwapID) (s : State) : Prop where
  token : s.upstream id + s.atDelayed id + s.atImmediate id ≤ 1
  fresh : id ∉ s.owner → s.upstream id + s.atDelayed id + s.atImmediate id = 0
  early : id ∉ s.owner ∨ 0 < s.upstream id →
    s.delayedUpdates id = [] ∧ s.immediateUpdates id = []
  late : 0 < s.atImmediate id ∨ s.immediateUpdates id ≠ [] →
    s.delayedUpdates id = [] ∧ s.upstream id + s.atDelayed id = 0
  /-- The delayed swapper emits the update of a swap before the swap. -/
  filled : s.delayedOut.Pairwise fun msg msg' =>
    fills id msg = true → updatesFor Delayed.Message.update? id [msg'] = []
  immediateKeys : KeysAgree Immediate.SwapRequest.id s.immediateMap
  delayedKeys : KeysAgree SwapBlob.id s.delayedMap

theorem path_start {pending : PendingTable} {owner : Store SwapID String} :
    Path id (.start pending owner) where
  token := by
    simp [State.upstream, State.front, State.atDelayed, State.atImmediate, State.start, held_empty]
  fresh _ := by
    simp [State.upstream, State.front, State.atDelayed, State.atImmediate, State.start, held_empty]
  early _ := ⟨rfl, rfl⟩
  late h := by
    simp [State.atImmediate, State.immediateUpdates, State.start, held_empty] at h
  filled := by simp [State.start]
  immediateKeys := keysAgree_empty _
  delayedKeys := keysAgree_empty _

/-- A step makes no token for the swap, and moves none back. -/
structure TokensLe (id : SwapID) (s s' : State) : Prop where
  owner : id ∉ s'.owner → id ∉ s.owner
  upstream : s'.upstream id ≤ s.upstream id
  early : s'.upstream id + s'.atDelayed id ≤ s.upstream id + s.atDelayed id
  all : s'.upstream id + s'.atDelayed id + s'.atImmediate id ≤
    s.upstream id + s.atDelayed id + s.atImmediate id

/-- A step admits the swap. -/
structure Admits (id : SwapID) (s s' : State) : Prop where
  fresh : id ∉ s.owner
  owned : id ∈ s'.owner
  upstream : s'.upstream id = s.upstream id + 1
  atDelayed : s'.atDelayed id = s.atDelayed id
  atImmediate : s'.atImmediate id = s.atImmediate id

/-- A swap that is not posted yet, or has not reached the swapper, was so before. -/
theorem early_of_tokens (h : TokensLe id s s' ∨ Admits id s s')
    (hearly : id ∉ s'.owner ∨ 0 < s'.upstream id) : id ∉ s.owner ∨ 0 < s.upstream id := by
  rcases h with hle | hadmits
  · exact hearly.imp hle.owner fun hpos => lt_of_lt_of_le hpos hle.upstream
  · exact .inl hadmits.fresh

/-! ### Threads and wallet -/

theorem front_tokens {l : Label} (h : Moves D s l s') (hl : l = .thread ∨ l = .wallet) :
    TokensLe id s s' ∨ Admits id s s' := by
  have hback := front_sameBack h hl
  have hdelayed := hback.atDelayed id
  have himmediate := hback.atImmediate id
  have hle : s'.upstream id ≤ s.upstream id → (id ∉ s'.owner → id ∉ s.owner) →
      TokensLe id s s' := fun hup howner => ⟨howner, hup, by omega, by omega⟩
  rcases front_cases h hl with ⟨hsub, howner⟩ | ⟨_, blob, hadmitted⟩
  · exact .inl (hle (hsub.countP_le _) (by simp [howner]))
  · have hcount : s'.upstream id = s.upstream id + if blob.id = id then 1 else 0 := by
      simp [State.upstream, hadmitted.front.countP_eq, List.countP_cons]
    by_cases hid : blob.id = id
    · subst hid
      rw [if_pos rfl] at hcount
      exact .inr ⟨hadmitted.fresh, by simp [hadmitted.owner], hcount, hdelayed, himmediate⟩
    · rw [if_neg hid] at hcount
      exact .inl (hle hcount.le (by simp [hadmitted.owner]))

theorem Path.front {l : Label} (hs : Path id s) (h : Moves D s l s')
    (hl : l = .thread ∨ l = .wallet) : Path id s' := by
  have hback := front_sameBack h hl
  have htokens : TokensLe id s s' ∨ Admits id s s' := front_tokens h hl
  have himmediate := hback.atImmediate id
  have hdelayedUps : s'.delayedUpdates id = s.delayedUpdates id := by
    simp only [State.delayedUpdates, hback.delayedOut]
  have himmediateUps : s'.immediateUpdates id = s.immediateUpdates id := by
    simp only [State.immediateUpdates, front_outputs h hl]
  refine ⟨?_, ?_, ?_, ?_, hback.delayedOut ▸ hs.filled, hback.immediateMap ▸ hs.immediateKeys,
    hback.delayedMap ▸ hs.delayedKeys⟩
  · have htoken := hs.token
    rcases htokens with hle | hadmits
    · exact le_trans hle.all htoken
    · have hzero := hs.fresh hadmits.fresh
      have hup := hadmits.upstream
      have hdelayed := hadmits.atDelayed
      omega
  · intro hid
    rcases htokens with hle | hadmits
    · have hzero := hs.fresh (hle.owner hid)
      have hall := hle.all
      omega
    · exact absurd hadmits.owned hid
  · intro hearly
    rw [hdelayedUps, himmediateUps]
    exact hs.early (early_of_tokens htokens hearly)
  · intro hlate
    rw [himmediate, himmediateUps] at hlate
    obtain ⟨hnone, hzero⟩ := hs.late hlate
    refine ⟨hdelayedUps.trans hnone, ?_⟩
    rcases htokens with hle | hadmits
    · have hearly := hle.early
      omega
    · have hfresh := hs.fresh hadmits.fresh
      have hempty := (hs.early (.inl hadmits.fresh)).2
      rcases hlate with hat | hups
      · omega
      · exact absurd hempty hups

/-! ### The swapper -/

section Swapper

variable {s₁ : State} {msg : SwapperMessage} {R : StorageReplies} {pending : PendingTable}

/-- A `Bootload` updates the receipts of the swaps that it sends. -/
theorem bootload_passed {password : String}
    (h : ∀ blob ∈ sentBlobs D (.swapper (.bootload password) R), blob.id ≠ id) :
    Label.passed D id (.swapper (.bootload password) R) = [] := by
  simp only [Label.passed, updatesFor_eq_nil_iff, reduce, handleBootload]
  cases hpending : R.pendingSwaps with
  | error err =>
      intro msg hmsg update hupdate
      obtain rfl := List.mem_singleton.mp hmsg
      cases hupdate
  | ok pendingSwaps =>
      intro msg hmsg update hupdate
      obtain ⟨blob, hblob, rfl⟩ := List.mem_map.mp hmsg
      obtain rfl : (⟨blob.id, .activate⟩ : ReceiptUpdate) = update := Option.some.inj hupdate
      have hsent : blob.withPassword password ∈
          sentBlobs D (.swapper (.bootload password) R) := by
        simp only [sentBlobs, reduce, handleBootload, hpending]
        refine List.mem_filterMap.mpr ⟨_, List.mem_map.mpr ⟨blob, hblob, rfl⟩, ?_⟩
        exact handOver_blob R _
      exact h (blob.withPassword password) hsent

theorem handleDeleteSwap_passed : updatesFor Output.update? id (handleDeleteSwap R).2 = [] := by
  unfold handleDeleteSwap
  split <;> rfl

theorem handleSwapRequest_passed (blob : SwapBlob) :
    updatesFor Output.update? id (handleSwapRequest R blob).2 = [] := by
  unfold handleSwapRequest
  split <;> rfl

/-- The swapper takes a message off one queue, and passes its update on. -/
theorem receives_passed (h : Receives s msg s₁) (hnot : NotResent D id (.swapper msg R)) :
    s₁.delayedUpdates id = s.delayedUpdates id ∧
        s.immediateUpdates id = Label.passed D id (.swapper msg R) ++ s₁.immediateUpdates id ∨
      s₁.immediateUpdates id = s.immediateUpdates id ∧
        s.delayedUpdates id = Label.passed D id (.swapper msg R) ++ s₁.delayedUpdates id := by
  cases h with
  | @wallet msg rest h =>
      refine .inl ⟨rfl, ?_⟩
      have hnone : Label.passed D id (.swapper (toSwapper msg) R) = [] := by
        cases msg with
        | bootload password => exact bootload_passed (hnot password R rfl)
        | swapRequest blob => exact handleSwapRequest_passed blob
        | tick => rfl
      rw [hnone]
      rfl
  | @immediate msg rest h =>
      refine .inl ⟨rfl, ?_⟩
      have hpassed : updatesFor Immediate.Message.update? id [msg] =
          Label.passed D id (.swapper (.immediate msg) R) := by
        cases msg with
        | deleteSwap id' => exact handleDeleteSwap_passed.symm
        | _ => rfl
      rw [State.immediateUpdates, h, updatesFor_cons, hpassed]
      rfl
  | @delayed msg rest h =>
      refine .inr ⟨rfl, ?_⟩
      have hpassed : updatesFor Delayed.Message.update? id [msg] =
          Label.passed D id (.swapper (.delayed msg) R) := by
        cases msg with
        | deleteSwap id' => exact handleDeleteSwap_passed.symm
        | swapRequest blob => exact (handleSwapRequest_passed blob).symm
        | _ => rfl
      rw [State.delayedUpdates, h, updatesFor_cons, hpassed]
      rfl

/-- When the swapper takes the swap, it takes it from the wallet, or from the delayed
    swapper, whose update it took before. -/
theorem Path.takes (hs : Path id s) (h : Receives s msg s₁) (htakes : 0 < msg.takes id) :
    0 < s.upstream id ∨ s₁.delayedUpdates id = [] := by
  have htokens := receives_takes h id
  cases h with
  | @wallet msg rest h =>
      left
      dsimp only [State.upstream] at htokens ⊢
      omega
  | immediate h => cases htakes
  | @delayed msg rest h =>
      right
      have hfills : fills id msg = true := by
        cases msg with
        | swapRequest blob =>
            by_contra hne
            simp only [fills, decide_eq_true_eq] at hne
            simp [SwapperMessage.takes, hne] at htakes
        | _ => cases htakes
      have hfilled := hs.filled
      rw [h] at hfilled
      rw [State.delayedUpdates, updatesFor_eq_nil_iff]
      intro msg' hmsg' update hupdate
      have hnone := List.rel_of_pairwise_cons hfilled hmsg' hfills
      exact updatesFor_eq_nil_iff.mp hnone msg' (List.mem_singleton_self _) update hupdate

theorem swapper_tokens (h : Receives s msg s₁) (hnot : NotResent D id (.swapper msg R)) :
    TokensLe id s (s₁.swapped pending msg (reduce D R msg).1) := by
  generalize hs' : s₁.swapped pending msg (reduce D R msg).1 = s'
  obtain ⟨hsame, -⟩ := receives_same h
  have howner : s'.owner = s.owner := hs' ▸ hsame.owner
  have hup : s'.upstream id = s₁.upstream id := hs' ▸ rfl
  have hupLe := hsame.upstream id
  have hdelayed : s'.atDelayed id + _ = _ := hs' ▸ swapped_atDelayed h id
  have himmediate : s'.atImmediate id = _ := hs' ▸ swapped_atImmediate h id
  have htakes := receives_takes h id
  have hsent : sent (reduce D R msg).1 id ≤ msg.takes id :=
    sent_le_takes fun password hmsg => hmsg ▸ hnot password R (hmsg ▸ rfl)
  have hcount := countP_sends (reduce D R msg).1 id
  have hle : s.delayedOut.countP (fills id) ≤ s.atDelayed id := by
    unfold State.atDelayed
    omega
  exact ⟨fun hid => howner ▸ hid, by omega, by omega, by omega⟩

theorem Path.swapper (hs : Path id s) (h : Receives s msg s₁)
    (hnot : NotResent D id (.swapper msg R)) :
    Path id (s₁.swapped pending msg (reduce D R msg).1) := by
  have htokens : TokensLe id s (s₁.swapped pending msg (reduce D R msg).1) :=
    swapper_tokens h hnot
  generalize hs' : s₁.swapped pending msg (reduce D R msg).1 = s' at htokens ⊢
  obtain ⟨hsame, -⟩ := receives_same h
  have hdelayedUps : s'.delayedUpdates id = s₁.delayedUpdates id := hs' ▸ rfl
  have himmediateUps : s'.immediateUpdates id = s₁.immediateUpdates id := hs' ▸ rfl
  have htoken := hs.token
  have hall := htokens.all
  -- what was empty stays empty
  have hkept : (s.delayedUpdates id = [] → s'.delayedUpdates id = []) ∧
      (s.immediateUpdates id = [] → s'.immediateUpdates id = []) := by
    rw [hdelayedUps, himmediateUps]
    rcases receives_passed h hnot with ⟨hsame, heq⟩ | ⟨hsame, heq⟩
    · exact ⟨fun hnil => hsame.trans hnil, fun hnil => (List.append_eq_nil_iff.mp (heq ▸ hnil)).2⟩
    · exact ⟨fun hnil => (List.append_eq_nil_iff.mp (heq ▸ hnil)).2, fun hnil => hsame.trans hnil⟩
  refine ⟨le_trans hall htoken, ?_, ?_, ?_, ?_, ?_, ?_⟩
  · intro hid
    have hzero := hs.fresh (htokens.owner hid)
    omega
  · intro hearly
    obtain ⟨hdelayedNil, himmediateNil⟩ :=
      hs.early (hearly.imp htokens.owner fun hpos => lt_of_lt_of_le hpos htokens.upstream)
    exact ⟨hkept.1 hdelayedNil, hkept.2 himmediateNil⟩
  · intro hlate
    by_cases hbefore : 0 < s.atImmediate id ∨ s.immediateUpdates id ≠ []
    · obtain ⟨hnil, hzero⟩ := hs.late hbefore
      have hearly := htokens.early
      exact ⟨hkept.1 hnil, by omega⟩
    · -- the swapper hands the swap to the immediate swapper now
      have hnil : s.immediateUpdates id = [] := by
        by_contra hne
        exact hbefore (.inr hne)
      have hzero : s.atImmediate id = 0 := by
        by_contra hne
        exact hbefore (.inl (Nat.pos_of_ne_zero hne))
      have hat : 0 < s'.atImmediate id :=
        hlate.resolve_right fun hne => hne (hkept.2 hnil)
      refine ⟨?_, by omega⟩
      have htakes : 0 < msg.takes id := by
        have himmediate : s'.atImmediate id = _ := hs' ▸ swapped_atImmediate h id
        have hsent : sent (reduce D R msg).1 id ≤ msg.takes id :=
          sent_le_takes fun password hmsg => hmsg ▸ hnot password R (hmsg ▸ rfl)
        have hcount := countP_sends (reduce D R msg).1 id
        omega
      rcases hs.takes h htakes with hpos | hdone
      · exact hkept.1 (hs.early (.inr hpos)).1
      · exact hdelayedUps.trans hdone
  · have hout : s'.delayedOut = s₁.delayedOut := hs' ▸ rfl
    rw [hout]
    exact hs.filled.sublist hsame.delayedOut
  · have hmap : s'.immediateMap = s₁.immediateMap := hs' ▸ rfl
    rw [hmap, hsame.immediateMap]
    exact hs.immediateKeys
  · have hmap : s'.delayedMap = s₁.delayedMap := hs' ▸ rfl
    rw [hmap, hsame.delayedMap]
    exact hs.delayedKeys

end Swapper

/-! ### The children -/

section Immediate

variable {msg : TaskMessage Immediate.SwapRequest} {rest : List (TaskMessage Immediate.SwapRequest)}
  {l : ImmediateReduction} {swapMap : Immediate.SwapMap}

/-- The immediate swapper updates the receipts of the swaps that it calls for. -/
theorem immediate_update_called (hkeys : KeysAgree Immediate.SwapRequest.id s.immediateMap)
    (hreduces : Reduces unconstrained (Immediate.task D.H) (s.immediateMap, ()) l (swapMap, ()))
    {update : ReceiptUpdate} (h : .receiptUpdate update ∈ l.output) :
    ∃ c ∈ l.calls, c.1.id = update.id := by
  obtain ⟨ts, hts, hevents, hout, -⟩ := hreduces.passes Immediate.keepsKeys hkeys
  rw [hout] at h
  obtain ⟨t, ht, hmem⟩ := List.mem_flatMap.mp h
  rcases Immediate.pass_exits (hts.step_of_mem t ht) with ⟨err, -, -, hbatch⟩ | ⟨calls, status,
    err, remove, -, hcalls, -, hbatch⟩
  · rw [hbatch] at hmem
    simp at hmem
  · refine ⟨⟨.buildSwapContracts t.label.req, .ok ()⟩, ?_, ?_⟩
    · rw [calls_eq_flatMap hevents]
      exact List.mem_flatMap.mpr ⟨t, ht, hcalls ▸ List.mem_cons_self⟩
    · rw [hbatch] at hmem
      have heq : update = Immediate.newReceiptUpdate t.label.req.id status := by
        cases remove <;> simpa using hmem
      rw [heq]
      rfl

theorem immediate_produced_nil (hkeys : KeysAgree Immediate.SwapRequest.id s.immediateMap)
    (h : s.immediateIn = msg :: rest) (hstart : msg.Starts l.input)
    (hreduces : Reduces unconstrained (Immediate.task D.H) (s.immediateMap, ()) l (swapMap, ()))
    (hzero : s.atImmediate id = 0) : Label.produced id (.immediate l) = [] := by
  rw [Label.produced, updatesFor_eq_nil_iff]
  intro msg hmsg update hupdate hid
  cases msg with
  | receiptUpdate update' =>
      cases hupdate
      obtain ⟨c, hc, hcid⟩ := immediate_update_called hkeys hreduces hmsg
      have hpos := (immediate_tokens hkeys h hstart hreduces id).2 c hc (hcid.trans hid)
      omega
  | _ => cases hupdate

theorem immediate_tokens_le (hkeys : KeysAgree Immediate.SwapRequest.id s.immediateMap)
    (h : s.immediateIn = msg :: rest) (hstart : msg.Starts l.input)
    (hreduces : Reduces unconstrained (Immediate.task D.H) (s.immediateMap, ()) l (swapMap, ())) :
    TokensLe id s (s.immediateReduced rest swapMap l) := by
  have htokens := (immediate_tokens hkeys h hstart hreduces id).1
  refine ⟨fun hid => hid, le_refl _, le_refl _, ?_⟩
  simp only [State.upstream, State.front, State.atDelayed, State.atImmediate] at htokens ⊢
  omega

theorem Path.immediate (hs : Path id s) (h : s.immediateIn = msg :: rest)
    (hstart : msg.Starts l.input)
    (hreduces : Reduces unconstrained (Immediate.task D.H) (s.immediateMap, ()) l (swapMap, ())) :
    Path id (s.immediateReduced rest swapMap l) := by
  have htokens : TokensLe id s _ := immediate_tokens_le hs.immediateKeys h hstart hreduces
  generalize hs' : s.immediateReduced rest swapMap l = s' at htokens ⊢
  have hup : s'.upstream id = s.upstream id := hs' ▸ rfl
  have hdelayed : s'.atDelayed id = s.atDelayed id := hs' ▸ rfl
  have hall := htokens.all
  have howner : s'.owner = s.owner := hs' ▸ rfl
  have hdelayedUps : s'.delayedUpdates id = s.delayedUpdates id := hs' ▸ rfl
  have himmediateUps : s'.immediateUpdates id =
      s.immediateUpdates id ++ Label.produced id (.immediate l) := by
    subst hs'
    exact updatesFor_append _ _
  have hnone : s.atImmediate id = 0 → Label.produced id (.immediate l) = [] :=
    immediate_produced_nil hs.immediateKeys h hstart hreduces
  have htoken := hs.token
  refine ⟨by omega, ?_, ?_, ?_, hs' ▸ hs.filled, ?_, hs' ▸ hs.delayedKeys⟩
  · intro hid
    have hzero := hs.fresh (howner ▸ hid)
    omega
  · intro hearly
    rw [howner, hup] at hearly
    have hzero : s.atImmediate id = 0 := by
      rcases hearly with hid | hpos
      · have hfresh := hs.fresh hid
        omega
      · omega
    rw [hdelayedUps, himmediateUps, hnone hzero, List.append_nil]
    exact hs.early hearly
  · intro hlate
    rw [hdelayedUps, hup, hdelayed]
    apply hs.late
    by_contra hbefore
    obtain ⟨hzero, hnil⟩ := not_or.mp hbefore
    have hzero : s.atImmediate id = 0 := Nat.eq_zero_of_not_pos hzero
    rcases hlate with hat | hups
    · omega
    · rw [himmediateUps, hnone hzero, List.append_nil] at hups
      exact hnil hups
  · subst hs'
    exact hreduces.keysAgree Immediate.keepsKeys hs.immediateKeys

end Immediate

section Delayed

variable {msg : TaskMessage SwapBlob} {rest : List (TaskMessage SwapBlob)} {l : DelayedReduction}
  {swapMap : Delayed.SwapMap}

/-- What a pass of the delayed swapper emits about the swap: an update and then the swap, or
    its end. -/
theorem delayed_batch {σ N : Type} {step : Behaviour Delayed.Op Delayed.Reply σ N}
    {m m' : Delayed.SwapMap × σ} {p : Delayed.Pass σ N} (h : PassStep step Delayed.task m p m') :
    (p.batch.Pairwise fun msg msg' =>
      fills id msg = true → updatesFor Delayed.Message.update? id [msg'] = []) ∧
    ∀ update, .receiptUpdate update ∈ p.batch → ∃ msg ∈ p.batch, resolves update.id msg = true := by
  obtain ⟨c, -, -, hexit⟩ := Delayed.pass_exits h
  generalize m'.1 = swapMap, p.batch = batch at hexit ⊢
  cases hexit with
  | filled filled hanswer => simp [fills, resolves]
  | cancelled hanswer => simp [fills, resolves]
  | unavailable | failed => simp

/-- With one token for the swap no update for it is emitted after the swap. -/
theorem pairwise_of_resolves {batches : List (List Delayed.Message)}
    (hbatch : ∀ batch ∈ batches, (batch.Pairwise fun msg msg' =>
        fills id msg = true → updatesFor Delayed.Message.update? id [msg'] = []) ∧
      ∀ update, .receiptUpdate update ∈ batch → ∃ msg ∈ batch, resolves update.id msg = true)
    (hone : batches.flatten.countP (resolves id) ≤ 1) :
    batches.flatten.Pairwise fun msg msg' =>
      fills id msg = true → updatesFor Delayed.Message.update? id [msg'] = [] := by
  induction batches with
  | nil => simp
  | cons batch batches ih =>
      rw [List.flatten_cons] at hone ⊢
      rw [List.countP_append] at hone
      refine List.pairwise_append.mpr ⟨(hbatch batch List.mem_cons_self).1,
        ih (fun b hb => hbatch b (List.mem_cons_of_mem _ hb)) (by omega), ?_⟩
      intro msg hmsg msg' hmsg' hfills
      rw [updatesFor_eq_nil_iff]
      intro msg'' hmem update hupdate hid
      obtain rfl := List.mem_singleton.mp hmem
      -- the update is resolved in its own batch, and the swap in this one
      have hfirst : 0 < batch.countP (resolves id) := by
        refine List.countP_pos_iff.mpr ⟨msg, hmsg, ?_⟩
        cases msg with
        | swapRequest blob => exact hfills
        | _ => cases hfills
      have hsecond : 0 < batches.flatten.countP (resolves id) := by
        cases msg'' with
        | receiptUpdate update' =>
            cases hupdate
            obtain ⟨b, hb, hin⟩ := List.mem_flatten.mp hmsg'
            obtain ⟨r, hr, hresolves⟩ := (hbatch b (List.mem_cons_of_mem _ hb)).2 update hin
            exact List.countP_pos_iff.mpr ⟨r, List.mem_flatten.mpr ⟨b, hb, hr⟩, hid ▸ hresolves⟩
        | _ => cases hupdate
      omega

theorem delayed_update_called (hkeys : KeysAgree SwapBlob.id s.delayedMap)
    (hreduces : Reduces unconstrained Delayed.task (s.delayedMap, ()) l (swapMap, ()))
    (hkeeps : Delayed.KeepsIDs l) {update : ReceiptUpdate} (h : .receiptUpdate update ∈ l.output) :
    ∃ c ∈ l.calls, Delayed.Call.id c = update.id := by
  obtain ⟨ts, hts, hevents, hout, -⟩ := hreduces.passes Delayed.keepsKeys hkeys
  rw [hout] at h
  obtain ⟨t, ht, hmem⟩ := List.mem_flatMap.mp h
  obtain ⟨c, hcalls, hop, hexit⟩ := Delayed.pass_exits (hts.step_of_mem t ht)
  have hc : c ∈ l.calls := by
    rw [calls_eq_flatMap hevents]
    exact List.mem_flatMap.mpr ⟨t, ht, hcalls ▸ List.mem_singleton_self c⟩
  refine ⟨c, hc, ?_⟩
  generalize t.target.1 = m, t.label.batch = batch at hexit hmem
  cases hexit with
  | filled filled hanswer =>
      obtain rfl : update = _ := by simpa using hmem
      exact (hkeeps c hc filled hanswer).symm
  | cancelled hanswer =>
      obtain rfl : update = _ := by simpa using hmem
      simp [Delayed.Call.id, hop, Delayed.Op.partialSwap]
  | unavailable | failed => simp at hmem

/-- The swap in the queue or the map of the delayed swapper. -/
def State.waiting (s : State) (id : SwapID) : Nat :=
  s.delayedIn.countP (TaskMessage.requests SwapBlob.id id) + held s.delayedMap id

theorem delayed_produced_nil (hkeys : KeysAgree SwapBlob.id s.delayedMap)
    (h : s.delayedIn = msg :: rest) (hstart : msg.Starts l.input)
    (hreduces : Reduces unconstrained Delayed.task (s.delayedMap, ()) l (swapMap, ()))
    (hkeeps : Delayed.KeepsIDs l) (hzero : s.waiting id = 0) :
    Label.produced id (.delayed l) = [] := by
  rw [Label.produced, updatesFor_eq_nil_iff]
  intro emitted hemitted update hupdate hid
  cases emitted with
  | receiptUpdate update' =>
      cases hupdate
      obtain ⟨c, hc, hcid⟩ := delayed_update_called hkeys hreduces hkeeps hemitted
      -- calls are for swaps that wait, whatever has left the task
      have htokens := @delayed_tokens { s with delayedOut := [] } msg rest l swapMap hkeys h hstart
        hreduces hkeeps id
      have hpos := htokens.2 c hc (hcid.trans hid)
      simp only [State.atDelayed, List.countP_nil] at hpos
      unfold State.waiting at hzero
      omega
  | _ => cases hupdate

theorem delayed_resolves_le (hkeys : KeysAgree SwapBlob.id s.delayedMap)
    (h : s.delayedIn = msg :: rest) (hstart : msg.Starts l.input)
    (hreduces : Reduces unconstrained Delayed.task (s.delayedMap, ()) l (swapMap, ()))
    (hkeeps : Delayed.KeepsIDs l) : l.output.countP (resolves id) ≤ s.waiting id := by
  obtain ⟨hle, -⟩ := hreduces.balance Delayed.keepsKeys (delayed_balances id) hkeys hkeeps
  have hasks : s.delayedIn.countP (TaskMessage.requests SwapBlob.id id) =
      rest.countP (TaskMessage.requests SwapBlob.id id) + l.input.asks Delayed.task id := by
    rw [h]
    exact asks_of_starts Delayed.task hstart id rest
  unfold State.waiting
  dsimp only at hle
  omega

theorem delayed_tokens_le (hkeys : KeysAgree SwapBlob.id s.delayedMap)
    (h : s.delayedIn = msg :: rest) (hstart : msg.Starts l.input)
    (hreduces : Reduces unconstrained Delayed.task (s.delayedMap, ()) l (swapMap, ()))
    (hkeeps : Delayed.KeepsIDs l) :
    TokensLe id s (s.delayedReduced rest swapMap l) := by
  have htokens := (delayed_tokens hkeys h hstart hreduces hkeeps id).1
  refine ⟨fun hid => hid, le_refl _, ?_, ?_⟩ <;>
    simp only [State.upstream, State.front, State.atDelayed, State.atImmediate] at htokens ⊢ <;>
    omega

theorem Path.delayed (hs : Path id s) (h : s.delayedIn = msg :: rest) (hstart : msg.Starts l.input)
    (hreduces : Reduces unconstrained Delayed.task (s.delayedMap, ()) l (swapMap, ()))
    (hkeeps : Delayed.KeepsIDs l) :
    Path id (s.delayedReduced rest swapMap l) := by
  have htokens : TokensLe id s _ := delayed_tokens_le hs.delayedKeys h hstart hreduces hkeeps
  generalize hs' : s.delayedReduced rest swapMap l = s' at htokens ⊢
  have hup : s'.upstream id = s.upstream id := hs' ▸ rfl
  have himmediate : s'.atImmediate id = s.atImmediate id := hs' ▸ rfl
  have hall := htokens.all
  have howner : s'.owner = s.owner := hs' ▸ rfl
  have himmediateUps : s'.immediateUpdates id = s.immediateUpdates id := hs' ▸ rfl
  have hdelayedUps : s'.delayedUpdates id =
      s.delayedUpdates id ++ Label.produced id (.delayed l) := by
    subst hs'
    exact updatesFor_append _ _
  have hnone : s.waiting id = 0 → Label.produced id (.delayed l) = [] :=
    delayed_produced_nil hs.delayedKeys h hstart hreduces hkeeps
  have hwaiting : s.atDelayed id = s.waiting id + s.delayedOut.countP (fills id) := rfl
  have htoken := hs.token
  refine ⟨by omega, ?_, ?_, ?_, ?_, hs' ▸ hs.immediateKeys, ?_⟩
  · intro hid
    have hzero := hs.fresh (howner ▸ hid)
    omega
  · intro hearly
    rw [howner, hup] at hearly
    have hzero : s.waiting id = 0 := by
      rcases hearly with hid | hpos
      · have hfresh := hs.fresh hid
        omega
      · omega
    rw [hdelayedUps, himmediateUps, hnone hzero, List.append_nil]
    exact hs.early hearly
  · intro hlate
    rw [himmediate, himmediateUps] at hlate
    obtain ⟨hnil, hzero⟩ := hs.late hlate
    rw [hdelayedUps, hnone (by omega), List.append_nil]
    exact ⟨hnil, by omega⟩
  · subst hs'
    refine List.pairwise_append.mpr ⟨hs.filled, ?_, ?_⟩
    · obtain ⟨ts, hts, -, hout, -⟩ := hreduces.passes Delayed.keepsKeys hs.delayedKeys
      have hone : l.output.countP (resolves id) ≤ s.waiting id :=
        delayed_resolves_le hs.delayedKeys h hstart hreduces hkeeps
      rw [hout, List.flatMap_def] at hone ⊢
      apply pairwise_of_resolves _ (by omega)
      intro batch hbatch
      obtain ⟨t, ht, rfl⟩ := List.mem_map.mp hbatch
      exact delayed_batch (hts.step_of_mem t ht)
    · intro msg hmsg msg' hmsg' hfills
      have hpos : 0 < s.delayedOut.countP (fills id) := List.countP_pos_iff.mpr ⟨msg, hmsg, hfills⟩
      have hnil := updatesFor_eq_nil_iff.mp (hnone (by omega))
      rw [updatesFor_eq_nil_iff]
      intro msg'' hmem
      obtain rfl := List.mem_singleton.mp hmem
      exact hnil msg'' hmsg'
  · subst hs'
    exact hreduces.keysAgree Delayed.keepsKeys hs.delayedKeys

end Delayed

/-! ### All steps -/

/-- A process lives on, callbacks keep IDs, and no `Bootload` sends the swap again. -/
structure Undisturbed (D : Config) (id : SwapID) (l : Label) : Prop where
  live : l ≠ .crash
  keeps : KeepsIDs l
  notResent : NotResent D id l

variable {l : Label}

theorem Path.moves (hs : Path id s) (h : Moves D s l s') (hl : Undisturbed D id l) :
    Path id s' := by
  cases l with
  | thread => exact hs.front h (.inl rfl)
  | wallet => exact hs.front h (.inr rfl)
  | swapper msg R =>
      cases h with
      | swapper h hstored => exact hs.swapper h hl.notResent
  | immediate l =>
      cases h with
      | immediate h hstart hreduces => exact hs.immediate h hstart hreduces
  | delayed l =>
      cases h with
      | delayed h hstart hreduces => exact hs.delayed h hstart hreduces hl.keeps
  | crash => exact absurd rfl hl.live

theorem Path.delayed_nil {l : DelayedReduction} (hs : Path id s) (h : Moves D s (.delayed l) s')
    (hkeeps : Delayed.KeepsIDs l) (hzero : s.atDelayed id = 0) :
    Label.produced id (.delayed l) = [] := by
  cases h with
  | delayed h hstart hreduces =>
      apply delayed_produced_nil hs.delayedKeys h hstart hreduces hkeeps
      unfold State.atDelayed at hzero
      unfold State.waiting
      omega

/-- The children produce updates for the swaps that they have. -/
theorem Path.produced_nil (hs : Path id s) (h : Moves D s l s') (hkeeps : KeepsIDs l)
    (hzero : s.atDelayed id + s.atImmediate id = 0) : l.produced id = [] := by
  cases l with
  | immediate l =>
      cases h with
      | immediate h hstart hreduces =>
          exact immediate_produced_nil hs.immediateKeys h hstart hreduces (by omega)
  | delayed l => exact hs.delayed_nil h hkeeps (by omega)
  | _ => rfl

/-- The immediate swapper produces updates for a swap when the delayed one is done with
    it. -/
theorem Path.immediate_late {l : ImmediateReduction} (hs : Path id s)
    (h : Moves D s (.immediate l) s') (hproduced : Label.produced id (.immediate l) ≠ []) :
    s.upstream id + s.atDelayed id = 0 := by
  cases h with
  | immediate h hstart hreduces =>
      apply And.right
      apply hs.late
      left
      by_contra hzero
      exact hproduced
        (immediate_produced_nil hs.immediateKeys h hstart hreduces (Nat.eq_zero_of_not_pos hzero))

/-- **Order.**  The updates of a swap that wait and those that a step produces are those
    that it passes on and those that wait after it, in this order. -/
theorem Path.flow (hs : Path id s) (h : Moves D s l s') (hl : Undisturbed D id l) :
    s.delayedUpdates id ++ s.immediateUpdates id ++ l.produced id =
      l.passed D id ++ (s'.delayedUpdates id ++ s'.immediateUpdates id) := by
  have hfront : l = .thread ∨ l = .wallet → s.delayedUpdates id ++ s.immediateUpdates id =
      s'.delayedUpdates id ++ s'.immediateUpdates id := by
    intro hl
    simp only [State.delayedUpdates, State.immediateUpdates, (front_sameBack h hl).delayedOut,
      front_outputs h hl]
  cases l with
  | thread => exact (List.append_nil _).trans (hfront (.inl rfl))
  | wallet => exact (List.append_nil _).trans (hfront (.inr rfl))
  | swapper msg R =>
      cases h with
      | @swapper s₁ _ _ pending h hstored =>
          change _ ++ [] = _ ++ (s₁.delayedUpdates id ++ s₁.immediateUpdates id)
          rw [List.append_nil]
          rcases receives_passed h hl.notResent with ⟨hsame, heq⟩ | ⟨hsame, heq⟩
          · rw [hsame]
            by_cases hnil : s.immediateUpdates id = []
            · obtain ⟨hpassed, hrest⟩ := List.append_eq_nil_iff.mp (heq ▸ hnil)
              rw [hnil, hpassed, hrest, List.nil_append]
            · rw [(hs.late (.inr hnil)).1, List.nil_append, List.nil_append, heq]
          · rw [hsame, heq, List.append_assoc]
  | immediate l =>
      cases h with
      | immediate h hstart hreduces =>
          change _ = [] ++ (s.delayedUpdates id ++ updatesFor _ id (s.immediateOut ++ l.output))
          rw [updatesFor_append, List.nil_append, List.append_assoc]
          rfl
  | delayed l =>
      have hnone : s.atDelayed id = 0 → Label.produced id (.delayed l) = [] :=
        hs.delayed_nil h hl.keeps
      cases h with
      | delayed h hstart hreduces =>
          change _ = [] ++ (updatesFor _ id (s.delayedOut ++ l.output) ++ s.immediateUpdates id)
          rw [updatesFor_append, List.nil_append]
          change _ = s.delayedUpdates id ++ Label.produced id (.delayed l) ++ s.immediateUpdates id
          by_cases hnil : s.immediateUpdates id = []
          · rw [hnil, List.append_nil, List.append_nil]
          · have hzero := (hs.late (.inr hnil)).2
            rw [hnone (by omega), List.append_nil, List.append_nil]
  | crash => exact absurd rfl hl.live

/-- A step admits the swap, or makes no token for it. -/
theorem Path.moves_tokens (hs : Path id s) (h : Moves D s l s') (hl : Undisturbed D id l) :
    TokensLe id s s' ∨ Admits id s s' := by
  cases l with
  | thread => exact front_tokens h (.inl rfl)
  | wallet => exact front_tokens h (.inr rfl)
  | swapper msg R =>
      cases h with
      | swapper h hstored => exact .inl (swapper_tokens h hl.notResent)
  | immediate l =>
      cases h with
      | immediate h hstart hreduces =>
          exact .inl (immediate_tokens_le hs.immediateKeys h hstart hreduces)
  | delayed l =>
      cases h with
      | delayed h hstart hreduces =>
          exact .inl (delayed_tokens_le hs.delayedKeys h hstart hreduces hl.keeps)
  | crash => exact absurd rfl hl.live

end Daemon

end Swapperd
