/-
  Swapperd/DaemonSwaps.lean
  =========================
  **What holds of every swap of the daemon.**

  A swap waits in a queue, in the map of a child, or in the table of pending swaps, where
  it has no password.  `Everywhere P` says that `P` holds of all of them.  A step brings
  a swap in or changes one in three ways only: a thread admits it, a `Bootload` gives it a
  password, a callback server fills it.  When `P` survives these (`Carries`), it survives
  every step (`Everywhere.moves`), crashes included.
-/
import Swapperd.DaemonTokens

namespace Swapperd.Daemon

open CallProgram RetryTask TransitionRuns GoLibrary

variable {D : Config}

/-! ### Every swap -/

/-- `P` holds of every swap, of a stored one with some password. The delayed swapper has
    only swaps that wait to be filled. -/
structure Everywhere (P : SwapBlob → Prop) (s : State) : Prop where
  front : ∀ blob ∈ s.front, P blob
  immediateIn : ∀ req, .request req ∈ s.immediateIn → P req.blob
  immediateMap : Stores (fun req => P req.blob) s.immediateMap
  delayedIn : ∀ blob, .request blob ∈ s.delayedIn → blob.delay = true ∧ P blob
  delayedMap : Stores (fun blob => blob.delay = true ∧ P blob) s.delayedMap
  delayedOut : ∀ blob, .swapRequest blob ∈ s.delayedOut → P blob
  pending : Stores (fun blob => ∃ password, P (blob.withPassword password)) s.pending
  immediateKeys : KeysAgree Immediate.SwapRequest.id s.immediateMap
  delayedKeys : KeysAgree SwapBlob.id s.delayedMap

/-- What `P` of a state and `P'` of the next have to satisfy for the step between them. -/
structure Carries (D : Config) (P P' : SwapBlob → Prop) (s : State) (l : Label) (s' : State) :
    Prop where
  keeps : ∀ blob, P blob → P' blob
  admits : ∀ now blob, Admitted D s s' now blob → P' blob
  resumes : ∀ password R pendingSwaps, l = .swapper (.bootload password) R →
    R.pendingSwaps = .ok pendingSwaps → ∀ blob ∈ pendingSwaps, resumes D password blob = true →
      ∀ posted, P (blob.withPassword posted) → P (blob.withPassword password)
  fills : ∀ reduction, l = .delayed reduction → ∀ c ∈ reduction.calls, ∀ filled,
    Delayed.Call.answer c = .ok filled → c.1.partialSwap.delay = true → ∀ password,
      P (c.1.partialSwap.withPassword password) → P' (filled.withPassword password)

section

variable {P P' : SwapBlob → Prop} {s s' : State}

theorem everywhere_start {pending : PendingTable} {owner : Store SwapID String}
    (hpending : Stores (fun blob => ∃ password, P (blob.withPassword password)) pending) :
    Everywhere P (.start pending owner) where
  front := by simp [State.front, State.start]
  immediateIn := by simp [State.start]
  immediateMap := stores_empty _
  delayedIn := by simp [State.start]
  delayedMap := stores_empty _
  delayedOut := by simp [State.start]
  pending := hpending
  immediateKeys := keysAgree_empty _
  delayedKeys := keysAgree_empty _

theorem Everywhere.mono (hs : Everywhere P s) (h : ∀ blob, P blob → P' blob) :
    Everywhere P' s where
  front blob hblob := h blob (hs.front blob hblob)
  immediateIn req hreq := h _ (hs.immediateIn req hreq)
  immediateMap k req hlookup := h _ (hs.immediateMap k req hlookup)
  delayedIn blob hblob := (hs.delayedIn blob hblob).imp_right (h blob)
  delayedMap k blob hlookup := (hs.delayedMap k blob hlookup).imp_right (h blob)
  delayedOut blob hblob := h blob (hs.delayedOut blob hblob)
  pending k blob hlookup := (hs.pending k blob hlookup).imp fun _ => h _
  immediateKeys := hs.immediateKeys
  delayedKeys := hs.delayedKeys

/-! ### Steps before the swapper -/

/-- A step that changes nothing from the swapper on. -/
theorem Everywhere.of_front (hs : Everywhere P s) (hback : SameBack s s')
    (hfront : ∀ blob ∈ s'.front, P blob) : Everywhere P s' where
  front := hfront
  immediateIn req hreq := hs.immediateIn req (hback.immediateIn ▸ hreq)
  immediateMap k req hlookup := hs.immediateMap k req (hback.immediateMap ▸ hlookup)
  delayedIn blob hblob := hs.delayedIn blob (hback.delayedIn ▸ hblob)
  delayedMap k blob hlookup := hs.delayedMap k blob (hback.delayedMap ▸ hlookup)
  delayedOut blob hblob := hs.delayedOut blob (hback.delayedOut ▸ hblob)
  pending k blob hlookup := hs.pending k blob (hback.pending ▸ hlookup)
  immediateKeys := hback.immediateMap ▸ hs.immediateKeys
  delayedKeys := hback.delayedMap ▸ hs.delayedKeys

theorem front_outputs {l : Label} (h : Moves D s l s') (hl : l = .thread ∨ l = .wallet) :
    s'.immediateOut = s.immediateOut := by
  cases h with
  | swapper | immediate | delayed | crash => simp at hl
  | _ => rfl

theorem Everywhere.front_moves {l : Label} (hs : Everywhere P s) (h : Moves D s l s')
    (hl : l = .thread ∨ l = .wallet) (hcarries : Carries D P P' s l s') : Everywhere P' s' := by
  apply (hs.mono hcarries.keeps).of_front (front_sameBack h hl)
  intro blob hblob
  rcases front_cases h hl with ⟨hsub, -⟩ | ⟨now, new, hadmitted⟩
  · exact hcarries.keeps blob (hs.front blob (hsub.subset hblob))
  · rcases List.mem_cons.mp (hadmitted.front.mem_iff.mp hblob) with rfl | hold
    · exact hcarries.admits now blob hadmitted
    · exact hcarries.keeps blob (hs.front blob hold)

end

/-! ### Steps of the swapper -/

/-- The swap that comes with a message. -/
def SwapperMessage.blob : SwapperMessage → Option SwapBlob
  | .swapRequest blob | .delayed (.swapRequest blob) => some blob
  | _ => none

theorem toSwapper_blob (msg : WalletMessage) : (toSwapper msg).blob = msg.blob := by
  cases msg <;> rfl

section Stored

variable {pending pending' : PendingTable} {R : StorageReplies} {msg : SwapperMessage}

/-- A step of the swapper puts the swap that comes with its message, deletes one, or leaves
    the table as it is. -/
theorem Stored.cases (h : Stored pending R msg pending') :
    (∃ blob, msg.blob = some blob ∧ Puts pending blob R.putSwap pending') ∨
      msg.blob = none ∧
        ((∃ id, Deletes pending id R.deletePendingSwap pending') ∨ pending' = pending) := by
  cases msg with
  | bootload password => exact .inr ⟨rfl, .inr h.1⟩
  | swapRequest blob => exact .inl ⟨blob, rfl, h⟩
  | tick => exact .inr ⟨rfl, .inr h⟩
  | immediate msg =>
      cases msg with
      | deleteSwap id => exact .inr ⟨rfl, .inl ⟨id, h⟩⟩
      | _ => exact .inr ⟨rfl, .inr h⟩
  | delayed msg =>
      cases msg with
      | swapRequest blob => exact .inl ⟨blob, rfl, h⟩
      | deleteSwap id => exact .inr ⟨rfl, .inl ⟨id, h⟩⟩
      | _ => exact .inr ⟨rfl, .inr h⟩

/-- The table gets the swap that comes with the message only. -/
theorem Stored.mem (h : Stored pending R msg pending') {id : SwapID} (hid : id ∈ pending') :
    (∃ blob, msg.blob = some blob ∧ blob.id = id) ∨ id ∈ pending := by
  rcases h.cases with ⟨blob, hblob, hputs⟩ | ⟨-, ⟨id', hdeletes⟩ | rfl⟩
  · rcases hputs.mem id hid with rfl | hold
    · exact .inl ⟨blob, hblob, rfl⟩
    · exact .inr hold
  · exact .inr (hdeletes.sub.2 id hid)
  · exact .inr hid

/-- The swap that comes with a message is in the table when the storage works. -/
theorem Stored.put (h : Stored pending R msg pending') (hworks : R.putSwap = .ok ())
    {blob : SwapBlob} (hblob : msg.blob = some blob) : blob.id ∈ pending' := by
  rcases h.cases with ⟨blob', hblob', hputs⟩ | ⟨hnone, -⟩
  · obtain rfl := Option.some.inj (hblob.symm.trans hblob')
    rcases hputs with rfl | ⟨-, err, hfails⟩
    · exact Finmap.mem_insert.mpr (.inl rfl)
    · cases hfails.symm.trans hworks
  · cases hblob.symm.trans hnone

end Stored

theorem mem_immediateSends {sends : List Send} {msg : TaskMessage Immediate.SwapRequest} :
    msg ∈ immediateSends sends ↔ .immediate msg ∈ sends := by
  unfold immediateSends
  constructor
  · intro h
    obtain ⟨send, hsend, heq⟩ := List.mem_filterMap.mp h
    cases send with
    | immediate msg' => exact (Option.some.inj heq) ▸ hsend
    | delayed msg' => cases heq
  · intro h
    exact List.mem_filterMap.mpr ⟨_, h, rfl⟩

theorem mem_delayedSends {sends : List Send} {msg : TaskMessage SwapBlob} :
    msg ∈ delayedSends sends ↔ .delayed msg ∈ sends := by
  unfold delayedSends
  constructor
  · intro h
    obtain ⟨send, hsend, heq⟩ := List.mem_filterMap.mp h
    cases send with
    | immediate msg' => cases heq
    | delayed msg' => exact (Option.some.inj heq) ▸ hsend
  · intro h
    exact List.mem_filterMap.mpr ⟨_, h, rfl⟩

theorem handOver_immediate {R : StorageReplies} {blob : SwapBlob} {req : Immediate.SwapRequest}
    (h : .immediate (.request req) = handOver R blob) : blob.delay = false ∧ req.blob = blob := by
  unfold handOver at h
  split at h
  · cases h
  · rename_i hdelay
    cases h
    exact ⟨by simpa using hdelay, rfl⟩

/-- A swap is handed to the child that its delay selects. -/
theorem handOver_delayed {R : StorageReplies} {blob blob' : SwapBlob}
    (h : .delayed (.request blob') = handOver R blob) : blob.delay = true := by
  unfold handOver at h
  split at h
  · assumption
  · cases h

/-- The swapper hands over the swap that comes with its message, or resumes pending
    ones. -/
theorem reduce_sends {R : StorageReplies} {msg : SwapperMessage} {send : Send} {blob : SwapBlob}
    (h : send ∈ (reduce D R msg).1) (hblob : send.blob = some blob) :
    send = handOver R blob ∧ (msg.blob = some blob ∨
      ∃ password pendingSwaps, msg = .bootload password ∧ R.pendingSwaps = .ok pendingSwaps ∧
        ∃ pendingSwap ∈ pendingSwaps, resumes D password pendingSwap = true ∧
          blob = pendingSwap.withPassword password) := by
  have hrequest : ∀ blob', send ∈ (handleSwapRequest R blob').1 →
      send = handOver R blob ∧ blob' = blob := by
    intro blob' hmem
    unfold handleSwapRequest at hmem
    split at hmem
    · cases hmem
    · obtain rfl := List.mem_singleton.mp hmem
      rw [handOver_blob] at hblob
      cases hblob
      exact ⟨rfl, rfl⟩
  have hdelete : (handleDeleteSwap R).1 = [] := handleDeleteSwap_sends R
  cases msg with
  | bootload password =>
      change send ∈ (handleBootload D R password).1 at h
      unfold handleBootload at h
      split at h
      · cases h
      · rename_i pendingSwaps hpending
        obtain ⟨pendingSwap, hmem, rfl⟩ := List.mem_map.mp h
        obtain ⟨hpend, hresumes⟩ := List.mem_filter.mp hmem
        rw [handOver_blob] at hblob
        cases hblob
        exact ⟨rfl, .inr ⟨password, pendingSwaps, rfl, hpending, pendingSwap, hpend, hresumes, rfl⟩⟩
  | swapRequest blob' =>
      obtain ⟨hsend, rfl⟩ := hrequest blob' h
      exact ⟨hsend, .inl rfl⟩
  | tick =>
      rcases List.mem_pair.mp h with rfl | rfl <;> cases hblob
  | immediate msg =>
      cases msg with
      | deleteSwap id =>
          change send ∈ (handleDeleteSwap R).1 at h
          rw [hdelete] at h
          cases h
      | receiptUpdate update => cases h
      | error err => cases h
  | delayed msg =>
      cases msg with
      | swapRequest blob' =>
          obtain ⟨hsend, rfl⟩ := hrequest blob' h
          exact ⟨hsend, .inl rfl⟩
      | deleteSwap id =>
          change send ∈ (handleDeleteSwap R).1 at h
          rw [hdelete] at h
          cases h
      | receiptUpdate update => cases h
      | error err => cases h

/-- The swaps that the swapper hands over in a step, in their order. -/
def sentBlobs (D : Config) : Label → List SwapBlob
  | .swapper msg R => (reduce D R msg).1.filterMap Send.blob
  | _ => []

section Sent

variable {s s₁ : State} {msg : SwapperMessage} {R : StorageReplies} {pending : PendingTable}
  {sends : List Send} {id : SwapID}

theorem mem_sentBlobs {blob : SwapBlob} (h : blob ∈ sentBlobs D (.swapper msg R)) :
    ∃ send ∈ (reduce D R msg).1, send.blob = some blob :=
  List.mem_filterMap.mp h

theorem sent_eq_zero_iff :
    sent (reduce D R msg).1 id = 0 ↔
      ∀ blob ∈ sentBlobs D (.swapper msg R), blob.id ≠ id := by
  simp [sent, sentBlobs, List.countP_eq_zero]

/-- The swapper sends what it takes, and what a `Bootload` resumes. -/
theorem sent_le_takes (h : ∀ password, msg = .bootload password →
    ∀ blob ∈ sentBlobs D (.swapper msg R), blob.id ≠ id) :
    sent (reduce D R msg).1 id ≤ msg.takes id := by
  have hdelete : sent (handleDeleteSwap R).1 id = 0 := by
    rw [handleDeleteSwap_sends]
    rfl
  cases msg with
  | bootload password => exact (sent_eq_zero_iff.mpr (h password rfl)).le
  | swapRequest blob => exact sent_handleSwapRequest_le R blob id
  | tick => exact Nat.zero_le _
  | immediate msg =>
      cases msg with
      | deleteSwap id' => exact hdelete.le
      | _ => exact Nat.zero_le _
  | delayed msg =>
      cases msg with
      | swapRequest blob => exact sent_handleSwapRequest_le R blob id
      | deleteSwap id' => exact hdelete.le
      | _ => exact Nat.zero_le _

theorem swapped_atDelayed (h : Receives s msg s₁) (id : SwapID) :
    (s₁.swapped pending msg sends).atDelayed id + s.delayedOut.countP (fills id) =
      s.atDelayed id + (delayedSends sends).countP (TaskMessage.requests SwapBlob.id id) +
        s₁.delayedOut.countP (fills id) := by
  obtain ⟨hsame, -, hdelayedIn, -⟩ := receives_same h
  have hswapped : SameMaps s (s₁.swapped pending msg sends) := { hsame with }
  exact hswapped.atDelayed (congrArg (· ++ _) hdelayedIn) id

theorem swapped_atImmediate (h : Receives s msg s₁) (id : SwapID) :
    (s₁.swapped pending msg sends).atImmediate id = s.atImmediate id +
      (immediateSends sends).countP (TaskMessage.requests Immediate.SwapRequest.id id) := by
  obtain ⟨hsame, himmediateIn, -⟩ := receives_same h
  have hswapped : SameMaps s (s₁.swapped pending msg sends) := { hsame with }
  exact hswapped.atImmediate (congrArg (· ++ _) himmediateIn) id

/-- The children have what they had, without what was taken from them, and what is sent. -/
theorem swapped_child_le (h : Receives s msg s₁) (id : SwapID) :
    (s₁.swapped pending msg sends).atDelayed id + (s₁.swapped pending msg sends).atImmediate id ≤
      s.atDelayed id + s.atImmediate id + sent sends id := by
  have hcount := countP_sends sends id
  have hout := (receives_same h).1.delayedOut.countP_le (p := fills id)
  have hdelayed : (s₁.swapped pending msg sends).atDelayed id + _ = _ := swapped_atDelayed h id
  rw [swapped_atImmediate h]
  omega

end Sent

section

variable {P P' : SwapBlob → Prop} {s s₁ : State} {msg : SwapperMessage}

theorem receives_front (h : Receives s msg s₁) {blob : SwapBlob} (hblob : blob ∈ s₁.front) :
    blob ∈ s.front := by
  cases h with
  | @wallet msg rest h =>
      simp only [State.front, h, List.filterMap_cons, List.mem_append] at hblob ⊢
      grind
  | immediate | delayed => exact hblob

theorem Everywhere.receives (hs : Everywhere P s) (h : Receives s msg s₁) :
    Everywhere P s₁ ∧ ∀ blob, msg.blob = some blob → P blob := by
  cases h with
  | @wallet msg rest h =>
      constructor
      · refine hs.of_front ⟨rfl, rfl, rfl, rfl, rfl, rfl, rfl⟩ ?_
        intro blob hblob
        exact hs.front blob (receives_front (.wallet h) hblob)
      · intro blob hblob
        rw [toSwapper_blob] at hblob
        apply hs.front
        simp [State.front, h, hblob]
  | @immediate msg rest h =>
      refine ⟨{ hs with }, ?_⟩
      intro blob hblob
      cases hblob
  | @delayed msg rest h =>
      have hout : ∀ blob, .swapRequest blob ∈ msg :: rest → P blob := h ▸ hs.delayedOut
      constructor
      · exact { hs with delayedOut := fun blob hblob => hout blob (List.mem_cons_of_mem _ hblob) }
      · intro blob hblob
        cases msg with
        | swapRequest blob' =>
            cases hblob
            exact hout blob List.mem_cons_self
        | _ => cases hblob

theorem Everywhere.stored (hs : Everywhere P s) {R : StorageReplies} {pending : PendingTable}
    (h : Stored s.pending R msg pending) (hmsg : ∀ blob, msg.blob = some blob → P blob) :
    Stores (fun blob => ∃ password, P (blob.withPassword password)) pending := by
  rcases h.cases with ⟨blob, hblob, rfl | ⟨rfl, -⟩⟩ | ⟨-, ⟨id, ⟨rfl, -⟩ | ⟨rfl, -⟩⟩ | rfl⟩
  · exact hs.pending.insert _ ⟨blob.password, by simpa using hmsg blob hblob⟩
  · exact hs.pending
  · exact hs.pending.erase id
  · exact hs.pending
  · exact hs.pending

/-- The swaps that the swapper hands over. -/
theorem Everywhere.sends (hs : Everywhere P s) (h : Receives s msg s₁) {R : StorageReplies}
    {pending : PendingTable} (hstored : Stored s.pending R msg pending) {s' : State}
    (hcarries : Carries D P P' s (.swapper msg R) s') :
    ∀ send ∈ (reduce D R msg).1, ∀ blob, send.blob = some blob →
      send = handOver R blob ∧ P blob := by
  intro send hsend blob hblob
  obtain ⟨hhand, hmem | ⟨password, pendingSwaps, rfl, hpending, pendingSwap, hmem, hresumes,
    rfl⟩⟩ := reduce_sends hsend hblob
  · exact ⟨hhand, (hs.receives h).2 blob hmem⟩
  · obtain ⟨-, hlists⟩ := hstored
    obtain ⟨posted, hposted⟩ := hs.pending _ _ ((hlists pendingSwaps hpending).2 pendingSwap hmem)
    exact ⟨hhand, hcarries.resumes password R pendingSwaps rfl hpending pendingSwap hmem hresumes
      posted hposted⟩

theorem Everywhere.moves_sends (hs : Everywhere P s) {R : StorageReplies} {s' : State}
    (h : Moves D s (.swapper msg R) s') (hcarries : Carries D P P' s (.swapper msg R) s') :
    ∀ send ∈ (reduce D R msg).1, ∀ blob, send.blob = some blob →
      send = handOver R blob ∧ P blob := by
  cases h with
  | swapper hreceives hstored => exact hs.sends hreceives hstored hcarries

theorem Everywhere.swapper_moves (hs : Everywhere P s) (h : Receives s msg s₁)
    {R : StorageReplies} {pending : PendingTable} (hstored : Stored s.pending R msg pending)
    {s' : State} (hcarries : Carries D P P' s (.swapper msg R) s') :
    Everywhere P (s₁.swapped pending msg (reduce D R msg).1) := by
  obtain ⟨hs₁, hmsg⟩ := hs.receives h
  have hsends := hs.sends h hstored hcarries
  refine { hs₁ with immediateIn := ?_, delayedIn := ?_, pending := hs.stored hstored hmsg }
  · intro req hreq
    rcases List.mem_append.mp hreq with hold | hnew
    · exact hs₁.immediateIn req hold
    · exact (hsends _ (mem_immediateSends.mp hnew) _ rfl).2
  · intro blob hblob
    rcases List.mem_append.mp hblob with hold | hnew
    · exact hs₁.delayedIn blob hold
    · obtain ⟨hsend, hP⟩ := hsends _ (mem_delayedSends.mp hnew) _ rfl
      exact ⟨handOver_delayed hsend, hP⟩

end

/-! ### Steps of the children -/

theorem TaskMessage.Starts.eq_request {Req : Type} {msg : TaskMessage Req}
    {input : Input SwapID Req} {req : Req} (h : msg.Starts input) (hinput : input = .request req) :
    msg = .request req := by
  cases msg with
  | tick =>
      obtain ⟨order, rfl⟩ := h
      cases hinput
  | request req' =>
      obtain rfl : input = .request req' := h
      cases hinput
      rfl

section Immediate

variable {P : SwapBlob → Prop} {s : State} {msg : TaskMessage Immediate.SwapRequest}
  {rest : List (TaskMessage Immediate.SwapRequest)} {l : ImmediateReduction}
  {swapMap : Immediate.SwapMap}

/-- The immediate swapper works on the requests that it has or gets. -/
theorem Everywhere.immediate_requests (hs : Everywhere P s) (h : s.immediateIn = msg :: rest)
    (hstart : msg.Starts l.input)
    (hreduces : Reduces unconstrained (Immediate.task D.H) (s.immediateMap, ()) l (swapMap, ())) :
    Stores (fun req => P req.blob) swapMap ∧ ∀ c ∈ l.calls, P c.1.req.blob := by
  have hkeep : ∀ {s₁ : Immediate.SwapMap × Unit} {p : Immediate.Pass Unit Unit}
      {s₂ : Immediate.SwapMap × Unit}, PassStep unconstrained (Immediate.task D.H) s₁ p s₂ →
      P p.req.blob → Stores (fun req => P req.blob) s₁.1 →
        Stores (fun req => P req.blob) s₂.1 := by
    intro s₁ p s₂ hpass hreq hstores
    rcases Immediate.pass_exits hpass with ⟨err, -, hmap, -⟩ | ⟨_, _, _, _, -, -, hmap, -⟩
    · rwa [hmap]
    · rw [hmap]
      split
      · exact hstores.erase _
      · exact hstores.insert _ hreq
  have hinput : ∀ req, l.input = .request req → P req.blob := by
    intro req hreq
    apply hs.immediateIn
    rw [h, hstart.eq_request hreq]
    exact List.mem_cons_self
  obtain ⟨hmap, ts, hts, hevents, -, hreqs⟩ :=
    hreduces.stores Immediate.keepsKeys hkeep hs.immediateKeys hs.immediateMap hinput
  refine ⟨hmap, ?_⟩
  intro c hc
  rw [calls_eq_flatMap hevents] at hc
  obtain ⟨t, ht, hct⟩ := List.mem_flatMap.mp hc
  rw [Immediate.pass_call_req (hts.step_of_mem t ht) c hct]
  exact hreqs t ht

theorem Everywhere.immediate_moves (hs : Everywhere P s) (h : s.immediateIn = msg :: rest)
    (hstart : msg.Starts l.input)
    (hreduces : Reduces unconstrained (Immediate.task D.H) (s.immediateMap, ()) l (swapMap, ())) :
    Everywhere P (s.immediateReduced rest swapMap l) :=
  { hs with
    immediateIn := fun req hreq => hs.immediateIn req (h ▸ List.mem_cons_of_mem _ hreq)
    immediateMap := (hs.immediate_requests h hstart hreduces).1
    immediateKeys := hreduces.keysAgree Immediate.keepsKeys hs.immediateKeys }

end Immediate

section Delayed

variable {P P' : SwapBlob → Prop} {s s' : State} {msg : TaskMessage SwapBlob}
  {rest : List (TaskMessage SwapBlob)} {l : DelayedReduction} {swapMap : Delayed.SwapMap}

/-- The delayed swapper keeps the swaps that wait, emits those that are filled, and polls
    for those that it has or gets. -/
theorem Everywhere.delayed_requests (hs : Everywhere P s) (h : s.delayedIn = msg :: rest)
    (hstart : msg.Starts l.input)
    (hreduces : Reduces unconstrained Delayed.task (s.delayedMap, ()) l (swapMap, ()))
    (hcarries : Carries D P P' s (.delayed l) s') :
    Stores (fun blob => blob.delay = true ∧ P blob) swapMap ∧
      (∀ blob, .swapRequest blob ∈ l.output → P' blob) ∧
      ∀ c ∈ l.calls, ∃ password, P (c.1.partialSwap.withPassword password) := by
  have hkeep : ∀ {s₁ : Delayed.SwapMap × Unit} {p : Delayed.Pass Unit Unit}
      {s₂ : Delayed.SwapMap × Unit}, PassStep unconstrained Delayed.task s₁ p s₂ →
      p.req.delay = true ∧ P p.req → Stores (fun blob => blob.delay = true ∧ P blob) s₁.1 →
      Stores (fun blob => blob.delay = true ∧ P blob) s₂.1 := by
    intro s₁ p s₂ hpass hreq hstores
    obtain ⟨c, -, -, hexit⟩ := Delayed.pass_exits hpass
    generalize s₂.1 = m, p.batch = batch at hexit ⊢
    cases hexit with
    | filled | cancelled => exact hstores.erase _
    | unavailable | failed => exact hstores.insert _ hreq
  have hinput : ∀ blob, l.input = .request blob → blob.delay = true ∧ P blob := by
    intro blob hblob
    apply hs.delayedIn
    rw [h, hstart.eq_request hblob]
    exact List.mem_cons_self
  obtain ⟨hmap, ts, hts, hevents, hout, hreqs⟩ :=
    hreduces.stores Delayed.keepsKeys hkeep hs.delayedKeys hs.delayedMap hinput
  refine ⟨hmap, ?_, ?_⟩
  · intro blob hblob
    rw [hout] at hblob
    obtain ⟨t, ht, hmem⟩ := List.mem_flatMap.mp hblob
    obtain ⟨c, hcalls, hop, hexit⟩ := Delayed.pass_exits (hts.step_of_mem t ht)
    have hcl : c ∈ l.calls := by
      rw [calls_eq_flatMap hevents]
      exact List.mem_flatMap.mpr ⟨t, ht, by simp [hcalls]⟩
    obtain ⟨hdelay, hP⟩ := hreqs t ht
    generalize t.target.1 = m, t.label.batch = batch at hexit hmem
    cases hexit with
    | filled filled hanswer =>
        obtain rfl : blob = filled.withPassword t.label.req.password := by simpa using hmem
        apply hcarries.fills l rfl c hcl filled hanswer
        · rw [hop]
          exact hdelay
        · rw [hop]
          simpa [Delayed.Op.partialSwap] using hP
    | cancelled | unavailable | failed => simp at hmem
  · intro c hc
    rw [calls_eq_flatMap hevents] at hc
    obtain ⟨t, ht, hct⟩ := List.mem_flatMap.mp hc
    obtain ⟨c', hcalls, hop, -⟩ := Delayed.pass_exits (hts.step_of_mem t ht)
    obtain rfl : c = c' := by simpa [hcalls] using hct
    refine ⟨t.label.req.password, ?_⟩
    rw [hop]
    simpa [Delayed.Op.partialSwap] using (hreqs t ht).2

theorem Everywhere.delayed_moves (hs : Everywhere P s) (h : s.delayedIn = msg :: rest)
    (hstart : msg.Starts l.input)
    (hreduces : Reduces unconstrained Delayed.task (s.delayedMap, ()) l (swapMap, ()))
    (hcarries : Carries D P P' s (.delayed l) s') :
    Everywhere P' (s.delayedReduced rest swapMap l) := by
  obtain ⟨hmap, hout, -⟩ := hs.delayed_requests h hstart hreduces hcarries
  have hs' := hs.mono hcarries.keeps
  refine { hs' with
    delayedIn := fun blob hblob => hs'.delayedIn blob (h ▸ List.mem_cons_of_mem _ hblob)
    delayedMap := fun k blob hlookup => (hmap k blob hlookup).imp_right (hcarries.keeps blob)
    delayedOut := ?_
    delayedKeys := hreduces.keysAgree Delayed.keepsKeys hs.delayedKeys }
  intro blob hblob
  rcases List.mem_append.mp hblob with hold | hnew
  · exact hs'.delayedOut blob hold
  · exact hout blob hnew

end Delayed

/-! ### All steps -/

/-- **Step rule.**  What survives admission, resumption and filling survives every
    step. -/
theorem Everywhere.moves {P P' : SwapBlob → Prop} {s s' : State} {l : Label}
    (hs : Everywhere P s) (h : Moves D s l s') (hcarries : Carries D P P' s l s') :
    Everywhere P' s' := by
  cases l with
  | thread => exact hs.front_moves h (.inl rfl) hcarries
  | wallet => exact hs.front_moves h (.inr rfl) hcarries
  | swapper msg R =>
      cases h with
      | swapper h hstored => exact (hs.swapper_moves h hstored hcarries).mono hcarries.keeps
  | immediate l =>
      cases h with
      | immediate h hstart hreduces =>
          exact (hs.immediate_moves h hstart hreduces).mono hcarries.keeps
  | delayed l =>
      cases h with
      | delayed h hstart hreduces => exact hs.delayed_moves h hstart hreduces hcarries
  | crash =>
      cases h with
      | crash => exact everywhere_start (hs.mono hcarries.keeps).pending

/-- A step keeps the owners of all swaps, except that a thread admits a new one. -/
theorem moves_owner {s s' : State} {l : Label} (h : Moves D s l s') :
    s'.owner = s.owner ∨ ∃ now blob, Admitted D s s' now blob := by
  cases l with
  | thread | wallet => exact (front_cases h (by simp)).imp_left And.right
  | swapper msg R =>
      cases h with
      | swapper h _ =>
          left
          cases h <;> rfl
  | immediate l =>
      cases h with
      | immediate => exact .inl rfl
  | delayed l =>
      cases h with
      | delayed => exact .inl rfl
  | crash =>
      cases h with
      | crash => exact .inl rfl

/-- The password that a swap was posted with does not change. -/
theorem moves_lookup {s s' : State} {l : Label} (h : Moves D s l s') {id : SwapID}
    {password : String} (hlookup : s.owner.lookup id = some password) :
    s'.owner.lookup id = some password := by
  rcases moves_owner h with howner | ⟨now, blob, hadmitted⟩
  · rwa [howner]
  · have hne : id ≠ blob.id := by
      rintro rfl
      exact hadmitted.fresh (Finmap.mem_of_lookup_eq_some hlookup)
    rwa [hadmitted.owner, Finmap.lookup_insert_of_ne _ hne]

/-- A posted swap is admitted as it was asked for, up to what admission fills in. -/
theorem postSwapsHandler_patches {verifyBalance : VerifyBalance} {now : Int} {swapID : Bytes32}
    {swapReq blob : SwapBlob}
    (h : postSwapsHandler D verifyBalance now swapID swapReq = .ok blob) :
    blob = { swapReq with
      id := blob.id
      secretHash := blob.secretHash
      timeLock := blob.timeLock
      delayInfo := blob.delayInfo } := by
  unfold postSwapsHandler at h
  split at h
  · obtain ⟨patched, hpatched, hsigned⟩ := except_bind_eq_ok_iff.mp h
    have hsigns := Handler.signDelayInfo_ok hsigned
    rw [(Handler.patchDelayedSwap_ok hpatched).1] at hsigns
    rw [hsigns]
  · have hpatches := (Handler.patchSwap_patches h).1
    rw [hpatches]

end Swapperd.Daemon
