/-
  Swapperd/DaemonTokens.lean
  ==========================
  **One token for each swap.**

  Every swap is a token: it is in the queue of one task, in the map of one child, done,
  or pending and not handed over yet.  No step makes a second token (`Sound`), except
  that of a `Bootload` which resumes a swap that was handed over before: the flag that
  should prevent this is looked at before the message is written, and set after it.
-/
import Swapperd.Daemon
import Swapperd.DelayedRuns

namespace Swapperd.Daemon

open CallProgram RetryTask TransitionRuns GoLibrary

variable {D : Config} {id : SwapID}

/-! ### What a child emits -/

/-- The delayed swapper fills or cancels the swap. -/
def resolves (id : SwapID) : Delayed.Message → Bool
  | .swapRequest blob => blob.id = id
  | .deleteSwap id' => id' = id
  | _ => false

/-- The delayed swapper fills the swap. -/
def fills (id : SwapID) : Delayed.Message → Bool
  | .swapRequest blob => blob.id = id
  | _ => false

theorem immediate_balances {σ N : Type} {step : Behaviour Immediate.Op Immediate.Reply σ N}
    (H : Hashes) (id : SwapID) :
    Balances step (Immediate.task H) id (fun msg => msg = .deleteSwap id) (fun _ => True) := by
  intro s p s' h _
  have hone := h.one_le (k := id)
  rcases Immediate.pass_exits h with ⟨err, -, hmap, hbatch⟩ | ⟨calls, status, err, remove, -, -,
    hmap, hbatch⟩
  · rw [hmap, hbatch]
    simp
  · have hcount : p.batch.countP (fun msg => msg = .deleteSwap id) =
        if remove = true ∧ p.req.id = id then 1 else 0 := by
      rw [hbatch]
      cases remove <;> cases err <;> simp [List.countP_cons]
    rw [hcount, hmap]
    by_cases hid : p.req.id = id
    · have hle := hone hid
      cases remove with
      | true => simpa [held_erase, hid] using hle
      | false => simpa [held_insert, hid] using hle
    · cases remove with
      | true => simp [held_erase, hid, Ne.symm hid]
      | false => simp [held_insert, hid, Ne.symm hid]

theorem delayed_balances {σ N : Type} {step : Behaviour Delayed.Op Delayed.Reply σ N}
    (id : SwapID) : Balances step Delayed.task id (resolves id) Delayed.Call.KeepsID := by
  intro s p s' h hkeeps
  have hone := h.one_le (k := id)
  obtain ⟨c, hcalls, hop, hexit⟩ := Delayed.pass_exits h
  have hc : c.KeepsID := hkeeps c (by simp [hcalls])
  have hcid : c.id = p.req.id := by simp [Delayed.Call.id, hop, Delayed.Op.partialSwap]
  generalize s'.1 = m, p.batch = batch at hexit ⊢
  have hdone : ∀ emitted, (∀ id', resolves id' emitted = decide (p.req.id = id')) →
      held (s.1.erase p.req.id) id + [emitted].countP (resolves id) ≤
        held s.1 id + p.asks Delayed.task id := by
    intro emitted hresolves
    by_cases hid : p.req.id = id
    · simpa [held_erase, hresolves, hid] using hone hid
    · simp [held_erase, hresolves, hid, Ne.symm hid]
  have hstays : held (s.1.insert p.req.id p.req) id ≤ held s.1 id + p.asks Delayed.task id := by
    by_cases hid : p.req.id = id
    · simpa [held_insert, hid] using hone hid
    · simp [held_insert, Ne.symm hid]
  cases hexit with
  | filled filled hanswer =>
      have hid : filled.id = p.req.id := (hc filled hanswer).trans hcid
      rw [hid, List.countP_cons_of_neg (by simp [resolves])]
      exact hdone _ fun id' => by simp [resolves, hid]
  | cancelled hanswer =>
      rw [List.countP_cons_of_neg (by simp [resolves])]
      exact hdone _ fun id' => by simp [resolves]
  | unavailable hanswer => simpa using hstays
  | failed err hanswer hcancelled => simpa [resolves] using hstays

theorem countP_resolves (id : SwapID) (output : List Delayed.Message) :
    output.countP (resolves id) =
      output.countP (fills id) + output.countP (fun msg => msg = .deleteSwap id) := by
  induction output with
  | nil => rfl
  | cons msg output ih =>
      simp only [List.countP_cons, ih]
      cases msg <;> simp [resolves, fills] <;> omega

/-! ### Tokens -/

def Thread.blob : Thread → Option SwapBlob
  | .writeRequest blob => some blob
  | _ => none

def WalletMessage.blob : WalletMessage → Option SwapBlob
  | .swapRequest blob => some blob
  | _ => none

/-- The swaps that have not reached the swapper. -/
def State.front (s : State) : List SwapBlob :=
  s.threads.filterMap Thread.blob ++ s.receiver.filterMap WalletMessage.blob ++
    s.walletIn.filterMap WalletMessage.blob ++ s.swapperIn.filterMap WalletMessage.blob

def TaskMessage.requests {Req : Type} (key : Req → SwapID) (id : SwapID) : TaskMessage Req → Bool
  | .request req => key req = id
  | .tick => false

def Entry.settles (id : SwapID) (e : Entry) : Bool := e = .deleted id || e = .cancelled id

def Entry.acts (id : SwapID) (e : Entry) : Bool := e = .operated id || e = .polled id

namespace State

variable (s : State) (id : SwapID)

/-- Requests for the swap that have not reached the swapper. -/
def upstream : Nat := s.front.countP fun blob => blob.id = id

/-- Whether the swap waits to be resumed. -/
def unhanded : Nat := if id ∈ s.pending ∧ .handed id ∉ s.log then 1 else 0

def atDelayed : Nat :=
  s.delayedIn.countP (TaskMessage.requests SwapBlob.id id) + held s.delayedMap id +
    s.delayedOut.countP (fills id)

def atImmediate : Nat :=
  s.immediateIn.countP (TaskMessage.requests Immediate.SwapRequest.id id) +
    held s.immediateMap id

def settled : Nat := s.log.countP (Entry.settles id)

def filled : Nat := s.log.count (.filled id)

end State

theorem settled_append {s s' : State} {entries : List Entry} (hlog : s'.log = s.log ++ entries)
    (id : SwapID) : s'.settled id = s.settled id + entries.countP (Entry.settles id) := by
  simp [State.settled, hlog]

/-- Nothing is done for a swap that is done with, and no swap is filled twice. -/
structure Single (log : List Entry) : Prop where
  quiet : log.Pairwise fun e e' => ∀ id, e.settles id = true → e'.acts id = false
  once : ∀ id, log.count (.filled id) ≤ 1

/-- At most one token for each swap; a swap that was filled does not come back to the
    delayed swapper. -/
structure Sound (s : State) : Prop where
  token : ∀ id, s.upstream id + s.unhanded id + s.atDelayed id + s.atImmediate id +
    s.settled id ≤ 1
  fill : ∀ id, s.upstream id + s.unhanded id + s.atDelayed id + s.filled id ≤ 1
  handed : ∀ id, 0 < s.atDelayed id + s.atImmediate id + s.settled id + s.filled id →
    .handed id ∈ s.log
  owned : ∀ id, 0 < s.upstream id ∨ id ∈ s.pending ∨ .handed id ∈ s.log → id ∈ s.owner
  immediateKeys : KeysAgree Immediate.SwapRequest.id s.immediateMap
  delayedKeys : KeysAgree SwapBlob.id s.delayedMap
  pendingKeys : KeysAgree SwapBlob.id s.pending
  direct : ∀ blob, .swapRequest blob ∈ s.delayedOut → blob.delay = false
  quiet : s.log.Pairwise fun e e' => ∀ id, e.settles id = true → e'.acts id = false

theorem Sound.single {s : State} (hs : Sound s) : Single s.log where
  quiet := hs.quiet
  once id := by
    have hfill := hs.fill id
    unfold State.filled at hfill
    omega

theorem sound_start {pending : PendingTable} {owner : Store SwapID String}
    (hkeys : KeysAgree SwapBlob.id pending) (howned : ∀ id ∈ pending, id ∈ owner) :
    Sound (.start pending owner) := by
  have hunhanded : ∀ id, (State.start pending owner).unhanded id ≤ 1 := by
    intro id
    unfold State.unhanded
    split <;> omega
  constructor
  · intro id
    simpa [State.upstream, State.front, State.atDelayed, State.atImmediate, State.settled,
      State.start, held_empty] using hunhanded id
  · intro id
    simpa [State.upstream, State.front, State.atDelayed, State.filled, State.start, held_empty]
      using hunhanded id
  · intro id hpos
    simp [State.atDelayed, State.atImmediate, State.settled, State.filled, State.start,
      held_empty] at hpos
  · intro id hid
    exact howned id (by simpa [State.upstream, State.front, State.start] using hid)
  · exact keysAgree_empty _
  · exact keysAgree_empty _
  · exact hkeys
  · simp [State.start]
  · simp [State.start]

/-! ### Steps before the swapper -/

/-- The states agree from the swapper on. -/
structure SameBack (s s' : State) : Prop where
  immediateIn : s'.immediateIn = s.immediateIn
  immediateMap : s'.immediateMap = s.immediateMap
  delayedIn : s'.delayedIn = s.delayedIn
  delayedMap : s'.delayedMap = s.delayedMap
  delayedOut : s'.delayedOut = s.delayedOut
  pending : s'.pending = s.pending
  log : s'.log = s.log

theorem SameBack.atDelayed {s s' : State} (hback : SameBack s s') (id : SwapID) :
    s'.atDelayed id = s.atDelayed id := by
  simp only [State.atDelayed, hback.delayedIn, hback.delayedMap, hback.delayedOut]

theorem SameBack.atImmediate {s s' : State} (hback : SameBack s s') (id : SwapID) :
    s'.atImmediate id = s.atImmediate id := by
  simp only [State.atImmediate, hback.immediateIn, hback.immediateMap]

theorem Sound.of_front {s s' : State} (hs : Sound s) (hback : SameBack s s')
    (howner : ∀ id ∈ s.owner, id ∈ s'.owner)
    (hup : ∀ id, s'.upstream id ≤ s.upstream id ∨
      id ∉ s.owner ∧ id ∈ s'.owner ∧ s'.upstream id ≤ 1) : Sound s' := by
  have hunhanded : ∀ id, s'.unhanded id = s.unhanded id := fun id => by
    simp only [State.unhanded, hback.pending, hback.log]
  have hdelayed := hback.atDelayed
  have himmediate := hback.atImmediate
  have hsettled : ∀ id, s'.settled id = s.settled id := fun id => by
    simp only [State.settled, hback.log]
  have hfilled : ∀ id, s'.filled id = s.filled id := fun id => by
    simp only [State.filled, hback.log]
  -- a swap that has no owner yet has no token either
  have hnone : ∀ id, id ∉ s.owner → s.upstream id + s.unhanded id + s.atDelayed id +
      s.atImmediate id + s.settled id + s.filled id = 0 := by
    intro id hid
    have hnot := mt (hs.owned id) hid
    have hhanded := mt (hs.handed id) (fun h => hnot (.inr (.inr h)))
    have hzero : s.unhanded id = 0 := by
      unfold State.unhanded
      rw [if_neg]
      rintro ⟨hpending, -⟩
      exact hnot (.inr (.inl hpending))
    have hupstream : s.upstream id = 0 := by
      by_contra hne
      exact hnot (.inl (Nat.pos_of_ne_zero hne))
    omega
  constructor
  · intro id
    have htoken := hs.token id
    rw [hunhanded, hdelayed, himmediate, hsettled]
    rcases hup id with hle | ⟨hid, -, hle⟩
    · omega
    · have hzero := hnone id hid
      omega
  · intro id
    have hfill := hs.fill id
    rw [hunhanded, hdelayed, hfilled]
    rcases hup id with hle | ⟨hid, -, hle⟩
    · omega
    · have hzero := hnone id hid
      omega
  · intro id hpos
    rw [hdelayed, himmediate, hsettled, hfilled] at hpos
    rw [hback.log]
    exact hs.handed id hpos
  · intro id hid
    rw [hback.pending, hback.log] at hid
    rcases hup id with hle | ⟨-, hmem, -⟩
    · apply howner
      apply hs.owned
      rcases hid with hpos | hrest
      · exact .inl (by omega)
      · exact .inr hrest
    · exact hmem
  · rw [hback.immediateMap]
    exact hs.immediateKeys
  · rw [hback.delayedMap]
    exact hs.delayedKeys
  · rw [hback.pending]
    exact hs.pendingKeys
  · rw [hback.delayedOut]
    exact hs.direct
  · rw [hback.log]
    exact hs.quiet

section Front

variable {s s' : State} {l : Label}

theorem front_sameBack (h : Moves D s l s') (hl : l = .thread ∨ l = .wallet) : SameBack s s' := by
  cases h with
  | swapper | immediate | delayed | crash => simp at hl
  | _ => exact ⟨rfl, rfl, rfl, rfl, rfl, rfl, rfl⟩

/-- A thread admits the swap that it was asked to post. -/
structure Admitted (D : Config) (s s' : State) (now : Int) (blob : SwapBlob) : Prop where
  posted : ∃ verifyBalance swapID swapReq, .handle (.postSwaps swapReq) ∈ s.threads ∧
    postSwapsHandler D verifyBalance now swapID swapReq = .ok blob
  fresh : blob.id ∉ s.owner
  front : s'.front.Perm (blob :: s.front)
  owner : s'.owner = s.owner.insert blob.id blob.password

theorem patch_admitted {pre post : List Thread} {swapReq blob : SwapBlob}
    {verifyBalance : VerifyBalance} {now : Int} {swapID : Bytes32}
    (h : s.threads = pre ++ .handle (.postSwaps swapReq) :: post)
    (hblob : postSwapsHandler D verifyBalance now swapID swapReq = .ok blob)
    (hfresh : blob.id ∉ s.owner) :
    Admitted D s
      { s with threads := pre ++ .writeRequest blob :: post,
               owner := s.owner.insert blob.id blob.password } now blob where
  posted := ⟨verifyBalance, swapID, swapReq, by simp [h], hblob⟩
  fresh := hfresh
  front := by
    refine List.perm_iff_count.mpr fun blob => ?_
    simp only [State.front, h, List.filterMap_append, List.filterMap_cons, Thread.blob,
      List.count_append, List.count_cons]
    omega
  owner := rfl

/-- Threads, receiver and wallet pass swaps on, or drop them, except that a thread admits
    a new one. -/
theorem front_cases (h : Moves D s l s') (hl : l = .thread ∨ l = .wallet) :
    s'.front.Subperm s.front ∧ s'.owner = s.owner ∨ ∃ now blob, Admitted D s s' now blob := by
  cases h with
  | http req | tick =>
      refine .inl ⟨List.Perm.subperm (.of_eq ?_), rfl⟩
      simp [State.front, List.filterMap_cons, Thread.blob, WalletMessage.blob]
  | bootloaded h | notBootloaded h | bootloadFailed h | setBootloaded h | writeBootload h =>
      refine .inl ⟨List.Perm.subperm (.of_eq ?_), rfl⟩
      simp [State.front, h, List.filterMap_cons, Thread.blob, WalletMessage.blob]
  | patch h hblob hfresh => exact .inr ⟨_, _, patch_admitted h hblob hfresh⟩
  | writeRequest h =>
      refine .inl ⟨(List.perm_iff_count.mpr fun blob => ?_).subperm, rfl⟩
      simp only [State.front, h, List.filterMap_append, List.filterMap_cons, Thread.blob,
        WalletMessage.blob, List.filterMap_nil, List.count_append, List.count_cons, List.count_nil]
      omega
  | @done pre post t h =>
      refine .inl ⟨List.Sublist.subperm ?_, rfl⟩
      simp only [State.front, h, List.append_assoc]
      apply List.Sublist.append_right
      exact (List.Sublist.append_left (List.sublist_cons_self t post) pre).filterMap _
  | accept h | wallet h =>
      refine .inl ⟨(List.perm_iff_count.mpr fun blob => ?_).subperm, rfl⟩
      rename_i msg rest
      cases hmsg : msg.blob with
      | none => simp [State.front, h, hmsg]
      | some blob' =>
          simp only [State.front, h, hmsg, List.filterMap_append, List.filterMap_cons,
            List.filterMap_nil, List.count_append, List.count_cons, List.count_nil]
          omega
  | swapper | immediate | delayed | crash => simp at hl

theorem front_sound (hs : Sound s) (h : Moves D s l s') (hl : l = .thread ∨ l = .wallet) :
    Sound s' := by
  have hback := front_sameBack h hl
  rcases front_cases h hl with ⟨hsub, howner⟩ | ⟨_, blob, -, hfresh, hperm, howner⟩
  · refine hs.of_front hback (fun id hid => howner ▸ hid) fun id => .inl ?_
    exact hsub.countP_le _
  · refine hs.of_front hback (fun id hid => by simp [howner, hid]) fun id => ?_
    have hcount : s'.upstream id = s.upstream id + if blob.id = id then 1 else 0 := by
      simp [State.upstream, hperm.countP_eq, List.countP_cons]
    by_cases hid : blob.id = id
    · right
      rw [← hid]
      have hzero : s.upstream blob.id = 0 := by
        by_contra hne
        exact hfresh (hs.owned blob.id (.inl (Nat.pos_of_ne_zero hne)))
      refine ⟨hfresh, by simp [howner], ?_⟩
      rw [← hid, if_pos rfl] at hcount
      omega
    · left
      rw [hcount, if_neg hid]
      omega

end Front

/-! ### Steps of the swapper -/

/-- The swaps handed over. -/
def sent (sends : List Send) (id : SwapID) : Nat :=
  (sends.filterMap Send.blob).countP fun blob => blob.id = id

theorem countP_sends (sends : List Send) (id : SwapID) :
    (immediateSends sends).countP (TaskMessage.requests Immediate.SwapRequest.id id) +
      (delayedSends sends).countP (TaskMessage.requests SwapBlob.id id) = sent sends id := by
  unfold sent immediateSends delayedSends
  induction sends with
  | nil => rfl
  | cons send sends ih =>
      cases send with
      | immediate msg =>
          cases msg with
          | tick => simpa [List.filterMap_cons, TaskMessage.requests, Send.blob] using ih
          | request req =>
              simp only [List.filterMap_cons, List.countP_cons, TaskMessage.requests, Send.blob,
                ← ih]
              by_cases hid : req.blob.id = id <;> simp [hid]
              omega
      | delayed msg =>
          cases msg with
          | tick => simpa [List.filterMap_cons, TaskMessage.requests, Send.blob] using ih
          | request req =>
              simp only [List.filterMap_cons, List.countP_cons, TaskMessage.requests, Send.blob,
                ← ih]
              by_cases hid : req.id = id <;> simp [hid]
              omega

theorem handOver_blob (R : StorageReplies) (blob : SwapBlob) :
    (handOver R blob).blob = some blob := by
  unfold handOver
  split <;> rfl

/-- The request that the swapper takes with a message. -/
def SwapperMessage.takes (id : SwapID) : SwapperMessage → Nat
  | .swapRequest blob | .delayed (.swapRequest blob) => if blob.id = id then 1 else 0
  | _ => 0

theorem receives_takes {s s₁ : State} {msg : SwapperMessage} (h : Receives s msg s₁)
    (id : SwapID) :
    s.upstream id + s.delayedOut.countP (fills id) =
      s₁.upstream id + s₁.delayedOut.countP (fills id) + msg.takes id := by
  cases h with
  | @wallet msg rest h =>
      simp only [State.upstream, State.front, h, List.filterMap_cons, List.countP_append]
      cases msg with
      | swapRequest blob =>
          simp [toSwapper, SwapperMessage.takes, WalletMessage.blob, List.countP_cons]
          omega
      | bootload password => simp [toSwapper, SwapperMessage.takes, WalletMessage.blob]
      | tick => simp [toSwapper, SwapperMessage.takes, WalletMessage.blob]
  | @immediate msg rest h => simp [State.upstream, State.front, SwapperMessage.takes]
  | @delayed msg rest h =>
      simp only [State.upstream, State.front, h, List.countP_cons]
      cases msg with
      | swapRequest blob =>
          simp [SwapperMessage.takes, fills]
          omega
      | _ => simp [SwapperMessage.takes, fills]

/-- What a step of the swapper leaves as it is. -/
structure SameMaps (s s' : State) : Prop where
  immediateMap : s'.immediateMap = s.immediateMap
  delayedMap : s'.delayedMap = s.delayedMap
  owner : s'.owner = s.owner
  delayedOut : s'.delayedOut.Sublist s.delayedOut
  upstream : ∀ id, s'.upstream id ≤ s.upstream id

/-- The immediate swapper has what it had, and what is sent to it. -/
theorem SameMaps.atImmediate {s s' : State} (hsame : SameMaps s s') {sends : List Send}
    (hin : s'.immediateIn = s.immediateIn ++ immediateSends sends) (id : SwapID) :
    s'.atImmediate id = s.atImmediate id +
      (immediateSends sends).countP (TaskMessage.requests Immediate.SwapRequest.id id) := by
  simp only [State.atImmediate, hin, hsame.immediateMap, List.countP_append]
  omega

/-- So has the delayed swapper, without the filled swaps that are taken from it. -/
theorem SameMaps.atDelayed {s s' : State} (hsame : SameMaps s s') {sends : List Send}
    (hin : s'.delayedIn = s.delayedIn ++ delayedSends sends) (id : SwapID) :
    s'.atDelayed id + s.delayedOut.countP (fills id) = s.atDelayed id +
      (delayedSends sends).countP (TaskMessage.requests SwapBlob.id id) +
      s'.delayedOut.countP (fills id) := by
  simp only [State.atDelayed, hin, hsame.delayedMap, List.countP_append]
  omega

theorem receives_same {s s₁ : State} {msg : SwapperMessage} (h : Receives s msg s₁) :
    SameMaps s s₁ ∧ s₁.immediateIn = s.immediateIn ∧ s₁.delayedIn = s.delayedIn ∧
      s₁.log = s.log := by
  cases h with
  | @wallet msg rest h =>
      refine ⟨⟨rfl, rfl, rfl, .refl _, fun id => ?_⟩, rfl, rfl, rfl⟩
      apply List.Sublist.countP_le
      simp only [State.front, h]
      exact List.Sublist.append_left ((List.sublist_cons_self msg rest).filterMap _) _
  | immediate h => exact ⟨⟨rfl, rfl, rfl, .refl _, fun id => le_refl _⟩, rfl, rfl, rfl⟩
  | delayed h =>
      refine ⟨⟨rfl, rfl, rfl, ?_, fun id => le_refl _⟩, rfl, rfl, rfl⟩
      rw [h]
      exact List.sublist_cons_self _ _

/-- A step that hands swaps over keeps the tokens when what it sends is what it takes or
    resumes. -/
theorem Sound.of_sends {s s' : State} (hs : Sound s) (hsame : SameMaps s s') {sends : List Send}
    {entries : List Entry}
    (himmediateIn : s'.immediateIn = s.immediateIn ++ immediateSends sends)
    (hdelayedIn : s'.delayedIn = s.delayedIn ++ delayedSends sends)
    (hlog : s'.log = s.log ++ entries)
    (hentries : ∀ e ∈ entries, ∃ id, 0 < sent sends id ∧ (e = .handed id ∨ e = .filled id))
    (hhanded : ∀ id, 0 < sent sends id → .handed id ∈ s'.log)
    (hkeys : KeysAgree SwapBlob.id s'.pending) (howned : ∀ id ∈ s'.pending, id ∈ s.owner)
    (hsent : ∀ id, 0 < sent sends id → id ∈ s.owner)
    (htoken : ∀ id, s'.upstream id + s'.delayedOut.countP (fills id) + s'.unhanded id +
      sent sends id ≤ s.upstream id + s.delayedOut.countP (fills id) + s.unhanded id)
    (hfill : ∀ id, s'.upstream id + s'.delayedOut.countP (fills id) + s'.unhanded id +
        (delayedSends sends).countP (TaskMessage.requests SwapBlob.id id) +
        entries.count (.filled id) ≤
      s.upstream id + s.delayedOut.countP (fills id) + s.unhanded id) : Sound s' := by
  have hsettled : ∀ id, s'.settled id = s.settled id := by
    intro id
    have hnone : entries.countP (Entry.settles id) = 0 := by
      rw [List.countP_eq_zero]
      intro e he
      obtain ⟨id', -, rfl | rfl⟩ := hentries e he <;> simp [Entry.settles]
    rw [settled_append hlog, hnone, Nat.add_zero]
  have hfilled : ∀ id, s'.filled id = s.filled id + entries.count (.filled id) := by
    intro id
    simp [State.filled, hlog]
  have himmediate := hsame.atImmediate himmediateIn
  have hdelayed := hsame.atDelayed hdelayedIn
  constructor
  · intro id
    have hold := hs.token id
    have hnew := htoken id
    have hcount := countP_sends sends id
    rw [hsettled, himmediate]
    have hd := hdelayed id
    omega
  · intro id
    have hold := hs.fill id
    have hnew := hfill id
    have hd := hdelayed id
    rw [hfilled]
    omega
  · intro id hpos
    by_cases hsends : 0 < sent sends id
    · exact hhanded id hsends
    · have hcount := countP_sends sends id
      have hd := hdelayed id
      have hnew := htoken id
      have hzero : entries.count (.filled id) = 0 := by
        rw [List.count_eq_zero]
        intro hmem
        obtain ⟨id', hid', heq | heq⟩ := hentries _ hmem
        · cases heq
        · cases heq
          exact hsends hid'
      rw [hsettled, hfilled, himmediate, hzero] at hpos
      rw [hlog]
      apply List.mem_append_left
      apply hs.handed
      have hout := hsame.delayedOut.countP_le (p := fills id)
      omega
  · intro id hid
    rw [hsame.owner]
    rcases hid with hpos | hpending | hmem
    · have hle := hsame.upstream id
      exact hs.owned id (.inl (by omega))
    · exact howned id hpending
    · rw [hlog, List.mem_append] at hmem
      rcases hmem with hmem | hmem
      · exact hs.owned id (.inr (.inr hmem))
      · obtain ⟨id', hid', heq | heq⟩ := hentries _ hmem
        · cases heq
          exact hsent id hid'
        · cases heq
  · rw [hsame.immediateMap]
    exact hs.immediateKeys
  · rw [hsame.delayedMap]
    exact hs.delayedKeys
  · exact hkeys
  · intro blob hblob
    exact hs.direct blob (hsame.delayedOut.subset hblob)
  · rw [hlog]
    refine List.pairwise_append.mpr ⟨hs.quiet, ?_, ?_⟩
    · refine List.pairwise_of_forall_mem_list fun e he e' he' id => ?_
      obtain ⟨id', -, rfl | rfl⟩ := hentries e he <;> simp [Entry.settles]
    · intro e _ e' he' id _
      obtain ⟨id', -, rfl | rfl⟩ := hentries e' he' <;> simp [Entry.acts]

theorem entry_cases (msg : SwapperMessage) :
    (∀ id, msg.entry id = .filled id) ∨ ∀ id, msg.entry id = .handed id := by
  cases msg with
  | delayed msg => exact .inl fun id => rfl
  | _ => exact .inr fun id => rfl

theorem mem_swapperEntries {msg : SwapperMessage} {sends : List Send} :
    ∀ e ∈ swapperEntries msg sends,
      ∃ id, 0 < sent sends id ∧ (e = .handed id ∨ e = .filled id) := by
  intro e he
  obtain ⟨blob, hblob, rfl⟩ := List.mem_map.mp he
  refine ⟨blob.id, List.countP_pos_iff.mpr ⟨blob, hblob, by simp⟩, ?_⟩
  rcases entry_cases msg with hfilled | hhanded
  · exact .inr (hfilled _)
  · exact .inl (hhanded _)

theorem entry_mem_entries {msg : SwapperMessage} {sends : List Send} {id : SwapID}
    (hsent : 0 < sent sends id) : msg.entry id ∈ swapperEntries msg sends := by
  obtain ⟨blob, hblob, hid⟩ := List.countP_pos_iff.mp hsent
  have hid : blob.id = id := by simpa using hid
  exact List.mem_map.mpr ⟨blob, hblob, by rw [hid]⟩

theorem count_filled_le (msg : SwapperMessage) (sends : List Send) (id : SwapID) :
    (swapperEntries msg sends).count (.filled id) ≤ sent sends id := by
  unfold swapperEntries sent
  rw [List.count_eq_countP, List.countP_map]
  apply List.countP_mono_left
  intro blob _ hentry
  rcases entry_cases msg with hfilled | hhanded
  · simpa [hfilled] using hentry
  · simp [hhanded] at hentry

theorem count_filled_eq_zero {msg : SwapperMessage} (hmsg : ∀ id, msg.entry id = .handed id)
    (sends : List Send) (id : SwapID) : (swapperEntries msg sends).count (.filled id) = 0 := by
  rw [List.count_eq_zero]
  intro hmem
  obtain ⟨blob, -, heq⟩ := List.mem_map.mp hmem
  rw [hmsg] at heq
  cases heq

/-- A step of the swapper keeps the tokens when, swap by swap, it sends what it takes or
    resumes. -/
theorem Sound.of_receives {s s₁ : State} {msg : SwapperMessage} {sends : List Send}
    {pending : PendingTable} (hs : Sound s) (h : Receives s msg s₁)
    (hkeys : KeysAgree SwapBlob.id pending) (howned : ∀ id ∈ pending, id ∈ s.owner)
    (hsent : ∀ id, 0 < sent sends id → id ∈ s.owner)
    (hhanded : ∀ id, 0 < sent sends id → .handed id ∈ s.log ∨ msg.entry id = .handed id)
    (htoken : ∀ id, (s₁.swapped pending msg sends).unhanded id + sent sends id ≤
      s.unhanded id + msg.takes id)
    (hfill : ∀ id, (s₁.swapped pending msg sends).unhanded id +
        (delayedSends sends).countP (TaskMessage.requests SwapBlob.id id) +
        (swapperEntries msg sends).count (.filled id) ≤ s.unhanded id + msg.takes id) :
    Sound (s₁.swapped pending msg sends) := by
  obtain ⟨hsame, himmediateIn, hdelayedIn, hlog⟩ := receives_same h
  have hlog' : (s₁.swapped pending msg sends).log = s.log ++ swapperEntries msg sends := by
    simp [State.swapped, hlog]
  have hup : ∀ id, (s₁.swapped pending msg sends).upstream id = s₁.upstream id := fun _ => rfl
  have hout : (s₁.swapped pending msg sends).delayedOut = s₁.delayedOut := rfl
  have hin : (s₁.swapped pending msg sends).immediateIn =
      s.immediateIn ++ immediateSends sends := by
    simp [State.swapped, himmediateIn]
  have hdin : (s₁.swapped pending msg sends).delayedIn = s.delayedIn ++ delayedSends sends := by
    simp [State.swapped, hdelayedIn]
  refine hs.of_sends { hsame with } hin hdin hlog' mem_swapperEntries ?_ hkeys howned hsent ?_ ?_
  · intro id hpos
    rw [hlog', List.mem_append]
    rcases hhanded id hpos with hmem | hentry
    · exact .inl hmem
    · exact .inr (hentry ▸ entry_mem_entries hpos)
  · intro id
    have htakes := receives_takes h id
    have hle := htoken id
    rw [hup, hout]
    omega
  · intro id
    have htakes := receives_takes h id
    have hle := hfill id
    rw [hup, hout]
    omega

section Unhanded

variable {s s₁ : State} {msg : SwapperMessage} {sends : List Send} {pending : PendingTable}

theorem unhanded_le_one (s : State) (id : SwapID) : s.unhanded id ≤ 1 := by
  unfold State.unhanded
  split <;> omega

theorem unhanded_eq_one {s : State} (hpending : id ∈ s.pending) (hhanded : .handed id ∉ s.log) :
    s.unhanded id = 1 :=
  if_pos ⟨hpending, hhanded⟩

theorem unhanded_swapped_le (h : Receives s msg s₁) (hpending : id ∈ pending → id ∈ s.pending) :
    (s₁.swapped pending msg sends).unhanded id ≤ s.unhanded id := by
  obtain ⟨-, -, -, hlog⟩ := receives_same h
  unfold State.unhanded
  split
  · rename_i hnew
    obtain ⟨hmem, hnot⟩ := hnew
    have hold : .handed id ∉ s.log := fun h => hnot (List.mem_append_left _ (hlog ▸ h))
    rw [if_pos ⟨hpending hmem, hold⟩]
  · omega

theorem unhanded_swapped_eq_zero (h : Receives s msg s₁)
    (hhanded : .handed id ∈ s.log ∨ 0 < sent sends id ∧ msg.entry id = .handed id) :
    (s₁.swapped pending msg sends).unhanded id = 0 := by
  obtain ⟨-, -, -, hlog⟩ := receives_same h
  refine if_neg fun hnew => hnew.2 ?_
  apply List.mem_append.mpr
  rcases hhanded with hold | ⟨hsent, hentry⟩
  · exact .inl (hlog ▸ hold)
  · exact .inr (hentry ▸ entry_mem_entries hsent)

end Unhanded

theorem sent_nil (id : SwapID) : sent [] id = 0 := rfl

theorem sent_handOver (R : StorageReplies) (blob : SwapBlob) (id : SwapID) :
    sent [handOver R blob] id = if blob.id = id then 1 else 0 := by
  simp [sent, handOver_blob, List.countP_cons]

theorem sent_handleSwapRequest_le (R : StorageReplies) (blob : SwapBlob) (id : SwapID) :
    sent (handleSwapRequest R blob).1 id ≤ if blob.id = id then 1 else 0 := by
  unfold handleSwapRequest
  split
  · simp [sent_nil]
  · exact (sent_handOver R blob id).le

theorem delayedSends_le_sent (sends : List Send) (id : SwapID) :
    (delayedSends sends).countP (TaskMessage.requests SwapBlob.id id) ≤ sent sends id := by
  have hcount := countP_sends sends id
  omega

theorem Puts.mem {pending pending' : PendingTable} {blob : SwapBlob} {result : Except GoError Unit}
    (h : Puts pending blob result pending') (id : SwapID) :
    id ∈ pending' → id = blob.id ∨ id ∈ pending := by
  rcases h with rfl | ⟨rfl, -⟩
  · simp
  · exact .inr

theorem Puts.keysAgree {pending pending' : PendingTable} {blob : SwapBlob}
    {result : Except GoError Unit} (h : Puts pending blob result pending')
    (hkeys : KeysAgree SwapBlob.id pending) : KeysAgree SwapBlob.id pending' := by
  rcases h with rfl | ⟨rfl, -⟩
  · exact hkeys.insert (blob.withPassword "")
  · exact hkeys

/-- A request for a swap is taken, its swap stored and, if that works, handed over. -/
theorem request_sound {s s₁ : State} {msg : SwapperMessage} {blob : SwapBlob} {R : StorageReplies}
    {pending : PendingTable} (hs : Sound s) (h : Receives s msg s₁)
    (hputs : Puts s.pending blob R.putSwap pending) (howner : blob.id ∈ s.owner)
    (htakes : ∀ id, msg.takes id = if blob.id = id then 1 else 0)
    (hmsg : (∀ id, msg.entry id = .handed id) ∨ .handed blob.id ∈ s.log ∧ blob.delay = false) :
    Sound (s₁.swapped pending msg (handleSwapRequest R blob).1) := by
  have hsends := sent_handleSwapRequest_le R blob
  have hsent : ∀ id, 0 < sent (handleSwapRequest R blob).1 id → id = blob.id := by
    intro id hpos
    have hle := hsends id
    by_contra hne
    rw [if_neg (Ne.symm hne)] at hle
    omega
  have hbound : ∀ id, (s₁.swapped pending msg (handleSwapRequest R blob).1).unhanded id +
      sent (handleSwapRequest R blob).1 id ≤ s.unhanded id + msg.takes id := by
    intro id
    rw [htakes]
    by_cases hid : blob.id = id
    · have hle := hsends id
      rw [if_pos hid] at hle ⊢
      by_cases hpos : 0 < sent (handleSwapRequest R blob).1 id
      · have hzero : (s₁.swapped pending msg (handleSwapRequest R blob).1).unhanded id = 0 := by
          apply unhanded_swapped_eq_zero h
          rcases hmsg with hentry | ⟨hhanded, -⟩
          · exact .inr ⟨hpos, hentry id⟩
          · exact .inl (hid ▸ hhanded)
        omega
      · have hone := unhanded_le_one (s₁.swapped pending msg (handleSwapRequest R blob).1) id
        omega
    · have hle := hsends id
      rw [if_neg hid] at hle ⊢
      have hold : (s₁.swapped pending msg (handleSwapRequest R blob).1).unhanded id ≤
          s.unhanded id :=
        unhanded_swapped_le h fun hmem =>
          (hputs.mem id hmem).resolve_left (Ne.symm hid)
      omega
  refine hs.of_receives h (hputs.keysAgree hs.pendingKeys) ?_ ?_ ?_ hbound ?_
  · intro id hmem
    rcases hputs.mem id hmem with rfl | hold
    · exact howner
    · exact hs.owned id (.inr (.inl hold))
  · intro id hpos
    rw [hsent id hpos]
    exact howner
  · intro id hpos
    rcases hmsg with hentry | ⟨hhanded, -⟩
    · exact .inr (hentry id)
    · exact .inl (hsent id hpos ▸ hhanded)
  · intro id
    have hle := hbound id
    rcases hmsg with hentry | ⟨-, hdelay⟩
    · rw [count_filled_eq_zero hentry]
      have hsome := delayedSends_le_sent (handleSwapRequest R blob).1 id
      omega
    · have hnone : delayedSends (handleSwapRequest R blob).1 = [] := by
        unfold handleSwapRequest
        split
        · rfl
        · simp [delayedSends, handOver, hdelay]
      rw [hnone]
      have hsome := count_filled_le msg (handleSwapRequest R blob).1 id
      simp only [List.countP_nil]
      omega

/-- A `Bootload` resumes no swap that was handed over before. -/
def ResumesUnhanded (D : Config) (s : State) : Label → Prop
  | .swapper (.bootload password) R =>
      ∀ pendingSwaps, R.pendingSwaps = .ok pendingSwaps →
        ∀ blob ∈ pendingSwaps, resumes D password blob = true → .handed blob.id ∉ s.log
  | _ => True

theorem sent_resumed (R : StorageReplies) (password : String) (resumed : List SwapBlob)
    (id : SwapID) :
    sent (resumed.map fun pendingSwap => handOver R (pendingSwap.withPassword password)) id =
      resumed.countP fun blob => blob.id = id := by
  unfold sent
  induction resumed with
  | nil => rfl
  | cons blob resumed ih =>
      simp only [List.map_cons, List.filterMap_cons, handOver_blob, List.countP_cons, ih,
        SwapBlob.withPassword_id]
      by_cases hid : blob.id = id <;> simp [hid]

theorem countP_id_le_one {blobs : List SwapBlob} (hnodup : (blobs.map SwapBlob.id).Nodup)
    (id : SwapID) : (blobs.countP fun blob => blob.id = id) ≤ 1 := by
  have hcount := List.nodup_iff_count_le_one.mp hnodup id
  rw [List.count_eq_countP, List.countP_map] at hcount
  refine le_trans (List.countP_mono_left fun blob _ hid => ?_) hcount
  simpa using hid

theorem bootload_sound {s s₁ : State} {password : String} {R : StorageReplies} (hs : Sound s)
    (h : Receives s (.bootload password) s₁) (hlists : Lists s.pending R.pendingSwaps)
    (hfresh : ∀ pendingSwaps, R.pendingSwaps = .ok pendingSwaps → ∀ blob ∈ pendingSwaps,
      resumes D password blob = true → .handed blob.id ∉ s.log) :
    Sound (s₁.swapped s.pending (.bootload password) (handleBootload D R password).1) := by
  -- every swap that is sent waits to be resumed
  have hsent : ∀ id, sent (handleBootload D R password).1 id ≤ 1 ∧
      (0 < sent (handleBootload D R password).1 id → id ∈ s.pending ∧ .handed id ∉ s.log) := by
    intro id
    unfold handleBootload
    split
    · simp [sent_nil]
    · rename_i pendingSwaps hpending
      obtain ⟨hnodup, hlookup⟩ := hlists pendingSwaps hpending
      rw [sent_resumed]
      constructor
      · exact le_trans (List.filter_sublist.countP_le) (countP_id_le_one hnodup id)
      · intro hpos
        obtain ⟨blob, hblob, hid⟩ := List.countP_pos_iff.mp hpos
        obtain ⟨hmem, hresumes⟩ := List.mem_filter.mp hblob
        have hid : blob.id = id := by simpa using hid
        rw [← hid]
        exact ⟨Finmap.mem_of_lookup_eq_some (hlookup blob hmem),
          hfresh pendingSwaps hpending blob hmem hresumes⟩
  have hbound : ∀ id, (s₁.swapped s.pending (.bootload password)
      (handleBootload D R password).1).unhanded id + sent (handleBootload D R password).1 id ≤
        s.unhanded id := by
    intro id
    by_cases hpos : 0 < sent (handleBootload D R password).1 id
    · obtain ⟨hpending, hhanded⟩ := (hsent id).2 hpos
      have hone := unhanded_eq_one hpending hhanded
      have hzero : (s₁.swapped s.pending (.bootload password)
          (handleBootload D R password).1).unhanded id = 0 :=
        unhanded_swapped_eq_zero h (.inr ⟨hpos, rfl⟩)
      have hle := (hsent id).1
      omega
    · have hle : (s₁.swapped s.pending (.bootload password)
          (handleBootload D R password).1).unhanded id ≤ s.unhanded id :=
        unhanded_swapped_le h fun hmem => hmem
      omega
  refine hs.of_receives h hs.pendingKeys ?_ ?_ (fun _ _ => .inr rfl) ?_ ?_
  · intro id hmem
    exact hs.owned id (.inr (.inl hmem))
  · intro id hpos
    exact hs.owned id (.inr (.inl ((hsent id).2 hpos).1))
  · intro id
    have hle := hbound id
    simpa [SwapperMessage.takes] using hle
  · intro id
    have hle := hbound id
    have hsome := delayedSends_le_sent (handleBootload D R password).1 id
    rw [count_filled_eq_zero fun _ => rfl]
    simp only [SwapperMessage.takes]
    omega

/-- A message that makes the swapper hand nothing over and store nothing. -/
theorem quiet_sound {s s₁ : State} {msg : SwapperMessage} {pending : PendingTable}
    {sends : List Send} (hs : Sound s) (h : Receives s msg s₁) (hsent : ∀ id, sent sends id = 0)
    (hkeys : KeysAgree SwapBlob.id pending) (hpending : ∀ id ∈ pending, id ∈ s.pending) :
    Sound (s₁.swapped pending msg sends) := by
  have hle : ∀ id, (s₁.swapped pending msg sends).unhanded id ≤ s.unhanded id := fun id =>
    unhanded_swapped_le h (hpending id)
  refine hs.of_receives h hkeys ?_ ?_ ?_ ?_ ?_
  · intro id hmem
    exact hs.owned id (.inr (.inl (hpending id hmem)))
  · intro id hpos
    rw [hsent] at hpos
    omega
  · intro id hpos
    rw [hsent] at hpos
    omega
  · intro id
    have hold := hle id
    rw [hsent]
    omega
  · intro id
    have hold := hle id
    have hnone := hsent id
    have hsome := delayedSends_le_sent sends id
    have hfilled := count_filled_le msg sends id
    omega

theorem Deletes.sub {pending pending' : PendingTable} {id : SwapID}
    {result : Except GoError Unit} (h : Deletes pending id result pending') :
    (KeysAgree SwapBlob.id pending → KeysAgree SwapBlob.id pending') ∧
      ∀ id' ∈ pending', id' ∈ pending := by
  rcases h with ⟨rfl, -⟩ | ⟨rfl, -⟩
  · exact ⟨fun hkeys => hkeys.erase id, fun id' hmem => (Finmap.mem_erase.mp hmem).2⟩
  · exact ⟨fun hkeys => hkeys, fun id' hmem => hmem⟩

theorem handleDeleteSwap_sends (R : StorageReplies) : (handleDeleteSwap R).1 = [] := by
  unfold handleDeleteSwap
  split <;> rfl

theorem takes_owned {s s₁ : State} {msg : SwapperMessage} (hs : Sound s) (h : Receives s msg s₁)
    (htakes : 0 < msg.takes id) : id ∈ s.owner := by
  have htokens := receives_takes h id
  apply hs.owned
  by_cases hup : 0 < s.upstream id
  · exact .inl hup
  · refine .inr (.inr (hs.handed id ?_))
    unfold State.atDelayed
    omega

theorem receives_delayed {s s₁ : State} {msg : Delayed.Message}
    (h : Receives s (.delayed msg) s₁) : msg ∈ s.delayedOut := by
  generalize hm : SwapperMessage.delayed msg = m at h
  cases h with
  | @wallet msg' rest h => cases msg' <;> simp [toSwapper] at hm
  | immediate h => cases hm
  | delayed h =>
      cases hm
      rw [h]
      exact List.mem_cons_self

theorem swapper_sound {s s₁ : State} {msg : SwapperMessage} {R : StorageReplies}
    {pending : PendingTable} (hs : Sound s) (h : Receives s msg s₁)
    (hstored : Stored s.pending R msg pending)
    (hfresh : ResumesUnhanded D s (.swapper msg R)) :
    Sound (s₁.swapped pending msg (reduce D R msg).1) := by
  cases msg with
  | bootload password =>
      obtain ⟨rfl, hlists⟩ := hstored
      exact bootload_sound hs h hlists hfresh
  | swapRequest blob =>
      have howner : blob.id ∈ s.owner := takes_owned hs h (by simp [SwapperMessage.takes])
      exact request_sound hs h hstored howner (fun _ => rfl) (.inl fun _ => rfl)
  | tick => exact quiet_sound hs h (fun _ => rfl) (hstored ▸ hs.pendingKeys) (hstored ▸ fun _ => id)
  | immediate msg =>
      cases msg with
      | deleteSwap id =>
          rw [show (reduce D R (.immediate (.deleteSwap id))).1 = [] from handleDeleteSwap_sends R]
          exact quiet_sound hs h sent_nil ((Deletes.sub hstored).1 hs.pendingKeys)
            (Deletes.sub hstored).2
      | receiptUpdate update =>
          exact quiet_sound hs h sent_nil (hstored ▸ hs.pendingKeys) (hstored ▸ fun _ => id)
      | error err =>
          exact quiet_sound hs h sent_nil (hstored ▸ hs.pendingKeys) (hstored ▸ fun _ => id)
  | delayed msg =>
      cases msg with
      | deleteSwap id =>
          rw [show (reduce D R (.delayed (.deleteSwap id))).1 = [] from handleDeleteSwap_sends R]
          exact quiet_sound hs h sent_nil ((Deletes.sub hstored).1 hs.pendingKeys)
            (Deletes.sub hstored).2
      | receiptUpdate update =>
          exact quiet_sound hs h sent_nil (hstored ▸ hs.pendingKeys) (hstored ▸ fun _ => id)
      | error err =>
          exact quiet_sound hs h sent_nil (hstored ▸ hs.pendingKeys) (hstored ▸ fun _ => id)
      | swapRequest blob =>
          have howner : blob.id ∈ s.owner := takes_owned hs h (by simp [SwapperMessage.takes])
          have hmem := receives_delayed h
          have hhanded : .handed blob.id ∈ s.log := by
            apply hs.handed
            have hpos : 0 < s.delayedOut.countP (fills blob.id) :=
              List.countP_pos_iff.mpr ⟨_, hmem, by simp [fills]⟩
            unfold State.atDelayed
            omega
          exact request_sound hs h hstored howner (fun _ => rfl)
            (.inr ⟨hhanded, hs.direct blob hmem⟩)

/-! ### Steps of the children -/

/-- A step of a child that makes its calls for tokens it has, and gives a token up for
    each swap that it is done with. -/
theorem Sound.of_child {s s' : State} (hs : Sound s) (entries : List Entry)
    (hup : ∀ id, s'.upstream id = s.upstream id) (hpending : s'.pending = s.pending)
    (howner : s'.owner = s.owner) (hlog : s'.log = s.log ++ entries)
    (hchild : ∀ e ∈ entries, ∀ id, e ≠ .handed id ∧ e ≠ .filled id)
    (htoken : ∀ id, s'.atDelayed id + s'.atImmediate id + entries.countP (Entry.settles id) ≤
      s.atDelayed id + s.atImmediate id)
    (hfill : ∀ id, s'.atDelayed id ≤ s.atDelayed id)
    (hacts : ∀ e ∈ entries, ∀ id, e.acts id = true → 0 < s.atDelayed id + s.atImmediate id)
    (hquiet : entries.Pairwise fun e e' => ∀ id, e.settles id = true → e'.acts id = false)
    (hikeys : KeysAgree Immediate.SwapRequest.id s'.immediateMap)
    (hdkeys : KeysAgree SwapBlob.id s'.delayedMap)
    (hdirect : ∀ blob, .swapRequest blob ∈ s'.delayedOut → blob.delay = false) : Sound s' := by
  have hhanded : ∀ id, .handed id ∈ s'.log ↔ .handed id ∈ s.log := by
    intro id
    rw [hlog, List.mem_append, or_iff_left]
    exact fun hmem => (hchild _ hmem id).1 rfl
  have hunhanded : ∀ id, s'.unhanded id = s.unhanded id := fun id => by
    simp only [State.unhanded, hpending, hhanded]
  have hfilled : ∀ id, s'.filled id = s.filled id := by
    intro id
    have hzero : entries.count (.filled id) = 0 :=
      List.count_eq_zero.mpr fun hmem => (hchild _ hmem id).2 rfl
    simp [State.filled, hlog, hzero]
  have hsettled : ∀ id, s'.settled id = s.settled id + entries.countP (Entry.settles id) :=
    settled_append hlog
  constructor
  · intro id
    have hold := hs.token id
    have hnew := htoken id
    rw [hup, hunhanded, hsettled]
    omega
  · intro id
    have hold := hs.fill id
    have hnew := hfill id
    rw [hup, hunhanded, hfilled]
    omega
  · intro id hpos
    have hnew := htoken id
    rw [hsettled, hfilled] at hpos
    rw [hhanded]
    apply hs.handed
    omega
  · intro id hid
    rw [hup, hpending, hhanded] at hid
    rw [howner]
    exact hs.owned id hid
  · exact hikeys
  · exact hdkeys
  · rw [hpending]
    exact hs.pendingKeys
  · exact hdirect
  · rw [hlog]
    refine List.pairwise_append.mpr ⟨hs.quiet, hquiet, ?_⟩
    -- a call is made for a token, and a swap that is done with has none left
    intro e he e' he' id hsettles
    by_contra hact
    have hpos := hacts e' he' id (by simpa using hact)
    have hsettled : 0 < s.settled id := List.countP_pos_iff.mpr ⟨e, he, hsettles⟩
    have hold := hs.token id
    omega

section Child

variable {Op : Type} {Reply : Op → Type} {Req Msg : Type}

/-- What the child is asked for is what leaves its queue. -/
theorem asks_of_starts (T : Task Op Reply SwapID Req Msg) {msg : TaskMessage Req}
    {input : Input SwapID Req} (h : msg.Starts input) (id : SwapID)
    (rest : List (TaskMessage Req)) :
    (msg :: rest).countP (TaskMessage.requests T.key id) =
      rest.countP (TaskMessage.requests T.key id) + input.asks T id := by
  cases msg with
  | tick =>
      obtain ⟨order, rfl⟩ := h
      simp [TaskMessage.requests, Input.asks]
  | request req =>
      obtain rfl : input = .request req := h
      simp [TaskMessage.requests, Input.asks, List.countP_cons]

end Child

theorem immediateEntries_settles (calls : List Immediate.Call) (output : List Immediate.Message)
    (id : SwapID) : (immediateEntries calls output).countP (Entry.settles id) =
      output.countP fun msg => msg = .deleteSwap id := by
  have hcalls : (calls.map fun c => Entry.operated c.1.id).countP (Entry.settles id) = 0 := by
    simp [List.countP_eq_zero, Entry.settles]
  rw [immediateEntries, List.countP_append, hcalls, Nat.zero_add]
  induction output with
  | nil => rfl
  | cons msg output ih => cases msg <;> simp [List.countP_cons, Entry.settles, ih]

theorem delayedEntries_settles (calls : List Delayed.Call) (output : List Delayed.Message)
    (id : SwapID) : (delayedEntries calls output).countP (Entry.settles id) =
      output.countP fun msg => msg = .deleteSwap id := by
  have hcalls : (calls.map fun c => Entry.polled c.id).countP (Entry.settles id) = 0 := by
    simp [List.countP_eq_zero, Entry.settles]
  rw [delayedEntries, List.countP_append, hcalls, Nat.zero_add]
  induction output with
  | nil => rfl
  | cons msg output ih => cases msg <;> simp [List.countP_cons, Entry.settles, ih]

theorem mem_immediateEntries {calls : List Immediate.Call} {output : List Immediate.Message} :
    ∀ e ∈ immediateEntries calls output,
      (∃ c ∈ calls, e = .operated c.1.id) ∨ ∃ id, e = .deleted id := by
  intro e he
  rcases List.mem_append.mp he with he | he
  · obtain ⟨c, hc, rfl⟩ := List.mem_map.mp he
    exact .inl ⟨c, hc, rfl⟩
  · obtain ⟨msg, -, hmsg⟩ := List.mem_filterMap.mp he
    cases msg with
    | deleteSwap id => exact .inr ⟨id, by simpa using hmsg.symm⟩
    | _ => cases hmsg

theorem mem_delayedEntries {calls : List Delayed.Call} {output : List Delayed.Message} :
    ∀ e ∈ delayedEntries calls output,
      (∃ c ∈ calls, e = .polled c.id) ∨ ∃ id, e = .cancelled id := by
  intro e he
  rcases List.mem_append.mp he with he | he
  · obtain ⟨c, hc, rfl⟩ := List.mem_map.mp he
    exact .inl ⟨c, hc, rfl⟩
  · obtain ⟨msg, -, hmsg⟩ := List.mem_filterMap.mp he
    cases msg with
    | deleteSwap id => exact .inr ⟨id, by simpa using hmsg.symm⟩
    | _ => cases hmsg

/-- Calls settle nothing, and what comes after them calls nothing. -/
theorem quiet_append {calls done : List Entry} (hcalls : ∀ e ∈ calls, ∀ id, e.settles id = false)
    (hdone : ∀ e ∈ done, ∀ id, e.acts id = false) :
    (calls ++ done).Pairwise fun e e' => ∀ id, e.settles id = true → e'.acts id = false := by
  refine List.pairwise_append.mpr ⟨?_, ?_, ?_⟩
  · refine List.pairwise_of_forall_mem_list fun e he e' _ id hsettles => ?_
    simp [hcalls e he] at hsettles
  · exact List.pairwise_of_forall_mem_list fun e _ e' he' id _ => hdone e' he' id
  · intro e _ e' he' id _
    exact hdone e' he' id

theorem immediateEntries_quiet (calls : List Immediate.Call) (output : List Immediate.Message) :
    (immediateEntries calls output).Pairwise fun e e' =>
      ∀ id, e.settles id = true → e'.acts id = false := by
  apply quiet_append
  · intro e he id
    obtain ⟨c, -, rfl⟩ := List.mem_map.mp he
    simp [Entry.settles]
  · intro e he id
    obtain ⟨msg, -, hmsg⟩ := List.mem_filterMap.mp he
    cases msg with
    | deleteSwap id =>
        cases hmsg
        simp [Entry.acts]
    | _ => cases hmsg

theorem delayedEntries_quiet (calls : List Delayed.Call) (output : List Delayed.Message) :
    (delayedEntries calls output).Pairwise fun e e' =>
      ∀ id, e.settles id = true → e'.acts id = false := by
  apply quiet_append
  · intro e he id
    obtain ⟨c, -, rfl⟩ := List.mem_map.mp he
    simp [Entry.settles]
  · intro e he id
    obtain ⟨msg, -, hmsg⟩ := List.mem_filterMap.mp he
    cases msg with
    | deleteSwap id =>
        cases hmsg
        simp [Entry.acts]
    | _ => cases hmsg

section Immediate

variable {s : State} {msg : TaskMessage Immediate.SwapRequest}
  {rest : List (TaskMessage Immediate.SwapRequest)} {l : ImmediateReduction}
  {swapMap : Immediate.SwapMap}

/-- The immediate swapper calls for the tokens that it has, and gives up those of the swaps
    that it is done with. -/
theorem immediate_tokens (hkeys : KeysAgree Immediate.SwapRequest.id s.immediateMap)
    (h : s.immediateIn = msg :: rest) (hstart : msg.Starts l.input)
    (hreduces : Reduces unconstrained (Immediate.task D.H) (s.immediateMap, ()) l (swapMap, ()))
    (id : SwapID) :
    rest.countP (TaskMessage.requests Immediate.SwapRequest.id id) + held swapMap id +
        (immediateEntries l.calls l.output).countP (Entry.settles id) ≤ s.atImmediate id ∧
      ∀ c ∈ l.calls, c.1.id = id → 0 < s.atImmediate id := by
  obtain ⟨hle, hcalls⟩ := hreduces.balance Immediate.keepsKeys (immediate_balances D.H id)
    hkeys fun _ _ => trivial
  have hat : s.atImmediate id =
      rest.countP (TaskMessage.requests Immediate.SwapRequest.id id) +
        l.input.asks (Immediate.task D.H) id + held s.immediateMap id := by
    rw [State.atImmediate, h]
    exact congrArg (· + _) (asks_of_starts (Immediate.task D.H) hstart id rest)
  rw [immediateEntries_settles, hat]
  dsimp only at hle hcalls
  refine ⟨by omega, ?_⟩
  intro c hc hid
  obtain ⟨_, hone, _, p, _, hpass, rfl, hcp⟩ := hcalls c hc
  have hpos := hone ((Immediate.pass_call_id hpass c hcp).symm.trans hid)
  omega

theorem immediate_sound (hs : Sound s) (h : s.immediateIn = msg :: rest)
    (hstart : msg.Starts l.input)
    (hreduces : Reduces unconstrained (Immediate.task D.H) (s.immediateMap, ()) l (swapMap, ())) :
    Sound (s.immediateReduced rest swapMap l) := by
  have htokens := immediate_tokens hs.immediateKeys h hstart hreduces
  refine hs.of_child (immediateEntries l.calls l.output) (fun _ => rfl) rfl rfl rfl
    ?_ ?_ (fun _ => le_refl _) ?_ ?_ (hreduces.keysAgree Immediate.keepsKeys hs.immediateKeys)
    hs.delayedKeys hs.direct
  · intro e he id
    rcases mem_immediateEntries e he with ⟨c, -, rfl⟩ | ⟨id', rfl⟩ <;> simp
  · intro id
    obtain ⟨hle, -⟩ := htokens id
    simp only [State.atDelayed, State.atImmediate] at hle ⊢
    omega
  · intro e he id hact
    rcases mem_immediateEntries e he with ⟨c, hc, rfl⟩ | ⟨id', rfl⟩
    · have hone := (htokens id).2 c hc (by simpa [Entry.acts] using hact)
      omega
    · simp [Entry.acts] at hact
  · exact immediateEntries_quiet _ _

end Immediate

/-- A filled swap is handed on as one that is executed now. -/
theorem delayed_output_direct {l : DelayedReduction} {swapMap swapMap' : Delayed.SwapMap}
    (hreduces : Reduces unconstrained Delayed.task (swapMap, ()) l (swapMap', ()))
    (hkeys : KeysAgree SwapBlob.id swapMap) :
    ∀ blob, .swapRequest blob ∈ l.output → blob.delay = false := by
  intro blob hblob
  obtain ⟨ts, hts, -, hout, -⟩ := hreduces.passes Delayed.keepsKeys hkeys
  rw [hout] at hblob
  obtain ⟨t, ht, hmem⟩ := List.mem_flatMap.mp hblob
  obtain ⟨c, -, -, hexit⟩ := Delayed.pass_exits (hts.step_of_mem t ht)
  generalize t.target.1 = m, t.label.batch = batch at hexit hmem
  cases hexit with
  | filled filled hanswer =>
      have heq : blob = filled.withPassword t.label.req.password := by simpa using hmem
      rw [heq, SwapBlob.withPassword_delay]
      exact Delayed.answer_delay hanswer
  | cancelled | unavailable | failed => simp at hmem

section Delayed

variable {s : State} {msg : TaskMessage SwapBlob} {rest : List (TaskMessage SwapBlob)}
  {l : DelayedReduction} {swapMap : Delayed.SwapMap}

/-- The delayed swapper polls for the tokens that it has, and gives up those of the swaps
    that are cancelled. -/
theorem delayed_tokens (hkeys : KeysAgree SwapBlob.id s.delayedMap)
    (h : s.delayedIn = msg :: rest) (hstart : msg.Starts l.input)
    (hreduces : Reduces unconstrained Delayed.task (s.delayedMap, ()) l (swapMap, ()))
    (hkeeps : Delayed.KeepsIDs l) (id : SwapID) :
    rest.countP (TaskMessage.requests SwapBlob.id id) + held swapMap id +
        (s.delayedOut ++ l.output).countP (fills id) +
        (delayedEntries l.calls l.output).countP (Entry.settles id) ≤ s.atDelayed id ∧
      ∀ c ∈ l.calls, Delayed.Call.id c = id → 0 < s.atDelayed id := by
  obtain ⟨hle, hcalls⟩ := hreduces.balance Delayed.keepsKeys (delayed_balances id) hkeys hkeeps
  have hat : s.atDelayed id = rest.countP (TaskMessage.requests SwapBlob.id id) +
      l.input.asks Delayed.task id + held s.delayedMap id + s.delayedOut.countP (fills id) := by
    rw [State.atDelayed, h]
    exact congrArg (· + _ + _) (asks_of_starts Delayed.task hstart id rest)
  rw [countP_resolves] at hle
  rw [delayedEntries_settles, hat, List.countP_append]
  dsimp only at hle hcalls
  refine ⟨by omega, ?_⟩
  intro c hc hid
  obtain ⟨_, hone, _, p, _, hpass, rfl, hcp⟩ := hcalls c hc
  have hpos := hone ((Delayed.pass_call_id hpass c hcp).symm.trans hid)
  omega

theorem delayed_sound (hs : Sound s) (h : s.delayedIn = msg :: rest)
    (hstart : msg.Starts l.input)
    (hreduces : Reduces unconstrained Delayed.task (s.delayedMap, ()) l (swapMap, ()))
    (hkeeps : Delayed.KeepsIDs l) :
    Sound (s.delayedReduced rest swapMap l) := by
  have htokens := delayed_tokens hs.delayedKeys h hstart hreduces hkeeps
  refine hs.of_child (delayedEntries l.calls l.output) (fun _ => rfl) rfl rfl rfl
    ?_ ?_ ?_ ?_ ?_ hs.immediateKeys (hreduces.keysAgree Delayed.keepsKeys hs.delayedKeys) ?_
  · intro e he id
    rcases mem_delayedEntries e he with ⟨c, -, rfl⟩ | ⟨id', rfl⟩ <;> simp
  · intro id
    obtain ⟨hle, -⟩ := htokens id
    simp only [State.atImmediate, State.atDelayed] at hle ⊢
    omega
  · intro id
    obtain ⟨hle, -⟩ := htokens id
    simp only [State.atDelayed] at hle ⊢
    omega
  · intro e he id hact
    rcases mem_delayedEntries e he with ⟨c, hc, rfl⟩ | ⟨id', rfl⟩
    · have hone := (htokens id).2 c hc (by simpa [Entry.acts] using hact)
      omega
    · simp [Entry.acts] at hact
  · exact delayedEntries_quiet _ _
  · intro blob hblob
    rcases List.mem_append.mp hblob with hblob | hblob
    · exact hs.direct blob hblob
    · exact delayed_output_direct hreduces hs.delayedKeys blob hblob

end Delayed

end Swapperd.Daemon
