/-
  Swapperd/WriteAhead.lean
  ========================
  **A swap that is executed is in the table of pending swaps.**

  The swapper stores a swap before it hands it to a child, and deletes it when the child is
  done with it.  So from the first call that a child makes for a swap to its `DeleteSwap`,
  whatever the other tasks do and wherever the daemon stops, the table has a record of the
  swap, which is the request that the child has (`Recorded`).  A `Bootload` of the owner
  sends this request again, once (`pending_swaps_durable`).
-/
import Swapperd.DaemonOwners

namespace Swapperd.Daemon

open CallProgram RetryTask TransitionRuns GoLibrary

variable {D : Config} {generate : String → List UInt8 → Prop}

/-! ### What happened -/

/-- A child calls for the swap. -/
def Label.Calls (id : SwapID) : Label → Prop
  | .immediate l => ∃ c ∈ l.calls, c.1.id = id
  | .delayed l => ∃ c ∈ l.calls, Delayed.Call.id c = id
  | _ => False

/-- A child emits that it is done with the swap. -/
def Label.Deletes (id : SwapID) : Label → Prop
  | .immediate l => .deleteSwap id ∈ l.output
  | .delayed l => .deleteSwap id ∈ l.output
  | _ => False

/-- A child has called for the swap, and none has emitted its `DeleteSwap` since. -/
def Unsettled (past : History) (id : SwapID) : Prop :=
  ∃ us u vs, past = us ++ u :: vs ∧ u.label.Calls id ∧ ∀ v ∈ u :: vs, ¬ v.label.Deletes id

/-- The request for the swap that was sent to a child most recently. -/
def latest (D : Config) (past : History) (id : SwapID) : Option SwapBlob :=
  ((past.flatMap fun t => sentBlobs D t.label).filter fun blob => blob.id = id).getLast?

/-- The table has a record of the swap that is the most recent request, but for its
    password. -/
def Recorded (D : Config) (past : History) (pending : PendingTable) (id : SwapID) : Prop :=
  ∃ blob, latest D past id = some blob ∧ pending.lookup id = some (blob.withPassword "")

/-- A child has the swap, in its map or its queue, and may be at work on it, or it has
    called for it. -/
def Exposed (past : History) (s : State) (id : SwapID) : Prop :=
  0 < s.atDelayed id + s.atImmediate id ∨ Unsettled past id

theorem unsettled_concat {past : History} {t : Transition State Label} {id : SwapID} :
    Unsettled (past ++ [t]) id ↔
      ¬ t.label.Deletes id ∧ (Unsettled past id ∨ t.label.Calls id) := by
  constructor
  · rintro ⟨us, u, vs, hpast, hcalls, hquiet⟩
    rcases List.eq_nil_or_concat vs with rfl | ⟨vs, v, rfl⟩
    · obtain ⟨-, rfl⟩ := List.append_inj' hpast rfl |>.imp_right fun h => (List.cons.inj h).1
      exact ⟨hquiet _ (by simp), .inr hcalls⟩
    · rw [List.concat_eq_append, ← List.cons_append, ← List.append_assoc] at hpast
      obtain ⟨rfl, htv⟩ := List.append_inj' hpast rfl
      obtain rfl := (List.cons.inj htv).1
      refine ⟨hquiet t (by simp), .inl ⟨us, u, vs, rfl, hcalls, ?_⟩⟩
      intro w hw
      apply hquiet
      simp only [List.mem_cons, List.concat_eq_append, List.mem_append] at hw ⊢
      tauto
  · rintro ⟨hquiet, ⟨us, u, vs, rfl, hcalls, hold⟩ | hcalls⟩
    · refine ⟨us, u, vs ++ [t], by simp, hcalls, ?_⟩
      intro v hv
      rcases List.mem_cons.mp hv with rfl | hv
      · exact hold v (by simp)
      · rcases List.mem_append.mp hv with hv | hv
        · exact hold v (by simp [hv])
        · obtain rfl := List.mem_singleton.mp hv
          exact hquiet
    · refine ⟨past, t, [], rfl, hcalls, ?_⟩
      simpa using hquiet

theorem latest_concat (past : History) (t : Transition State Label) (id : SwapID) :
    latest D (past ++ [t]) id =
      ((sentBlobs D t.label).filter fun blob => blob.id = id).getLast?.or (latest D past id) := by
  simp [latest, List.flatMap_append, List.filter_append, List.getLast?_append]

theorem latest_concat_of_notMem {past : History} {t : Transition State Label} {id : SwapID}
    (h : ∀ blob ∈ sentBlobs D t.label, blob.id ≠ id) :
    latest D (past ++ [t]) id = latest D past id := by
  have hnone : (sentBlobs D t.label).filter (fun blob => blob.id = id) = [] := by
    simpa [List.filter_eq_nil_iff] using h
  rw [latest_concat, hnone]
  rfl

/-- When one swap with this ID is sent, perhaps more than once, it is the most recent. -/
theorem latest_concat_of_mem {past : History} {t : Transition State Label} {blob : SwapBlob}
    (hmem : blob ∈ sentBlobs D t.label)
    (hsame : ∀ blob' ∈ sentBlobs D t.label, blob'.id = blob.id → blob' = blob) :
    latest D (past ++ [t]) blob.id = some blob := by
  have hfilter : blob ∈ (sentBlobs D t.label).filter fun blob' => blob'.id = blob.id := by
    simp [hmem]
  have hlast := List.getLast?_eq_some_getLast (List.ne_nil_of_mem hfilter)
  rw [latest_concat, hlast, Option.some_or]
  obtain ⟨hsent, hid⟩ := List.mem_filter.mp (List.getLast_mem (List.ne_nil_of_mem hfilter))
  rw [hsame _ hsent (by simpa using hid)]

theorem latest_concat_cases {past : History} {t : Transition State Label} {id : SwapID}
    {blob : SwapBlob} (h : latest D (past ++ [t]) id = some blob) :
    blob ∈ sentBlobs D t.label ∧ blob.id = id ∨ latest D past id = some blob := by
  rw [latest_concat, Option.or_eq_some_iff] at h
  rcases h with hlast | ⟨-, hold⟩
  · left
    simpa using List.mem_of_getLast? hlast
  · exact .inr hold

/-! ### What is assumed of a run -/

/-- The storage works: nothing fails, and `PendingSwaps` lists the whole table. -/
def StorageWorks (s : State) : Label → Prop
  | .swapper (.bootload _) R => ∃ pendingSwaps, R.pendingSwaps = .ok pendingSwaps ∧
      ∀ id blob, s.pending.lookup id = some blob → blob ∈ pendingSwaps
  | .swapper _ R => R.putSwap = .ok () ∧ R.deletePendingSwap = .ok ()
  | _ => True

/-- Answers that fill a swap keep its ID and its password hash. -/
def KeepsHash : Label → Prop
  | .delayed l => ∀ c ∈ l.calls, ∀ filled, Delayed.Call.answer c = .ok filled →
      filled.id = Delayed.Call.id c ∧ filled.passwordHash = c.1.partialSwap.passwordHash
  | _ => True

/-- The swapper handles a `Bootload` with this password, or a request that was posted with
    it. -/
def Label.Serves (password : String) : Label → Prop
  | .swapper (.bootload password') _ => password' = password
  | .swapper (.swapRequest blob) _ => blob.password = password
  | _ => False

/-- In the life of a process each password is loaded once at most, and before the requests
    that are posted with it. -/
def BootloadsFirst (past : History) (t : Transition State Label) : Prop :=
  ∀ password R, t.label = .swapper (.bootload password) R →
    ∀ u ∈ life past, ¬ u.label.Serves password

theorem KeepsHash.keepsIDs {l : Label} (h : KeepsHash l) : KeepsIDs l := by
  cases l with
  | delayed l => exact fun c hc filled hanswer => (h c hc filled hanswer).1
  | _ => trivial

/-! ### Passwords and hashes -/

/-- The swap has the password that it was posted with, and a hash of it. -/
def Sworn (generate : String → List UInt8 → Prop) (owner : Store SwapID String)
    (blob : SwapBlob) : Prop :=
  owner.lookup blob.id = some blob.password ∧ Owned generate owner blob

theorem carries_sworn (hbcrypt : Bcrypt D generate) {s s' : State} {l : Label}
    (h : Moves D s l s') (hposts : PostsAuthorized generate s) (hkeeps : KeepsHash l) :
    Carries D (Sworn generate s.owner) (Sworn generate s'.owner) s l s' := by
  have hstays : ∀ blob, Sworn generate s.owner blob → Sworn generate s'.owner blob := by
    rintro blob ⟨hlookup, password, hash, howner, hrest⟩
    exact ⟨moves_lookup h hlookup, password, hash, moves_lookup h howner, hrest⟩
  refine ⟨hstays, ?_, ?_, ?_⟩
  · intro now blob hadmitted
    refine ⟨?_, admitted_owned hposts hadmitted⟩
    rw [hadmitted.owner, Finmap.lookup_insert]
  · rintro password R pendingSwaps - - blob - hresumes posted ⟨-, howned⟩
    exact ⟨owned_resumes hbcrypt (owned_withPassword.mp howned) hresumes, howned⟩
  · rintro reduction rfl c hc filled hanswer - password ⟨hlookup, posted, hash, howner, hrest⟩
    obtain ⟨hid, hhash⟩ := hkeeps c hc filled hanswer
    have hid' : (filled.withPassword password).id = c.1.partialSwap.id := hid
    apply hstays
    refine ⟨?_, posted, hash, ?_, hrest.1, ?_⟩
    · rw [hid']
      exact hlookup
    · rw [hid']
      exact howner
    · exact hhash.trans hrest.2

/-- A password resumes a stored swap when it is the one that the swap was posted with, and
    only then. -/
theorem sworn_resumes_iff (hbcrypt : Bcrypt D generate) {owner : Store SwapID String}
    {blob : SwapBlob} {posted : String} (h : Sworn generate owner (blob.withPassword posted))
    (q : String) : resumes D q blob = true ↔ owner.lookup blob.id = some q := by
  obtain ⟨-, howned⟩ := h
  constructor
  · exact owned_resumes hbcrypt (owned_withPassword.mp howned)
  · intro hlookup
    obtain ⟨password, hash, howner, hgenerate, hhash⟩ := howned
    obtain rfl : password = q := Option.some.inj (howner.symm.trans hlookup)
    have hhash : blob.passwordHash = encodeToString hash := hhash
    unfold resumes
    rw [hhash, if_neg (encodeToString_ne (hbcrypt.nonempty hgenerate)),
      decodeString_encodeToString]
    exact (hbcrypt.compare hgenerate password).mpr rfl

/-! ### Steps of the swapper -/

theorem handleSwapRequest_sends {R : StorageReplies} (h : R.putSwap = .ok ()) (blob : SwapBlob) :
    (handleSwapRequest R blob).1 = [handOver R blob] := by
  unfold handleSwapRequest
  rw [h]

theorem Puts.insert {pending pending' : PendingTable} {blob : SwapBlob}
    (h : Puts pending blob (.ok ()) pending') :
    pending' = pending.insert blob.id (blob.withPassword "") := by
  rcases h with hinsert | ⟨-, err, hfails⟩
  · exact hinsert
  · cases hfails

theorem Deletes.erase {pending pending' : PendingTable} {id : SwapID}
    (h : Deletes pending id (.ok ()) pending') : pending' = pending.erase id := by
  rcases h with ⟨herase, -⟩ | ⟨-, err, hfails⟩
  · exact herase
  · cases hfails

/-- What a step of the swapper does to the table and what it sends, when the storage
    works. -/
inductive Writes (D : Config) (s : State) (R : StorageReplies) :
    SwapperMessage → PendingTable → Prop where
  | request {msg : SwapperMessage} {blob : SwapBlob} (hblob : msg.blob = some blob)
      (hsends : (reduce D R msg).1 = [handOver R blob]) :
      Writes D s R msg (s.pending.insert blob.id (blob.withPassword ""))
  | bootload {password : String} {pendingSwaps : List SwapBlob}
      (hpending : R.pendingSwaps = .ok pendingSwaps) (hnodup : (pendingSwaps.map SwapBlob.id).Nodup)
      (hlists : ∀ blob, blob ∈ pendingSwaps ↔ s.pending.lookup blob.id = some blob) :
      Writes D s R (.bootload password) s.pending
  | deleteSwap {msg : SwapperMessage} {id : SwapID}
      (hmsg : msg = .immediate (.deleteSwap id) ∨ msg = .delayed (.deleteSwap id))
      (hsends : sentBlobs D (.swapper msg R) = []) : Writes D s R msg (s.pending.erase id)
  | quiet {msg : SwapperMessage} (hsends : sentBlobs D (.swapper msg R) = []) :
      Writes D s R msg s.pending

theorem stored_writes {s : State} {msg : SwapperMessage} {R : StorageReplies}
    {pending : PendingTable} (hstored : Stored s.pending R msg pending)
    (hworks : StorageWorks s (.swapper msg R)) : Writes D s R msg pending := by
  have hrequest : ∀ {msg blob}, msg.blob = some blob → (reduce D R msg).1 =
      (handleSwapRequest R blob).1 → R.putSwap = .ok () → Puts s.pending blob R.putSwap pending →
      Writes D s R msg pending := by
    intro msg blob hblob hreduce hok hputs
    rw [hok] at hputs
    obtain rfl := hputs.insert
    exact .request hblob (hreduce.trans (handleSwapRequest_sends hok blob))
  have hdelete : ∀ {msg id}, (msg = .immediate (.deleteSwap id) ∨ msg = .delayed (.deleteSwap id)) →
      (reduce D R msg).1 = (handleDeleteSwap R).1 → R.deletePendingSwap = .ok () →
      Deletes s.pending id R.deletePendingSwap pending → Writes D s R msg pending := by
    intro msg id hmsg hreduce hok hdeletes
    rw [hok] at hdeletes
    obtain rfl := hdeletes.erase
    refine .deleteSwap hmsg ?_
    simp only [sentBlobs]
    rw [hreduce, handleDeleteSwap_sends]
    rfl
  have hquiet : ∀ {msg}, pending = s.pending → sentBlobs D (.swapper msg R) = [] →
      Writes D s R msg pending := by
    rintro msg rfl hsends
    exact .quiet hsends
  cases msg with
  | bootload password =>
      obtain ⟨rfl, hlists⟩ := hstored
      obtain ⟨pendingSwaps, hpending, hall⟩ := hworks
      obtain ⟨hnodup, hlookup⟩ := hlists pendingSwaps hpending
      exact .bootload hpending hnodup fun blob => ⟨hlookup blob, hall blob.id blob⟩
  | swapRequest blob => exact hrequest rfl rfl hworks.1 hstored
  | tick => exact hquiet hstored rfl
  | immediate msg =>
      cases msg with
      | deleteSwap id => exact hdelete (.inl rfl) rfl hworks.2 hstored
      | receiptUpdate update => exact hquiet hstored rfl
      | error err => exact hquiet hstored rfl
  | delayed msg =>
      cases msg with
      | swapRequest blob => exact hrequest rfl rfl hworks.1 hstored
      | deleteSwap id => exact hdelete (.inr rfl) rfl hworks.2 hstored
      | receiptUpdate update => exact hquiet hstored rfl
      | error err => exact hquiet hstored rfl

/-! ### The invariant -/

/-- What holds of the daemon after a history. -/
structure Durable (D : Config) (generate : String → List UInt8 → Prop) (past : History)
    (s : State) : Prop where
  sound : Sound s
  sworn : Everywhere (Sworn generate s.owner) s
  blank : Stores (fun blob => blob.password = "") s.pending
  recorded : ∀ id, Exposed past s id → Recorded D past s.pending id
  owners : ∀ id blob, latest D past id = some blob → s.owner.lookup id = some blob.password
  /-- A swap whose deletion is under way is settled in this life. -/
  emitted : ∀ id, .deleteSwap id ∈ s.immediateOut ∨ .deleteSwap id ∈ s.delayedOut →
    0 < s.settled id
  unsettled : ∀ id, Unsettled past id → s.settled id = 0
  served : ∀ id, .handed id ∈ s.log → ∃ t ∈ life past, ∃ password,
    s.owner.lookup id = some password ∧ t.label.Serves password

theorem durable_init : Durable D generate [] State.init where
  sound := by
    apply sound_start (keysAgree_empty _)
    intro id hid
    exact absurd hid Finmap.notMem_empty
  sworn := everywhere_start (stores_empty _)
  blank := stores_empty _
  recorded id := by
    rintro (hchild | ⟨us, u, vs, hpast, -⟩)
    · simp [State.atDelayed, State.atImmediate, State.init, State.start, held_empty] at hchild
    · cases us <;> cases hpast
  owners _ _ h := by cases h
  emitted _ h := by simp [State.init, State.start] at h
  unsettled _ := by
    rintro ⟨us, u, vs, hpast, -⟩
    cases us <;> cases hpast
  served _ h := by simp [State.init, State.start] at h

/-- A swap that a child has is not settled. -/
theorem Sound.settled_eq_zero {s : State} (hs : Sound s) {id : SwapID}
    (hchild : 0 < s.atDelayed id + s.atImmediate id) : s.settled id = 0 := by
  have htoken := hs.token id
  omega

/-- A step that neither sends a swap nor writes the table. -/
theorem Durable.of_unsent {past : History} {t : Transition State Label}
    (hs : Durable D generate past t.source) (h : Moves D t.source t.label t.target)
    (hsound : Sound t.target) (hsworn : Everywhere (Sworn generate t.target.owner) t.target)
    (hsends : sentBlobs D t.label = []) (hpending : t.target.pending = t.source.pending)
    (hchild : ∀ id, t.target.atDelayed id + t.target.atImmediate id ≤
      t.source.atDelayed id + t.source.atImmediate id)
    (hcalls : ∀ id, t.label.Calls id → 0 < t.source.atDelayed id + t.source.atImmediate id)
    (hemitted : ∀ id, .deleteSwap id ∈ t.target.immediateOut ∨
      .deleteSwap id ∈ t.target.delayedOut → 0 < t.target.settled id)
    (hsettled : ∀ id, ¬ t.label.Deletes id → t.target.settled id ≤ t.source.settled id)
    (hhanded : ∀ id, .handed id ∈ t.target.log →
      .handed id ∈ t.source.log ∧ t.label.isCrash = false) :
    Durable D generate (past ++ [t]) t.target := by
  have hlatest : ∀ id, latest D (past ++ [t]) id = latest D past id := fun id =>
    latest_concat_of_notMem (by simp [hsends])
  refine ⟨hsound, hsworn, ?_, ?_, ?_, hemitted, ?_, ?_⟩
  · rw [hpending]
    exact hs.blank
  · intro id hexposed
    have hbefore : Exposed past t.source id := by
      rcases hexposed with hat | hunsettled
      · left
        have hle := hchild id
        omega
      · rcases (unsettled_concat.mp hunsettled).2 with hold | hcall
        · exact .inr hold
        · exact .inl (hcalls id hcall)
    obtain ⟨blob, hblob, hlookup⟩ := hs.recorded id hbefore
    exact ⟨blob, (hlatest id).trans hblob, hpending ▸ hlookup⟩
  · intro id blob hblob
    rw [hlatest] at hblob
    exact moves_lookup h (hs.owners id blob hblob)
  · intro id hunsettled
    obtain ⟨hquiet, hcalled⟩ := unsettled_concat.mp hunsettled
    have hzero : t.source.settled id = 0 := by
      rcases hcalled with hold | hcall
      · exact hs.unsettled id hold
      · exact hs.sound.settled_eq_zero (hcalls id hcall)
    have hle := hsettled id hquiet
    omega
  · intro id hmem
    obtain ⟨hold, hlive⟩ := hhanded id hmem
    obtain ⟨u, hu, password, hlookup, hserves⟩ := hs.served id hold
    refine ⟨u, ?_, password, moves_lookup h hlookup, hserves⟩
    rw [life_concat, hlive]
    exact List.mem_append_left _ hu

/-! ### Steps that send nothing -/

theorem countP_eq_pos_iff {α : Type} [DecidableEq α] {l : List α} {a : α} :
    0 < (l.countP fun b => b = a) ↔ a ∈ l := by
  simp [List.countP_pos_iff]

theorem Durable.front {past : History} {s s' : State} {l : Label} (hs : Durable D generate past s)
    (h : Moves D s l s') (hl : l = .thread ∨ l = .wallet)
    (hsworn : Everywhere (Sworn generate s'.owner) s') :
    Durable D generate (past ++ [⟨s, l, s'⟩]) s' := by
  have hback := front_sameBack h hl
  have hchild : ∀ id, s'.atDelayed id + s'.atImmediate id = s.atDelayed id + s.atImmediate id := by
    intro id
    rw [hback.atDelayed, hback.atImmediate]
  have hsettled : ∀ id, s'.settled id = s.settled id := fun id => by
    simp only [State.settled, hback.log]
  refine hs.of_unsent h (front_sound hs.sound h hl) hsworn ?_ hback.pending (fun id => (hchild id).le)
    ?_ ?_ (fun id _ => (hsettled id).le) ?_
  · rcases hl with rfl | rfl <;> rfl
  · intro id hcall
    rcases hl with rfl | rfl <;> cases hcall
  · intro id hmem
    dsimp only at hmem ⊢
    rw [front_outputs h hl, hback.delayedOut] at hmem
    rw [hsettled]
    exact hs.emitted id hmem
  · intro id hmem
    dsimp only at hmem
    rw [hback.log] at hmem
    refine ⟨hmem, ?_⟩
    rcases hl with rfl | rfl <;> rfl

theorem Durable.immediate {past : History} {s s' : State} {l : ImmediateReduction}
    (hs : Durable D generate past s) (h : Moves D s (.immediate l) s')
    (hsworn : Everywhere (Sworn generate s'.owner) s') :
    Durable D generate (past ++ [⟨s, .immediate l, s'⟩]) s' := by
  have hmoves := h
  cases h with
  | @immediate msg rest _ swapMap h hstart hreduces =>
      have htokens := immediate_tokens hs.sound.immediateKeys h hstart hreduces
      refine hs.of_unsent hmoves (immediate_sound hs.sound h hstart hreduces) hsworn rfl rfl
        ?_ ?_ ?_ ?_ ?_
      · intro id
        have hle := (htokens id).1
        simp only [State.atImmediate, State.atDelayed] at hle ⊢
        omega
      · rintro id ⟨c, hc, hid⟩
        have hpos := (htokens id).2 c hc hid
        exact Nat.add_pos_right _ hpos
      · intro id hmem
        rw [settled_append rfl, immediateEntries_settles]
        rcases hmem with hmem | hmem
        · rcases List.mem_append.mp hmem with hold | hnew
          · exact Nat.add_pos_left (hs.emitted id (.inl hold)) _
          · exact Nat.add_pos_right _ (countP_eq_pos_iff.mpr hnew)
        · exact Nat.add_pos_left (hs.emitted id (.inr hmem)) _
      · intro id hquiet
        have hzero : (l.output.countP fun msg => msg = .deleteSwap id) = 0 :=
          Nat.eq_zero_of_not_pos (mt countP_eq_pos_iff.mp hquiet)
        rw [settled_append rfl, immediateEntries_settles, hzero]
        exact le_refl _
      · intro id hmem
        refine ⟨?_, rfl⟩
        rcases List.mem_append.mp hmem with hold | hnew
        · exact hold
        · rcases mem_immediateEntries _ hnew with ⟨c, -, heq⟩ | ⟨id', heq⟩ <;> cases heq

theorem Durable.delayed {past : History} {s s' : State} {l : DelayedReduction}
    (hs : Durable D generate past s) (h : Moves D s (.delayed l) s')
    (hkeeps : Delayed.KeepsIDs l) (hsworn : Everywhere (Sworn generate s'.owner) s') :
    Durable D generate (past ++ [⟨s, .delayed l, s'⟩]) s' := by
  have hmoves := h
  cases h with
  | @delayed msg rest _ swapMap h hstart hreduces =>
      have htokens := delayed_tokens hs.sound.delayedKeys h hstart hreduces hkeeps
      refine hs.of_unsent hmoves (delayed_sound hs.sound h hstart hreduces hkeeps) hsworn rfl rfl
        ?_ ?_ ?_ ?_ ?_
      · intro id
        have hle := (htokens id).1
        simp only [State.atImmediate, State.atDelayed] at hle ⊢
        omega
      · rintro id ⟨c, hc, hid⟩
        have hpos := (htokens id).2 c hc hid
        exact Nat.add_pos_left hpos _
      · intro id hmem
        rw [settled_append rfl, delayedEntries_settles]
        rcases hmem with hmem | hmem
        · exact Nat.add_pos_left (hs.emitted id (.inl hmem)) _
        · rcases List.mem_append.mp hmem with hold | hnew
          · exact Nat.add_pos_left (hs.emitted id (.inr hold)) _
          · exact Nat.add_pos_right _ (countP_eq_pos_iff.mpr hnew)
      · intro id hquiet
        have hzero : (l.output.countP fun msg => msg = .deleteSwap id) = 0 :=
          Nat.eq_zero_of_not_pos (mt countP_eq_pos_iff.mp hquiet)
        rw [settled_append rfl, delayedEntries_settles, hzero]
        exact le_refl _
      · intro id hmem
        refine ⟨?_, rfl⟩
        rcases List.mem_append.mp hmem with hold | hnew
        · exact hold
        · rcases mem_delayedEntries _ hnew with ⟨c, -, heq⟩ | ⟨id', heq⟩ <;> cases heq

theorem Durable.crash {past : History} {s s' : State} (hs : Durable D generate past s)
    (h : Moves D s .crash s') (hsworn : Everywhere (Sworn generate s'.owner) s') :
    Durable D generate (past ++ [⟨s, .crash, s'⟩]) s' := by
  have hmoves := h
  cases h with
  | crash =>
      have hsound : Sound (.start s.pending s.owner) := by
        apply sound_start hs.sound.pendingKeys
        intro id hid
        exact hs.sound.owned id (.inr (.inl hid))
      refine hs.of_unsent hmoves hsound hsworn rfl rfl ?_ ?_ ?_ ?_ ?_
      · intro id
        simp [State.atDelayed, State.atImmediate, State.start, held_empty]
      · rintro id ⟨⟩
      · intro id hmem
        simp [State.start] at hmem
      · intro id _
        simp [State.settled, State.start]
      · intro id hmem
        simp [State.start] at hmem

/-! ### Steps of the swapper -/

section Swapper

variable {past : History} {s s₁ : State} {msg : SwapperMessage} {R : StorageReplies}
  {pending : PendingTable} {sends : List Send}

theorem swapped_settled (h : Receives s msg s₁) (id : SwapID) :
    (s₁.swapped pending msg sends).settled id = s.settled id := by
  obtain ⟨-, -, -, hlog⟩ := receives_same h
  have hlog' : (s₁.swapped pending msg sends).log = s.log ++ swapperEntries msg sends := by
    simp [State.swapped, hlog]
  have hnone : (swapperEntries msg sends).countP (Entry.settles id) = 0 := by
    rw [List.countP_eq_zero]
    intro e he
    obtain ⟨id', -, rfl | rfl⟩ := mem_swapperEntries e he <;> simp [Entry.settles]
  rw [settled_append hlog', hnone, Nat.add_zero]

theorem receives_outputs (h : Receives s msg s₁) (id : SwapID)
    (hmem : .deleteSwap id ∈ s₁.immediateOut ∨ .deleteSwap id ∈ s₁.delayedOut) :
    .deleteSwap id ∈ s.immediateOut ∨ .deleteSwap id ∈ s.delayedOut := by
  cases h with
  | wallet h => exact hmem
  | immediate h => exact hmem.imp_left fun hout => h ▸ List.mem_cons_of_mem _ hout
  | delayed h => exact hmem.imp_right fun hout => h ▸ List.mem_cons_of_mem _ hout

theorem receives_deleteSwap {id : SwapID} (h : Receives s msg s₁)
    (hmsg : msg = .immediate (.deleteSwap id) ∨ msg = .delayed (.deleteSwap id)) :
    .deleteSwap id ∈ s.immediateOut ∨ .deleteSwap id ∈ s.delayedOut := by
  cases h with
  | @wallet msg rest h => cases msg <;> rcases hmsg with heq | heq <;> cases heq
  | @immediate msg rest h =>
      left
      rcases hmsg with heq | heq
      · cases heq
        simp [h]
      · cases heq
  | @delayed msg rest h =>
      right
      rcases hmsg with heq | heq
      · cases heq
      · cases heq
        simp [h]

/-- A swap that is not sent, and whose record stays, is recorded as before. -/
theorem Durable.recorded_unsent (hs : Durable D generate past s) (h : Receives s msg s₁)
    {id : SwapID} {s' : State} (hs' : s' = s₁.swapped pending msg (reduce D R msg).1)
    (hunsent : ∀ blob ∈ sentBlobs D (.swapper msg R), blob.id ≠ id)
    (hlookup : pending.lookup id = s.pending.lookup id)
    (hexposed : Exposed (past ++ [⟨s, .swapper msg R, s'⟩]) s' id) :
    Recorded D (past ++ [⟨s, .swapper msg R, s'⟩]) pending id := by
  have hbefore : Exposed past s id := by
    rcases hexposed with hat | hunsettled
    · left
      have hle : s'.atDelayed id + s'.atImmediate id ≤ _ := hs' ▸ swapped_child_le h id
      rw [sent_eq_zero_iff.mpr hunsent] at hle
      omega
    · rcases (unsettled_concat.mp hunsettled).2 with hold | hcall
      · exact .inr hold
      · cases hcall
  obtain ⟨blob, hblob, hold⟩ := hs.recorded id hbefore
  exact ⟨blob, (latest_concat_of_notMem hunsent).trans hblob, hlookup.trans hold⟩

/-- A swap whose deletion is handled is not exposed any more. -/
theorem Durable.deleted_unexposed (hs : Durable D generate past s) (h : Receives s msg s₁)
    {id : SwapID} {s' : State} (hs' : s' = s₁.swapped pending msg (reduce D R msg).1)
    (hsends : sentBlobs D (.swapper msg R) = [])
    (hmem : .deleteSwap id ∈ s.immediateOut ∨ .deleteSwap id ∈ s.delayedOut) :
    ¬ Exposed (past ++ [⟨s, .swapper msg R, s'⟩]) s' id := by
  have hpos := hs.emitted id hmem
  rintro (hat | hunsettled)
  · have hle : s'.atDelayed id + s'.atImmediate id ≤ _ := hs' ▸ swapped_child_le h id
    rw [sent_eq_zero_iff.mpr (by simp [hsends])] at hle
    have htoken := hs.sound.token id
    omega
  · rcases (unsettled_concat.mp hunsettled).2 with hold | hcall
    · have hzero := hs.unsettled id hold
      omega
    · cases hcall

theorem withPassword_eq_self {blob : SwapBlob} (h : blob.password = "") :
    blob.withPassword "" = blob := by
  rw [← h]
  rfl

/-- A `Bootload` sends what it lists, with its password. -/
theorem mem_bootload_sends {password : String} {pendingSwaps : List SwapBlob} {blob : SwapBlob}
    (hpending : R.pendingSwaps = .ok pendingSwaps)
    (h : blob ∈ sentBlobs D (.swapper (.bootload password) R)) :
    ∃ pendingSwap ∈ pendingSwaps, blob = pendingSwap.withPassword password := by
  obtain ⟨send, hsend, hblob⟩ := mem_sentBlobs h
  obtain ⟨-, hmsg | ⟨password', pendingSwaps', hmsg, hpending', pendingSwap, hmem, -, rfl⟩⟩ :=
    reduce_sends hsend hblob
  · cases hmsg
  · cases hmsg
    cases hpending.symm.trans hpending'
    exact ⟨pendingSwap, hmem, rfl⟩

theorem Durable.swapper_recorded (hs : Durable D generate past s) (h : Receives s msg s₁)
    (hwrites : Writes D s R msg pending) {s' : State}
    (hs' : s' = s₁.swapped pending msg (reduce D R msg).1) (id : SwapID)
    (hexposed : Exposed (past ++ [⟨s, .swapper msg R, s'⟩]) s' id) :
    Recorded D (past ++ [⟨s, .swapper msg R, s'⟩]) pending id := by
  cases hwrites with
  | @request _ blob hblob hsends =>
      have hsent : sentBlobs D (.swapper msg R) = [blob] := by
        simp [sentBlobs, hsends, handOver_blob]
      by_cases hid : id = blob.id
      · subst hid
        refine ⟨blob, latest_concat_of_mem (by simp [hsent]) (by simp [hsent]), ?_⟩
        exact Finmap.lookup_insert _
      · apply hs.recorded_unsent h hs' _ (Finmap.lookup_insert_of_ne _ hid) hexposed
        simpa [hsent] using Ne.symm hid
  | @bootload password pendingSwaps hpending hnodup hlists =>
      by_cases hsent : ∃ blob ∈ sentBlobs D (.swapper (.bootload password) R), blob.id = id
      · obtain ⟨blob, hmem, rfl⟩ := hsent
        obtain ⟨pendingSwap, hpend, rfl⟩ := mem_bootload_sends hpending hmem
        have hlookup := (hlists pendingSwap).mp hpend
        refine ⟨pendingSwap.withPassword password, latest_concat_of_mem hmem ?_, ?_⟩
        · intro blob' hmem' hid
          obtain ⟨pendingSwap', hpend', rfl⟩ := mem_bootload_sends hpending hmem'
          have hlookup' := (hlists pendingSwap').mp hpend'
          have hid : pendingSwap'.id = pendingSwap.id := hid
          rw [hid] at hlookup'
          rw [Option.some.inj (hlookup'.symm.trans hlookup)]
        · rw [SwapBlob.withPassword_withPassword, withPassword_eq_self (hs.blank _ _ hlookup)]
          exact hlookup
      · have hunsent : ∀ blob ∈ sentBlobs D (.swapper (.bootload password) R), blob.id ≠ id :=
          fun blob hmem hid => hsent ⟨blob, hmem, hid⟩
        exact hs.recorded_unsent h hs' hunsent rfl hexposed
  | @deleteSwap _ id' hmsg hsends =>
      by_cases hid : id = id'
      · subst hid
        exact absurd hexposed
          (hs.deleted_unexposed h hs' hsends (receives_deleteSwap h hmsg))
      · exact hs.recorded_unsent h hs' (by simp [hsends]) (Finmap.lookup_erase_ne hid) hexposed
  | quiet hsends => exact hs.recorded_unsent h hs' (by simp [hsends]) rfl hexposed

theorem Writes.blank (hwrites : Writes D s R msg pending)
    (h : Stores (fun blob => blob.password = "") s.pending) :
    Stores (fun blob => blob.password = "") pending := by
  cases hwrites with
  | request hblob hsends => exact h.insert _ rfl
  | bootload | quiet => exact h
  | deleteSwap hmsg hsends => exact h.erase _

/-- Whoever has a swap handed over in this life was served in it. -/
theorem handed_served {id : SwapID}
    (hsworn : ∀ send ∈ (reduce D R msg).1, ∀ blob, send.blob = some blob →
      send = handOver R blob ∧ Sworn generate s.owner blob)
    (hmem : .handed id ∈ swapperEntries msg (reduce D R msg).1) :
    ∃ password, s.owner.lookup id = some password ∧ Label.Serves password (.swapper msg R) := by
  obtain ⟨blob, hblob, hentry⟩ := List.mem_map.mp hmem
  obtain ⟨send, hsend, hsome⟩ := List.mem_filterMap.mp hblob
  obtain ⟨-, hlookup, -⟩ := hsworn send hsend blob hsome
  refine ⟨blob.password, ?_, ?_⟩
  · cases msg with
    | delayed msg => cases hentry
    | _ =>
        cases hentry
        exact hlookup
  · obtain ⟨-, hmsg | ⟨password, _, rfl, -, pendingSwap, -, -, rfl⟩⟩ := reduce_sends hsend hsome
    · cases msg with
      | swapRequest blob' =>
          cases hmsg
          rfl
      | delayed msg => cases hentry
      | _ => cases hmsg
    · rfl

/-- When passwords are loaded first, a `Bootload` resumes nothing that was handed over
    before in this life. -/
theorem Durable.resumes_unhanded (hbcrypt : Bcrypt D generate) (hs : Durable D generate past s)
    {s' : State} {l : Label} (h : Moves D s l s') (hfirst : BootloadsFirst past ⟨s, l, s'⟩) :
    ResumesUnhanded D s l := by
  cases l with
  | swapper msg R =>
      cases msg with
      | bootload password =>
          intro pendingSwaps hpending blob hmem hresumes hhanded
          cases h with
          | swapper hreceives hstored =>
              have hstored : _ ∧ Lists s.pending R.pendingSwaps := hstored
              have hlookup := (hstored.2 pendingSwaps hpending).2 blob hmem
              obtain ⟨posted, hsworn⟩ := hs.sworn.pending _ _ hlookup
              have howner := (sworn_resumes_iff hbcrypt hsworn password).mp hresumes
              obtain ⟨u, hu, password', howner', hserves⟩ := hs.served blob.id hhanded
              obtain rfl := Option.some.inj (howner.symm.trans howner')
              exact hfirst password R rfl u hu hserves
      | _ => trivial
  | _ => trivial

theorem Durable.swapper (hbcrypt : Bcrypt D generate) {s' : State}
    (hs : Durable D generate past s) (h : Moves D s (.swapper msg R) s')
    (hworks : StorageWorks s (.swapper msg R))
    (hfirst : BootloadsFirst past ⟨s, .swapper msg R, s'⟩)
    (hcarries : Carries D (Sworn generate s.owner) (Sworn generate s'.owner) s
      (.swapper msg R) s') :
    Durable D generate (past ++ [⟨s, .swapper msg R, s'⟩]) s' := by
  have hmoves := h
  have hsends := hs.sworn.moves_sends h hcarries
  have hunhanded := hs.resumes_unhanded hbcrypt h hfirst
  generalize hlabel : Label.swapper msg R = l at h
  cases h with
  | @swapper s₁ msg R pending h hstored =>
      cases hlabel
      have hwrites : Writes D s R msg pending := stored_writes hstored hworks
      refine ⟨swapper_sound hs.sound h hstored hunhanded, hs.sworn.moves hmoves hcarries,
        hwrites.blank hs.blank, fun id => hs.swapper_recorded h hwrites rfl id, ?_, ?_, ?_, ?_⟩
      · intro id blob hblob
        apply moves_lookup hmoves
        rcases latest_concat_cases hblob with ⟨hmem, rfl⟩ | hold
        · obtain ⟨send, hsend, hsome⟩ := mem_sentBlobs hmem
          exact (hsends send hsend blob hsome).2.1
        · exact hs.owners id blob hold
      · intro id hmem
        rw [swapped_settled h]
        exact hs.emitted id (receives_outputs h id hmem)
      · intro id hunsettled
        rw [swapped_settled h]
        rcases (unsettled_concat.mp hunsettled).2 with hold | hcall
        · exact hs.unsettled id hold
        · cases hcall
      · intro id hmem
        obtain ⟨-, -, -, hlog⟩ := receives_same h
        have hmem : .handed id ∈ s₁.log ++ swapperEntries msg (reduce D R msg).1 := hmem
        rw [hlog] at hmem
        rw [life_concat, if_neg (by simp [Label.isCrash])]
        rcases List.mem_append.mp hmem with hold | hnew
        · obtain ⟨u, hu, password, hlookup, hserves⟩ := hs.served id hold
          exact ⟨u, List.mem_append_left _ hu, password, moves_lookup hmoves hlookup, hserves⟩
        · obtain ⟨password, hlookup, hserves⟩ := handed_served hsends hnew
          exact ⟨_, List.mem_append_right _ (List.mem_singleton_self _), password,
            moves_lookup hmoves hlookup, hserves⟩
  | _ => cases hlabel

end Swapper

/-! ### Runs -/

theorem Durable.moves (hbcrypt : Bcrypt D generate) {past : History} {t : Transition State Label}
    (hs : Durable D generate past t.source) (h : Moves D t.source t.label t.target)
    (hworks : StorageWorks t.source t.label) (hposts : PostsAuthorized generate t.source)
    (hkeeps : KeepsHash t.label) (hfirst : BootloadsFirst past t) :
    Durable D generate (past ++ [t]) t.target := by
  obtain ⟨s, l, s'⟩ := t
  have hcarries := carries_sworn hbcrypt h hposts hkeeps
  have hsworn := hs.sworn.moves h hcarries
  cases l with
  | thread => exact hs.front h (.inl rfl) hsworn
  | wallet => exact hs.front h (.inr rfl) hsworn
  | swapper msg R => exact hs.swapper hbcrypt h hworks hfirst hcarries
  | immediate l => exact hs.immediate h hsworn
  | delayed l => exact hs.delayed h hkeeps.keepsIDs hsworn
  | crash => exact hs.crash h hsworn

/-- The swap that a message of the swapper to a child is for. -/
def Send.isFor (id : SwapID) (send : Send) : Bool := send.blob.any fun blob => blob.id = id

theorem filter_id_eq_singleton {blobs : List SwapBlob} (hnodup : (blobs.map SwapBlob.id).Nodup)
    {blob : SwapBlob} (hmem : blob ∈ blobs) :
    blobs.filter (fun blob' => blob'.id = blob.id) = [blob] := by
  induction blobs with
  | nil => cases hmem
  | cons head tail ih =>
      obtain ⟨hhead, htail⟩ := List.nodup_cons.mp hnodup
      rcases List.mem_cons.mp hmem with rfl | hmem
      · have hnone : tail.filter (fun blob' => blob'.id = blob.id) = [] := by
          rw [List.filter_eq_nil_iff]
          intro blob' hmem' hid
          exact hhead (List.mem_map.mpr ⟨blob', hmem', by simpa using hid⟩)
        rw [List.filter_cons_of_pos (by simp), hnone]
      · have hne : head.id ≠ blob.id := by
          intro heq
          exact hhead (heq ▸ List.mem_map_of_mem hmem)
        rw [List.filter_cons_of_neg (by simpa using hne)]
        exact ih htail hmem

theorem bootload_lists {s s' : State} {password : String} {R : StorageReplies}
    (h : Moves D s (.swapper (.bootload password) R) s')
    (hworks : StorageWorks s (.swapper (.bootload password) R)) :
    ∃ pendingSwaps, R.pendingSwaps = .ok pendingSwaps ∧ (pendingSwaps.map SwapBlob.id).Nodup ∧
      ∀ blob, blob ∈ pendingSwaps ↔ s.pending.lookup blob.id = some blob := by
  obtain ⟨pendingSwaps, hpending, hall⟩ := hworks
  cases h with
  | swapper _ hstored =>
      have hstored : _ ∧ Lists s.pending R.pendingSwaps := hstored
      obtain ⟨hnodup, hlookup⟩ := hstored.2 pendingSwaps hpending
      exact ⟨pendingSwaps, hpending, hnodup, fun blob => ⟨hlookup blob, hall blob.id blob⟩⟩

/-- A `Bootload` of the owner sends the most recent request again, once. -/
theorem Durable.bootload_sends (hbcrypt : Bcrypt D generate) {past : History} {s s' : State}
    {password : String} {R : StorageReplies} (hs : Durable D generate past s)
    (h : Moves D s (.swapper (.bootload password) R) s')
    (hworks : StorageWorks s (.swapper (.bootload password) R)) {id : SwapID}
    (hexposed : Exposed past s id) (howner : s.owner.lookup id = some password) :
    ∃ blob, latest D past id = some blob ∧
      (reduce D R (.bootload password)).1.filter (Send.isFor id) = [handOver R blob] := by
  obtain ⟨blob, hlatest, hlookup⟩ := hs.recorded id hexposed
  obtain rfl : password = blob.password :=
    Option.some.inj (howner.symm.trans (hs.owners id blob hlatest))
  have hid : blob.id = id := hs.sound.pendingKeys id (blob.withPassword "") hlookup
  subst hid
  obtain ⟨posted, hsworn⟩ := hs.sworn.pending _ _ hlookup
  have hresumes : resumes D blob.password (blob.withPassword "") = true :=
    (sworn_resumes_iff hbcrypt hsworn blob.password).mpr howner
  refine ⟨blob, hlatest, ?_⟩
  obtain ⟨pendingSwaps, hpending, hnodup, hlists⟩ := bootload_lists h hworks
  have hmem := (hlists (blob.withPassword "")).mpr hlookup
  have hone : pendingSwaps.filter (fun blob' => blob'.id = blob.id) = [blob.withPassword ""] :=
    filter_id_eq_singleton hnodup hmem
  have hisFor : Send.isFor blob.id ∘
      (fun pendingSwap : SwapBlob => handOver R (pendingSwap.withPassword blob.password)) =
        fun blob' : SwapBlob => decide (blob'.id = blob.id) := by
    funext blob'
    simp only [Function.comp_apply, Send.isFor, handOver_blob]
    rfl
  simp only [reduce, handleBootload, hpending]
  rw [List.filter_map, hisFor, List.filter_comm, hone, List.filter_cons_of_pos hresumes]
  rfl

/-- A `Bootload` is the only one, and comes after nothing but threads and the wallet since a
    restart. -/
theorem bootloadsFirst_restart {us vs : History} {c t : Transition State Label}
    (hfirst : ∀ u ∈ us, ∀ password R, u.label ≠ .swapper (.bootload password) R)
    (hcrash : c.label = .crash) (hfront : ∀ v ∈ vs, v.label = .thread ∨ v.label = .wallet) :
    ∀ us' t' vs', us ++ (c :: vs ++ [t]) = us' ++ t' :: vs' → BootloadsFirst us' t' := by
  have hnot : ∀ u ∈ us ++ c :: vs, ∀ password R, u.label ≠ .swapper (.bootload password) R := by
    intro u hu password R hlabel
    rcases List.mem_append.mp hu with hu | hu
    · exact hfirst u hu password R hlabel
    · rcases List.mem_cons.mp hu with rfl | hu
      · rw [hcrash] at hlabel
        cases hlabel
      · rcases hfront u hu with hu | hu <;> rw [hu] at hlabel <;> cases hlabel
  have hlife : life (us ++ c :: vs) = vs := by
    have hlive : ∀ v ∈ vs, v.label.isCrash = false := by
      intro v hv
      rcases hfront v hv with hv | hv <;> rw [hv] <;> rfl
    rw [← List.singleton_append, ← List.append_assoc, life_append _ hlive, life_concat, hcrash]
    rfl
  intro us' t' vs' heq password R hlabel
  rw [← List.append_assoc] at heq
  rcases List.eq_nil_or_concat vs' with rfl | ⟨vs', v, rfl⟩
  · obtain ⟨rfl, -⟩ := List.append_inj' heq rfl
    rw [hlife]
    intro u hu hserves
    rcases hfront u hu with hu | hu <;> rw [hu] at hserves <;> cases hserves
  · rw [List.concat_eq_append, ← List.cons_append, ← List.append_assoc] at heq
    obtain ⟨heq, -⟩ := List.append_inj' heq rfl
    exact absurd hlabel (hnot t' (by simp [heq]) password R)

theorem FillStep.works {blob filled : SwapBlob} {l : Label} (h : FillStep blob filled l)
    (s : State) : StorageWorks s l := by
  cases l with
  | swapper msg R =>
      obtain ⟨hmsg, rfl⟩ := h
      cases msg with
      | bootload password => exact absurd rfl (hmsg password)
      | _ => exact ⟨rfl, rfl⟩
  | _ => trivial

theorem FillStep.keepsHash {l : Label}
    (h : FillStep ownedBlob (hashedAnswer ownedBlob.passwordHash) l) : KeepsHash l := by
  cases l with
  | delayed l =>
      obtain rfl : l = fillReduction ownedBlob (hashedAnswer ownedBlob.passwordHash) := h
      intro c hc filled hfilled
      obtain rfl := List.mem_singleton.mp hc
      have hanswer := hfilled.symm.trans (hashedAnswer_verified ownedBlob.passwordHash)
      obtain rfl := Except.ok.inj hanswer
      exact ⟨rfl, rfl⟩
  | _ => trivial

theorem FillStep.not_deletes {blob filled : SwapBlob} {l : Label} (h : FillStep blob filled l)
    (id : SwapID) : ¬ l.Deletes id := by
  intro hdeletes
  cases l with
  | delayed l =>
      obtain rfl : l = fillReduction blob filled := h
      simp [Label.Deletes, fillReduction] at hdeletes
  | immediate l => cases h
  | _ => cases hdeletes

end Swapperd.Daemon
