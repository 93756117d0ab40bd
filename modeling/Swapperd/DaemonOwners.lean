/-
  Swapperd/DaemonOwners.lean
  ==========================
  **A pending swap is resumed by its owner only.**

  A swap is posted with a bcrypt hash of its password, and stored with the hash and
  without the password.  A `Bootload` resumes it when its own password fits the hash, or
  when there is no hash.

  `resumed_by_owner` — as long as every answer that fills a swap has a hash of the password
  that the swap was posted with, no other password resumes it.  `verifyDelaySwap` does not
  look at the hash (`answer_without_hash_resumed`).
-/
import Swapperd.DaemonSecrets

namespace Swapperd.Daemon

open CallProgram RetryTask TransitionRuns GoLibrary

variable {D : Config} {generate : String → List UInt8 → Prop}

/-! ### Hashes of passwords -/

/-- What is relied on of bcrypt, for the hashes that `GenerateFromPassword` can make: none is
    empty, and each compares equal with the password that was hashed, and no other. -/
structure Bcrypt (D : Config) (generate : String → List UInt8 → Prop) : Prop where
  nonempty : ∀ {password hash}, generate password hash → hash ≠ []
  compare : ∀ {password hash}, generate password hash → ∀ q,
    D.compareHashAndPassword hash q = true ↔ q = password

/-- The request that the server makes of a posted body: it gets the password of the caller
    and a hash of it. -/
def authorize (password : String) (hash : List UInt8) (body : SwapBlob) : SwapBlob :=
  { body with password := password, passwordHash := encodeToString hash }

/-- Every request to post a swap was made by the server. -/
def PostsAuthorized (generate : String → List UInt8 → Prop) (s : State) : Prop :=
  ∀ swapReq, .handle (.postSwaps swapReq) ∈ s.threads → ∃ password hash body,
    generate password hash ∧ swapReq = authorize password hash body

/-- The swap has a hash of the password that it was posted with. -/
def Owned (generate : String → List UInt8 → Prop) (owner : Store SwapID String)
    (blob : SwapBlob) : Prop :=
  ∃ password hash, owner.lookup blob.id = some password ∧ generate password hash ∧
    blob.passwordHash = encodeToString hash

@[simp] theorem owned_withPassword {owner : Store SwapID String} {blob : SwapBlob}
    {password : String} :
    Owned generate owner (blob.withPassword password) ↔ Owned generate owner blob := Iff.rfl

/-- An answer that fills a swap has, for the swap that it names, a hash of the swap's
    password. -/
def FillsOwned (generate : String → List UInt8 → Prop) (s : State) : Label → Prop
  | .delayed l => ∀ c ∈ l.calls, ∀ filled, Delayed.Call.answer c = .ok filled →
      Owned generate s.owner filled
  | _ => True

theorem encodeToString_ne {hash : List UInt8} (h : hash ≠ []) : encodeToString hash ≠ "" := by
  intro hempty
  have hdecode := decodeString_encodeToString hash
  rw [hempty] at hdecode
  exact h (Option.some.inj hdecode).symm

/-- The password that resumes a swap which has a hash is its own. -/
theorem owned_resumes (hbcrypt : Bcrypt D generate) {owner : Store SwapID String}
    {blob : SwapBlob} (howned : Owned generate owner blob) {q : String}
    (hresumes : resumes D q blob = true) : owner.lookup blob.id = some q := by
  obtain ⟨password, hash, hlookup, hgenerate, hhash⟩ := howned
  unfold resumes at hresumes
  rw [hhash, if_neg (encodeToString_ne (hbcrypt.nonempty hgenerate)),
    decodeString_encodeToString] at hresumes
  rw [hlookup, (hbcrypt.compare hgenerate q).mp hresumes]

/-! ### Runs -/

theorem admitted_owned {s s' : State} {now : Int} {blob : SwapBlob}
    (hposts : PostsAuthorized generate s) (h : Admitted D s s' now blob) :
    Owned generate s'.owner blob := by
  obtain ⟨verifyBalance, swapID, swapReq, hthread, hposted⟩ := h.posted
  obtain ⟨password, hash, body, hgenerate, rfl⟩ := hposts swapReq hthread
  have hpatches := postSwapsHandler_patches hposted
  refine ⟨password, hash, ?_, hgenerate, ?_⟩
  · have hpassword : blob.password = password := by
      rw [hpatches]
      rfl
    rw [h.owner, Finmap.lookup_insert, hpassword]
  · rw [hpatches]
    rfl

theorem Owned.moves {s s' : State} {l : Label} {blob : SwapBlob}
    (howned : Owned generate s.owner blob) (h : Moves D s l s') : Owned generate s'.owner blob := by
  obtain ⟨password, hash, hlookup, hrest⟩ := howned
  exact ⟨password, hash, moves_lookup h hlookup, hrest⟩

theorem carries_owned {s s' : State} {l : Label} (h : Moves D s l s')
    (hposts : PostsAuthorized generate s) (hfills : FillsOwned generate s l) :
    Carries D (Owned generate s.owner) (Owned generate s'.owner) s l s' := by
  refine ⟨fun blob howned => howned.moves h, ?_, ?_, ?_⟩
  · intro now blob hadmitted
    exact admitted_owned hposts hadmitted
  · intro password R pendingSwaps _ _ blob _ _ posted howned
    exact howned
  · rintro reduction rfl c hc filled hanswer - password -
    exact Owned.moves (hfills c hc filled hanswer) h

/-- What a `Bootload` sends in a state where every swap has its hash. -/
theorem bootload_owned {s s' : State} {password : String} {R : StorageReplies}
    (hbcrypt : Bcrypt D generate) (hs : Everywhere (Owned generate s.owner) s)
    (h : Moves D s (.swapper (.bootload password) R) s')
    (hcarries : Carries D (Owned generate s.owner) (Owned generate s'.owner) s
      (.swapper (.bootload password) R) s') :
    ∀ send ∈ (reduce D R (.bootload password)).1, ∀ blob, send.blob = some blob →
      blob.password = password ∧ s.owner.lookup blob.id = some password := by
  intro send hsend blob hblob
  have howned := (hs.moves_sends h hcarries send hsend blob hblob).2
  obtain ⟨-, hmsg | ⟨_, _, hmsg, -, pendingSwap, -, hresumes, rfl⟩⟩ := reduce_sends hsend hblob
  · cases hmsg
  · cases hmsg
    exact ⟨rfl, owned_resumes hbcrypt (owned_withPassword.mp howned) hresumes⟩

/-- **Only the owner resumes.**  Over every run of the daemon, crashes included, in which
    the server posts swaps with a hash of their password: when every answer that fills a
    swap has a hash of that swap's password, a `Bootload` sends swaps with its password only
    when they were posted with it. -/
theorem resumed_by_owner (hbcrypt : Bcrypt D generate) {s : State}
    {ts : List (Transition State Label)} (h : Run (Moves D) .init ts s)
    (hposts : ∀ t ∈ ts, PostsAuthorized generate t.source)
    (hfills : ∀ t ∈ ts, FillsOwned generate t.source t.label) :
    ∀ t ∈ ts, ∀ password R, t.label = .swapper (.bootload password) R →
      ∀ send ∈ (reduce D R (.bootload password)).1, ∀ blob, send.blob = some blob →
        blob.password = password ∧ t.source.owner.lookup blob.id = some password := by
  have hstep : ∀ {s l s'}, Everywhere (Owned generate s.owner) s → Moves D s l s' →
      PostsAuthorized generate s ∧ FillsOwned generate s l →
        Everywhere (Owned generate s'.owner) s' := by
    intro s l s' hs hmoves hC
    exact hs.moves hmoves (carries_owned hmoves hC.1 hC.2)
  obtain ⟨-, hall⟩ := h.invariant (P := fun s => Everywhere (Owned generate s.owner) s) hstep
    (everywhere_start (stores_empty _)) fun t ht => ⟨hposts t ht, hfills t ht⟩
  intro t ht password R hlabel
  have hmoves := h.step_of_mem t ht
  have hcarries := carries_owned hmoves (hposts t ht) (hfills t ht)
  rw [hlabel] at hmoves hcarries
  exact bootload_owned hbcrypt (hall t ht).1 hmoves hcarries

/-! ### An answer without a hash

The server of a delayed swap answers with some password hash; the daemon is restarted,
and somebody sends a request. -/

/-- A hash that keeps the password as it is. -/
def plainHash (password : String) : List UInt8 := 36 :: stringBytes password

def ownerConfig : Config :=
  { sampleConfig with compareHashAndPassword := fun hash q => hash = plainHash q }

theorem plain_bcrypt : Bcrypt ownerConfig fun password hash => hash = plainHash password where
  nonempty := by simp [plainHash]
  compare := by
    rintro password hash rfl q
    simp [ownerConfig, plainHash, stringBytes_inj, eq_comm]

def ownedRequest : SwapBlob := authorize "alice" (plainHash "alice") delayedRequest

def ownedBlob : SwapBlob :=
  { delayedBlob with passwordHash := encodeToString (plainHash "alice") }

def hashedAnswer (passwordHash : String) : SwapBlob :=
  { answeredBlob delayedBlob.secretHash with passwordHash := passwordHash }

/-- The swap as it is stored when it is filled. -/
def hashedBlob (passwordHash : String) : SwapBlob :=
  { hashedAnswer passwordHash with delay := false }

theorem owned_admitted :
    postSwapsHandler ownerConfig (fun _ _ _ => .ok ()) 1549000000 expiringID ownedRequest =
      .ok ownedBlob := by
  decide +kernel

theorem hashedAnswer_verified (passwordHash : String) :
    Delayed.verifyDelaySwap (ownedBlob.withPassword "") (hashedAnswer passwordHash) =
      .ok (hashedBlob passwordHash) :=
  sample_verified rfl rfl rfl rfl rfl

theorem bootload_hashed {passwordHash q : String}
    (h : resumes ownerConfig q (hashedBlob passwordHash) = true) :
    (reduce ownerConfig (storageReplies [hashedBlob passwordHash]) (.bootload q)).1 =
      [.immediate (.request ⟨(hashedBlob passwordHash).withPassword q, ∅, ∅⟩)] := by
  simp only [reduce, handleBootload, storageReplies]
  rw [List.filter_cons_of_pos h]
  rfl

def PostsNothing (s : State) : Prop := ∀ swapReq, .handle (.postSwaps swapReq) ∉ s.threads

/-- The steps that restart the daemon and load a password. -/
def RestartStep (password : String) (R : StorageReplies) : Label → Prop
  | .crash | .thread | .wallet => True
  | .swapper msg R' => msg = .bootload password ∧ R' = R
  | _ => False

/-- From every state the daemon can be restarted, and a password be loaded. -/
theorem restart_run (s : State) (q : String) {R : StorageReplies}
    (hlists : Lists s.pending R.pendingSwaps) :
    ∃ c vs t, Run (Moves D) s (c :: vs ++ [t]) t.target ∧ c.source = s ∧ c.label = .crash ∧
      (∀ v ∈ vs, v.label = .thread ∨ v.label = .wallet) ∧
      (∀ v ∈ c :: vs ++ [t], RestartStep q R v.label) ∧
      (∀ v ∈ vs ++ [t], PostsNothing v.source) ∧ t.label = .swapper (.bootload q) R ∧
      t.source.owner = s.owner ∧ t.source.pending = s.pending := by
  refine ⟨_, [_, _, _, _, _], _, .cons .crash <| .cons (.http (.get q)) <|
    .cons (@Moves.notBootloaded _ _ [] [] _ rfl (by simp [State.start])) <|
    .cons (@Moves.writeBootload _ _ [] [] _ rfl) <| .cons (.accept rfl) <| .cons (.wallet rfl) <|
    .cons (swapper_moves (R := R) (.wallet rfl) ⟨rfl, hlists⟩ rfl) (.nil _), rfl, rfl, ?_, ?_, ?_,
    rfl, rfl, rfl⟩
  · simp
  · simp [RestartStep, toSwapper, Request.password]
  · simp [PostsNothing, State.start]

/-- The steps that post and fill a swap: the storage works, and nothing is loaded. -/
def FillStep (blob filled : SwapBlob) : Label → Prop
  | .thread | .wallet => True
  | .swapper msg R => (∀ password, msg ≠ .bootload password) ∧ R = storageReplies []
  | .delayed l => l = fillReduction blob filled
  | _ => False

/-- A swap that is posted and filled. -/
theorem hashed_fill_run (passwordHash : String) : ∃ s ts, Run (Moves ownerConfig) .init ts s ∧
    (∀ t ∈ ts, PostsAuthorized (fun password hash => hash = plainHash password) t.source) ∧
    (passwordHash = ownedBlob.passwordHash → ∀ t ∈ ts,
      FillsOwned (fun password hash => hash = plainHash password) t.source t.label) ∧
    (∀ t ∈ ts, FillStep ownedBlob (hashedAnswer passwordHash) t.label) ∧
    (∃ t ∈ ts, t.label = .delayed (fillReduction ownedBlob (hashedAnswer passwordHash))) ∧
    s.pending.lookup ownedBlob.id = some (hashedBlob passwordHash) ∧
    (∀ id blob, s.pending.lookup id = some blob → blob = hashedBlob passwordHash) ∧
    s.owner.lookup ownedBlob.id = some "alice" ∧ PostsNothing s := by
  refine ⟨_, _, .cons (.http (.postSwaps ownedRequest)) <|
    .cons (@Moves.notBootloaded _ _ [] [] _ rfl (by simp [State.init, State.start])) <|
    .cons (@Moves.bootloadFailed _ _ [] [] _ rfl) <|
    .cons (@Moves.patch _ _ [] [] _ _ _ _ _ rfl owned_admitted Finmap.notMem_empty) <|
    .cons (@Moves.writeRequest _ _ [] [] _ rfl) <| .cons (.accept rfl) <| .cons (.wallet rfl) <|
    .cons (swapper_moves (R := storageReplies []) (.wallet rfl) (.inl rfl) rfl) <|
    .cons (.delayed (l := fillReduction ownedBlob (hashedAnswer passwordHash)) rfl rfl
      (fill_reduces (hashedAnswer_verified passwordHash) _)) <|
    .cons (swapper_moves (R := storageReplies []) (.delayed rfl) rfl rfl) <|
    .cons (swapper_moves (R := storageReplies []) (.delayed rfl) (.inl rfl) rfl) (.nil _),
    ?_, ?_, ?_, ?_, Finmap.lookup_insert _, ?_, Finmap.lookup_insert _, ?_⟩
  · simpa [PostsAuthorized, State.init, State.start, State.swapped] using
      ⟨"alice", delayedRequest, rfl⟩
  · rintro rfl
    have hfills : ∀ s : State, s.owner.lookup ownedBlob.id = some "alice" →
        FillsOwned (fun password hash => hash = plainHash password) s
          (.delayed (fillReduction ownedBlob (hashedAnswer ownedBlob.passwordHash))) := by
      intro s howner c hc filled hfilled
      obtain rfl := List.mem_singleton.mp hc
      have hanswer := hfilled.symm.trans (hashedAnswer_verified ownedBlob.passwordHash)
      obtain rfl := Except.ok.inj hanswer
      exact ⟨"alice", _, howner, rfl, rfl⟩
    simp only [List.forall_mem_cons, FillsOwned, List.not_mem_nil, false_implies, implies_true,
      and_true, true_and]
    apply hfills
    exact Finmap.lookup_insert _
  · simp [FillStep, toSwapper]
  · simp
  · intro id blob hlookup
    by_cases hid : id = ownedBlob.id
    · subst hid
      exact Option.some.inj (hlookup.symm.trans (Finmap.lookup_insert _))
    · have hnone := hlookup.symm.trans ((Finmap.lookup_insert_of_ne _ hid).trans
        (Finmap.lookup_insert_of_ne _ hid))
      cases hnone
  · simp [PostsNothing, State.swapped]

/-- A stored swap may be all that is listed. -/
theorem lists_singleton {pending : PendingTable} {blob : SwapBlob}
    (h : pending.lookup blob.id = some blob) :
    Lists pending (storageReplies [blob]).pendingSwaps := by
  intro pendingSwaps hlisted
  cases hlisted
  refine ⟨by simp, ?_⟩
  intro blob hblob
  obtain rfl := List.mem_singleton.mp hblob
  exact h

/-- The swap is posted, filled and, after a restart, resumed. -/
theorem hashed_run (passwordHash q : String) : ∃ s ts, Run (Moves ownerConfig) .init ts s ∧
    (∀ t ∈ ts, PostsAuthorized (fun password hash => hash = plainHash password) t.source) ∧
    (passwordHash = ownedBlob.passwordHash → ∀ t ∈ ts,
      FillsOwned (fun password hash => hash = plainHash password) t.source t.label) ∧
    ∃ t ∈ ts, t.label = .swapper (.bootload q) (storageReplies [hashedBlob passwordHash]) ∧
      t.source.owner.lookup ownedBlob.id = some "alice" := by
  obtain ⟨s, ts, hrun, hposts, hfills, -, -, hpending, -, howner, hnone⟩ :=
    hashed_fill_run passwordHash
  obtain ⟨c, vs, t, hrest, rfl, -, -, hsteps, hnothing, hlabel, howner', -⟩ :=
    restart_run (D := ownerConfig) s q (@lists_singleton _ (hashedBlob passwordHash) hpending)
  refine ⟨_, _, hrun.append hrest, ?_, ?_, t, by simp, hlabel, by rw [howner', howner]⟩
  · intro u hu
    rcases List.mem_append.mp hu with hu | hu
    · exact hposts u hu
    · have hquiet : PostsNothing u.source := by
        rcases List.mem_cons.mp hu with rfl | hu
        · exact hnone
        · exact hnothing u hu
      exact fun swapReq hmem => absurd hmem (hquiet swapReq)
  · intro hhash u hu
    rcases List.mem_append.mp hu with hu | hu
    · exact hfills hhash u hu
    · have hstep := hsteps u hu
      generalize u.label = l at hstep ⊢
      cases l with
      | immediate | delayed => cases hstep
      | _ => trivial

theorem resumed_by_owner_filled : ∃ s ts, Run (Moves ownerConfig) .init ts s ∧
    (∃ t ∈ ts, t.label = .swapper (.bootload "alice")
      (storageReplies [hashedBlob ownedBlob.passwordHash])) ∧
    ∀ t ∈ ts, ∀ password R, t.label = .swapper (.bootload password) R →
      ∀ send ∈ (reduce ownerConfig R (.bootload password)).1, ∀ blob, send.blob = some blob →
        blob.password = password ∧ t.source.owner.lookup blob.id = some password := by
  have hresumes : resumes ownerConfig "alice" (hashedBlob ownedBlob.passwordHash) = true := by
    decide +kernel
  obtain ⟨s, ts, hrun, hposts, hfills, t, ht, hlabel, -⟩ :=
    hashed_run ownedBlob.passwordHash "alice"
  exact ⟨s, ts, hrun, ⟨t, ht, hlabel⟩, resumed_by_owner plain_bcrypt hrun hposts (hfills rfl)⟩

/-- The server leaves the hash out, and anybody resumes the swap with a password of his
    own. -/
theorem answer_without_hash_resumed : ∃ s ts, Run (Moves ownerConfig) .init ts s ∧
    (∀ t ∈ ts, PostsAuthorized (fun password hash => hash = plainHash password) t.source) ∧
    ∃ t ∈ ts, ∃ R, t.label = .swapper (.bootload "bob") R ∧
      ∃ send ∈ (reduce ownerConfig R (.bootload "bob")).1, ∃ blob, send.blob = some blob ∧
        blob.password = "bob" ∧ t.source.owner.lookup blob.id = some "alice" := by
  have hresumes : resumes ownerConfig "bob" (hashedBlob "") = true := rfl
  obtain ⟨s, ts, hrun, hposts, -, t, ht, hlabel, howner⟩ := hashed_run "" "bob"
  refine ⟨s, ts, hrun, hposts, t, ht, _, hlabel, ?_⟩
  rw [bootload_hashed hresumes]
  exact ⟨_, List.mem_singleton_self _, _, rfl, rfl, howner⟩

end Swapperd.Daemon
