/-
  Swapperd/DaemonSecrets.lean
  ===========================
  **The initiator can redeem with its own secret.**

  The secret hash of a swap is computed once, when it is posted, from its password and
  its ID.  The secret is computed when the immediate swapper has the swap: after it was
  stored without its password, resumed, or replaced by what a callback server answers.

  `initiator_can_redeem` — as long as an answer that makes the user the initiator keeps
  the ID and the secret hash, the two agree.  `verifyDelaySwap` checks neither
  (`strange_hash_initiated`).
-/
import Swapperd.DaemonRuns
import Swapperd.DaemonSwaps

namespace Swapperd.Daemon

open CallProgram RetryTask TransitionRuns GoLibrary

variable {D : Config} {H : Hashes}

/-! ### Sealed swaps -/

/-- A swap that waits to be filled, or that is to be initiated, has the password it was
    posted with and the secret hash that goes with it. -/
def Sealed (H : Hashes) (owner : Store SwapID String) (blob : SwapBlob) : Prop :=
  blob.delay = true ∨ blob.shouldInitiateFirst = true →
    owner.lookup blob.id = some blob.password ∧
      blob.secretHash = Handler.secretHash H blob.password blob.id

/-! ### Admission -/

/-- Every posted swap is admitted with the hash of its own secret, when it needs one. -/
theorem postSwapsHandler_secretHash {verifyBalance : VerifyBalance} {now : Int} {swapID : Bytes32}
    {swapReq blob : SwapBlob}
    (h : postSwapsHandler D verifyBalance now swapID swapReq = .ok blob)
    (hrole : blob.delay = true ∨ blob.shouldInitiateFirst = true) :
    blob.secretHash = Handler.secretHash D.H blob.password blob.id := by
  unfold postSwapsHandler at h
  split at h
  · obtain ⟨patched, hpatched, hsigned⟩ := except_bind_eq_ok_iff.mp h
    rw [Handler.signDelayInfo_ok hsigned]
    exact (Handler.patchDelayedSwap_ok hpatched).2.2
  · rename_i hdelay
    have hpatches := (Handler.patchSwap_patches h).1
    have hnow : blob.delay = false := by
      rw [hpatches]
      simpa using hdelay
    apply Handler.patchSwap_secretHash h
    simpa [hnow] using hrole

/-- A swap that was just admitted is sealed. -/
theorem admitted_sealed {owner : Store SwapID String} {verifyBalance : VerifyBalance} {now : Int}
    {swapID : Bytes32} {swapReq blob : SwapBlob}
    (h : postSwapsHandler D verifyBalance now swapID swapReq = .ok blob) :
    Sealed D.H (owner.insert blob.id blob.password) blob := by
  intro hrole
  refine ⟨?_, postSwapsHandler_secretHash h hrole⟩
  rw [Finmap.lookup_insert]

/-! ### Steps -/

/-- Swaps are resumed with the password that they were posted with. -/
def ResumesOwn (D : Config) (s : State) : Label → Prop
  | .swapper (.bootload password) R =>
      ∀ pendingSwaps, R.pendingSwaps = .ok pendingSwaps →
        ∀ blob ∈ pendingSwaps, resumes D password blob = true →
          ∀ posted, s.owner.lookup blob.id = some posted → password = posted
  | _ => True

/-- An answer that makes the user the initiator keeps the ID and the secret hash. -/
def KeepsSecret : Label → Prop
  | .delayed l => ∀ c ∈ l.calls, ∀ filled, Delayed.Call.answer c = .ok filled →
      filled.shouldInitiateFirst = true →
        filled.id = Delayed.Call.id c ∧ filled.secretHash = c.1.partialSwap.secretHash
  | _ => True

/-- A filled swap is sealed when the swap that waited is and the answer keeps its hash. -/
theorem filled_sealed {owner : Store SwapID String} {c : Delayed.Call} {filled : SwapBlob}
    (hanswer : Delayed.Call.answer c = .ok filled) (hdelay : c.1.partialSwap.delay = true)
    (hkeeps : filled.shouldInitiateFirst = true →
      filled.id = Delayed.Call.id c ∧ filled.secretHash = c.1.partialSwap.secretHash)
    {password : String} (h : Sealed H owner (c.1.partialSwap.withPassword password)) :
    Sealed H owner (filled.withPassword password) := by
  intro hrole
  have hnow := Delayed.answer_delay hanswer
  have hinitiates : filled.shouldInitiateFirst = true := by
    simpa [SwapBlob.withPassword, hnow] using hrole
  obtain ⟨hid, hhash⟩ := hkeeps hinitiates
  have hsealed := h (.inl hdelay)
  simp only [SwapBlob.withPassword] at hsealed ⊢
  rw [hid, hhash]
  exact hsealed

theorem carries_sealed {s s' : State} {l : Label} (h : Moves D s l s')
    (hown : ResumesOwn D s l) (hkeeps : KeepsSecret l) :
    Carries D (Sealed D.H s.owner) (Sealed D.H s'.owner) s l s' := by
  have hstays : ∀ blob, Sealed D.H s.owner blob → Sealed D.H s'.owner blob := by
    intro blob hsealed hrole
    obtain ⟨hlookup, hhash⟩ := hsealed hrole
    exact ⟨moves_lookup h hlookup, hhash⟩
  refine ⟨hstays, ?_, ?_, ?_⟩
  · intro now blob hadmitted
    obtain ⟨verifyBalance, swapID, swapReq, -, hposted⟩ := hadmitted.posted
    rw [hadmitted.owner]
    exact admitted_sealed hposted
  · -- the password of the `Bootload` is the one that the stored swap is sealed with
    rintro password R pendingSwaps rfl hpending blob hblob hresumes posted hsealed hrole
    obtain ⟨hlookup, hhash⟩ := hsealed hrole
    obtain rfl := hown pendingSwaps hpending blob hblob hresumes posted hlookup
    exact ⟨hlookup, hhash⟩
  · rintro reduction rfl c hc filled hanswer hdelay password hsealed
    exact hstays _ (filled_sealed hanswer hdelay (hkeeps c hc filled hanswer) hsealed)

/-! ### Runs -/

/-- The immediate swapper initiates the swap of a request. -/
def Label.Initiates (req : Immediate.SwapRequest) : Label → Prop
  | .immediate l => req.blob.shouldInitiateFirst = true ∧
      ∃ reply, ⟨.initiate req.native, reply⟩ ∈ l.calls
  | _ => False

/-- The secret that `initiate` computes for a request opens the request's secret hash. -/
def OpensOwnHash (H : Hashes) (req : Immediate.SwapRequest) : Prop :=
  let secret := H.sha3Sum256 (stringBytes req.blob.password ++ stringBytes req.blob.id)
  req.blob.secretHash = encodeToString (H.sha256 secret.1).1

theorem moves_sealed {s s' : State} {l : Label} (hs : Everywhere (Sealed D.H s.owner) s)
    (h : Moves D s l s') (hC : ResumesOwn D s l ∧ KeepsSecret l) :
    Everywhere (Sealed D.H s'.owner) s' :=
  hs.moves h (carries_sealed h hC.1 hC.2)

/-- From sealed swaps, what is initiated can be redeemed. -/
theorem initiates_opens {s s' : State} {l : Label} {req : Immediate.SwapRequest}
    (hs : Everywhere (Sealed D.H s.owner) s) (h : Moves D s l s') (hreq : l.Initiates req) :
    OpensOwnHash D.H req := by
  cases l with
  | immediate l =>
      obtain ⟨hrole, reply, hc⟩ := hreq
      cases h with
      | immediate h hstart hreduces =>
          have hsealed := (hs.immediate_requests h hstart hreduces).2 _ hc
          exact (hsealed (.inr hrole)).2
  | _ => cases hreq

/-- **The initiator can redeem.**  Over every run of the daemon, crashes included, in
    which swaps are resumed with the password they were posted with: when answers that
    make the user the initiator keep the ID and the secret hash, every swap that is
    initiated has the hash of the secret that `initiate` computes. -/
theorem initiator_can_redeem {s : State} {ts : List (Transition State Label)}
    (h : Run (Moves D) .init ts s) (hown : ∀ t ∈ ts, ResumesOwn D t.source t.label)
    (hkeeps : ∀ t ∈ ts, KeepsSecret t.label) :
    ∀ t ∈ ts, ∀ req, t.label.Initiates req → OpensOwnHash D.H req := by
  have hinit : Everywhere (Sealed D.H State.init.owner) State.init :=
    everywhere_start (stores_empty _)
  obtain ⟨-, hall⟩ := h.invariant (P := fun s => Everywhere (Sealed D.H s.owner) s)
    (C := fun s l => ResumesOwn D s l ∧ KeepsSecret l) moves_sealed hinit
    fun t ht => ⟨hown t ht, hkeeps t ht⟩
  intro t ht req hreq
  exact initiates_opens (hall t ht).1 (h.step_of_mem t ht) hreq

/-! ### A strange answer

A delayed swap; its callback server makes the user the initiator. -/

def delayedRequest : SwapBlob where
  sendToken := "BTC"
  receiveToken := "ETH"
  sendAmount := "20000"
  receiveAmount := "5000000000000000"
  delay := true
  delayCallbackURL := "http://localhost:8080/swap"
  password := "alice"
  passwordHash := "JDJhJDEwJA=="

def delayedBlob : SwapBlob :=
  { delayedRequest with
    id := encodeToString expiringID.1
    secretHash := encodeToString (zeroHashes.sha256 []).1
    timeLock := 1549021600 }

/-- What the server answers, with some secret hash. -/
def answeredBlob (secretHash : String) : SwapBlob :=
  { delayedBlob with
    sendTo := Builder.sampleBlob.sendTo
    receiveFrom := Builder.sampleBlob.receiveFrom
    secretHash := secretHash
    shouldInitiateFirst := true
    password := "" }

/-- What the immediate swapper gets. -/
def filledRequest (secretHash : String) : Immediate.SwapRequest :=
  ⟨{ answeredBlob secretHash with delay := false, password := "alice" }, ∅, ∅⟩

/-- A poll that fills a delayed swap. -/
def fillReduction (blob filled : SwapBlob) : DelayedReduction where
  input := .request blob
  events := [⟨.post (blob.withPassword ""), (), (), .answered 200 "" (.ok filled), ()⟩]
  output :=
    [.receiptUpdate ⟨filled.id, .fill filled.receiveAmount filled.sendAmount filled.timeLock⟩,
      .swapRequest { filled with delay := false, password := blob.password }]

theorem fill_reduces {blob filled : SwapBlob}
    (h : Delayed.verifyDelaySwap (blob.withPassword "") filled =
      .ok { filled with delay := false }) (swapMap : Delayed.SwapMap) :
    Reduces unconstrained Delayed.task (swapMap, ()) (fillReduction blob filled)
      (swapMap.erase filled.id, ()) := by
  refine ⟨trivial, .call trivial ?_⟩
  have hread : Delayed.readReply (blob.withPassword "") (.answered 200 "" (.ok filled)) =
      .ok { filled with delay := false } := h
  simp only [Program.pure_eq, Program.bind, hread]
  exact .pure _ _

def filledReduction (secretHash : String) : DelayedReduction where
  input := .request delayedBlob
  events :=
    [⟨.post (delayedBlob.withPassword ""), (), (), .answered 200 "" (.ok (answeredBlob secretHash)),
      ()⟩]
  output :=
    [.receiptUpdate ⟨delayedBlob.id,
        .fill delayedBlob.receiveAmount delayedBlob.sendAmount delayedBlob.timeLock⟩,
      .swapRequest (filledRequest secretHash).blob]

def initiatedReduction (secretHash : String) : ImmediateReduction where
  input := .request (filledRequest secretHash)
  events :=
    [⟨.buildSwapContracts (filledRequest secretHash), (), (), .ok (), ()⟩,
      ⟨.initiate (filledRequest secretHash).native, (), (), .ok (), ()⟩,
      ⟨.audit (filledRequest secretHash).foreign, (), (), .error .auditPending, ()⟩]
  output := [.receiptUpdate (Immediate.newReceiptUpdate delayedBlob.id .auditPending)]

theorem delayed_admitted :
    postSwapsHandler sampleConfig (fun _ _ _ => .ok ()) 1549000000 expiringID delayedRequest =
      .ok delayedBlob := by
  decide +kernel

/-- An answer that keeps the amounts of the sample is accepted. -/
theorem sample_verified {blob answer : SwapBlob} (hsend : blob.sendAmount = "20000")
    (hreceive : blob.receiveAmount = "5000000000000000") (hminimum : blob.minimumReceiveAmount = "")
    (hsends : answer.sendAmount = blob.sendAmount)
    (hreceives : answer.receiveAmount = blob.receiveAmount) :
    Delayed.verifyDelaySwap (blob.withPassword "") answer = .ok { answer with delay := false } := by
  have hsend' : setString (blob.withPassword "").sendAmount = some 20000 := by
    rw [show (blob.withPassword "").sendAmount = "20000" from hsend]
    decide
  have hreceive' : setString (blob.withPassword "").receiveAmount = some 5000000000000000 := by
    rw [show (blob.withPassword "").receiveAmount = "5000000000000000" from hreceive]
    decide
  have hminimum' : (setString (blob.withPassword "").minimumReceiveAmount).getD 0 ≤
      5000000000000000 := by
    rw [show (blob.withPassword "").minimumReceiveAmount = "" from hminimum]
    decide
  exact Delayed.verifyDelaySwap_same hsend' hreceive' hminimum' hsends hreceives

theorem answered_verified (secretHash : String) :
    Delayed.verifyDelaySwap (delayedBlob.withPassword "") (answeredBlob secretHash) =
      .ok { answeredBlob secretHash with delay := false } :=
  sample_verified rfl rfl rfl rfl rfl

theorem filled_reduces (secretHash : String) (swapMap : Delayed.SwapMap) :
    Reduces unconstrained Delayed.task (swapMap, ()) (filledReduction secretHash)
      (swapMap.erase delayedBlob.id, ()) :=
  fill_reduces (answered_verified secretHash) swapMap

theorem initiated_reduces (secretHash : String) (swapMap : Immediate.SwapMap) :
    Reduces unconstrained (Immediate.task sampleConfig.H) (swapMap, ())
      (initiatedReduction secretHash)
      (swapMap.insert delayedBlob.id (filledRequest secretHash), ()) :=
  ⟨trivial, .call trivial (.call trivial (.call trivial (.pure _ _)))⟩

/-- A delayed swap that is posted, filled and initiated. -/
theorem filled_run (secretHash : String) : ∃ s ts, Run (Moves sampleConfig) .init ts s ∧
    (∀ t ∈ ts, ResumesOwn sampleConfig t.source t.label) ∧
    (secretHash = delayedBlob.secretHash → ∀ t ∈ ts, KeepsSecret t.label) ∧
    ∃ t ∈ ts, t.label.Initiates (filledRequest secretHash) := by
  refine ⟨_, _, .cons (.http (.postSwaps delayedRequest)) <|
    .cons (@Moves.notBootloaded _ _ [] [] _ rfl (by simp [State.init, State.start])) <|
    .cons (@Moves.writeBootload _ _ [] [] _ rfl) <|
    .cons (@Moves.setBootloaded _ _ [] [] _ rfl) <|
    .cons (@Moves.patch _ _ [] [] _ _ _ _ _ rfl delayed_admitted Finmap.notMem_empty) <|
    .cons (@Moves.writeRequest _ _ [] [] _ rfl) <|
    .cons (.accept rfl) <| .cons (.accept rfl) <| .cons (.wallet rfl) <| .cons (.wallet rfl) <|
    .cons (swapper_moves (R := storageReplies []) (.wallet rfl)
      ⟨rfl, by simp [Lists, storageReplies]⟩ rfl) <|
    .cons (swapper_moves (R := storageReplies []) (.wallet rfl) (.inl rfl) rfl) <|
    .cons (.delayed (l := filledReduction secretHash) rfl rfl (filled_reduces secretHash _)) <|
    .cons (swapper_moves (R := storageReplies []) (.delayed rfl) rfl rfl) <|
    .cons (swapper_moves (R := storageReplies []) (.delayed rfl) (.inl rfl) rfl) <|
    .cons (.immediate (l := initiatedReduction secretHash) rfl rfl
      (initiated_reduces secretHash _)) (.nil _), ?_, ?_, ?_⟩
  · simp [ResumesOwn, toSwapper, storageReplies]
  · rintro rfl
    have hkeeps : KeepsSecret (.delayed (filledReduction delayedBlob.secretHash)) := by
      intro c hc filled hfilled _
      obtain rfl := List.mem_singleton.mp hc
      have hanswer := hfilled.symm.trans (answered_verified delayedBlob.secretHash)
      obtain rfl := Except.ok.inj hanswer
      exact ⟨rfl, rfl⟩
    simpa [KeepsSecret] using hkeeps
  · refine ⟨_, List.mem_of_getLast? rfl, rfl, .ok (), ?_⟩
    simp [initiatedReduction, Reduction.calls, Event.call]

theorem initiator_can_redeem_filled : ∃ s ts, Run (Moves sampleConfig) .init ts s ∧
    (∃ t ∈ ts, t.label.Initiates (filledRequest delayedBlob.secretHash)) ∧
    ∀ t ∈ ts, ∀ req, t.label.Initiates req → OpensOwnHash sampleConfig.H req := by
  obtain ⟨s, ts, hrun, hown, hkeeps, hinitiates⟩ := filled_run delayedBlob.secretHash
  exact ⟨s, ts, hrun, hinitiates, initiator_can_redeem hrun hown (hkeeps rfl)⟩

/-- The server answers with a secret hash of its own, and the swap is initiated with
    it. -/
theorem strange_hash_initiated : ∃ s ts, Run (Moves sampleConfig) .init ts s ∧
    (∀ t ∈ ts, ResumesOwn sampleConfig t.source t.label) ∧
    ∃ t ∈ ts, ∃ req, t.label.Initiates req ∧ ¬ OpensOwnHash sampleConfig.H req := by
  obtain ⟨s, ts, hrun, hown, -, t, ht, hinitiates⟩ := filled_run Builder.sampleBlob.secretHash
  refine ⟨s, ts, hrun, hown, t, ht, _, hinitiates, ?_⟩
  unfold OpensOwnHash
  decide +kernel

end Swapperd.Daemon
