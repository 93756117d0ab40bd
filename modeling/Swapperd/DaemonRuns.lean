/-
  Swapperd/DaemonRuns.lean
  ========================
  **No double execution across tasks.**

  `no_double_execution` — as long as no `Bootload` resumes a swap that was handed over
  before, nothing is done for a swap after the child that had it is done with it, and no
  swap is filled twice.

  `late_bootload_executes_twice` — two requests of one user can make a `Bootload` do so.
-/
import Swapperd.DaemonTokens

namespace Swapperd.Daemon

open CallProgram RetryTask TransitionRuns GoLibrary

variable {D : Config}

/-! ### Runs -/

/-- Callbacks keep the ID of the swap they fill. -/
def KeepsIDs : Label → Prop
  | .delayed l => Delayed.KeepsIDs l
  | _ => True

theorem moves_sound {s s' : State} {l : Label} (hs : Sound s) (h : Moves D s l s')
    (hC : KeepsIDs l ∧ ResumesUnhanded D s l) : Sound s' := by
  cases l with
  | thread => exact front_sound hs h (.inl rfl)
  | wallet => exact front_sound hs h (.inr rfl)
  | swapper msg R =>
      cases h with
      | swapper h hstored => exact swapper_sound hs h hstored hC.2
  | immediate l =>
      cases h with
      | immediate h hstart hreduces => exact immediate_sound hs h hstart hreduces
  | delayed l =>
      cases h with
      | delayed h hstart hreduces => exact delayed_sound hs h hstart hreduces hC.1
  | crash =>
      cases h with
      | crash =>
          apply sound_start hs.pendingKeys
          intro id hid
          exact hs.owned id (.inr (.inl hid))

/-- **No double execution.**  However threads, queues and tasks interleave, when
    callbacks keep IDs and no `Bootload` resumes a swap that was handed over before, no
    child calls anything for a swap after one is done with it, and no delayed swap is
    filled twice. -/
theorem no_double_execution {s : State} {ts : List (Transition State Label)}
    (h : Run (Moves D) .init ts s) (hkeeps : ∀ t ∈ ts, KeepsIDs t.label)
    (hresumes : ∀ t ∈ ts, ResumesUnhanded D t.source t.label) :
    ∀ t ∈ ts, Single t.target.log := by
  have hinit : Sound State.init := by
    apply sound_start (keysAgree_empty _)
    intro id hid
    exact absurd hid Finmap.notMem_empty
  obtain ⟨-, hall⟩ := h.invariant (P := Sound)
    (C := fun s l => KeepsIDs l ∧ ResumesUnhanded D s l) moves_sound hinit
    fun t ht => ⟨hkeeps t ht, hresumes t ht⟩
  intro t ht
  exact (hall t ht).2.single

/-! ### Two threads that bootload

A swap to execute now; its counterparty funds nothing, so that it expires. -/

def sampleConfig : Config where
  H := zeroHashes
  W := Builder.responderWallet
  J := ⟨fun _ => [], fun message _ => .ok message⟩
  compareHashAndPassword _ _ := true

def expiringRequest : SwapBlob :=
  { Builder.sampleBlob with id := "", password := "alice", passwordHash := "JDJhJDEwJA==" }

def expiringID : Bytes32 := zeroHashes.sha256 []

def expiringBlob : SwapBlob := { expiringRequest with id := encodeToString expiringID.1 }

/-- The storage works. -/
def storageReplies (pendingSwaps : List SwapBlob) : StorageReplies where
  putSwap := .ok ()
  deletePendingSwap := .ok ()
  pendingSwaps := .ok pendingSwaps
  loadCosts _ := (∅, ∅)

def expiredReduction : ImmediateReduction where
  input := .request ⟨expiringBlob, ∅, ∅⟩
  events :=
    [⟨.buildSwapContracts ⟨expiringBlob, ∅, ∅⟩, (), (), .ok (), ()⟩,
      ⟨.audit ⟨⟨expiringBlob, ∅, ∅⟩, .foreign⟩, (), (), .error .swapExpired, ()⟩]
  output :=
    [.receiptUpdate (Immediate.newReceiptUpdate expiringBlob.id .expired), .error .swapExpired,
      .deleteSwap expiringBlob.id]

theorem expiring_admitted :
    postSwapsHandler sampleConfig (fun _ _ _ => .ok ()) 1549000000 expiringID expiringRequest =
      .ok expiringBlob := by
  decide +kernel

theorem expired_reduces (swapMap : Immediate.SwapMap) :
    Reduces unconstrained (Immediate.task sampleConfig.H) (swapMap, ()) expiredReduction
      (swapMap.erase expiringBlob.id, ()) :=
  ⟨trivial, .call trivial (.call trivial (.pure _ _))⟩

theorem swapper_moves {s s₁ : State} {msg : SwapperMessage} {R : StorageReplies}
    {pending : PendingTable} {sends : List Send} (h : Receives s msg s₁)
    (hstored : Stored s.pending R msg pending) (hsends : (reduce D R msg).1 = sends) :
    Moves D s (.swapper msg R) (s₁.swapped pending msg sends) :=
  hsends ▸ .swapper h hstored

theorem expiring_sends {blobs : List SwapBlob} :
    (reduce sampleConfig (storageReplies blobs) (.swapRequest expiringBlob)).1 =
      [.immediate (.request ⟨expiringBlob, ∅, ∅⟩)] :=
  rfl

def expiringLog : List Entry :=
  [.handed expiringBlob.id, .operated expiringBlob.id, .operated expiringBlob.id,
    .deleted expiringBlob.id]

/-- A swap that is posted, handed to the immediate swapper and done. -/
theorem expiring_run : ∃ s ts, Run (Moves sampleConfig) .init ts s ∧
    (∀ t ∈ ts, KeepsIDs t.label) ∧ (∀ t ∈ ts, ResumesUnhanded sampleConfig t.source t.label) ∧
    ts.getLast?.map (·.target.log) = some expiringLog := by
  refine ⟨_, _, .cons (.http (.postSwaps expiringRequest)) <|
    .cons (@Moves.notBootloaded _ _ [] [] _ rfl (by simp [State.init, State.start])) <|
    .cons (@Moves.writeBootload _ _ [] [] _ rfl) <|
    .cons (@Moves.setBootloaded _ _ [] [] _ rfl) <|
    .cons (@Moves.patch _ _ [] [] _ _ _ _ _ rfl expiring_admitted Finmap.notMem_empty) <|
    .cons (@Moves.writeRequest _ _ [] [] _ rfl) <|
    .cons (.accept rfl) <| .cons (.accept rfl) <| .cons (.wallet rfl) <| .cons (.wallet rfl) <|
    .cons (swapper_moves (R := storageReplies []) (.wallet rfl)
      ⟨rfl, by simp [Lists, storageReplies]⟩ rfl) <|
    .cons (swapper_moves (R := storageReplies []) (.wallet rfl) (.inl rfl) expiring_sends) <|
    .cons (.immediate (l := expiredReduction) rfl rfl (expired_reduces _)) (.nil _), ?_, ?_, rfl⟩
  · simp [KeepsIDs]
  · simp [ResumesUnhanded, toSwapper, storageReplies]

theorem no_double_execution_expiring : ∃ s ts, Run (Moves sampleConfig) .init ts s ∧
    ts.getLast?.map (·.target.log) = some expiringLog ∧ ∀ t ∈ ts, Single t.target.log := by
  obtain ⟨s, ts, hrun, hkeeps, hresumes, hlog⟩ := expiring_run
  exact ⟨s, ts, hrun, hlog, no_double_execution hrun hkeeps hresumes⟩

theorem bootload_sends :
    (reduce sampleConfig (storageReplies [expiringBlob.withPassword ""]) (.bootload "alice")).1 =
      [.immediate (.request ⟨expiringBlob, ∅, ∅⟩)] := by
  have hresumes : resumes sampleConfig "alice" (expiringBlob.withPassword "") = true := by
    decide +kernel
  simp only [reduce, handleBootload, storageReplies]
  rw [List.filter_cons_of_pos hresumes]
  rfl

/-- Two requests of one user look at the flag before either sets it.  The second
    `Bootload` comes after the swap that the first request posts, and resumes it while the
    immediate swapper is done with it. -/
theorem late_bootload_executes_twice : ∃ s ts, Run (Moves sampleConfig) .init ts s ∧
    (∀ t ∈ ts, KeepsIDs t.label ∧ t.label ≠ .crash) ∧ ∃ t ∈ ts, ¬ Single t.target.log := by
  refine ⟨_, _, .cons (.http (.postSwaps expiringRequest)) <| .cons (.http (.get "alice")) <|
    .cons (@Moves.notBootloaded _ _ [_] _ _ rfl (by simp [State.init, State.start])) <|
    .cons (@Moves.notBootloaded _ _ [] _ _ rfl (by simp [State.init, State.start])) <|
    .cons (@Moves.writeBootload _ _ [_] _ _ rfl) <| .cons (@Moves.setBootloaded _ _ [_] _ _ rfl) <|
    .cons (@Moves.patch _ _ [_] _ _ _ _ _ _ rfl expiring_admitted Finmap.notMem_empty) <|
    .cons (@Moves.writeRequest _ _ [_] _ _ rfl) <|
    .cons (@Moves.writeBootload _ _ [] _ _ rfl) <|
    .cons (.accept rfl) <| .cons (.accept rfl) <| .cons (.accept rfl) <|
    .cons (.wallet rfl) <| .cons (.wallet rfl) <| .cons (.wallet rfl) <|
    .cons (swapper_moves (R := storageReplies []) (.wallet rfl)
      ⟨rfl, by simp [Lists, storageReplies]⟩ rfl) <|
    .cons (swapper_moves (R := storageReplies []) (.wallet rfl) (.inl rfl) expiring_sends) <|
    .cons (.immediate (l := expiredReduction) rfl rfl (expired_reduces _)) <|
    .cons (swapper_moves (R := storageReplies [expiringBlob.withPassword ""]) (.wallet rfl)
      ⟨rfl, ?_⟩ bootload_sends) <|
    .cons (.immediate (l := expiredReduction) rfl rfl (expired_reduces _)) (.nil _), ?_, ?_⟩
  · intro pendingSwaps hpending
    cases hpending
    simp [State.swapped, State.init, State.start]
  · simp [KeepsIDs]
  · refine ⟨_, List.mem_of_getLast? rfl, ?_⟩
    intro hsingle
    have hquiet : (expiringLog ++ expiringLog).Pairwise _ := hsingle.quiet
    simp [expiringLog, Entry.settles, Entry.acts] at hquiet

end Swapperd.Daemon
