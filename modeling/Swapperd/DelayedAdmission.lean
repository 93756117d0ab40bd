/-
  Swapperd/DelayedAdmission.lean
  ==============================
  **What delayed swaps are checked for.**

  `patchSwap` checks the addresses, the secret hash and the timelock of a swap that is
  posted to be executed now.  A delayed swap gets these from its callback server, and
  reaches the immediate swapper by another way.

  `handed_over_acceptable` — as long as every answer that fills a swap passes the same
  checks, and requests do not use up their time in the queues, every swap handed to the
  immediate swapper passes them.  `verifyDelaySwap` makes none of them
  (`unchecked_answer_handed_over`).
-/
import Swapperd.DaemonOwners
import Swapperd.SwapAdmission

namespace Swapperd.Daemon

open CallProgram RetryTask TransitionRuns GoLibrary

variable {D : Config}

/-! ### The checks of `patchSwap` -/

/-- The addresses are valid for the chains of the two tokens, and the secret hash is the
    base64 of 32 bytes. -/
structure WellAddressed (W : Wallet) (blob : SwapBlob) : Prop where
  addresses : ∃ sendToken receiveToken, patchToken blob.sendToken = .ok sendToken ∧
    patchToken blob.receiveToken = .ok receiveToken ∧
    W.verifyAddress sendToken.blockchain blob.sendTo = .ok () ∧
    W.verifyAddress receiveToken.blockchain blob.receiveFrom = .ok () ∧
    (blob.withdrawAddress ≠ "" →
      W.verifyAddress receiveToken.blockchain blob.withdrawAddress = .ok ())
  secretHash : ∃ bytes, decodeString blob.secretHash = some bytes ∧ bytes.length = 32

/-- A responder has two units of time left. -/
def InTime (now : Int) (blob : SwapBlob) : Prop :=
  blob.shouldInitiateFirst = false → now + 2 * expiryUnit ≤ blob.timeLock

@[simp] theorem wellAddressed_withPassword {W : Wallet} {blob : SwapBlob} {password : String} :
    WellAddressed W (blob.withPassword password) ↔ WellAddressed W blob :=
  ⟨fun h => ⟨h.addresses, h.secretHash⟩, fun h => ⟨h.addresses, h.secretHash⟩⟩

@[simp] theorem inTime_withPassword {now : Int} {blob : SwapBlob} {password : String} :
    InTime now (blob.withPassword password) ↔ InTime now blob := Iff.rfl

/-- `patchSwap` lets no other swaps in. -/
theorem patchSwap_acceptable {H : Hashes} {W : Wallet} {verifyBalance : VerifyBalance} {now : Int}
    {swapID : Bytes32} {swapReq blob : SwapBlob}
    (h : Handler.patchSwap H W verifyBalance now swapID swapReq = .ok blob)
    (hnow : IsInt64 (now + 2 * expiryUnit)) : WellAddressed W blob ∧ InTime now blob := by
  obtain ⟨⟨sendToken, receiveToken, hadmits⟩, hterms⟩ := Handler.patchSwap_ok_iff.mp h
  have hpatches := (Handler.patchTerms_patches hterms).1
  have haddresses := hadmits.withdrawAddress
  refine ⟨⟨⟨sendToken, receiveToken, ?_⟩, ?_⟩, ?_⟩
  · rw [hpatches]
    exact ⟨hadmits.sendToken, hadmits.receiveToken, hadmits.sendTo, hadmits.receiveFrom,
      hadmits.withdrawAddress⟩
  · cases hrole : swapReq.shouldInitiateFirst with
    | true =>
        rw [(Handler.patchTerms_initiator hterms hrole).1]
        exact ⟨_, decodeString_encodeToString _, (H.sha256 _).2⟩
    | false => exact Handler.patchTerms_secretHash hterms hrole
  · intro hrole
    have hresponder : swapReq.shouldInitiateFirst = false := by
      rw [hpatches] at hrole
      exact hrole
    have htime := (Handler.patchTerms_responder hterms hresponder).2
    rwa [int64_of_isInt64 hnow] at htime

/-! ### Clocks -/

/-- A step and the reading of the clock at it, which admission uses. -/
def Clocked (D : Config) (s : State) (l : Label × Int) (s' : State) : Prop :=
  Moves D s l.1 s' ∧ (s'.owner = s.owner ∨ ∃ blob, Admitted D s s' l.2 blob)

/-- A thread admits one swap at a time. -/
theorem Admitted.unique {s s' : State} {now now' : Int} {blob blob' : SwapBlob}
    (h : Admitted D s s' now blob) (h' : Admitted D s s' now' blob') : blob' = blob := by
  have hperm := h'.front.symm.trans h.front
  have hcount := List.perm_iff_count.mp hperm blob'
  simp only [List.count_cons_self, List.count_cons] at hcount
  by_contra hne
  rw [if_neg (by simpa using Ne.symm hne)] at hcount
  omega

theorem Admitted.owner_ne {s s' : State} {now : Int} {blob : SwapBlob}
    (h : Admitted D s s' now blob) : s'.owner ≠ s.owner := by
  intro howner
  apply h.fresh
  rw [← howner, h.owner]
  simp

theorem Clocked.admitted {s s' : State} {l : Label × Int} {now : Int} {blob : SwapBlob}
    (hclocked : Clocked D s l s') (h : Admitted D s s' now blob) : Admitted D s s' l.2 blob := by
  rcases hclocked.2 with howner | ⟨blob', h'⟩
  · exact absurd howner h.owner_ne
  · exact h.unique h' ▸ h'

/-- The callback server fills a swap. -/
def Fills (filled : SwapBlob) : Label → Prop
  | .delayed l => ∃ c ∈ l.calls, Delayed.Call.answer c = .ok filled
  | _ => False

abbrev ClockedTransition := Transition State (Label × Int)

/-- The swap comes into the daemon, up to its password: a thread admits it, or an answer
    fills it. -/
def Enters (D : Config) (t : ClockedTransition) (blob : SwapBlob) : Prop :=
  ∃ entered, entered.withPassword "" = blob.withPassword "" ∧
    (Admitted D t.source t.target t.label.2 entered ∨ Fills entered t.label.1)

/-- The answers of the step pass the checks of `patchSwap`. -/
def FillsAcceptable (D : Config) (t : ClockedTransition) : Prop :=
  ∀ filled, Fills filled t.label.1 → WellAddressed D.W filled ∧ InTime t.label.2 filled

/-- A swap to execute now came in acceptable. -/
def EnteredAcceptable (D : Config) (past : List ClockedTransition) (blob : SwapBlob) : Prop :=
  blob.delay = false → WellAddressed D.W blob ∧ ∃ t ∈ past, Enters D t blob ∧ InTime t.label.2 blob

@[simp] theorem enteredAcceptable_withPassword {past : List ClockedTransition} {blob : SwapBlob}
    {password : String} : EnteredAcceptable D past (blob.withPassword password) ↔
      EnteredAcceptable D past blob := by
  simp [EnteredAcceptable, Enters]

theorem EnteredAcceptable.append {past : List ClockedTransition} {blob : SwapBlob}
    (h : EnteredAcceptable D past blob) (t : ClockedTransition) :
    EnteredAcceptable D (past ++ [t]) blob := by
  intro hdelay
  obtain ⟨hchecks, u, hu, hentered⟩ := h hdelay
  exact ⟨hchecks, u, List.mem_append_left _ hu, hentered⟩

/-- What `postSwapsHandler` admits to be executed now. -/
theorem admitted_acceptable {s s' : State} {now : Int} {blob : SwapBlob}
    (h : Admitted D s s' now blob) (hnow : IsInt64 (now + 2 * expiryUnit))
    (hdelay : blob.delay = false) : WellAddressed D.W blob ∧ InTime now blob := by
  obtain ⟨verifyBalance, swapID, swapReq, -, hposted⟩ := h.posted
  have hpatches := postSwapsHandler_patches hposted
  unfold postSwapsHandler at hposted
  split at hposted
  · rename_i hlater
    rw [hpatches] at hdelay
    exact absurd hdelay (by simp [hlater])
  · exact patchSwap_acceptable hposted hnow

theorem carries_acceptable {past : List ClockedTransition} {t : ClockedTransition}
    (h : Clocked D t.source t.label t.target) (hclock : IsInt64 (t.label.2 + 2 * expiryUnit))
    (hfills : FillsAcceptable D t) :
    Carries D (EnteredAcceptable D past) (EnteredAcceptable D (past ++ [t])) t.source t.label.1
      t.target := by
  have hnew : ∀ blob, Enters D t blob → WellAddressed D.W blob → InTime t.label.2 blob →
      EnteredAcceptable D (past ++ [t]) blob := by
    intro blob henters hchecks htime _
    exact ⟨hchecks, t, by simp, henters, htime⟩
  refine ⟨fun blob hblob => hblob.append t, ?_, ?_, ?_⟩
  · intro now blob hadmitted hdelay
    have hreading := h.admitted hadmitted
    obtain ⟨hchecks, htime⟩ := admitted_acceptable hreading hclock hdelay
    exact hnew blob ⟨blob, rfl, .inl hreading⟩ hchecks htime hdelay
  · intro password R pendingSwaps _ _ blob _ _ posted hblob
    simpa using hblob
  · intro reduction hlabel c hc filled hanswer _ password _
    have hfilled : Fills filled t.label.1 := by
      rw [hlabel]
      exact ⟨c, hc, hanswer⟩
    obtain ⟨hchecks, htime⟩ := hfills filled hfilled
    rw [enteredAcceptable_withPassword]
    exact hnew filled ⟨filled, rfl, .inr hfilled⟩ hchecks htime

/-! ### Runs -/

/-- The swapper hands the swap to the immediate swapper. -/
def HandsOver (D : Config) (blob : SwapBlob) : Label → Prop
  | .swapper msg R => ∃ req, .immediate (.request req) ∈ (reduce D R msg).1 ∧ req.blob = blob
  | _ => False

/-- No swap with this ID was handed over before. -/
def FirstTime (D : Config) (past : List ClockedTransition) (id : SwapID) : Prop :=
  ∀ t ∈ past, ∀ blob, HandsOver D blob t.label.1 → blob.id ≠ id

/-- From when it comes in until it is handed over for the first time, a swap waits `wait`
    seconds at most, and a responder's swap that has to wait has as much time to spare. -/
structure Prompt (D : Config) (wait : SwapID → Int) (ts : List ClockedTransition) : Prop where
  waits : ∀ us t vs, ts = us ++ t :: vs → ∀ blob, HandsOver D blob t.label.1 →
    FirstTime D us blob.id → ∀ u ∈ us, Enters D u blob → t.label.2 ≤ u.label.2 + wait blob.id
  spares : ∀ t ∈ ts, ∀ blob, Enters D t blob → 0 < wait blob.id →
    InTime (t.label.2 + wait blob.id) blob

/-- What is handed over came in acceptable. -/
theorem handsOver_acceptable {past : List ClockedTransition} {t : ClockedTransition}
    {blob : SwapBlob} (hs : Everywhere (EnteredAcceptable D past) t.source)
    (h : Clocked D t.source t.label t.target) (hclock : IsInt64 (t.label.2 + 2 * expiryUnit))
    (hfills : FillsAcceptable D t) (hover : HandsOver D blob t.label.1) :
    WellAddressed D.W blob ∧ ∃ u ∈ past, Enters D u blob ∧ InTime u.label.2 blob := by
  have hcarries : Carries D (EnteredAcceptable D past) _ _ _ _ := carries_acceptable h hclock hfills
  obtain ⟨s, ⟨l, now⟩, s'⟩ := t
  cases l with
  | swapper msg R =>
      obtain ⟨req, hsend, rfl⟩ := hover
      obtain ⟨hhand, hentered⟩ := hs.moves_sends h.1 hcarries _ hsend _ rfl
      exact hentered (handOver_immediate hhand).1
  | _ => cases hover

/-- **The delayed path is as strict as the direct one.**  Over every run of the daemon,
    crashes included, in which swaps do not wait longer than they can: when every answer
    that fills a swap passes the checks of `patchSwap`, every swap that is handed to the
    immediate swapper passes them, and a responder's swap has two units of time left when
    it is handed over for the first time. -/
theorem handed_over_acceptable {wait : SwapID → Int} {s : State} {ts : List ClockedTransition}
    (h : Run (Clocked D) .init ts s) (hclock : ∀ t ∈ ts, IsInt64 (t.label.2 + 2 * expiryUnit))
    (hprompt : Prompt D wait ts) (hfills : ∀ t ∈ ts, FillsAcceptable D t) :
    ∀ us t vs, ts = us ++ t :: vs → ∀ blob, HandsOver D blob t.label.1 →
      WellAddressed D.W blob ∧ (FirstTime D us blob.id → InTime t.label.2 blob) := by
  have hstep : ∀ {past : List ClockedTransition} {t : ClockedTransition},
      Everywhere (EnteredAcceptable D past) t.source → Clocked D t.source t.label t.target →
      IsInt64 (t.label.2 + 2 * expiryUnit) ∧ FillsAcceptable D t →
        Everywhere (EnteredAcceptable D (past ++ [t])) t.target := by
    intro past t hs hclocked hC
    exact hs.moves hclocked.1 (carries_acceptable hclocked hC.1 hC.2)
  have hinit : Everywhere (EnteredAcceptable D []) State.init := everywhere_start (stores_empty _)
  obtain ⟨-, hall⟩ := h.history (P := fun past s => Everywhere (EnteredAcceptable D past) s)
    (C := fun _ t => IsInt64 (t.label.2 + 2 * expiryUnit) ∧ FillsAcceptable D t) hstep hinit
    fun us t vs hts => ⟨hclock t (by simp [hts]), hfills t (by simp [hts])⟩
  intro us t vs hts blob hover
  have ht : t ∈ ts := by simp [hts]
  obtain ⟨hchecks, u, hu, henters, htime⟩ := handsOver_acceptable (hall us t vs hts)
    (h.step_of_mem t ht) (hclock t ht) (hfills t ht) hover
  refine ⟨hchecks, ?_⟩
  intro hfirst hrole
  have hwaits := hprompt.waits us t vs hts blob hover hfirst u hu henters
  by_cases hpos : 0 < wait blob.id
  · have hmem : u ∈ ts := by
      rw [hts]
      exact List.mem_append_left _ hu
    have hspares := hprompt.spares u hmem blob henters hpos hrole
    omega
  · have hleft := htime hrole
    omega

/-! ### An answer with no address

A delayed swap whose server makes the user the responder, all within a second. -/

/-- The steps of a run within a second. -/
def stopClock (now : Int) (t : Transition State Label) : ClockedTransition :=
  ⟨t.source, (t.label, now), t.target⟩

theorem run_clocked {s s' : State} {ts : List (Transition State Label)} {now : Int}
    (h : Run (Moves D) s ts s') (hadmits : ∀ t ∈ ts, t.target.owner = t.source.owner ∨
      ∃ blob, Admitted D t.source t.target now blob) :
    Run (Clocked D) s (ts.map (stopClock now)) s' := by
  induction h with
  | nil s => exact .nil s
  | cons hstep _ ih =>
      obtain ⟨hfirst, hrest⟩ := List.forall_mem_cons.mp hadmits
      exact .cons ⟨hstep, hfirst⟩ (ih hrest)

/-- When the clock stands still no swap waits. -/
theorem prompt_constant {ts : List ClockedTransition} {now : Int}
    (h : ∀ t ∈ ts, t.label.2 = now) : Prompt D (fun _ => 0) ts where
  waits us t vs hts _ _ _ u hu _ := by
    have ht := h t (by simp [hts])
    have hu' := h u (by simp [hts, hu])
    simp [ht, hu']
  spares _ _ _ _ hpos := absurd hpos (lt_irrefl 0)

def strictConfig : Config := { sampleConfig with W := Admission.testWallet }

def responderAnswer (sendTo : String) : SwapBlob :=
  { answeredBlob delayedBlob.secretHash with sendTo := sendTo, shouldInitiateFirst := false }

/-- What the immediate swapper gets. -/
def responderBlob (sendTo : String) : SwapBlob :=
  { responderAnswer sendTo with delay := false, password := "alice" }

theorem strict_admitted :
    postSwapsHandler strictConfig (fun _ _ _ => .ok ()) 1549000000 expiringID delayedRequest =
      .ok delayedBlob := by
  decide +kernel

theorem responderAnswer_verified (sendTo : String) :
    Delayed.verifyDelaySwap (delayedBlob.withPassword "") (responderAnswer sendTo) =
      .ok { responderAnswer sendTo with delay := false } :=
  sample_verified rfl rfl rfl rfl rfl

/-- A delayed swap that is posted, filled and handed over. -/
theorem responder_moves (sendTo : String) : ∃ s ts, Run (Moves strictConfig) .init ts s ∧
    (∀ t ∈ ts, t.target.owner = t.source.owner ∨
      ∃ blob, Admitted strictConfig t.source t.target 1549000000 blob) ∧
    (∀ t ∈ ts, ∀ filled, Fills filled t.label →
      filled = { responderAnswer sendTo with delay := false }) ∧
    ∃ t ∈ ts, HandsOver strictConfig (responderBlob sendTo) t.label := by
  refine ⟨_, _, .cons (.http (.postSwaps delayedRequest)) <|
    .cons (@Moves.notBootloaded _ _ [] [] _ rfl (by simp [State.init, State.start])) <|
    .cons (@Moves.bootloadFailed _ _ [] [] _ rfl) <|
    .cons (@Moves.patch _ _ [] [] _ _ _ _ _ rfl strict_admitted Finmap.notMem_empty) <|
    .cons (@Moves.writeRequest _ _ [] [] _ rfl) <| .cons (.accept rfl) <| .cons (.wallet rfl) <|
    .cons (swapper_moves (R := storageReplies []) (.wallet rfl) (.inl rfl) rfl) <|
    .cons (.delayed (l := fillReduction delayedBlob (responderAnswer sendTo)) rfl rfl
      (fill_reduces (responderAnswer_verified sendTo) _)) <|
    .cons (swapper_moves (R := storageReplies []) (.delayed rfl) rfl rfl) <|
    .cons (swapper_moves (R := storageReplies []) (.delayed rfl) (.inl rfl) rfl) (.nil _),
    ?_, ?_, ?_⟩
  · have hpatch := @patch_admitted strictConfig
      { State.init with threads := [.handle (.postSwaps delayedRequest)] } [] [] _ _ _ _ _ rfl
      strict_admitted Finmap.notMem_empty
    simp only [List.forall_mem_cons, List.not_mem_nil, false_implies, implies_true, and_true,
      true_or, true_and]
    exact ⟨.inr ⟨_, hpatch⟩, .inl rfl, .inl rfl, .inl rfl⟩
  · have hfills : ∀ filled,
        Fills filled (.delayed (fillReduction delayedBlob (responderAnswer sendTo))) →
          filled = { responderAnswer sendTo with delay := false } := by
      rintro filled ⟨c, hc, hfilled⟩
      obtain rfl := List.mem_singleton.mp hc
      exact Except.ok.inj (hfilled.symm.trans (responderAnswer_verified sendTo))
    simp only [List.forall_mem_cons, List.not_mem_nil, false_implies, implies_true, and_true,
      Fills, true_and]
    exact hfills
  · exact ⟨_, List.mem_of_getLast? rfl, ⟨responderBlob sendTo, ∅, ∅⟩, List.mem_singleton_self _,
      rfl⟩

theorem responder_run (sendTo : String) : ∃ s ts, Run (Clocked strictConfig) .init ts s ∧
    (∀ t ∈ ts, t.label.2 = 1549000000) ∧
    (∀ t ∈ ts, ∀ filled, Fills filled t.label.1 →
      filled = { responderAnswer sendTo with delay := false }) ∧
    ∃ t ∈ ts, HandsOver strictConfig (responderBlob sendTo) t.label.1 := by
  obtain ⟨s, ts, hrun, hadmits, hfills, t, ht, hover⟩ := responder_moves sendTo
  refine ⟨s, _, run_clocked hrun hadmits, ?_, ?_, ?_⟩
  · intro t' ht'
    obtain ⟨u, -, rfl⟩ := List.mem_map.mp ht'
    rfl
  · intro t' ht'
    obtain ⟨u, hu, rfl⟩ := List.mem_map.mp ht'
    exact hfills u hu
  · exact ⟨_, List.mem_map_of_mem ht, hover⟩

theorem handed_over_acceptable_responder : ∃ s ts, Run (Clocked strictConfig) .init ts s ∧
    (∃ t ∈ ts, HandsOver strictConfig (responderBlob Admission.theirAddress) t.label.1) ∧
    ∀ us t vs, ts = us ++ t :: vs → ∀ blob, HandsOver strictConfig blob t.label.1 →
      WellAddressed strictConfig.W blob ∧ (FirstTime strictConfig us blob.id →
        InTime t.label.2 blob) := by
  obtain ⟨s, ts, hrun, hnow, hfills, hover⟩ := responder_run Admission.theirAddress
  refine ⟨s, ts, hrun, hover, handed_over_acceptable hrun ?_ (prompt_constant hnow) ?_⟩
  · intro t ht
    rw [hnow t ht]
    decide
  · intro t ht filled hfilled
    rw [hfills t ht filled hfilled, hnow t ht]
    refine ⟨⟨⟨tokenBTC, tokenETH, ?_⟩, ?_⟩, ?_⟩
    · decide +kernel
    · exact ⟨_, decodeString_encodeToString _, rfl⟩
    · intro _
      decide +kernel

/-- The server answers with no address to send to, and the swap is handed over. -/
theorem unchecked_answer_handed_over : ∃ s ts, Run (Clocked strictConfig) .init ts s ∧
    (∀ t ∈ ts, t.label.2 = 1549000000) ∧
    ∃ t ∈ ts, ∃ blob, HandsOver strictConfig blob t.label.1 ∧
      ¬ WellAddressed strictConfig.W blob := by
  obtain ⟨s, ts, hrun, hnow, -, t, ht, hover⟩ := responder_run ""
  refine ⟨s, ts, hrun, hnow, t, ht, _, hover, ?_⟩
  rintro ⟨⟨sendToken, receiveToken, hsend, -, hsendTo, -⟩, -⟩
  have hbtc : sendToken = tokenBTC := Except.ok.inj (hsend.symm.trans (by decide +kernel))
  subst hbtc
  have hempty : strictConfig.W.verifyAddress tokenBTC.blockchain "" ≠ .ok () := by decide +kernel
  exact hempty hsendTo

end Swapperd.Daemon
