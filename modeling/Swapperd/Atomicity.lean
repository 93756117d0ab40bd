/-
  Swapperd/Atomicity.lean
  =======================
  **One swap between an honest party and any counterparty.**

  The honest party runs the passes of its immediate swapper, at least one an hour; the
  counterparty does with the two HTLCs whatever they allow, between any two calls of a
  pass.  An HTLC is redeemed while it is open with a secret that opens its hash, and
  refunded once its timelock is past.

  `atomic_iff_initiator` — the honest party can be made to pay without being paid
  exactly if it is the responder: both HTLCs expire at the same time, so that the
  initiator can take the one and take back the other between two passes.
-/
import Swapperd.ImmediatePasses
import Swapperd.SwapHandler
import Swapperd.ContractWorld

namespace Swapperd.Atomicity

open CallProgram TransitionRuns GoLibrary Immediate
open Chain (Phase)

/-! ### The swap -/

/-- The secret opens the hash in the HTLC of a swap. -/
def Opens (H : Hashes) (swap : Swap) (secret : Bytes32) : Prop :=
  H.sha256 secret.1 = swap.secretHash

instance (H : Hashes) (swap : Swap) (secret : Bytes32) : Decidable (Opens H swap secret) :=
  inferInstanceAs (Decidable (_ = _))

/-- A swap that was accepted at `now`, with the two legs that are built from it.  A
    counterparty that initiates can open the hash that it chose. -/
structure AcceptedSwap where
  H : Hashes
  W : Wallet
  verifyBalance : VerifyBalance
  now : Int
  swapID : Bytes32
  request : SwapBlob
  req : SwapRequest
  native : Swap
  foreign : Swap
  accepted : Handler.patchSwap H W verifyBalance now swapID request = .ok req.blob
  built : Builder.buildComplementarySwaps W req.blob = .ok (native, foreign)
  opens : req.blob.shouldInitiateFirst = false → ∃ secret, Opens H native secret

def AcceptedSwap.swap (S : AcceptedSwap) : Leg → Swap
  | .native => S.native
  | .foreign => S.foreign

/-- Both legs carry the timelock of the blob. -/
theorem AcceptedSwap.timeLock_eq (S : AcceptedSwap) (leg : Leg) :
    (S.swap leg).timeLock = S.req.blob.timeLock := by
  have hswaps := Builder.buildComplementarySwaps_ok S.built
  cases leg with
  | native => exact hswaps.native_timeLock
  | foreign => exact hswaps.foreign_timeLock

/-! ### The parties -/

/-- The two HTLCs, the secrets published on their chains and the honest party. A pass
    that is under way is what remains of its program. -/
structure State where
  clock : Int
  lastPass : Int
  phase : Leg → Phase
  revealed : List Bytes32
  pass : Option (Calls (SwapMap × List Message))
  swapMap : SwapMap
  removed : Bool

def State.init (now : Int) : State where
  clock := now
  lastPass := now
  phase _ := .unfunded
  revealed := []
  pass := none
  swapMap := ∅
  removed := false

def State.setPhase (s : State) (leg : Leg) (phase : Phase) : State :=
  { s with phase := Function.update s.phase leg phase }

/-- What an audit returns while it finds nothing. -/
def expiryError (S : AcceptedSwap) (s : State) (leg : Leg) : GoError :=
  if (S.swap leg).timeLock < s.clock then .swapExpired else .auditPending

/-- The honest party's operations succeed when the HTLC allows them. When it does not,
    they leave it as it is and may return anything. -/
def Operates (S : AcceptedSwap) (op : Immediate.Op) (s : State) (reply : Immediate.Reply op)
    (s' : State) : Prop :=
  match op, reply with
  | .buildSwapContracts _, reply => reply = .ok () ∧ s' = s
  | .initiate c, reply =>
      if s.phase c.leg = .unfunded then reply = .ok () ∧ s' = s.setPhase c.leg .opened
      else s' = s
  | .audit c, reply =>
      s' = s ∧ (s.phase c.leg = .unfunded → reply = .error (expiryError S s c.leg)) ∧
        (s.phase c.leg = .opened → reply = .ok ())
  | .redeem c secret, reply =>
      if s.phase c.leg = .opened ∧ Opens S.H (S.swap c.leg) secret then
        reply = .ok () ∧
          s' = { s.setPhase c.leg .redeemed with revealed := secret :: s.revealed }
      else s' = s
  | .auditSecret c, reply =>
      s' = s ∧ (s.phase c.leg = .opened → reply = .error (expiryError S s c.leg)) ∧
        (s.phase c.leg = .redeemed → ∃ secret, reply = .ok secret) ∧
        ∀ secret, reply = .ok secret → secret ∈ s.revealed ∧ Opens S.H (S.swap c.leg) secret
  | .refund c, reply =>
      if s.phase c.leg = .opened ∧ (S.swap c.leg).timeLock < s.clock then
        reply = .ok () ∧ s' = s.setPhase c.leg .refunded
      else s' = s

/-- The counterparty knows what is published; an initiator chose the secret itself. -/
def Knows (S : AcceptedSwap) (s : State) (secret : Bytes32) : Prop :=
  secret ∈ s.revealed ∨ S.req.blob.shouldInitiateFirst = false

inductive Action where
  | advance (clock : Int)
  | startPass
  | operate (op : Immediate.Op)
  | endPass
  | fund
  | redeem (secret : Bytes32)
  | refund

inductive Moves (S : AcceptedSwap) : State → Action → State → Prop where
  /-- Until the swap is removed, a pass starts at least once an hour. -/
  | advance {s : State} {clock : Int} (hclock : s.clock ≤ clock)
      (hhour : s.removed = false → clock ≤ s.lastPass + 60 * 60) :
      Moves S s (.advance clock) { s with clock := clock }
  | startPass {s : State} (hidle : s.pass = none) (hheld : s.removed = false) :
      Moves S s .startPass
        { s with lastPass := s.clock, pass := some (handleSwap S.H s.swapMap S.req) }
  | operate {s s' : State} {op : Immediate.Op} {reply : Immediate.Reply op}
      {k : Immediate.Reply op → Calls (SwapMap × List Message)}
      (hpass : s.pass = some (.call op k)) (hop : Operates S op s reply s') :
      Moves S s (.operate op) { s' with pass := some (k reply) }
  | endPass {s : State} {swapMap : SwapMap} {messages : List Message}
      (hpass : s.pass = some (.pure (swapMap, messages))) :
      Moves S s .endPass
        { s with pass := none, swapMap := swapMap,
                 removed := decide (.deleteSwap S.req.id ∈ messages) }
  /-- The counterparty funds the foreign HTLC. -/
  | fund {s : State} (hphase : s.phase .foreign = .unfunded) :
      Moves S s .fund (s.setPhase .foreign .opened)
  /-- The counterparty redeems the native HTLC. -/
  | redeem {s : State} {secret : Bytes32} (hphase : s.phase .native = .opened)
      (hknows : Knows S s secret) (hopens : Opens S.H S.native secret) :
      Moves S s (.redeem secret)
        { s.setPhase .native .redeemed with revealed := secret :: s.revealed }
  /-- The foreign HTLC is refunded to the counterparty. -/
  | refund {s : State} (hphase : s.phase .foreign = .opened)
      (hexpired : S.foreign.timeLock < s.clock) :
      Moves S s .refund (s.setPhase .foreign .refunded)

/-- The honest party paid and was not paid. -/
def Lost (s : State) : Prop := s.phase .native = .redeemed ∧ s.phase .foreign = .refunded

def Reachable (S : AcceptedSwap) (s : State) : Prop :=
  ∃ ts, Run (Moves S) (State.init S.now) ts s

/-! ### An honest initiator -/

variable {S : AcceptedSwap}

/-- What a pass does to the two legs: it funds and refunds the native one and redeems the
    foreign one. -/
def Proper (req : SwapRequest) : Immediate.Op → Prop
  | .buildSwapContracts _ | .audit _ | .auditSecret _ => True
  | .initiate c | .refund c => c = req.native
  | .redeem c _ => c = req.foreign

theorem initiate_proper (H : Hashes) (swapMap : SwapMap) (req : SwapRequest) :
    (initiate H swapMap req req.native req.foreign).Performs (Proper req) := by
  unfold initiate
  refine .perform_bind rfl fun r => ?_
  split
  · trivial
  · refine .perform_bind trivial fun r => ?_
    split
    · split
      · trivial
      · split
        · trivial
        · refine .perform_bind rfl fun r => ?_
          split <;> trivial
    · refine .perform_bind rfl fun r => ?_
      split <;> trivial

theorem respond_proper (swapMap : SwapMap) (req : SwapRequest) :
    (respond swapMap req req.native req.foreign).Performs (Proper req) := by
  unfold respond
  refine .perform_bind trivial fun r => ?_
  split
  · split
    · trivial
    · split <;> trivial
  · refine .perform_bind rfl fun r => ?_
    split
    · trivial
    · refine .perform_bind trivial fun r => ?_
      split
      · split
        · trivial
        · split
          · trivial
          · refine .perform_bind rfl fun r => ?_
            split <;> trivial
      · refine .perform_bind rfl fun r => ?_
        split <;> trivial

theorem handleSwap_proper (H : Hashes) (swapMap : SwapMap) (req : SwapRequest) :
    (handleSwap H swapMap req).Performs (Proper req) := by
  unfold handleSwap
  refine .perform_bind trivial fun r => ?_
  split
  · trivial
  · split
    · exact initiate_proper H swapMap req
    · exact respond_proper swapMap req

/-- Before the native HTLC is redeemed or a secret published, the foreign one was
    redeemed. -/
structure Kept (S : AcceptedSwap) (s : State) : Prop where
  pass : ∀ p, s.pass = some p → p.Performs (Proper S.req)
  paid : s.phase .native = .redeemed ∨ s.revealed ≠ [] → s.phase .foreign = .redeemed

/-- Funding and refunding the native HTLC pay nothing. -/
theorem setPhase_native_paid {s : State} {phase : Phase} (hphase : phase ≠ .redeemed)
    (hs : s.phase .native = .redeemed ∨ s.revealed ≠ [] → s.phase .foreign = .redeemed) :
    (s.setPhase .native phase).phase .native = .redeemed ∨
        (s.setPhase .native phase).revealed ≠ [] →
      (s.setPhase .native phase).phase .foreign = .redeemed := by
  intro hpaid
  have hrevealed : s.revealed ≠ [] := by simpa [State.setPhase, hphase] using hpaid
  simpa [State.setPhase] using hs (.inr hrevealed)

theorem operate_kept {s s' : State} {op : Immediate.Op} {reply : Immediate.Reply op}
    (hproper : Proper S.req op) (h : Operates S op s reply s')
    (hs : s.phase .native = .redeemed ∨ s.revealed ≠ [] → s.phase .foreign = .redeemed) :
    s'.phase .native = .redeemed ∨ s'.revealed ≠ [] → s'.phase .foreign = .redeemed := by
  cases op with
  | buildSwapContracts req => rwa [h.2]
  | initiate c =>
      obtain rfl : c = S.req.native := hproper
      dsimp only [Operates] at h
      split at h
      · rw [h.2]
        exact setPhase_native_paid (by decide) hs
      · rwa [h]
  | audit c => rwa [h.1]
  | redeem c secret =>
      obtain rfl : c = S.req.foreign := hproper
      dsimp only [Operates] at h
      split at h
      · rw [h.2]
        simp [State.setPhase]
      · rwa [h]
  | auditSecret c => rwa [h.1]
  | refund c =>
      obtain rfl : c = S.req.native := hproper
      dsimp only [Operates] at h
      split at h
      · rw [h.2]
        exact setPhase_native_paid (by decide) hs
      · rwa [h]

/-- Before the foreign HTLC is redeemed nothing is paid. -/
theorem Kept.unpaid {s : State} (hs : Kept S s) (hphase : s.phase .foreign ≠ .redeemed) :
    ¬ (s.phase .native = .redeemed ∨ s.revealed ≠ []) :=
  fun hpaid => hphase (hs.paid hpaid)

theorem moves_kept (hrole : S.req.blob.shouldInitiateFirst = true) {s s' : State} {a : Action}
    (hs : Kept S s) (h : Moves S s a s') : Kept S s' := by
  cases h with
  | advance => exact ⟨hs.pass, hs.paid⟩
  | startPass =>
      refine ⟨?_, hs.paid⟩
      rintro p ⟨⟩
      exact handleSwap_proper _ _ _
  | operate hpass hop =>
      have hproper := hs.pass _ hpass
      have hpaid := operate_kept hproper.1 hop hs.paid
      refine ⟨?_, hpaid⟩
      rintro p ⟨⟩
      exact hproper.2 _
  | endPass => exact ⟨by simp, hs.paid⟩
  | fund hphase =>
      refine ⟨hs.pass, ?_⟩
      intro hpaid
      apply absurd _ (hs.unpaid (by simp [hphase]))
      simpa [State.setPhase] using hpaid
  | redeem hphase hknows _ =>
      refine ⟨hs.pass, ?_⟩
      intro _
      have hrevealed : _ ∈ s.revealed := hknows.resolve_right (by simp [hrole])
      simpa [State.setPhase] using hs.paid (.inr (List.ne_nil_of_mem hrevealed))
  | refund hphase =>
      refine ⟨hs.pass, ?_⟩
      intro hpaid
      apply absurd _ (hs.unpaid (by simp [hphase]))
      simpa [State.setPhase] using hpaid

theorem initiator_not_lost (hrole : S.req.blob.shouldInitiateFirst = true) {s : State}
    (h : Reachable S s) : ¬ Lost s := by
  obtain ⟨ts, hrun⟩ := h
  have hinit : Kept S (State.init S.now) := ⟨by simp [State.init], by simp [State.init]⟩
  have hkept := (hrun.invariant (P := Kept S) (C := fun _ _ => True)
    (fun hs hstep _ => moves_kept hrole hs hstep) hinit (fun _ _ => trivial)).1
  rintro ⟨hnative, hforeign⟩
  exact hkept.unpaid (by simp [hforeign]) (.inl hnative)

/-! ### An honest responder -/

def Leads (S : AcceptedSwap) (s s' : State) : Prop := ∃ ts, Run (Moves S) s ts s'

theorem Leads.refl (s : State) : Leads S s s := ⟨[], .nil s⟩

theorem Leads.trans {s₁ s₂ s₃ : State} (h : Leads S s₁ s₂) (h' : Leads S s₂ s₃) :
    Leads S s₁ s₃ := by
  obtain ⟨ts, hts⟩ := h
  obtain ⟨us, hus⟩ := h'
  exact ⟨ts ++ us, hts.append hus⟩

theorem Moves.leads {s s' : State} {a : Action} (h : Moves S s a s') : Leads S s s' :=
  ⟨_, .cons h (.nil _)⟩

/-- Both HTLCs are open, and the pass is about to ask for the secret; without one it ends,
    and the swap stays. -/
structure Waiting (S : AcceptedSwap) (s : State) : Prop where
  native : s.phase .native = .opened
  foreign : s.phase .foreign = .opened
  held : s.removed = false
  recent : s.lastPass = s.clock
  pass : ∃ k : Except GoError Bytes32 → Calls (SwapMap × List Message),
    s.pass = some (.call (.auditSecret S.req.native) k) ∧
    ∃ swapMap messages, k (.error .auditPending) = .pure (swapMap, messages) ∧
      .deleteSwap S.req.id ∉ messages

theorem setPhase_self {s : State} {leg : Leg} {phase : Phase} (h : s.phase leg = phase) :
    s.setPhase leg phase = s := by
  subst h
  simp [State.setPhase]

theorem operate_leads {s s' t : State} (op : Immediate.Op) (reply : Immediate.Reply op)
    {k : Immediate.Reply op → Calls (SwapMap × List Message)}
    (hpass : s.pass = some (.call op k)) (hop : Operates S op s reply s')
    (hrest : Leads S { s' with pass := some (k reply) } t) : Leads S s t :=
  (Moves.operate hpass hop).leads.trans hrest

/-- Funding the native HTLC leaves it open, also when it was funded before. -/
theorem initiate_operates {s : State}
    (h : s.phase .native = .unfunded ∨ s.phase .native = .opened) :
    Operates S (.initiate S.req.native) s (.ok ()) (s.setPhase .native .opened) := by
  rcases h with hunfunded | hopened
  · simp [Operates, hunfunded]
  · simp [Operates, hopened, setPhase_self]

/-- A responder's pass audits the foreign HTLC, funds the native one and asks for the
    secret. -/
theorem pass_waits (hrole : S.req.blob.shouldInitiateFirst = false) {s : State}
    (hidle : s.pass = none) (hheld : s.removed = false) (hforeign : s.phase .foreign = .opened)
    (hnative : s.phase .native = .unfunded ∨ s.phase .native = .opened) :
    ∃ s', Leads S s s' ∧ Waiting S s' ∧ s'.clock = s.clock := by
  let s₀ : State := { s with lastPass := s.clock, pass := some (handleSwap S.H s.swapMap S.req) }
  let s₁ : State :=
    { s₀ with pass := some (respond s.swapMap S.req S.req.native S.req.foreign) }
  have hstart : Leads S s s₀ := (Moves.startPass hidle hheld).leads
  have hbuild : Leads S s₀ s₁ := by
    apply operate_leads (.buildSwapContracts S.req) (.ok ()) rfl ⟨rfl, rfl⟩
    simp only [hrole, Bool.false_eq_true, ↓reduceIte]
    exact .refl _
  have hfunded : Leads S s₁ _ :=
    operate_leads (.audit S.req.foreign) (.ok ()) rfl
      ⟨rfl, by simp [s₁, s₀, hforeign], fun _ => rfl⟩
      (operate_leads (.initiate S.req.native) (.ok ()) rfl (initiate_operates hnative) (.refl _))
  refine ⟨_, hstart.trans (hbuild.trans hfunded), ?_, rfl⟩
  exact
    { native := by simp [State.setPhase]
      foreign := by simp [State.setPhase, s₁, s₀, hforeign]
      held := hheld
      recent := rfl
      pass := ⟨_, rfl, _, _, rfl, by simp [newReceiptUpdate]⟩ }

/-- Nothing happens for up to an hour, then the next pass waits again. -/
theorem waiting_hour (hrole : S.req.blob.shouldInitiateFirst = false) {s : State}
    (hs : Waiting S s) (hearly : s.clock ≤ S.native.timeLock) {clock : Int}
    (hclock : s.clock ≤ clock) (hhour : clock ≤ s.clock + 60 * 60) :
    ∃ s', Leads S s s' ∧ Waiting S s' ∧ s'.clock = clock := by
  obtain ⟨k, hpass, swapMap, messages, hk, hdelete⟩ := hs.pass
  have hpending : Leads S s { s with pass := some (.pure (swapMap, messages)) } := by
    refine operate_leads (.auditSecret S.req.native) (.error .auditPending) hpass
      ⟨rfl, ?_, ?_, by simp⟩ (hk ▸ .refl _)
    · intro _
      simp [expiryError, AcceptedSwap.swap, not_lt.mpr hearly]
    · simp [hs.native]
  let idle : State := { s with pass := none, swapMap := swapMap, removed := false }
  have hend : Leads S { s with pass := some (.pure (swapMap, messages)) } idle := by
    have hleads : Leads S { s with pass := some (.pure (swapMap, messages)) } _ :=
      (Moves.endPass rfl).leads
    simpa [idle, hdelete] using hleads
  have hadvance : Leads S idle { idle with clock := clock } := by
    refine (Moves.advance (s := idle) hclock fun _ => ?_).leads
    show clock ≤ s.lastPass + 60 * 60
    rw [hs.recent]
    exact hhour
  obtain ⟨s', hleads, hwaiting, hsame⟩ :=
    pass_waits hrole (s := { idle with clock := clock }) rfl rfl hs.foreign (.inr hs.native)
  exact ⟨s', hpending.trans (hend.trans (hadvance.trans hleads)), hwaiting, hsame⟩

/-- Hour by hour the timelock passes. -/
theorem waiting_expiry (hrole : S.req.blob.shouldInitiateFirst = false) (n : Nat) {s : State}
    (hs : Waiting S s) (hhours : S.native.timeLock < s.clock + 60 * 60 * n) :
    ∃ s', Leads S s s' ∧ Waiting S s' ∧ S.native.timeLock < s'.clock := by
  induction n generalizing s with
  | zero => exact ⟨s, ⟨[], .nil s⟩, hs, by simpa using hhours⟩
  | succ n ih =>
      by_cases hearly : s.clock ≤ S.native.timeLock
      · obtain ⟨s₁, hleads, hwaiting, hclock⟩ :=
          waiting_hour hrole hs hearly (show s.clock ≤ s.clock + 60 * 60 by omega) (le_refl _)
        obtain ⟨s₂, hleads', hlast⟩ := ih hwaiting (by push_cast at hhours; omega)
        exact ⟨s₂, hleads.trans hleads', hlast⟩
      · exact ⟨s, ⟨[], .nil s⟩, hs, by omega⟩

/-- Past the timelock the initiator redeems the one HTLC and has the other refunded, before
    the responder's next call. -/
theorem waiting_lost (hrole : S.req.blob.shouldInitiateFirst = false) {s : State}
    (hs : Waiting S s) (hlate : S.native.timeLock < s.clock) :
    ∃ s', Leads S s s' ∧ Lost s' := by
  obtain ⟨secret, hsecret⟩ := S.opens hrole
  have hredeem : Leads S _ _ := (Moves.redeem hs.native (.inr hrole) hsecret).leads
  have hexpired : S.foreign.timeLock < s.clock := by
    have hnative := S.timeLock_eq .native
    have hforeign := S.timeLock_eq .foreign
    dsimp only [AcceptedSwap.swap] at hnative hforeign
    omega
  have hrefund : Leads S _ _ :=
    (Moves.refund (S := S)
      (s := { s.setPhase .native .redeemed with revealed := secret :: s.revealed })
      (by simp [State.setPhase, hs.foreign]) hexpired).leads
  refine ⟨_, hredeem.trans hrefund, ?_, ?_⟩ <;> simp [State.setPhase]

theorem responder_lost (hrole : S.req.blob.shouldInitiateFirst = false) :
    ∃ s, Reachable S s ∧ Lost s := by
  have hfund : Leads S (State.init S.now) _ := (Moves.fund rfl).leads
  obtain ⟨s₁, hpass, hwaiting, -⟩ :=
    pass_waits hrole (s := (State.init S.now).setPhase .foreign .opened) rfl rfl
      (by simp [State.setPhase]) (.inl (by simp [State.setPhase, State.init]))
  obtain ⟨s₂, hhours, hwaiting', hlate⟩ :=
    waiting_expiry hrole (S.native.timeLock + 1 - s₁.clock).toNat hwaiting (by omega)
  obtain ⟨s, hlost, hs⟩ := waiting_lost hrole hwaiting' hlate
  exact ⟨s, hfund.trans (hpass.trans (hhours.trans hlost)), hs⟩

def sampleRequest : SwapBlob :=
  { Builder.sampleBlob with id := "", secretHash := encodeToString (zeroHashes.sha256 []).1 }

def zeroID : Bytes32 := zeroHashes.sha256 []

def sampleAccepted : SwapBlob := { sampleRequest with id := encodeToString zeroID.1 }

def sampleSwap : AcceptedSwap where
  H := zeroHashes
  W := Builder.responderWallet
  verifyBalance _ _ _ := .ok ()
  now := 1549980000
  swapID := zeroID
  request := sampleRequest
  req := ⟨sampleAccepted, ∅, ∅⟩
  native :=
    { Builder.sampleNative with id := sampleAccepted.id, secretHash := zeroHashes.sha256 [] }
  foreign :=
    { Builder.sampleForeign with id := sampleAccepted.id, secretHash := zeroHashes.sha256 [] }
  accepted := by decide +kernel
  built := by decide +kernel
  opens _ := ⟨zeroHashes.sha256 [], rfl⟩

end Swapperd.Atomicity
