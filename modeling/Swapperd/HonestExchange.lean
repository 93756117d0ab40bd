/-
  Swapperd/HonestExchange.lean
  ============================
  **A swap that two daemons complete.**

  A pass is whatever its protocol allows, so that the run of a pass follows from the
  replies to its calls alone, and not from the program.

  `exchange` — from any swap that both accepted within a period of each other, two passes
  of each are enough.
-/
import Swapperd.HonestTurns

namespace Swapperd.Honest

open CallProgram TransitionRuns GoLibrary Immediate
open Chain (Phase)

variable {D : AcceptedPair} {period : Int} {s s' : State} {p : Party}

/-- The states are joined by a run. -/
def LeadsTo (D : AcceptedPair) (period : Int) (s s' : State) : Prop :=
  ∃ ts, Run (Moves D period) s ts s'

theorem LeadsTo.trans {s₁ s₂ s₃ : State} (h : LeadsTo D period s₁ s₂)
    (h' : LeadsTo D period s₂ s₃) : LeadsTo D period s₁ s₃ := by
  obtain ⟨ts, hts⟩ := h
  obtain ⟨us, hus⟩ := h'
  exact ⟨ts ++ us, hts.append hus⟩

theorem Moves.leadsTo {a : Action} (h : Moves D period s a s') : LeadsTo D period s s' :=
  ⟨_, .cons h (.nil _)⟩

/-- The clock does not go back. -/
theorem clock_le {ts : List (Transition State Action)} (h : Run (Moves D period) s ts s') :
    s.clock ≤ s'.clock ∧ ∀ t ∈ ts, t.source.clock ≤ s'.clock := by
  induction h with
  | nil s => exact ⟨le_refl _, by simp⟩
  | @cons s s₁ s₂ a ts hmoves _ ih =>
      have hstep : s.clock ≤ s₁.clock := by
        cases hmoves with
        | advance hclock => exact hclock
        | startPass | endPass => exact le_refl _
        | operate _ hop =>
            obtain ⟨-, chain, -, rfl⟩ := hop
            exact le_refl _
      have hrest := hstep.trans ih.1
      exact ⟨hrest, by simpa using ⟨hrest, ih.2⟩⟩

/-! ### Passes that nothing interrupts -/

/-- The calls of one party from a stage on, with their replies, up to the end of its pass. -/
inductive Pass (D : AcceptedPair) (p : Party) : Stage → State → Bool → State → Prop where
  | done (remove : Bool) (s : State) : Pass D p (.done remove) s remove s
  | call {stage : Stage} {op : Op} {reply : Reply op} {s s₁ s₂ : State} {remove : Bool}
      (hop : stage.op? (D.accepted p).req = some op) (hcall : Operates D p s ⟨op, reply⟩ s₁)
      (hrest : Pass D p (p.next D.secret op reply) s₁ remove s₂) : Pass D p stage s remove s₂

/-- The chains do not depend on the daemons. -/
theorem Operates.setDaemon {q : Party} {call : Call} (h : Operates D p s call s') (d : Daemon) :
    Operates D p (s.setDaemon q d) call (s'.setDaemon q d) := by
  obtain ⟨hagain, chain, hoperates, rfl⟩ := h
  exact ⟨hagain, chain, hoperates, rfl⟩

theorem setDaemon_setDaemon (s : State) (p : Party) (d d' : Daemon) :
    (s.setDaemon p d).setDaemon p d' = s.setDaemon p d' := by
  simp [State.setDaemon]

theorem setDaemon_daemon (s : State) (p : Party) (d : Daemon) :
    (s.setDaemon p d).daemon p = d := by
  simp [State.setDaemon]

/-- A program that keeps to the stages makes the calls of a pass. -/
theorem Pass.leadsTo {stage : Stage} {remove : Bool} (h : Pass D p stage s remove s')
    {prog : Calls (SwapMap × List Message)} (hfollows : prog.Follows (stages D p) stage)
    (d : Daemon) :
    ∃ swapMap, LeadsTo D period (s.setDaemon p { d with pass := some prog })
      (s'.setDaemon p ⟨d.lastPass, none, swapMap, remove⟩) := by
  induction h generalizing prog with
  | done remove s =>
      cases prog with
      | call op k => cases hfollows.1
      | pure out =>
          obtain ⟨_, hstage, hremove⟩ := hfollows
          cases hstage
          obtain ⟨swapMap, messages⟩ := out
          refine ⟨swapMap, ?_⟩
          have hmove : Moves D period _ _ _ := Moves.endPass (p := p)
            (s := s.setDaemon p { d with pass := some (.pure (swapMap, messages)) })
            (by rw [setDaemon_daemon])
          rw [setDaemon_setDaemon, setDaemon_daemon, hremove] at hmove
          exact hmove.leadsTo
  | @call stage op reply s s₁ s₂ remove hop hcall _ ih =>
      cases prog with
      | pure out =>
          obtain ⟨_, rfl, -⟩ := hfollows
          cases hop
      | call op' k =>
          obtain ⟨hallows, hrest⟩ := hfollows
          obtain rfl : op' = op := Option.some.inj (hallows.symm.trans hop)
          obtain ⟨swapMap, hleads⟩ := ih (hrest reply)
          refine ⟨swapMap, .trans ?_ hleads⟩
          have hmove : Moves D period _ _ _ := Moves.operate (p := p)
            (s := s.setDaemon p { d with pass := some (.call op' k) })
            (by rw [setDaemon_daemon]) (hcall.setDaemon _)
          rw [setDaemon_setDaemon, setDaemon_daemon] at hmove
          exact hmove.leadsTo

/-- A party that is idle makes a pass. -/
theorem LeadsTo.pass {s₀ : State} {remove : Bool} (h : LeadsTo D period s₀ s)
    (hpass : Pass D p .build s remove s') (haccepted : (D.accepted p).now ≤ s.clock)
    (hidle : (s.daemon p).pass = none) (hheld : (s.daemon p).removed = false) :
    ∃ swapMap, LeadsTo D period s₀ (s'.setDaemon p ⟨s.clock, none, swapMap, remove⟩) := by
  obtain ⟨swapMap, hleads⟩ := @Pass.leadsTo _ period _ _ _ _ _ hpass _
    (handleSwap_follows p (s.daemon p).swapMap) { s.daemon p with lastPass := s.clock }
  exact ⟨swapMap, h.trans ((Moves.startPass haccepted hidle hheld).leadsTo.trans hleads)⟩

theorem LeadsTo.advance {s₀ : State} (h : LeadsTo D period s₀ s) (clock : Int)
    (hclock : s.clock ≤ clock)
    (hperiod : ∀ p, (s.daemon p).removed = false → clock ≤ (s.daemon p).lastPass + period) :
    LeadsTo D period s₀ { s with clock := clock } :=
  h.trans (Moves.advance hclock hperiod).leadsTo

/-! ### Calls that do what they should -/

theorem operates_build : Operates D p s ⟨.buildSwapContracts (D.accepted p).req, .ok ()⟩ s :=
  ⟨by rintro c - ⟨⟩, s.chain p, ⟨rfl, rfl⟩, (write_chain s p).symm⟩

theorem operates_fund (h : s.phase p = .unfunded) :
    Operates D p s ⟨.initiate (D.accepted p).req.native, .ok ()⟩ (s.settle p .opened) := by
  refine ⟨fun c hfunded => absurd h hfunded, (s.chain p).setPhase .native .opened, ?_,
    (write_setPhase s p .native .opened).symm⟩
  have hunfunded : (s.chain p).phase (D.accepted p).req.native.leg = .unfunded := h
  dsimp only [Atomicity.Operates]
  rw [if_pos hunfunded]
  exact ⟨rfl, rfl⟩

theorem operates_funded (h : s.phase p ≠ .unfunded) :
    Operates D p s ⟨.initiate (D.accepted p).req.native, .ok ()⟩ s := by
  refine ⟨by rintro c - ⟨⟩; rfl, s.chain p, ?_, (write_chain s p).symm⟩
  have hfunded : (s.chain p).phase (D.accepted p).req.native.leg ≠ .unfunded := h
  dsimp only [Atomicity.Operates]
  rw [if_neg hfunded]

theorem operates_audit (h : s.phase p.other = .opened) :
    Operates D p s ⟨.audit (D.accepted p).req.foreign, .ok ()⟩ s := by
  have hopened : (s.chain p).phase .foreign = .opened := h
  refine ⟨by rintro c - ⟨⟩, s.chain p, ⟨rfl, fun hunfunded => ?_, fun _ => rfl⟩,
    (write_chain s p).symm⟩
  cases hopened.symm.trans hunfunded

/-- Before the swap expires, an audit that finds nothing is pending. -/
theorem expiryError_early (h : s.clock ≤ D.timeLock) (leg : Leg) :
    Atomicity.expiryError (D.accepted p) (s.chain p) leg = .auditPending := by
  rw [Atomicity.expiryError, D.timeLock_accepted]
  exact if_neg (not_lt.mpr h)

theorem operates_auditPending (h : s.phase p.other = .unfunded) (htime : s.clock ≤ D.timeLock) :
    Operates D p s ⟨.audit (D.accepted p).req.foreign, .error .auditPending⟩ s := by
  have hunfunded : (s.chain p).phase .foreign = .unfunded := h
  refine ⟨by rintro c - ⟨⟩, s.chain p, ⟨rfl, fun _ => ?_, fun hopened => ?_⟩,
    (write_chain s p).symm⟩
  · rw [expiryError_early htime]
  · cases hunfunded.symm.trans hopened

theorem operates_secretPending (h : s.phase p = .opened) (htime : s.clock ≤ D.timeLock) :
    Operates D p s ⟨.auditSecret (D.accepted p).req.native, .error .auditPending⟩ s := by
  have hopened : (s.chain p).phase .native = .opened := h
  refine ⟨by rintro c - ⟨⟩, s.chain p, ⟨rfl, fun _ => ?_, fun hredeemed => ?_, ?_⟩,
    (write_chain s p).symm⟩
  · rw [expiryError_early htime]
  · cases hopened.symm.trans hredeemed
  · rintro secret ⟨⟩

theorem operates_auditSecret {secret : Bytes32} (h : s.phase p = .redeemed)
    (hrevealed : secret ∈ s.revealed) (hopens : D.Opens secret) :
    Operates D p s ⟨.auditSecret (D.accepted p).req.native, .ok secret⟩ s := by
  have hredeemed : (s.chain p).phase .native = .redeemed := h
  refine ⟨by rintro c - ⟨⟩, s.chain p, ⟨rfl, fun hopened => ?_, fun _ => ⟨secret, rfl⟩, ?_⟩,
    (write_chain s p).symm⟩
  · cases hredeemed.symm.trans hopened
  · rintro _ ⟨⟩
    exact ⟨hrevealed, (D.opens_accepted p .native secret).mpr hopens⟩

theorem operates_redeem {secret : Bytes32} (h : s.phase p.other = .opened)
    (hopens : D.Opens secret) :
    Operates D p s ⟨.redeem (D.accepted p).req.foreign secret, .ok ()⟩
      { s.settle p.other .redeemed with revealed := secret :: s.revealed } := by
  have hallowed : (s.chain p).phase (D.accepted p).req.foreign.leg = .opened ∧
      Atomicity.Opens (D.accepted p).H ((D.accepted p).swap .foreign) secret :=
    ⟨h, (D.opens_accepted p .foreign secret).mpr hopens⟩
  refine ⟨by rintro c - ⟨⟩, { (s.chain p).setPhase .foreign .redeemed with
    revealed := secret :: s.revealed }, ?_, ?_⟩
  · dsimp only [Atomicity.Operates]
    rw [if_pos hallowed]
    exact ⟨rfl, rfl⟩
  · exact congrArg (fun t : State => { t with revealed := secret :: s.revealed })
      (write_setPhase s p .foreign .redeemed).symm

/-! ### The four passes -/

/-- The initiator funds its HTLC. -/
theorem pass_funds (h : ∀ q, s.phase q = .unfunded) (htime : s.clock ≤ D.timeLock) :
    Pass D .initiator .build s false (s.settle .initiator .opened) := by
  have htime' : (s.settle .initiator .opened).clock ≤ D.timeLock := htime
  apply Pass.call rfl operates_build
  apply Pass.call rfl (operates_fund (h .initiator))
  apply Pass.call rfl (operates_auditPending _ htime')
  · exact .done _ _
  · simp [State.settle, h]

/-- The responder finds it, and funds the other one. -/
theorem pass_answers (hI : s.phase .initiator = .opened) (hR : s.phase .responder = .unfunded)
    (htime : s.clock ≤ D.timeLock) :
    Pass D .responder .build s false (s.settle .responder .opened) := by
  have htime' : (s.settle .responder .opened).clock ≤ D.timeLock := htime
  apply Pass.call rfl operates_build
  apply Pass.call rfl (operates_audit hI)
  apply Pass.call rfl (operates_fund hR)
  apply Pass.call rfl (operates_secretPending _ htime')
  · exact .done _ _
  · simp [State.settle]

/-- The initiator redeems that one. -/
theorem pass_redeems (hI : s.phase .initiator = .opened) (hR : s.phase .responder = .opened) :
    Pass D .initiator .build s true
      { s.settle .responder .redeemed with revealed := D.secret :: s.revealed } := by
  apply Pass.call rfl operates_build
  apply Pass.call rfl (operates_funded (by simp [hI]))
  apply Pass.call rfl (operates_audit hR)
  exact .call rfl (operates_redeem hR D.opens_secret) (.done _ _)

/-- The responder finds the secret, and redeems the first one. -/
theorem pass_finishes (hI : s.phase .initiator = .opened) (hR : s.phase .responder = .redeemed)
    (hrevealed : D.secret ∈ s.revealed) :
    Pass D .responder .build s true
      { s.settle .initiator .redeemed with revealed := D.secret :: s.revealed } := by
  apply Pass.call rfl operates_build
  apply Pass.call rfl (operates_audit hI)
  apply Pass.call rfl (operates_funded (by simp [hR]))
  apply Pass.call rfl (operates_auditSecret hR hrevealed D.opens_secret)
  exact .call rfl (operates_redeem hI D.opens_secret) (.done _ _)

/-- **A swap that is completed** when the responder accepts it in time, within a period of
    the initiator. -/
theorem exchange (hperiod : 0 ≤ period) (hsoon : D.responder.now ≤ D.initiator.now + period)
    (htime : D.responder.now ≤ D.timeLock) {clock : Int} (hclock : D.responder.now ≤ clock) :
    ∃ s ts, Run (Moves D period) (.init D) ts s ∧ s.clock = clock ∧
      (∀ p, s.phase p = .redeemed) ∧ ∀ p, (s.daemon p).removed = true := by
  have hlater : D.initiator.now ≤ D.responder.now := D.later
  have h₀ : LeadsTo D period (.init D) (.init D) := ⟨[], .nil _⟩
  obtain ⟨m₁, h₁⟩ := h₀.pass (pass_funds (fun _ => rfl) (hlater.trans htime)) (le_refl _) rfl rfl
  have h₂ := h₁.advance D.responder.now hlater (by
    rintro (_ | _) -
    · exact hsoon
    · exact le_add_of_nonneg_right hperiod)
  obtain ⟨m₃, h₃⟩ := h₂.pass (pass_answers rfl rfl htime) (le_refl _) rfl rfl
  obtain ⟨m₄, h₄⟩ := h₃.pass (pass_redeems rfl rfl) hlater rfl rfl
  obtain ⟨m₅, h₅⟩ := h₄.pass (pass_finishes rfl rfl List.mem_cons_self) (le_refl _) rfl rfl
  obtain ⟨ts, hrun⟩ := h₅.advance clock hclock (by rintro (_ | _) hheld <;> cases hheld)
  exact ⟨_, ts, hrun, rfl, by rintro (_ | _) <;> rfl, by rintro (_ | _) <;> rfl⟩

/-! ### Two daemons -/

def sampleAccepted (W : Wallet) (now : Int) (request blob : SwapBlob) (pair : Swap × Swap)
    (haccepted : Handler.patchSwap zeroHashes W (fun _ _ _ => .ok ()) now sampleID request =
      .ok blob)
    (hbuilt : Builder.buildComplementarySwaps W blob = .ok pair)
    (hopens : Atomicity.Opens zeroHashes pair.1 sampleID) : Atomicity.AcceptedSwap where
  H := zeroHashes
  W := W
  verifyBalance _ _ _ := .ok ()
  now := now
  swapID := sampleID
  request := request
  req := { blob := blob }
  native := pair.1
  foreign := pair.2
  accepted := haccepted
  built := hbuilt
  opens _ := ⟨sampleID, hopens⟩

/-- Bitcoin for ether, a minute apart. -/
def sampleDaemons : AcceptedPair where
  initiator := sampleAccepted initiatorWallet 1550000000 sampleRequest sampleInitiator
    (samplePair initiatorWallet sampleInitiator) (eq_ok_getD_of_isOk _ (by decide +kernel))
    (eq_ok_getD_of_isOk _ (by decide +kernel)) (by decide +kernel)
  responder := sampleAccepted Builder.responderWallet 1550000060
    (sampleResponse.swap.withPassword "responder") sampleResponder
    (samplePair Builder.responderWallet sampleResponder) (eq_ok_getD_of_isOk _ (by decide +kernel))
    (eq_ok_getD_of_isOk _ (by decide +kernel)) (by decide +kernel)
  J := sampleJson
  post _ := .ok (200, .ok "")
  response := sampleResponse
  password := "responder"
  initiates := rfl
  sendTo token htoken := by
    have hbitcoin : patchToken sampleRequest.sendToken = .ok tokenBTC := by decide +kernel
    rw [← Except.ok.inj (hbitcoin.symm.trans htoken)]
    rfl
  receiveFrom token htoken := by
    have hether : patchToken sampleRequest.receiveToken = .ok tokenETH := by decide +kernel
    rw [← Except.ok.inj (hether.symm.trans htoken)]
    rfl
  answered := eq_ok_getD_of_isOk _ (by decide +kernel)
  posted := rfl
  hashes := rfl
  later := by decide

/-- Their swap is completed. -/
theorem exchange_sample {clock : Int} (hclock : 1550000060 ≤ clock) :
    ∃ s ts, Run (Moves sampleDaemons (40 * 60)) (.init sampleDaemons) ts s ∧ s.clock = clock ∧
      (∀ p, s.phase p = .redeemed) ∧ ∀ p, (s.daemon p).removed = true :=
  exchange (by decide) (by decide) (by decide +kernel) hclock

end Swapperd.Honest
