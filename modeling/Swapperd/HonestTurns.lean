/-
  Swapperd/HonestTurns.lean
  =========================
  **The protocol that two daemons play.**

  What is left of a pass is a program; a `Stage` says which call is next.  On the board
  are the stages of both parties and the two HTLCs, and a `Turn` is a call with what it
  does and where its reply leads.

  `moves_turns` — every step of the two daemons is a turn.
-/
import Swapperd.HonestParties

namespace Swapperd.Honest

open CallProgram TransitionRuns GoLibrary Immediate
open Chain (Phase)

/-! ### Stages -/

/-- The call of a pass that is next, or whether the swap is removed at its end. -/
inductive Stage where
  | build
  | initiate
  | audit
  | auditSecret
  | redeem (secret : Bytes32)
  | refund
  | done (remove : Bool)
deriving DecidableEq

def Stage.op? (req : SwapRequest) : Stage → Option Op
  | .build => some (.buildSwapContracts req)
  | .initiate => some (.initiate req.native)
  | .audit => some (.audit req.foreign)
  | .auditSecret => some (.auditSecret req.native)
  | .redeem secret => some (.redeem req.foreign secret)
  | .refund => some (.refund req.native)
  | .done _ => none

/-- After the contracts are built. -/
def Party.first : Party → Stage
  | .initiator => .initiate
  | .responder => .audit

/-- After the native HTLC is funded. -/
def Party.funded : Party → Stage
  | .initiator => .audit
  | .responder => .auditSecret

/-- After the foreign HTLC passed its audit. -/
def Party.audited (secret : Bytes32) : Party → Stage
  | .initiator => .redeem secret
  | .responder => .initiate

/-- After the audit found the swap expired. -/
def Party.expired : Party → Stage
  | .initiator => .refund
  | .responder => .done true

/-- Where a reply leads. -/
def Party.next (secret : Bytes32) (p : Party) : (op : Op) → Reply op → Stage
  | .buildSwapContracts _, .ok _ => p.first
  | .initiate _, .ok _ => p.funded
  | .audit _, .ok _ => p.audited secret
  | .audit _, .error err => if err = .swapExpired then p.expired else .done false
  | .auditSecret _, .ok revealed => .redeem revealed
  | .auditSecret _, .error err => if err = .swapExpired then .refund else .done false
  | .redeem _ _, .ok _ => .done true
  | .refund _, .ok _ => .done true
  | _, _ => .done false

/-- The passes of a party keep to its stages. -/
def stages (D : AcceptedPair) (p : Party) :
    Protocol Stage Op Reply (SwapMap × List Message) where
  Allows stage op := stage.op? (D.accepted p).req = some op
  next _ op reply := p.next D.secret op reply
  Ends stage out := ∃ remove, stage = .done remove ∧
    decide (.deleteSwap (D.accepted p).req.id ∈ out.2) = remove

variable {D : AcceptedPair}

theorem handleResult_ends {p : Party} {swapMap : SwapMap} {status : Status}
    {err : Option GoError} {remove : Bool} :
    (stages D p).Ends (.done remove)
      (handleResult swapMap (D.accepted p).req status err remove) := by
  refine ⟨remove, rfl, ?_⟩
  cases remove <;> cases err <;> simp [handleResult, newReceiptUpdate]

theorem initiate_follows (swapMap : SwapMap) :
    (initiate D.H swapMap D.initiator.req D.initiator.req.native
      D.initiator.req.foreign).Follows (stages D .initiator) .initiate := by
  unfold initiate
  refine .perform_bind rfl fun r => ?_
  cases r with
  | error err => exact handleResult_ends
  | ok u =>
      refine .perform_bind rfl fun r => ?_
      cases r with
      | error err =>
          by_cases hpending : err = .auditPending
          · subst hpending
            exact handleResult_ends
          by_cases hexpired : err = .swapExpired
          · subst hexpired
            refine .perform_bind rfl fun r => ?_
            cases r with
            | error err => exact handleResult_ends
            | ok u => exact handleResult_ends
          · simp only [hpending, hexpired, ↓reduceIte, ne_eq, not_false_eq_true, stages, Party.next]
            exact handleResult_ends
      | ok u =>
          refine .perform_bind rfl fun r => ?_
          cases r with
          | error err => exact handleResult_ends
          | ok u => exact handleResult_ends

theorem respond_follows (swapMap : SwapMap) :
    (respond swapMap D.responder.req D.responder.req.native
      D.responder.req.foreign).Follows (stages D .responder) .audit := by
  unfold respond
  refine .perform_bind rfl fun r => ?_
  cases r with
  | error err =>
      by_cases hpending : err = .auditPending
      · subst hpending
        exact handleResult_ends
      by_cases hexpired : err = .swapExpired
      · subst hexpired
        exact handleResult_ends
      · simp only [hpending, hexpired, ↓reduceIte, stages, Party.next]
        exact handleResult_ends
  | ok u =>
      refine .perform_bind rfl fun r => ?_
      cases r with
      | error err => exact handleResult_ends
      | ok u =>
          refine .perform_bind rfl fun r => ?_
          cases r with
          | error err =>
              by_cases hpending : err = .auditPending
              · subst hpending
                exact handleResult_ends
              by_cases hexpired : err = .swapExpired
              · subst hexpired
                refine .perform_bind rfl fun r => ?_
                cases r with
                | error err => exact handleResult_ends
                | ok u => exact handleResult_ends
              · simp only [hpending, hexpired, ↓reduceIte, ne_eq, not_false_eq_true, stages,
                  Party.next]
                exact handleResult_ends
          | ok secret =>
              refine .perform_bind rfl fun r => ?_
              cases r with
              | error err => exact handleResult_ends
              | ok u => exact handleResult_ends

/-- A pass begins with the contracts, and goes on in the party's role. -/
theorem handleSwap_follows (p : Party) (swapMap : SwapMap) :
    (handleSwap D.H swapMap (D.accepted p).req).Follows (stages D p) .build := by
  unfold handleSwap
  refine .perform_bind rfl fun r => ?_
  cases r with
  | error err => exact ⟨false, rfl, by simp⟩
  | ok u =>
      cases p with
      | initiator =>
          have hrole : (D.accepted .initiator).req.blob.shouldInitiateFirst = true :=
            D.role_initiator
          rw [if_pos hrole]
          exact initiate_follows swapMap
      | responder =>
          have hrole : (D.accepted .responder).req.blob.shouldInitiateFirst = false :=
            D.role_responder
          rw [if_neg (by simp [hrole])]
          exact respond_follows swapMap

/-! ### The board -/

/-- What a party is doing about the swap. -/
inductive Mode where
  | idle
  | working (stage : Stage)
  | removed
deriving DecidableEq

structure Board where
  clock : Int
  phase : Party → Phase
  revealed : List Bytes32
  lastPass : Party → Int
  mode : Party → Mode

namespace Board

def go (b : Board) (p : Party) (mode : Mode) : Board :=
  { b with mode := Function.update b.mode p mode }

def settle (b : Board) (p : Party) (phase : Phase) : Board :=
  { b with phase := Function.update b.phase p phase }

/-- The swap has expired. -/
def Late (D : AcceptedPair) (b : Board) : Prop := D.timeLock < b.clock

instance (D : AcceptedPair) (b : Board) : Decidable (b.Late D) :=
  inferInstanceAs (Decidable (_ < _))

end Board

/-- Where an audit leads that does not find what it looks for. -/
def Board.unaudited (b : Board) (D : AcceptedPair) (expired : Stage) : Mode :=
  .working (if b.Late D then expired else .done false)

/-- One call of one party, with what it does; or the beginning or the end of a pass. -/
inductive Turn (D : AcceptedPair) (period : Int) : Board → Action → Board → Prop where
  | advance {b : Board} {clock : Int} (hclock : b.clock ≤ clock)
      (hperiod : ∀ p, b.mode p ≠ .removed → clock ≤ b.lastPass p + period) :
      Turn D period b (.advance clock) { b with clock := clock }
  | start {b : Board} {p : Party} (haccepted : (D.accepted p).now ≤ b.clock)
      (hmode : b.mode p = .idle) :
      Turn D period b (.startPass p)
        { b.go p (.working .build) with lastPass := Function.update b.lastPass p b.clock }
  | build {b : Board} {p : Party} {call : Call} (hmode : b.mode p = .working .build) :
      Turn D period b (.operate p call) (b.go p (.working p.first))
  | fund {b : Board} {p : Party} {call : Call} (hmode : b.mode p = .working .initiate)
      (hphase : b.phase p = .unfunded) :
      Turn D period b (.operate p call) ((b.settle p .opened).go p (.working p.funded))
  | funded {b : Board} {p : Party} {call : Call} (hmode : b.mode p = .working .initiate)
      (hphase : b.phase p ≠ .unfunded) :
      Turn D period b (.operate p call) (b.go p (.working p.funded))
  | auditUnfunded {b : Board} {p : Party} {call : Call} (hmode : b.mode p = .working .audit)
      (hphase : b.phase p.other = .unfunded) :
      Turn D period b (.operate p call) (b.go p (b.unaudited D p.expired))
  | audit {b : Board} {p : Party} {call : Call} (hmode : b.mode p = .working .audit)
      (hphase : b.phase p.other = .opened) :
      Turn D period b (.operate p call) (b.go p (.working (p.audited D.secret)))
  /-- An audit of an HTLC that was spent may return anything. -/
  | auditSpent {b : Board} {p : Party} {call : Call} {stage : Stage}
      (hmode : b.mode p = .working .audit)
      (hphase : b.phase p.other = .redeemed ∨ b.phase p.other = .refunded)
      (hstage : stage = p.audited D.secret ∨ stage = p.expired ∨ stage = .done false) :
      Turn D period b (.operate p call) (b.go p (.working stage))
  | redeem {b : Board} {p : Party} {c : Contract} {secret : Bytes32}
      {reply : Reply (.redeem c secret)} (hmode : b.mode p = .working (.redeem secret))
      (hphase : b.phase p.other = .opened) (hopens : D.Opens secret) :
      Turn D period b (.operate p ⟨.redeem c secret, reply⟩)
        { (b.settle p.other .redeemed).go p (.working (.done true)) with
          revealed := secret :: b.revealed }
  | redeemFails {b : Board} {p : Party} {c : Contract} {secret : Bytes32} {remove : Bool}
      {reply : Reply (.redeem c secret)} (hmode : b.mode p = .working (.redeem secret))
      (hnot : ¬ (b.phase p.other = .opened ∧ D.Opens secret)) :
      Turn D period b (.operate p ⟨.redeem c secret, reply⟩) (b.go p (.working (.done remove)))
  | secretPending {b : Board} {p : Party} {call : Call}
      (hmode : b.mode p = .working .auditSecret) (hphase : b.phase p = .opened) :
      Turn D period b (.operate p call) (b.go p (b.unaudited D .refund))
  | secretFound {b : Board} {p : Party} {call : Call} {secret : Bytes32}
      (hmode : b.mode p = .working .auditSecret) (hphase : b.phase p ≠ .opened)
      (hrevealed : secret ∈ b.revealed) (hopens : D.Opens secret) :
      Turn D period b (.operate p call) (b.go p (.working (.redeem secret)))
  /-- Without a secret to be found, `AuditSecret` may fail in any way. -/
  | secretMissing {b : Board} {p : Party} {call : Call} {stage : Stage}
      (hmode : b.mode p = .working .auditSecret)
      (hphase : b.phase p = .unfunded ∨ b.phase p = .refunded)
      (hstage : stage = .refund ∨ stage = .done false) :
      Turn D period b (.operate p call) (b.go p (.working stage))
  | refund {b : Board} {p : Party} {call : Call} (hmode : b.mode p = .working .refund)
      (hphase : b.phase p = .opened) (hlate : b.Late D) :
      Turn D period b (.operate p call) ((b.settle p .refunded).go p (.working (.done true)))
  | refundFails {b : Board} {p : Party} {call : Call} {remove : Bool}
      (hmode : b.mode p = .working .refund) (hnot : ¬ (b.phase p = .opened ∧ b.Late D)) :
      Turn D period b (.operate p call) (b.go p (.working (.done remove)))
  | finish {b : Board} {p : Party} {remove : Bool}
      (hmode : b.mode p = .working (.done remove)) :
      Turn D period b (.endPass p) (b.go p (if remove then .removed else .idle))

/-! ### Every step is a turn -/

/-- The daemon is in the mode. -/
inductive InMode (D : AcceptedPair) (p : Party) : Daemon → Mode → Prop where
  | idle {d : Daemon} (hpass : d.pass = none) (hheld : d.removed = false) : InMode D p d .idle
  | working {d : Daemon} {pass : Calls (SwapMap × List Message)} {stage : Stage}
      (hpass : d.pass = some pass) (hheld : d.removed = false)
      (hfollows : pass.Follows (stages D p) stage) : InMode D p d (.working stage)
  | removed {d : Daemon} (hpass : d.pass = none) (hremoved : d.removed = true) :
      InMode D p d .removed

/-- The board of a state, for the modes of the two daemons. -/
def State.board (s : State) (mode : Party → Mode) : Board where
  clock := s.clock
  phase := s.phase
  revealed := s.revealed
  lastPass p := (s.daemon p).lastPass
  mode := mode

def State.settle (s : State) (p : Party) (phase : Phase) : State :=
  { s with phase := Function.update s.phase p phase }

@[simp] theorem write_chain (s : State) (p : Party) : s.write p (s.chain p) = s := by
  simp [State.write, State.chain]

@[simp] theorem write_setPhase (s : State) (p : Party) (leg : Leg) (phase : Phase) :
    s.write p ((s.chain p).setPhase leg phase) = s.settle (payer p leg) phase := by
  simp only [State.write, State.settle, Atomicity.State.setPhase]
  congr 1
  funext q
  cases p <;> cases q <;> cases leg <;> simp [State.chain, payer, legOf, Function.update]

section Turns

variable {period : Int} {s s' : State} {mode : Party → Mode} {p : Party}

/-- Where the audit of an HTLC may lead that was spent. -/
theorem next_audit (p : Party) {c : Contract} (reply : Reply (.audit c)) :
    p.next D.secret (.audit c) reply = p.audited D.secret ∨
      p.next D.secret (.audit c) reply = p.expired ∨
        p.next D.secret (.audit c) reply = .done false := by
  cases reply with
  | ok u => exact .inl rfl
  | error err =>
      by_cases hexpired : err = .swapExpired
      · exact .inr (.inl (if_pos hexpired))
      · exact .inr (.inr (if_neg hexpired))

/-- What an audit returns while it finds nothing leads where it should. -/
theorem next_expiry (leg : Leg) (expired : Stage) :
    (if Atomicity.expiryError (D.accepted p) (s.chain p) leg = .swapExpired then expired
      else .done false) = if (s.board mode).Late D then expired else .done false := by
  rw [Atomicity.expiryError, D.timeLock_accepted]
  by_cases hlate : D.timeLock < s.clock
  · rw [if_pos (show (s.board mode).Late D from hlate),
      if_pos (show D.timeLock < (s.chain p).clock from hlate), if_pos rfl]
  · rw [if_neg (show ¬ (s.board mode).Late D from hlate),
      if_neg (show ¬ D.timeLock < (s.chain p).clock from hlate), if_neg (by decide)]

/-- What a party does with a call is a turn, and the reply leads to the next stage. -/
def CallTurn (D : AcceptedPair) (period : Int) (p : Party) (s : State) (mode : Party → Mode)
    (call : Call) (s' : State) : Prop :=
  Turn D period (s.board mode) (.operate p call)
    (s'.board (Function.update mode p (.working (p.next D.secret call.1 call.2))))

theorem initiate_turn {c : Contract} {reply : Reply (.initiate c)}
    (hc : c = (D.accepted p).req.native) (hmode : mode p = .working .initiate)
    (h : Operates D p s ⟨.initiate c, reply⟩ s') :
    CallTurn D period p s mode ⟨.initiate c, reply⟩ s' := by
  obtain ⟨hagain, chain, hoperates, rfl⟩ := h
  subst hc
  dsimp only [Atomicity.Operates] at hoperates
  split at hoperates
  · rename_i hphase
    obtain ⟨rfl, rfl⟩ := hoperates
    rw [write_setPhase]
    exact .fund hmode hphase
  · rename_i hphase
    have hfunded : s.phase p ≠ .unfunded := hphase
    obtain rfl : reply = .ok () := by
      simpa using hagain _ hfunded rfl
    rw [hoperates, write_chain]
    exact .funded hmode hfunded

theorem audit_turn {c : Contract} {reply : Reply (.audit c)}
    (hc : c = (D.accepted p).req.foreign) (hmode : mode p = .working .audit)
    (h : Operates D p s ⟨.audit c, reply⟩ s') :
    CallTurn D period p s mode ⟨.audit c, reply⟩ s' := by
  obtain ⟨-, chain, ⟨rfl, hunfunded, hopened⟩, rfl⟩ := h
  subst hc
  rw [write_chain]
  cases hphase : s.phase p.other with
  | unfunded =>
      obtain rfl := hunfunded hphase
      rw [CallTurn, Party.next, next_expiry]
      exact .auditUnfunded hmode hphase
  | opened =>
      obtain rfl := hopened hphase
      exact .audit hmode hphase
  | redeemed => exact .auditSpent hmode (.inl hphase) (next_audit p reply)
  | refunded => exact .auditSpent hmode (.inr hphase) (next_audit p reply)

theorem auditSecret_turn {c : Contract} {reply : Reply (.auditSecret c)}
    (hc : c = (D.accepted p).req.native) (hmode : mode p = .working .auditSecret)
    (h : Operates D p s ⟨.auditSecret c, reply⟩ s') :
    CallTurn D period p s mode ⟨.auditSecret c, reply⟩ s' := by
  obtain ⟨-, chain, ⟨rfl, hopened, hredeemed, hsecret⟩, rfl⟩ := h
  subst hc
  rw [write_chain]
  by_cases hphase : s.phase p = .opened
  · obtain rfl := hopened hphase
    rw [CallTurn, Party.next, next_expiry]
    exact .secretPending hmode hphase
  cases reply with
  | ok secret =>
      obtain ⟨hrevealed, hopens⟩ := hsecret secret rfl
      exact .secretFound hmode hphase hrevealed ((D.opens_accepted p .native secret).mp hopens)
  | error err =>
      have hmissing : s.phase p = .unfunded ∨ s.phase p = .refunded := by
        cases hspent : s.phase p with
        | unfunded => exact .inl rfl
        | opened => exact absurd hspent hphase
        | redeemed =>
            obtain ⟨secret, hfound⟩ := hredeemed hspent
            cases hfound
        | refunded => exact .inr rfl
      refine .secretMissing hmode hmissing ?_
      by_cases hexpired : err = .swapExpired
      · exact .inl (if_pos hexpired)
      · exact .inr (if_neg hexpired)

theorem redeem_turn {c : Contract} {secret : Bytes32} {reply : Reply (.redeem c secret)}
    (hc : c = (D.accepted p).req.foreign) (hmode : mode p = .working (.redeem secret))
    (h : Operates D p s ⟨.redeem c secret, reply⟩ s') :
    CallTurn D period p s mode ⟨.redeem c secret, reply⟩ s' := by
  obtain ⟨-, chain, hoperates, rfl⟩ := h
  subst hc
  dsimp only [Atomicity.Operates] at hoperates
  split at hoperates
  · rename_i hallowed
    obtain ⟨rfl, rfl⟩ := hoperates
    have hwrite : s.write p
        { (s.chain p).setPhase .foreign .redeemed with
          revealed := secret :: (s.chain p).revealed } =
        { s.settle p.other .redeemed with revealed := secret :: s.revealed } :=
      congrArg (fun t : State => { t with revealed := secret :: s.revealed })
        (write_setPhase s p .foreign .redeemed)
    rw [hwrite]
    exact .redeem hmode hallowed.1 ((D.opens_accepted p .foreign secret).mp hallowed.2)
  · rename_i hnot
    rw [hoperates, write_chain]
    have hnot' : ¬ (s.phase p.other = .opened ∧ D.Opens secret) := by
      rwa [← D.opens_accepted p .foreign]
    have hnext : p.next D.secret (.redeem (D.accepted p).req.foreign secret) reply =
      .done reply.isOk := by cases reply <;> rfl
    rw [CallTurn, hnext]
    exact .redeemFails hmode hnot'

theorem refund_turn {c : Contract} {reply : Reply (.refund c)}
    (hc : c = (D.accepted p).req.native) (hmode : mode p = .working .refund)
    (h : Operates D p s ⟨.refund c, reply⟩ s') :
    CallTurn D period p s mode ⟨.refund c, reply⟩ s' := by
  obtain ⟨-, chain, hoperates, rfl⟩ := h
  subst hc
  dsimp only [Atomicity.Operates] at hoperates
  split at hoperates
  · rename_i hallowed
    obtain ⟨rfl, rfl⟩ := hoperates
    rw [write_setPhase]
    have hlate : (s.board mode).Late D := by
      have htime := hallowed.2
      rwa [D.timeLock_accepted] at htime
    exact .refund hmode hallowed.1 hlate
  · rename_i hnot
    rw [hoperates, write_chain]
    have hnot' : ¬ (s.phase p = .opened ∧ (s.board mode).Late D) := by
      rwa [D.timeLock_accepted] at hnot
    have hnext : p.next D.secret (.refund (D.accepted p).req.native) reply =
      .done reply.isOk := by cases reply <;> rfl
    rw [CallTurn, hnext]
    exact .refundFails hmode hnot'

/-- A call that is next does what a turn does. -/
theorem operates_turn {stage : Stage} {op : Op} {reply : Reply op}
    (hmode : mode p = .working stage) (hop : stage.op? (D.accepted p).req = some op)
    (h : Operates D p s ⟨op, reply⟩ s') : CallTurn D period p s mode ⟨op, reply⟩ s' := by
  cases stage with
  | build =>
      cases hop
      obtain ⟨-, chain, ⟨rfl, rfl⟩, rfl⟩ := h
      rw [write_chain]
      exact .build hmode
  | initiate =>
      cases hop
      exact initiate_turn rfl hmode h
  | audit =>
      cases hop
      exact audit_turn rfl hmode h
  | auditSecret =>
      cases hop
      exact auditSecret_turn rfl hmode h
  | redeem secret =>
      cases hop
      exact redeem_turn rfl hmode h
  | refund =>
      cases hop
      exact refund_turn rfl hmode h
  | done remove => cases hop

theorem board_setDaemon (s : State) (p : Party) (d : Daemon) (mode : Party → Mode) :
    (s.setDaemon p d).board mode =
      { s.board mode with lastPass := Function.update (s.board mode).lastPass p d.lastPass } := by
  simp only [State.board, State.setDaemon]
  congr 1
  funext q
  by_cases hq : q = p
  · subst hq
    simp
  · simp [hq]

/-- A daemon that starts no pass. -/
theorem board_setDaemon_same {d : Daemon} (h : d.lastPass = (s.daemon p).lastPass) :
    (s.setDaemon p d).board mode = s.board mode := by
  rw [board_setDaemon, h]
  have hsame : Function.update (s.board mode).lastPass p (s.daemon p).lastPass =
      (s.board mode).lastPass := Function.update_eq_self p (s.board mode).lastPass
  rw [hsame]

theorem inMode_update {daemon : Party → Daemon} {d : Daemon} {m : Mode}
    (hmode : ∀ q, InMode D q (daemon q) (mode q)) (hd : InMode D p d m) (q : Party) :
    InMode D q (Function.update daemon p d q) (Function.update mode p m q) := by
  by_cases hq : q = p
  · subst hq
    simpa using hd
  · simpa [hq] using hmode q

theorem InMode.held_iff {d : Daemon} {m : Mode} (h : InMode D p d m) :
    d.removed = false ↔ m ≠ .removed := by
  cases h <;> simp_all

theorem InMode.idle_of {d : Daemon} {m : Mode} (h : InMode D p d m) (hidle : d.pass = none)
    (hheld : d.removed = false) : m = .idle := by
  cases h with
  | idle => rfl
  | working hpass =>
      rw [hidle] at hpass
      cases hpass
  | removed _ hremoved =>
      rw [hheld] at hremoved
      cases hremoved

theorem InMode.working_of {d : Daemon} {m : Mode} (h : InMode D p d m)
    {pass : Calls (SwapMap × List Message)} (hpass : d.pass = some pass) :
    ∃ stage, m = .working stage ∧ d.removed = false ∧ pass.Follows (stages D p) stage := by
  cases h with
  | working hpass' hheld hfollows =>
      obtain rfl := Option.some.inj (hpass'.symm.trans hpass)
      exact ⟨_, rfl, hheld, hfollows⟩
  | idle hnone | removed hnone =>
      rw [hpass] at hnone
      cases hnone

/-- **Every step is a turn**, and the daemons are in the modes after it. -/
theorem moves_turns {a : Action} (hmode : ∀ p, InMode D p (s.daemon p) (mode p))
    (h : Moves D period s a s') :
    ∃ mode', Turn D period (s.board mode) a (s'.board mode') ∧
      ∀ p, InMode D p (s'.daemon p) (mode' p) := by
  cases h with
  | advance hclock hperiod =>
      refine ⟨mode, .advance hclock fun p hp => ?_, hmode⟩
      exact hperiod p ((hmode p).held_iff.mpr hp)
  | @startPass p haccepted hidle hheld =>
      refine ⟨Function.update mode p (.working .build), ?_, ?_⟩
      · rw [board_setDaemon]
        exact .start haccepted ((hmode p).idle_of hidle hheld)
      · exact inMode_update hmode (.working rfl hheld (handleSwap_follows p _))
  | @operate s₁ p op reply k hpass hop =>
      obtain ⟨stage, hp, hheld, hallows, hfollows⟩ := (hmode p).working_of hpass
      have hturn : CallTurn D period p _ _ _ _ := operates_turn hp hallows hop
      obtain ⟨-, chain, -, rfl⟩ := hop
      refine ⟨_, ?_, inMode_update hmode (.working rfl hheld (hfollows reply))⟩
      rw [board_setDaemon_same]
      · exact hturn
      · rfl
  | @endPass p swapMap messages hpass =>
      obtain ⟨stage, hp, hheld, remove, rfl, hremove⟩ := (hmode p).working_of hpass
      refine ⟨Function.update mode p (if remove then .removed else .idle), ?_, ?_⟩
      · rw [board_setDaemon_same]
        · exact .finish hp
        · rfl
      · apply inMode_update hmode
        cases remove with
        | true => exact .removed rfl hremove
        | false => exact .idle rfl hremove

end Turns

end Swapperd.Honest
