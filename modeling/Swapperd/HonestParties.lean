/-
  Swapperd/HonestParties.lean
  ===========================
  **Two daemons that swap with each other.**

  The initiator's daemon accepted a swap and answered it; the responder's daemon accepted
  the answer.  What one funds is what the other audits and redeems, so that there are two
  HTLCs in all.  Each daemon runs its passes, the next one at most a period after the
  last; the calls of the two interleave in any order.

  The chains are those of `Atomicity`: an operation that the HTLC allows is done at once
  and returns nil, and every query is answered.  Funding an HTLC that was funded before
  returns nil, as `Initiate` of every binder does.  Neither daemon crashes.
-/
import Swapperd.Atomicity
import Swapperd.MirrorSwaps

namespace Swapperd.Honest

open CallProgram TransitionRuns GoLibrary Immediate Atomicity
open Chain (Phase)
open Handler (PostSwapResponse)

/-! ### The swap -/

inductive Party where
  | initiator
  | responder
deriving DecidableEq, Repr

def Party.other : Party → Party
  | .initiator => .responder
  | .responder => .initiator

@[simp] theorem other_initiator : Party.initiator.other = .responder := rfl
@[simp] theorem other_responder : Party.responder.other = .initiator := rfl
@[simp] theorem other_other (p : Party) : p.other.other = p := by cases p <;> rfl
@[simp] theorem other_ne (p : Party) : p.other ≠ p := by cases p <;> decide
@[simp] theorem ne_other (p : Party) : p ≠ p.other := (other_ne p).symm

/-- A swap that both parties accepted.  The initiator's request pays to and is funded from
    the responder's addresses; the responder posts the initiator's response under its own
    password. -/
structure AcceptedPair where
  initiator : AcceptedSwap
  responder : AcceptedSwap
  J : Handler.Json
  post : PostSwapResponse → Handler.PostResult
  response : PostSwapResponse
  password : String
  initiates : initiator.request.shouldInitiateFirst = true
  sendTo : ∀ token, patchToken initiator.request.sendToken = .ok token →
    responder.W.getAddress password token.blockchain = .ok initiator.request.sendTo
  receiveFrom : ∀ token, patchToken initiator.request.receiveToken = .ok token →
    responder.W.getAddress password token.blockchain = .ok initiator.request.receiveFrom
  answered : Handler.buildSwapResponse initiator.H initiator.W J post initiator.req.blob =
    .ok response
  posted : responder.request = response.swap.withPassword password
  hashes : responder.H = initiator.H
  later : initiator.now ≤ responder.now

namespace AcceptedPair

variable (D : AcceptedPair)

def accepted : Party → AcceptedSwap
  | .initiator => D.initiator
  | .responder => D.responder

def H : Hashes := D.initiator.H

def timeLock : Int := D.initiator.req.blob.timeLock

/-- The secret opens the hash of the two HTLCs. -/
def Opens (secret : Bytes32) : Prop := Atomicity.Opens D.H D.initiator.native secret

theorem patches : Handler.Patches D.initiator.request D.initiator.req.blob :=
  (Handler.patchSwap_patches D.initiator.accepted).1

theorem role_initiator : D.initiator.req.blob.shouldInitiateFirst = true := by
  rw [D.patches]
  exact D.initiates

theorem isResponse :
    Handler.IsResponse D.initiator.W D.initiator.req.blob D.response.swap :=
  Handler.buildSwapResponse_ok D.answered D.role_initiator

theorem blob_responder :
    D.responder.req.blob =
      { D.response.swap.withPassword D.password with
        id := encodeToString D.responder.swapID.1 } := by
  have haccepted := D.responder.accepted
  rw [D.posted] at haccepted
  exact patchSwap_response haccepted D.isResponse.shouldInitiateFirst

theorem role_responder : D.responder.req.blob.shouldInitiateFirst = false := by
  rw [D.blob_responder]
  exact D.isResponse.shouldInitiateFirst

/-- The two HTLCs of the one are the two HTLCs of the other. -/
theorem mirrors : Mirrors D.initiator.native D.responder.foreign ∧
    Mirrors D.initiator.foreign D.responder.native := by
  have hresponder := D.blob_responder
  apply complementary_mirrors D.isResponse _ _ _
    (Builder.buildComplementarySwaps_ok D.initiator.built)
    (Builder.buildComplementarySwaps_ok D.responder.built)
  · rw [hresponder]
    rfl
  · intro token htoken
    rw [D.patches] at htoken ⊢
    rw [hresponder]
    exact D.sendTo token htoken
  · intro token htoken
    rw [D.patches] at htoken ⊢
    rw [hresponder]
    exact D.receiveFrom token htoken

theorem H_accepted (p : Party) : (D.accepted p).H = D.H := by
  cases p with
  | initiator => rfl
  | responder => exact D.hashes

theorem timeLock_accepted (p : Party) (leg : Leg) :
    ((D.accepted p).swap leg).timeLock = D.timeLock := by
  have htime := (D.accepted p).timeLock_eq leg
  cases p with
  | initiator => exact htime
  | responder =>
      rw [htime]
      show D.responder.req.blob.timeLock = D.initiator.req.blob.timeLock
      rw [D.blob_responder]
      exact D.isResponse.timeLock

theorem secretHash_legs (S : AcceptedSwap) : S.native.secretHash = S.foreign.secretHash := by
  have hswaps := Builder.buildComplementarySwaps_ok S.built
  exact Except.ok.inj (hswaps.native_leg.secretHash.symm.trans hswaps.foreign_leg.secretHash)

theorem opens_accepted (p : Party) (leg : Leg) (secret : Bytes32) :
    Atomicity.Opens (D.accepted p).H ((D.accepted p).swap leg) secret ↔ D.Opens secret := by
  have hhash : ((D.accepted p).swap leg).secretHash = D.initiator.native.secretHash := by
    cases p with
    | initiator =>
        cases leg with
        | native => rfl
        | foreign => exact (secretHash_legs D.initiator).symm
    | responder =>
        have hforeign := D.mirrors.1.secretHash
        cases leg with
        | native => exact (secretHash_legs D.responder).trans hforeign.symm
        | foreign => exact hforeign.symm
  rw [Opens, Atomicity.Opens, Atomicity.Opens, hhash, D.H_accepted]

/-- The secret that the initiator's passes redeem with. -/
def secret : Bytes32 :=
  Handler.genereateSecret D.H D.initiator.req.blob.password D.initiator.req.blob.id

theorem opens_secret : D.Opens D.secret := by
  obtain ⟨hhash, -⟩ := Handler.patchTerms_initiator (Handler.patchSwap_ok D.initiator.accepted)
    D.initiates
  have hleg := (Builder.buildComplementarySwaps_ok D.initiator.built).native_leg
  have hunmarshal := hleg.secretHash
  rw [hhash, Handler.secretHash, Builder.unmarshalSecretHash,
    decodeString_encodeToString] at hunmarshal
  dsimp only at hunmarshal
  rw [dif_pos (D.initiator.H.sha256 _).2] at hunmarshal
  exact Except.ok.inj hunmarshal

end AcceptedPair

/-! ### The two daemons -/

/-- One party's immediate swapper, as far as it has to do with the swap. -/
structure Daemon where
  lastPass : Int
  pass : Option (Calls (SwapMap × List Message))
  swapMap : SwapMap
  removed : Bool

/-- `phase` tells of the HTLC that a party funds. -/
structure State where
  clock : Int
  phase : Party → Phase
  revealed : List Bytes32
  daemon : Party → Daemon

/-- The initiator has accepted the swap; the responder is going to. -/
def State.init (D : AcceptedPair) : State where
  clock := D.initiator.now
  phase _ := .unfunded
  revealed := []
  daemon p := ⟨(D.accepted p).now, none, ∅, false⟩

/-- The party that funds a leg of a party's swap. -/
def payer (p : Party) : Leg → Party
  | .native => p
  | .foreign => p.other

/-- The leg of a party's swap that a party funds. -/
def legOf (p payer : Party) : Leg := if payer = p then .native else .foreign

@[simp] theorem legOf_self (p : Party) : legOf p p = .native := if_pos rfl

@[simp] theorem legOf_other (p : Party) : legOf p p.other = .foreign := if_neg (other_ne p)

@[simp] theorem payer_legOf (p q : Party) : payer p (legOf p q) = q := by
  cases p <;> cases q <;> rfl

@[simp] theorem legOf_payer (p : Party) (leg : Leg) : legOf p (payer p leg) = leg := by
  cases p <;> cases leg <;> rfl

/-- The chains as the operations of a party see them. -/
def State.chain (s : State) (p : Party) : Atomicity.State :=
  { Atomicity.State.init s.clock with
    phase := fun leg => s.phase (payer p leg)
    revealed := s.revealed }

/-- The chains after an operation of a party. -/
def State.write (s : State) (p : Party) (chain : Atomicity.State) : State :=
  { s with
    phase := fun q => chain.phase (legOf p q)
    revealed := chain.revealed }

def State.setDaemon (s : State) (p : Party) (daemon : Daemon) : State :=
  { s with daemon := Function.update s.daemon p daemon }

/-- What is funded is not funded again. -/
def Again (s : State) (p : Party) (call : Call) : Prop :=
  ∀ c, s.phase p ≠ .unfunded → call.1 = .initiate c → call = ⟨.initiate c, .ok ()⟩

/-- A call of a party's pass. -/
def Operates (D : AcceptedPair) (p : Party) (s : State) (call : Call) (s' : State) : Prop :=
  Again s p call ∧ ∃ chain,
    Atomicity.Operates (D.accepted p) call.1 (s.chain p) call.2 chain ∧ s' = s.write p chain

inductive Action where
  | advance (clock : Int)
  | startPass (p : Party)
  | operate (p : Party) (call : Call)
  | endPass (p : Party)

inductive Moves (D : AcceptedPair) (period : Int) : State → Action → State → Prop where
  /-- Until its swap is removed, a party starts a pass at least once in a period. -/
  | advance {s : State} {clock : Int} (hclock : s.clock ≤ clock)
      (hperiod : ∀ p, (s.daemon p).removed = false → clock ≤ (s.daemon p).lastPass + period) :
      Moves D period s (.advance clock) { s with clock := clock }
  | startPass {s : State} {p : Party} (haccepted : (D.accepted p).now ≤ s.clock)
      (hidle : (s.daemon p).pass = none) (hheld : (s.daemon p).removed = false) :
      Moves D period s (.startPass p)
        (s.setDaemon p
          { s.daemon p with
            lastPass := s.clock
            pass := some (handleSwap D.H (s.daemon p).swapMap (D.accepted p).req) })
  | operate {s s' : State} {p : Party} {op : Op} {reply : Reply op}
      {k : Reply op → Calls (SwapMap × List Message)}
      (hpass : (s.daemon p).pass = some (.call op k)) (hop : Operates D p s ⟨op, reply⟩ s') :
      Moves D period s (.operate p ⟨op, reply⟩)
        (s'.setDaemon p { s.daemon p with pass := some (k reply) })
  | endPass {s : State} {p : Party} {swapMap : SwapMap} {messages : List Message}
      (hpass : (s.daemon p).pass = some (.pure (swapMap, messages))) :
      Moves D period s (.endPass p)
        (s.setDaemon p
          { s.daemon p with
            pass := none
            swapMap := swapMap
            removed := decide (.deleteSwap (D.accepted p).req.id ∈ messages) })

end Swapperd.Honest
