/-
  Swapperd/HonestViews.lean
  =========================
  **An honest counterparty is a counterparty.**

  What one of two daemons sees of a swap between them is what it may see of a swap with
  anybody (`Atomicity`): the calls of the other are among the things that the HTLCs allow
  a counterparty.  So what holds of a daemon against any counterparty holds here.
-/
import Swapperd.HonestOutcomes

namespace Swapperd.Honest

open CallProgram TransitionRuns GoLibrary Immediate
open Atomicity (Leads Reachable)
open Chain (Phase)

variable {D : AcceptedPair} {period : Int} {s s' : State} {p : Party}

/-- A party looks at the swap from when it accepted it. -/
def State.seen (s : State) (D : AcceptedPair) (p : Party) : Atomicity.State where
  clock := max s.clock (D.accepted p).now
  lastPass := (s.daemon p).lastPass
  phase leg := s.phase (payer p leg)
  revealed := s.revealed
  pass := (s.daemon p).pass
  swapMap := (s.daemon p).swapMap
  removed := (s.daemon p).removed

/-! ### What a call does to the chains -/

/-- What the calls of a party come to, with what a counterparty may do. -/
inductive Effect (D : AcceptedPair) (p : Party) (b b' : Board) : Prop where
  | none (hphase : b'.phase = b.phase) (hrevealed : b'.revealed = b.revealed)
  | fund (hfrom : b.phase p = .unfunded) (hphase : b'.phase = Function.update b.phase p .opened)
      (hrevealed : b'.revealed = b.revealed)
  | redeem {secret : Bytes32} (hfrom : b.phase p.other = .opened) (hopens : D.Opens secret)
      (hknown : p = .responder → secret ∈ b.revealed)
      (hphase : b'.phase = Function.update b.phase p.other .redeemed)
      (hrevealed : b'.revealed = secret :: b.revealed)
  | refund (hfrom : b.phase p = .opened) (hlate : b.Late D)
      (hphase : b'.phase = Function.update b.phase p .refunded)
      (hrevealed : b'.revealed = b.revealed)

theorem turn_effect {b b' : Board} {call : Call} (hb : Sound D b)
    (h : Turn D period b (.operate p call) b') : Effect D p b b' ∧ b'.clock = b.clock := by
  cases h with
  | fund hmode hphase => exact ⟨.fund hphase rfl rfl, rfl⟩
  | redeem hmode hphase hopens =>
      have hknown := (hb.fits p _ hmode).2.2.2
      exact ⟨.redeem hphase hopens hknown rfl rfl, rfl⟩
  | refund hmode hphase hlate => exact ⟨.refund hphase hlate rfl rfl, rfl⟩
  | _ => exact ⟨.none rfl rfl, rfl⟩

/-- Operations look at the chains only. -/
theorem operates_congr {S : Atomicity.AcceptedSwap} {op : Op} {reply : Reply op}
    {v v' w : Atomicity.State} (h : Atomicity.Operates S op v reply v')
    (hclock : w.clock = v.clock) (hphase : w.phase = v.phase)
    (hrevealed : w.revealed = v.revealed) :
    Atomicity.Operates S op w reply { w with phase := v'.phase, revealed := v'.revealed } := by
  obtain ⟨clock, lastPass, phase, revealed, pass, swapMap, removed⟩ := w
  dsimp only at hclock hphase hrevealed
  subst hclock hphase hrevealed
  cases op with
  | buildSwapContracts req =>
      obtain ⟨hreply, rfl⟩ := h
      exact ⟨hreply, rfl⟩
  | audit c =>
      obtain ⟨rfl, hreply⟩ := h
      exact ⟨rfl, hreply⟩
  | auditSecret c =>
      obtain ⟨rfl, hreply⟩ := h
      exact ⟨rfl, hreply⟩
  | initiate c =>
      by_cases hallowed : v.phase c.leg = .unfunded
      · simp only [Atomicity.Operates, if_pos hallowed] at h ⊢
        obtain ⟨hreply, rfl⟩ := h
        exact ⟨hreply, rfl⟩
      · simp only [Atomicity.Operates, if_neg hallowed] at h ⊢
        rw [h]
  | redeem c secret =>
      by_cases hallowed : v.phase c.leg = .opened ∧ Atomicity.Opens S.H (S.swap c.leg) secret
      · simp only [Atomicity.Operates, if_pos hallowed] at h ⊢
        obtain ⟨hreply, rfl⟩ := h
        exact ⟨hreply, rfl⟩
      · simp only [Atomicity.Operates, if_neg hallowed] at h ⊢
        rw [h]
  | refund c =>
      by_cases hallowed : v.phase c.leg = .opened ∧ (S.swap c.leg).timeLock < v.clock
      · simp only [Atomicity.Operates, if_pos hallowed] at h ⊢
        obtain ⟨hreply, rfl⟩ := h
        exact ⟨hreply, rfl⟩
      · simp only [Atomicity.Operates, if_neg hallowed] at h ⊢
        rw [h]

/-! ### The view of a party -/

/-- A party accepted the swap before its last pass, and before the pass it is in. -/
structure Timely (D : AcceptedPair) (s : State) : Prop where
  lastPass : ∀ p, (D.accepted p).now ≤ (s.daemon p).lastPass
  working : ∀ p, (s.daemon p).pass ≠ none → (D.accepted p).now ≤ s.clock

theorem Timely.setDaemon {d : Daemon} (hs : Timely D s)
    (hlast : (D.accepted p).now ≤ d.lastPass)
    (hworking : d.pass ≠ none → (D.accepted p).now ≤ s.clock) : Timely D (s.setDaemon p d) := by
  constructor
  · intro q
    by_cases hq : q = p
    · subst hq
      simpa [State.setDaemon] using hlast
    · simpa [State.setDaemon, hq] using hs.lastPass q
  · intro q hpass
    by_cases hq : q = p
    · subst hq
      exact hworking (by simpa [State.setDaemon] using hpass)
    · exact hs.working q (by simpa [State.setDaemon, hq] using hpass)

theorem moves_timely {a : Action} (hs : Timely D s) (h : Moves D period s a s') :
    Timely D s' := by
  cases h with
  | advance hclock =>
      exact ⟨hs.lastPass, fun p hp => (hs.working p hp).trans hclock⟩
  | startPass haccepted => exact hs.setDaemon haccepted fun _ => haccepted
  | @operate s₁ p op reply k hpass hop =>
      obtain ⟨-, chain, -, rfl⟩ := hop
      have hwritten : Timely D (s.write p chain) := ⟨hs.lastPass, hs.working⟩
      exact hwritten.setDaemon (hs.lastPass p) fun _ => hs.working p (by simp [hpass])
  | endPass => exact hs.setDaemon (hs.lastPass _) fun hnone => absurd rfl hnone

/-- What the other party's daemon does to itself is not seen. -/
theorem seen_setDaemon_other {q : Party} (hq : q ≠ p) (d : Daemon) :
    (s.setDaemon q d).seen D p = s.seen D p := by
  simp [State.seen, State.setDaemon, Ne.symm hq]

theorem seen_setDaemon (d : Daemon) :
    (s.setDaemon p d).seen D p =
      { s.seen D p with
        lastPass := d.lastPass
        pass := d.pass
        swapMap := d.swapMap
        removed := d.removed } := by
  simp [State.seen, State.setDaemon]

theorem payer_injective (p : Party) : Function.Injective (payer p) := by
  intro leg leg' h
  rw [← legOf_payer p leg, h, legOf_payer]

/-- An HTLC that is settled, as a party sees it. -/
theorem seen_settle (s : State) (p : Party) (leg : Leg) (phase : Phase) :
    { s.seen D p with
      phase := fun l => Function.update s.phase (payer p leg) phase (payer p l) } =
    (s.seen D p).setPhase leg phase := by
  rw [Function.update_comp_eq_of_injective' s.phase (payer_injective p)]
  rfl

/-- An effect of the other party is a move of the counterparty. -/
theorem effect_leads {q : Party} (hq : q ≠ p) {mode : Party → Mode} {b' : Board}
    (heffect : Effect D q (s.board mode) b') :
    Leads (D.accepted p) (s.seen D p)
      { s.seen D p with
        phase := fun leg => b'.phase (payer p leg)
        revealed := b'.revealed } := by
  obtain rfl : q = p.other := by cases p <;> cases q <;> simp_all
  cases heffect with
  | none hphase hrevealed =>
      rw [hphase, hrevealed]
      exact .refl _
  | fund hfrom hphase hrevealed =>
      rw [hphase, hrevealed]
      have hmove := Atomicity.Moves.fund (S := D.accepted p) (s := s.seen D p) hfrom
      rw [← seen_settle] at hmove
      exact hmove.leads
  | @redeem secret hfrom hopens hknown hphase hrevealed =>
      rw [hphase, hrevealed]
      have hknows : Atomicity.Knows (D.accepted p) (s.seen D p) secret := by
        cases p with
        | initiator => exact .inl (hknown rfl)
        | responder => exact .inr D.role_responder
      rw [other_other] at hfrom ⊢
      have hmove := Atomicity.Moves.redeem (S := D.accepted p) (s := s.seen D p) hfrom hknows
        ((D.opens_accepted p .native secret).mpr hopens)
      rw [← seen_settle] at hmove
      exact hmove.leads
  | refund hfrom hlate hphase hrevealed =>
      rw [hphase, hrevealed]
      have hexpired : ((D.accepted p).swap .foreign).timeLock < (s.seen D p).clock := by
        rw [D.timeLock_accepted]
        exact lt_of_lt_of_le hlate (le_max_left _ _)
      have hmove := Atomicity.Moves.refund (S := D.accepted p) (s := s.seen D p) hfrom hexpired
      rw [← seen_settle] at hmove
      exact hmove.leads

theorem startPass_at {S : Atomicity.AcceptedSwap} {v : Atomicity.State} {clock : Int}
    (hclock : v.clock = clock) (hidle : v.pass = none) (hheld : v.removed = false) :
    Atomicity.Moves S v .startPass
      { v with lastPass := clock, pass := some (handleSwap S.H v.swapMap S.req) } := by
  subst hclock
  exact .startPass hidle hheld

/-- **One step of two is one of the party's steps, or of its counterparty's.** -/
theorem moves_seen (hperiod : period ≤ 60 * 60) (hs : Plays D (Sound D) s) (htimely : Timely D s)
    {a : Action} (h : Moves D period s a s') (p : Party) :
    Leads (D.accepted p) (s.seen D p) (s'.seen D p) := by
  obtain ⟨mode, hmode, hsound⟩ := hs
  obtain ⟨mode', hturn, -⟩ := moves_turns hmode h
  cases h with
  | @advance clock hclock hhours =>
      have hhour : (s.seen D p).removed = false →
          max clock (D.accepted p).now ≤ (s.seen D p).lastPass + 60 * 60 := by
        intro hheld
        have hhour : clock ≤ (s.daemon p).lastPass + period := hhours p hheld
        have hlast := htimely.lastPass p
        show max clock _ ≤ (s.daemon p).lastPass + 60 * 60
        omega
      have hmove := Atomicity.Moves.advance (S := D.accepted p) (s := s.seen D p)
        (max_le_max_right _ hclock) hhour
      exact hmove.leads
  | @startPass q haccepted hidle hheld =>
      by_cases hq : q = p
      · subst hq
        rw [seen_setDaemon, ← D.H_accepted q]
        exact (startPass_at (max_eq_left haccepted) hidle hheld).leads
      · rw [seen_setDaemon_other hq]
        exact .refl _
  | @operate s₁ q op reply k hpass hop =>
      obtain ⟨-, chain, hoperates, rfl⟩ := hop
      by_cases hq : q = p
      · subst hq
        have hnow : (s.seen D q).clock = s.clock :=
          max_eq_left (htimely.working q (by simp [hpass]))
        have hmove := Atomicity.Moves.operate (S := D.accepted q) (s := s.seen D q) hpass
          (operates_congr hoperates hnow rfl rfl)
        have hphase : (fun leg => chain.phase (legOf q (payer q leg))) = chain.phase := by simp
        rw [seen_setDaemon]
        show Leads _ _
          { s.seen D q with
            phase := fun leg => chain.phase (legOf q (payer q leg))
            revealed := chain.revealed
            pass := some (k reply) }
        rw [hphase]
        exact hmove.leads
      · rw [seen_setDaemon_other hq]
        obtain ⟨heffect, -⟩ := turn_effect hsound hturn
        exact effect_leads hq heffect
  | @endPass q swapMap messages hpass =>
      by_cases hq : q = p
      · subst hq
        rw [seen_setDaemon]
        have hmove := Atomicity.Moves.endPass (S := D.accepted q) (s := s.seen D q) hpass
        exact hmove.leads
      · rw [seen_setDaemon_other hq]
        exact .refl _

end Swapperd.Honest
