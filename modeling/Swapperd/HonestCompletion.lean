/-
  Swapperd/HonestCompletion.lean
  ==============================
  **Two daemons that swap with each other are paid.**

  A pass of the initiator funds its HTLC, the next one of the responder the other; the
  next one of the initiator redeems that, and the next one of the responder the first.
  When a party starts a pass at least once in a period, each of the four is done two
  periods after the one before.

  `both_redeem` — the responder accepts a swap four hours before it expires at the latest,
  and this is enough for passes that start at least every forty minutes.
-/
import Swapperd.HonestOutcomes

namespace Swapperd.Honest

open CallProgram TransitionRuns GoLibrary Immediate
open Chain (Phase)

variable {D : AcceptedPair} {period : Int} {b b' : Board} {p : Party} {a : Action}

/-! ### Passes that are due -/

/-- The pass goes well so far. -/
def Mode.Going : Mode → Prop
  | .idle | .removed | .working .refund | .working (.done false) => False
  | _ => True

/-- The last pass of the party began by the time, or it began not a period later and goes
    well. -/
structure Due (period : Int) (b : Board) (p : Party) (time : Int) : Prop where
  held : b.mode p ≠ .removed
  pass : b.lastPass p ≤ time ∨ b.lastPass p ≤ time + period ∧ (b.mode p).Going

/-- No refund is needed, and what the parties are to do is due in time. -/
structure OnTime (D : AcceptedPair) (period : Int) (b : Board) : Prop extends Sound D b where
  bound : ∀ p, b.mode p ≠ .removed → b.clock ≤ b.lastPass p + period
  started : ∀ p, b.lastPass p ≤ max b.clock (D.accepted p).now
  kept : ∀ p, b.mode p ≠ .working .refund ∧ b.phase p ≠ .refunded
  ended : ∀ p, (b.mode p).Over → b.phase p.other = .redeemed
  funds : b.phase .initiator = .unfunded → Due period b .initiator D.responder.now
  responds : b.phase .responder = .unfunded →
    Due period b .responder (D.responder.now + 2 * period)
  redeems : ¬ (b.phase .responder = .redeemed ∧ b.mode .initiator = .removed) →
    Due period b .initiator (D.responder.now + 4 * period)
  finishes : ¬ (b.phase .initiator = .redeemed ∧ b.mode .responder = .removed) →
    Due period b .responder (D.responder.now + 6 * period)

/-- There is time enough. -/
structure Enough (D : AcceptedPair) (period : Int) : Prop where
  nonneg : 0 ≤ period
  timeLock : D.responder.now + 6 * period ≤ D.timeLock

theorem Due.clock {time : Int} (h : Due period b p time) (hE : Enough D period)
    (hbound : ∀ p, b.mode p ≠ .removed → b.clock ≤ b.lastPass p + period) :
    b.clock ≤ time + 2 * period := by
  have hclock := hbound p h.held
  have hperiod := hE.nonneg
  rcases h.pass with hpass | ⟨hpass, -⟩ <;> omega

/-- A call of a party that is on time. -/
structure Operated (b b' : Board) (p : Party) : Prop where
  clock : b'.clock = b.clock
  lastPass : b'.lastPass = b.lastPass
  others : ∀ q, q ≠ p → b'.mode q = b.mode q
  funded : ∀ q, b.phase q ≠ .unfunded → b'.phase q ≠ .unfunded
  redeemed : ∀ q, b.phase q = .redeemed → b'.phase q = .redeemed
  kept : ∀ q, b.phase q ≠ .refunded → b'.phase q ≠ .refunded
  mode : (b'.mode p).Going ∧ ((b'.mode p).Over → b'.phase p.other = .redeemed) ∨
    b'.mode p = .working (.done false) ∧ b'.phase = b.phase ∧
      (b.mode p = .working .audit ∧ b.phase p.other = .unfunded ∨
        b.mode p = .working .auditSecret ∧ b.phase p = .opened)

theorem Operated.go {m : Mode}
    (hm : m.Going ∧ ¬ m.Over ∨ m = .working (.done false) ∧
      (b.mode p = .working .audit ∧ b.phase p.other = .unfunded ∨
        b.mode p = .working .auditSecret ∧ b.phase p = .opened)) :
    Operated b (b.go p m) p where
  clock := rfl
  lastPass := rfl
  others q hq := by simp [Board.go, hq]
  funded _ := id
  redeemed _ := id
  kept _ := id
  mode := by
    rcases hm with ⟨hgoing, hover⟩ | ⟨rfl, hwhy⟩
    · refine .inl ?_
      simpa [Board.go, hover] using hgoing
    · exact .inr ⟨by simp [Board.go], rfl, hwhy⟩

theorem Operated.settle {payer : Party} {phase : Phase} {revealed : List Bytes32} {m : Mode}
    (hphase : phase = .opened ∧ b.phase payer = .unfunded ∨ phase = .redeemed)
    (hgoing : m.Going) (hover : m.Over → payer = p.other ∧ phase = .redeemed) :
    Operated b { (b.settle payer phase).go p m with revealed := revealed } p where
  clock := rfl
  lastPass := rfl
  others q hq := by simp [Board.go, Board.settle, hq]
  funded q hq := by
    by_cases hqp : q = payer
    · subst hqp
      rcases hphase with ⟨rfl, -⟩ | rfl <;> simp [Board.go, Board.settle]
    · simpa [Board.go, Board.settle, hqp] using hq
  redeemed q hq := by
    by_cases hqp : q = payer
    · subst hqp
      rcases hphase with ⟨rfl, hunfunded⟩ | rfl
      · rw [hunfunded] at hq
        cases hq
      · simp [Board.go, Board.settle]
    · simpa [Board.go, Board.settle, hqp] using hq
  kept q hq := by
    by_cases hqp : q = payer
    · subst hqp
      rcases hphase with ⟨rfl, -⟩ | rfl <;> simp [Board.go, Board.settle]
    · simpa [Board.go, Board.settle, hqp] using hq
  mode := by
    refine .inl ⟨by simpa [Board.go] using hgoing, fun h => ?_⟩
    obtain ⟨rfl, rfl⟩ := hover (by simpa [Board.go] using h)
    simp [Board.go, Board.settle]

section Steps

variable (hE : Enough D period) (hb : OnTime D period b)

include hE hb

theorem OnTime.not_late (hphase : b.phase .responder ≠ .redeemed) : ¬ b.Late D := by
  have hclock := (hb.redeems fun h => hphase h.1).clock hE hb.bound
  have htime := hE.timeLock
  unfold Board.Late
  omega

/-- Every call of a party that is on time does what it should, or finds that the other
    party has not done so yet. -/
theorem operate_cases {call : Call} (h : Turn D period b (.operate p call) b') :
    Operated b b' p := by
  cases h with
  | build => exact .go (.inl (by cases p <;> simp [Party.first, Mode.Going, Mode.Over]))
  | fund hmode hphase =>
      apply Operated.settle (.inl ⟨rfl, hphase⟩)
      · cases p <;> simp [Party.funded, Mode.Going]
      · cases p <;> simp [Party.funded, Mode.Over]
  | funded => exact .go (.inl (by cases p <;> simp [Party.funded, Mode.Going, Mode.Over]))
  | auditUnfunded hmode hphase =>
      have hlate : ¬ b.Late D := by
        apply hb.not_late hE
        cases p with
        | initiator =>
            intro hredeemed
            rw [other_initiator, hredeemed] at hphase
            cases hphase
        | responder => exact fun hredeemed => hb.order (by simp [hredeemed]) hphase
      rw [Board.unaudited, if_neg hlate]
      exact .go (.inr ⟨rfl, .inl ⟨hmode, hphase⟩⟩)
  | audit => exact .go (.inl (by cases p <;> simp [Party.audited, Mode.Going, Mode.Over]))
  | auditSpent hmode hphase hstage =>
      have hsettled := hb.not_settled (p := p) (by simp [hmode, Mode.Over])
      rcases hphase with hredeemed | hrefunded
      · exact absurd (.inl hredeemed) hsettled
      · exact absurd hrefunded (hb.kept _).2
  | redeem hmode hphase hopens =>
      exact Operated.settle (.inr rfl) trivial fun _ => ⟨rfl, rfl⟩
  | redeemFails hmode hnot =>
      obtain ⟨hopens, -, haudits, -⟩ := hb.fits p _ hmode
      have hopened := hb.opened (p := p) (by simp [hmode, Mode.Over]) haudits (hb.kept _).2
      exact absurd ⟨hopened, hopens⟩ hnot
  | secretPending hmode hphase =>
      obtain ⟨rfl, -⟩ := hb.fits p _ hmode
      have hlate : ¬ b.Late D := hb.not_late hE (by simp [hphase])
      rw [Board.unaudited, if_neg hlate]
      exact .go (.inr ⟨rfl, .inr ⟨hmode, hphase⟩⟩)
  | secretFound => exact .go (.inl (by simp [Mode.Going, Mode.Over]))
  | secretMissing hmode hphase hstage =>
      obtain ⟨-, hfunded⟩ := hb.fits p _ hmode
      exact absurd (hphase.resolve_left hfunded) (hb.kept _).2
  | refund hmode => exact absurd hmode (hb.kept p).1
  | refundFails hmode => exact absurd hmode (hb.kept p).1

omit hE hb in
theorem operate_working {call : Call} (h : Turn D period b (.operate p call) b') :
    ∃ stage, b.mode p = .working stage := by
  cases h <;> exact ⟨_, ‹_›⟩

omit hE hb in
theorem Due.same {time : Int} (h : Due period b p time) (hmode : b'.mode p = b.mode p)
    (hlast : b'.lastPass p = b.lastPass p) : Due period b' p time := by
  constructor
  · rw [hmode]
    exact h.held
  · rw [hmode, hlast]
    exact h.pass

omit hE in
/-- What is due stays due: a pass that began after the time goes on going well. -/
theorem Operated.due {q : Party} {time : Int} (h : Operated b b' p) (hdue : Due period b q time)
    (hnow : (D.accepted q).now ≤ time)
    (hgoing : q = p → time < b.clock → b'.mode p ≠ .working (.done false)) :
    Due period b' q time := by
  by_cases hq : q = p
  · subst hq
    have hmode : b'.mode q ≠ .working (.done false) → (b'.mode q).Going := fun hne =>
      (h.mode.resolve_right fun hdone => hne hdone.1).1
    constructor
    · intro hremoved
      rcases h.mode with ⟨hwell, -⟩ | ⟨hdone, -⟩
      · simp [hremoved, Mode.Going] at hwell
      · simp [hremoved] at hdone
    · rw [h.lastPass]
      by_cases hlast : b.lastPass q ≤ time
      · exact .inl hlast
      · have hlate := hdue.pass.resolve_left hlast
        have hstarted := hb.started q
        exact .inr ⟨hlate.1, hmode (hgoing rfl (by omega))⟩
  · exact hdue.same (h.others q hq) (by rw [h.lastPass])

omit hE hb in
/-- A call does not end a pass. -/
theorem Operated.removed_iff (h : Operated b b' p) (hheld : b.mode p ≠ .removed) (q : Party) :
    b'.mode q = .removed ↔ b.mode q = .removed := by
  by_cases hq : q = p
  · subst hq
    refine iff_of_false ?_ hheld
    intro hremoved
    rcases h.mode with ⟨hwell, -⟩ | ⟨hdone, -⟩
    · simp [hremoved, Mode.Going] at hwell
    · simp [hremoved] at hdone
  · rw [h.others q hq]

omit hE hb in
/-- Why a call that is on time may have come too early. -/
theorem Operated.early (h : Operated b b' p) (hdone : b'.mode p = .working (.done false)) :
    b.mode p = .working .audit ∧ b.phase p.other = .unfunded ∨
      b.mode p = .working .auditSecret ∧ b.phase p = .opened := by
  rcases h.mode with ⟨hwell, -⟩ | ⟨-, -, hwhy⟩
  · simp [hdone, Mode.Going] at hwell
  · exact hwhy

omit hE in
theorem Operated.keeps (h : Operated b b' p) (q : Party) :
    b'.mode q ≠ .working .refund ∧ b'.phase q ≠ .refunded := by
  refine ⟨?_, h.kept q (hb.kept q).2⟩
  by_cases hq : q = p
  · subst hq
    rcases h.mode with ⟨hwell, -⟩ | ⟨hdone, -⟩
    · intro hrefund
      simp [hrefund, Mode.Going] at hwell
    · simp [hdone]
  · rw [h.others q hq]
    exact (hb.kept q).1

omit hE in
theorem Operated.ends (h : Operated b b' p) (q : Party) (hover : (b'.mode q).Over) :
    b'.phase q.other = .redeemed := by
  by_cases hq : q = p
  · subst hq
    rcases h.mode with ⟨-, hended⟩ | ⟨hdone, -⟩
    · exact hended hover
    · simp [hdone, Mode.Over] at hover
  · rw [h.others q hq] at hover
    exact h.redeemed _ (hb.ended q hover)

omit hE hb in
theorem Operated.unfunded (h : Operated b b' p) {q : Party} (hunfunded : b'.phase q = .unfunded) :
    b.phase q = .unfunded :=
  not_not.mp fun hne => h.funded q hne hunfunded

omit hE in
theorem Operated.funds (h : Operated b b' p) (hunfunded : b'.phase .initiator = .unfunded) :
    Due period b' .initiator D.responder.now := by
  have hphase := h.unfunded hunfunded
  refine h.due hb (hb.funds hphase) D.later ?_
  rintro rfl - hdone
  rcases h.early hdone with ⟨haudit, -⟩ | ⟨hsecret, -⟩
  · exact absurd hphase (hb.fits _ _ haudit rfl)
  · cases (hb.fits _ _ hsecret).1

theorem Operated.responds (h : Operated b b' p) (hunfunded : b'.phase .responder = .unfunded) :
    Due period b' .responder (D.responder.now + 2 * period) := by
  have hnonneg := hE.nonneg
  have hphase := h.unfunded hunfunded
  refine h.due hb (hb.responds hphase) (by show D.responder.now ≤ _; omega) ?_
  rintro rfl htime hdone
  rcases h.early hdone with ⟨-, hother⟩ | ⟨-, hopened⟩
  · have hclock := (hb.funds hother).clock hE hb.bound
    omega
  · rw [hphase] at hopened
    cases hopened

theorem Operated.redeems (h : Operated b b' p) (hheld : b.mode p ≠ .removed)
    (hnot : ¬ (b'.phase .responder = .redeemed ∧ b'.mode .initiator = .removed)) :
    Due period b' .initiator (D.responder.now + 4 * period) := by
  have hnonneg := hE.nonneg
  have hlater : D.initiator.now ≤ D.responder.now := D.later
  have hdue := hb.redeems fun hgoal =>
    hnot ⟨h.redeemed _ hgoal.1, (h.removed_iff hheld _).mpr hgoal.2⟩
  refine h.due hb hdue (by show D.initiator.now ≤ _; omega) ?_
  rintro rfl htime hdone
  rcases h.early hdone with ⟨-, hother⟩ | ⟨hsecret, -⟩
  · have hclock := (hb.responds hother).clock hE hb.bound
    omega
  · cases (hb.fits _ _ hsecret).1

theorem Operated.finishes (h : Operated b b' p) (hheld : b.mode p ≠ .removed)
    (hnot : ¬ (b'.phase .initiator = .redeemed ∧ b'.mode .responder = .removed)) :
    Due period b' .responder (D.responder.now + 6 * period) := by
  have hnonneg := hE.nonneg
  have hdue := hb.finishes fun hgoal =>
    hnot ⟨h.redeemed _ hgoal.1, (h.removed_iff hheld _).mpr hgoal.2⟩
  refine h.due hb hdue (by show D.responder.now ≤ _; omega) ?_
  rintro rfl htime hdone
  rcases h.early hdone with ⟨-, hother⟩ | ⟨-, hopened⟩
  · have hclock := (hb.funds hother).clock hE hb.bound
    omega
  · have hclock := (hb.redeems fun hgoal => by simp [hgoal.1] at hopened).clock hE hb.bound
    omega

theorem operate_onTime {call : Call} (h : Turn D period b (.operate p call) b') :
    OnTime D period b' := by
  have hO := operate_cases hE hb h
  obtain ⟨stage, hstage⟩ := operate_working h
  have hheld : b.mode p ≠ .removed := by simp [hstage]
  exact
    { toSound := turn_sound hb.toSound h
      bound := fun q hq => by
        rw [hO.clock, hO.lastPass]
        exact hb.bound q fun hold => hq ((hO.removed_iff hheld q).mpr hold)
      started := fun q => by
        rw [hO.clock, hO.lastPass]
        exact hb.started q
      kept := hO.keeps hb
      ended := hO.ends hb
      funds := hO.funds hb
      responds := hO.responds hE hb
      redeems := hO.redeems hE hb hheld
      finishes := hO.finishes hE hb hheld }

end Steps

/-- A party that begins or ends a pass: what is due stays due, or is done. -/
theorem OnTime.pass (hb : OnTime D period b) (hsound : Sound D b') (hclock : b'.clock = b.clock)
    (hphase : b'.phase = b.phase)
    (hothers : ∀ q, q ≠ p → b'.mode q = b.mode q ∧ b'.lastPass q = b.lastPass q)
    (hheld : b.mode p ≠ .removed) (hbound : b'.clock ≤ b'.lastPass p + period)
    (hstarted : b'.lastPass p ≤ max b'.clock (D.accepted p).now)
    (hkept : b'.mode p ≠ .working .refund) (hended : (b'.mode p).Over → (b.mode p).Over)
    (hdue : ∀ time, Due period b p time →
      Due period b' p time ∨ b'.mode p = .removed ∧ b.phase p.other = .redeemed) :
    OnTime D period b' := by
  have hremoved : ∀ q, b.mode q = .removed → b'.mode q = .removed := by
    intro q hq
    by_cases hqp : q = p
    · subst hqp
      exact absurd hq hheld
    · rwa [(hothers q hqp).1]
  have hdues : ∀ q time, Due period b q time →
      Due period b' q time ∨ b'.mode q = .removed ∧ b.phase q.other = .redeemed := by
    intro q time hq
    by_cases hqp : q = p
    · subst hqp
      exact hdue time hq
    · exact .inl (hq.same (hothers q hqp).1 (hothers q hqp).2)
  constructor
  · exact hsound
  · intro q hq
    by_cases hqp : q = p
    · subst hqp
      exact hbound
    · rw [(hothers q hqp).1] at hq
      rw [(hothers q hqp).2, hclock]
      exact hb.bound q hq
  · intro q
    by_cases hqp : q = p
    · subst hqp
      exact hstarted
    · rw [(hothers q hqp).2, hclock]
      exact hb.started q
  · intro q
    rw [hphase]
    refine ⟨?_, (hb.kept q).2⟩
    by_cases hqp : q = p
    · subst hqp
      exact hkept
    · rw [(hothers q hqp).1]
      exact (hb.kept q).1
  · intro q hover
    rw [hphase]
    apply hb.ended q
    by_cases hqp : q = p
    · subst hqp
      exact hended hover
    · rwa [(hothers q hqp).1] at hover
  · intro hunfunded
    rw [hphase] at hunfunded
    apply (hdues _ _ (hb.funds hunfunded)).resolve_right
    rintro ⟨-, hredeemed⟩
    exact hb.order (by simp [show b.phase .responder = .redeemed from hredeemed]) hunfunded
  · intro hunfunded
    rw [hphase] at hunfunded
    apply (hdues _ _ (hb.responds hunfunded)).resolve_right
    rintro ⟨-, hredeemed⟩
    rw [hb.paid hredeemed] at hunfunded
    cases hunfunded
  · intro hnot
    rw [hphase] at hnot
    have hwas := hb.redeems fun hgoal => hnot ⟨hgoal.1, hremoved _ hgoal.2⟩
    exact (hdues _ _ hwas).resolve_right fun hgoal => hnot ⟨hgoal.2, hgoal.1⟩
  · intro hnot
    rw [hphase] at hnot
    have hwas := hb.finishes fun hgoal => hnot ⟨hgoal.1, hremoved _ hgoal.2⟩
    exact (hdues _ _ hwas).resolve_right fun hgoal => hnot ⟨hgoal.2, hgoal.1⟩

/-- Whose pass does not go well, last began in time. -/
theorem Due.early {time : Int} (h : Due period b p time) (hgoing : ¬ (b.mode p).Going) :
    b.lastPass p ≤ time :=
  h.pass.resolve_right fun hlate => hgoing hlate.2

theorem turn_onTime (hE : Enough D period) (hb : OnTime D period b)
    (h : Turn D period b a b') : OnTime D period b' := by
  have hsound := turn_sound hb.toSound h
  cases a with
  | operate p call => exact operate_onTime hE hb h
  | advance clock =>
      cases h with
      | advance hclock hperiod =>
          exact
            { hb with
              toSound := hsound
              bound := hperiod
              started := fun p => (hb.started p).trans (max_le_max_right _ hclock)
              funds := fun hphase => ⟨(hb.funds hphase).held, (hb.funds hphase).pass⟩
              responds := fun hphase => ⟨(hb.responds hphase).held, (hb.responds hphase).pass⟩
              redeems := fun hnot => ⟨(hb.redeems hnot).held, (hb.redeems hnot).pass⟩
              finishes := fun hnot => ⟨(hb.finishes hnot).held, (hb.finishes hnot).pass⟩ }
  | startPass p =>
      cases h with
      | start haccepted hmode =>
          have hheld : b.mode p ≠ .removed := by simp [hmode]
          apply hb.pass (p := p) hsound rfl rfl
          · intro q hq
            simp [Board.go, hq]
          · exact hheld
          · simpa [Board.go] using hE.nonneg
          · simp [Board.go]
          · simp [Board.go]
          · simp [Board.go, Mode.Over]
          · intro time hdue
            have hlast := hdue.early (by simp [hmode, Mode.Going])
            have hclock := hb.bound p hheld
            refine .inl ⟨by simp [Board.go], .inr ⟨?_, by simp [Board.go, Mode.Going]⟩⟩
            show Function.update b.lastPass p b.clock p ≤ _
            rw [Function.update_self]
            omega
  | endPass p =>
      cases h with
      | @finish _ remove hmode =>
          have hheld : b.mode p ≠ .removed := by simp [hmode]
          apply hb.pass (p := p) hsound rfl rfl
          · intro q hq
            simp [Board.go, hq]
          · exact hheld
          · exact hb.bound p hheld
          · exact hb.started p
          · cases remove <;> simp [Board.go]
          · rw [hmode]
            cases remove <;> simp [Board.go, Mode.Over]
          · intro time hdue
            cases remove with
            | true => exact .inr ⟨by simp [Board.go], hb.ended p (by simp [hmode, Mode.Over])⟩
            | false =>
                have hlast := hdue.early (by simp [hmode, Mode.Going])
                exact .inl ⟨by simp [Board.go], .inl hlast⟩

/-! ### Runs -/

theorem onTime_init (hperiod : 0 ≤ period) :
    OnTime D period ((State.init D).board fun _ => .idle) := by
  have hlater : D.initiator.now ≤ D.responder.now := D.later
  constructor
  · exact sound_init
  · intro p _
    show D.initiator.now ≤ (D.accepted p).now + period
    cases p with
    | initiator => exact le_add_of_nonneg_right hperiod
    | responder => exact hlater.trans (le_add_of_nonneg_right hperiod)
  · exact fun p => le_max_right _ _
  · simp [State.board, State.init]
  · simp [State.board, Mode.Over]
  · exact fun _ => ⟨by simp [State.board], .inl hlater⟩
  · refine fun _ => ⟨by simp [State.board], .inl ?_⟩
    show D.responder.now ≤ D.responder.now + 2 * period
    omega
  · refine fun _ => ⟨by simp [State.board], .inl ?_⟩
    show D.initiator.now ≤ D.responder.now + 4 * period
    omega
  · refine fun _ => ⟨by simp [State.board], .inl ?_⟩
    show D.responder.now ≤ D.responder.now + 6 * period
    omega

/-- The responder did not accept a swap that expires in less than four hours. -/
theorem AcceptedPair.hours (D : AcceptedPair)
    (hnow : IsInt64 (D.responder.now + 2 * expiryUnit)) :
    D.responder.now + 2 * expiryUnit ≤ D.timeLock := by
  have hrole : D.responder.request.shouldInitiateFirst = false := by
    rw [D.posted]
    exact D.isResponse.shouldInitiateFirst
  obtain ⟨-, hhours⟩ :=
    Handler.patchTerms_responder (Handler.patchSwap_ok D.responder.accepted) hrole
  rw [int64_of_isInt64 hnow] at hhours
  rw [← D.timeLock_accepted .responder .native, Atomicity.AcceptedSwap.timeLock_eq]
  exact hhours

end Swapperd.Honest
