/-
  Swapperd/HonestOutcomes.lean
  ============================
  **How a swap between two daemons ends.**

  The initiator funds first and is paid first.  Its secret is published when it is paid, so
  that the responder can redeem; a party that takes its funds back was not paid, and is
  through with the swap.

  `both_or_neither` — no interleaving of the two daemons pays out one HTLC and pays back
  the other.
-/
import Swapperd.HonestExchange

namespace Swapperd.Honest

open CallProgram TransitionRuns GoLibrary Immediate
open Chain (Phase)

variable {D : AcceptedPair} {period : Int}

/-! ### What holds of every board -/

/-- The party is through with the swap. -/
def Mode.Over : Mode → Prop
  | .removed | .working (.done true) => True
  | _ => False

/-- What a stage can rely on. -/
def Stage.Fits (D : AcceptedPair) (b : Board) (p : Party) : Stage → Prop
  | .build | .done _ => True
  | .initiate => p = .responder → b.phase p.other ≠ .unfunded
  | .audit => p = .initiator → b.phase p ≠ .unfunded
  | .auditSecret => p = .responder ∧ b.phase p ≠ .unfunded
  | .redeem secret => D.Opens secret ∧ b.phase p ≠ .unfunded ∧ b.phase p.other ≠ .unfunded ∧
      (p = .responder → secret ∈ b.revealed)
  | .refund => b.phase p ≠ .unfunded ∧ b.Late D

/-- The initiator funds first and is paid first, and the HTLCs are not spent both ways. -/
structure Chains (D : AcceptedPair) (b : Board) : Prop where
  order : b.phase .responder ≠ .unfunded → b.phase .initiator ≠ .unfunded
  published : ∀ secret ∈ b.revealed, b.phase .responder = .redeemed
  paid : b.phase .initiator = .redeemed → b.phase .responder = .redeemed
  apart : b.phase .responder = .redeemed → b.phase .initiator ≠ .refunded
  late : ∀ p, b.phase p = .refunded → b.Late D

/-- The party was paid, or has its funds back. -/
def Board.Settled (b : Board) (p : Party) : Prop :=
  b.phase p.other = .redeemed ∨ b.phase p = .refunded

structure Sound (D : AcceptedPair) (b : Board) : Prop extends Chains D b where
  through : ∀ p, b.Settled p → (b.mode p).Over
  fits : ∀ p stage, b.mode p = .working stage → stage.Fits D b p

/-- What a stage relies on stays. -/
theorem Stage.Fits.mono {b b' : Board} {p : Party} {stage : Stage} (h : stage.Fits D b p)
    (hphase : ∀ q, b.phase q ≠ .unfunded → b'.phase q ≠ .unfunded)
    (hrevealed : b.revealed ⊆ b'.revealed) (hclock : b.clock ≤ b'.clock) :
    stage.Fits D b' p := by
  cases stage with
  | build | done => trivial
  | initiate => exact fun hp => hphase _ (h hp)
  | audit => exact fun hp => hphase _ (h hp)
  | auditSecret => exact ⟨h.1, hphase _ h.2⟩
  | redeem secret =>
      obtain ⟨hopens, hfunds, haudits, hknown⟩ := h
      exact ⟨hopens, hphase _ hfunds, hphase _ haudits, fun hp => hrevealed (hknown hp)⟩
  | refund => exact ⟨hphase _ h.1, lt_of_lt_of_le h.2 hclock⟩

/-- A party goes on to a mode, with what its call did. -/
theorem Sound.turn {b b' : Board} (h : Sound D b) {p : Party} {m : Mode}
    (hmode : b'.mode = Function.update b.mode p m) (hchains : Chains D b')
    (hgrows : ∀ q stage, b.mode q = .working stage → stage.Fits D b q → stage.Fits D b' q)
    (hover : b'.Settled p → m.Over) (hother : b'.Settled p.other → b.Settled p.other)
    (hfits : ∀ stage, m = .working stage → stage.Fits D b' p) : Sound D b' where
  toChains := hchains
  through q hq := by
    by_cases hqp : q = p
    · subst hqp
      simpa [hmode] using hover hq
    · obtain rfl : q = p.other := by cases p <;> cases q <;> simp_all
      simpa [hmode] using h.through _ (hother hq)
  fits q stage hstage := by
    by_cases hqp : q = p
    · subst hqp
      exact hfits stage (by simpa [hmode] using hstage)
    · have hold : b.mode q = .working stage := by simpa [hmode, hqp] using hstage
      exact hgrows q stage hold (h.fits q stage hold)

/-- A party goes on, and leaves the chains as they are. -/
theorem Sound.go {b : Board} (h : Sound D b) {p : Party} {m : Mode}
    (hover : (b.mode p).Over → m.Over) (hfits : ∀ stage, m = .working stage → stage.Fits D b p) :
    Sound D (b.go p m) :=
  h.turn rfl { h.toChains with } (fun _ _ _ hq => hq.mono (fun _ => id) (fun _ => id) (le_refl _))
    (fun hp => hover (h.through p hp)) id
    fun stage hstage => (hfits stage hstage).mono (fun _ => id) (fun _ => id) (le_refl _)

theorem settle_grows {b : Board} {payer : Party} {phase : Phase} (hphase : phase ≠ .unfunded)
    (q : Party) (hq : b.phase q ≠ .unfunded) : (b.settle payer phase).phase q ≠ .unfunded := by
  by_cases hqp : q = payer
  · simpa [Board.settle, hqp] using hphase
  · simpa [Board.settle, hqp] using hq

theorem settle_late {b : Board} {payer : Party} {phase : Phase}
    (hb : ∀ q, b.phase q = .refunded → b.Late D) (hphase : phase = .refunded → b.Late D)
    (q : Party) (hq : (b.settle payer phase).phase q = .refunded) : b.Late D := by
  by_cases hqp : q = payer
  · exact hphase (by simpa [Board.settle, hqp] using hq)
  · exact hb q (by simpa [Board.settle, hqp] using hq)

/-- Only the responder funds an HTLC when the other is funded. -/
theorem Sound.fund {b : Board} (h : Sound D b) {p : Party}
    (hmode : b.mode p = .working .initiate) (hphase : b.phase p = .unfunded) :
    Sound D ((b.settle p .opened).go p (.working p.funded)) := by
  have hfits := h.fits p _ hmode
  have hover : ¬ b.Settled p := fun hp => by simpa [hmode, Mode.Over] using h.through p hp
  obtain ⟨horder, hpublished, hpaid, hapart, hlate⟩ := h.toChains
  refine h.turn rfl ⟨?_, ?_, ?_, ?_, settle_late hlate (by simp)⟩
    (fun q stage _ hq => hq.mono (settle_grows (by simp)) (fun _ => id) (le_refl _)) ?_ ?_ ?_
  · cases p <;> simp_all [Board.settle, Board.go, Stage.Fits]
  · cases p <;> simp_all [Board.settle, Board.go]
  · cases p <;> simp_all [Board.settle, Board.go]
  · cases p <;> simp_all [Board.settle, Board.go]
  · intro hp
    refine absurd ?_ hover
    simpa [Board.Settled, Board.settle, Board.go, hphase] using hp
  · rintro (hp | hp)
    · simp [Board.settle, Board.go] at hp
    · exact .inr (by simpa [Board.settle, Board.go] using hp)
  · rintro stage ⟨⟩
    cases p <;> simp [Party.funded, Stage.Fits, Board.settle, Board.go]

/-- A party that is paid with a secret. -/
theorem Sound.redeem {b : Board} (h : Sound D b) {p : Party} {secret : Bytes32}
    (hmode : b.mode p = .working (.redeem secret)) :
    Sound D { (b.settle p.other .redeemed).go p (.working (.done true)) with
      revealed := secret :: b.revealed } := by
  obtain ⟨-, hfunds, haudits, hknown⟩ := h.fits p _ hmode
  have hover : ¬ b.Settled p := fun hp => by simpa [hmode, Mode.Over] using h.through p hp
  obtain ⟨horder, hpublished, hpaid, hapart, hlate⟩ := h.toChains
  refine h.turn rfl ⟨?_, ?_, ?_, ?_, settle_late hlate (by simp)⟩
    (fun q stage _ hq =>
      hq.mono (settle_grows (by simp)) (List.subset_cons_self _ _) (le_refl _)) ?_ ?_ ?_
  · cases p <;> simp_all [Board.settle, Board.go]
  · cases p with
    | initiator => simp [Board.settle, Board.go]
    | responder =>
        intro _ _
        simpa [Board.settle, Board.go] using hpublished secret (hknown rfl)
  · cases p with
    | initiator => simp [Board.settle, Board.go]
    | responder =>
        intro _
        simpa [Board.settle, Board.go] using hpublished secret (hknown rfl)
  · cases p <;> simp_all [Board.settle, Board.go, Board.Settled]
  · intro _
    trivial
  · rintro (hp | hp)
    · exact .inl (by simpa [Board.settle, Board.go] using hp)
    · simp [Board.settle, Board.go] at hp
  · rintro stage ⟨⟩
    trivial

/-- A party that has its funds back. -/
theorem Sound.refund {b : Board} (h : Sound D b) {p : Party}
    (hmode : b.mode p = .working .refund) (hphase : b.phase p = .opened) (hlate : b.Late D) :
    Sound D ((b.settle p .refunded).go p (.working (.done true))) := by
  have hover : ¬ b.Settled p := fun hp => by simpa [hmode, Mode.Over] using h.through p hp
  obtain ⟨horder, hpublished, hpaid, hapart, hlates⟩ := h.toChains
  refine h.turn rfl ⟨?_, ?_, ?_, ?_, settle_late hlates fun _ => hlate⟩
    (fun q stage _ hq => hq.mono (settle_grows (by simp)) (fun _ => id) (le_refl _)) ?_ ?_ ?_
  · cases p <;> simp_all [Board.settle, Board.go]
  · cases p with
    | initiator => simpa [Board.settle, Board.go] using hpublished
    | responder => simp_all [Board.settle, Board.go]
  · cases p <;> simp_all [Board.settle, Board.go]
  · cases p <;> simp_all [Board.settle, Board.go, Board.Settled]
  · intro _
    trivial
  · rintro (hp | hp)
    · simp [Board.settle, Board.go] at hp
    · exact .inr (by simpa [Board.settle, Board.go] using hp)
  · rintro stage ⟨⟩
    trivial

/-- A party at work goes on to a stage. -/
theorem Sound.work {b : Board} (h : Sound D b) {p : Party} {stage next : Stage}
    (hmode : b.mode p = .working stage) (hstage : stage ≠ .done true) (hnext : next.Fits D b p) :
    Sound D (b.go p (.working next)) := by
  refine h.go ?_ ?_
  · rw [hmode]
    unfold Mode.Over
    split
    · rename_i hover
      cases hover
    · rename_i hover
      exact fun _ => absurd (Mode.working.inj hover) hstage
    · exact False.elim
  · rintro stage' ⟨⟩
    exact hnext

/-- An audit that finds the HTLC spent, and how the party goes on. -/
theorem Sound.auditSpent {b : Board} (h : Sound D b) {p : Party} {stage : Stage}
    (hmode : b.mode p = .working .audit)
    (hphase : b.phase p.other = .redeemed ∨ b.phase p.other = .refunded)
    (hstage : stage = p.audited D.secret ∨ stage = p.expired ∨ stage = .done false) :
    stage.Fits D b p := by
  have haudit := h.fits p _ hmode
  have hover := h.through p
  have hlate := h.late p.other
  rw [hmode] at hover
  rcases hstage with rfl | rfl | rfl
  · rcases hphase with hphase | hphase <;>
      cases p <;> simp_all [Party.audited, Stage.Fits, D.opens_secret]
  · rcases hphase with hphase | hphase <;>
      cases p <;> simp_all [Party.expired, Stage.Fits, Mode.Over, Board.Settled]
  · trivial

theorem turn_sound {b b' : Board} {a : Action} (hb : Sound D b) (h : Turn D period b a b') :
    Sound D b' := by
  cases h with
  | advance hclock =>
      exact
        { hb with
          late := fun p hp => lt_of_lt_of_le (hb.late p hp) hclock
          fits := fun p stage hp => (hb.fits p stage hp).mono (fun _ => id) (fun _ => id) hclock }
  | @start p haccepted hmode =>
      have hgo := hb.go (p := p) (m := .working .build) (by simp [hmode, Mode.Over])
        (by rintro stage ⟨⟩; trivial)
      exact
        { hgo with
          fits := fun q stage hq =>
            (hgo.fits q stage hq).mono (fun _ => id) (fun _ => id) (le_refl _) }
  | @build p _ hmode =>
      refine hb.work hmode (by simp) ?_
      cases p <;> simp [Party.first, Stage.Fits]
  | fund hmode hphase => exact hb.fund hmode hphase
  | @funded p _ hmode hphase =>
      refine hb.work hmode (by simp) ?_
      cases p <;> simp [Party.funded, Stage.Fits, hphase]
  | @auditUnfunded p _ hmode hphase =>
      refine hb.work hmode (by simp) ?_
      have haudit := hb.fits p _ hmode
      by_cases hlate : b.Late D
      · cases p <;> simp_all [Party.expired, Stage.Fits]
      · simp [hlate, Stage.Fits]
  | @audit p _ hmode hphase =>
      refine hb.work hmode (by simp) ?_
      have haudit := hb.fits p _ hmode
      cases p <;> simp_all [Party.audited, Stage.Fits, D.opens_secret]
  | auditSpent hmode hphase hstage =>
      exact hb.work hmode (by simp) (hb.auditSpent hmode hphase hstage)
  | redeem hmode hphase hopens => exact hb.redeem hmode
  | redeemFails hmode hnot => exact hb.work hmode (by simp) trivial
  | @secretPending p _ hmode hphase =>
      refine hb.work hmode (by simp) ?_
      by_cases hlate : b.Late D
      · simp [hlate, Stage.Fits, hphase]
      · simp [hlate, Stage.Fits]
  | @secretFound p _ secret hmode hphase hrevealed hopens =>
      obtain ⟨rfl, hfunded⟩ := hb.fits p _ hmode
      exact hb.work hmode (by simp) ⟨hopens, hfunded, hb.order hfunded, fun _ => hrevealed⟩
  | @secretMissing p _ stage hmode hphase hstage =>
      refine hb.work hmode (by simp) ?_
      obtain ⟨rfl, hfunded⟩ := hb.fits p _ hmode
      rcases hstage with rfl | rfl
      · exact ⟨hfunded, hb.late _ (hphase.resolve_left hfunded)⟩
      · trivial
  | refund hmode hphase hlate => exact hb.refund hmode hphase hlate
  | refundFails hmode hnot => exact hb.work hmode (by simp) trivial
  | @finish p remove hmode =>
      refine hb.go ?_ ?_
      · rw [hmode]
        cases remove <;> simp [Mode.Over]
      · rintro stage hstage
        cases remove <;> cases hstage

/-! ### How both are through -/

/-- The initiator redeems before the swap has expired. -/
def InTime (D : AcceptedPair) (clock : Int) (a : Action) : Prop :=
  ∀ c secret reply, a = .operate .initiator ⟨.redeem c secret, reply⟩ → clock ≤ D.timeLock

/-- The responder holds nothing, or is about to take it back. -/
def Board.Clear (b : Board) (m : Mode) : Prop :=
  (b.phase .responder).Unheld ∨
    b.phase .responder = .opened ∧ (m = .working .auditSecret ∨ m = .working .refund)

/-- A party that is through was paid or holds nothing.  When the initiator takes its funds
    back, the responder does. -/
structure Agreed (D : AcceptedPair) (b : Board) : Prop extends Sound D b where
  ended : ∀ p, (b.mode p).Over → b.phase p.other = .redeemed ∨ (b.phase p).Unheld
  clear : b.phase .initiator = .refunded ∨ b.mode .initiator = .working .refund →
    b.Clear (b.mode .responder)
  held : b.mode .responder = .working .refund → b.phase .responder = .opened

/-- A party goes on, and leaves the chains as they are. -/
theorem Agreed.go {b : Board} (h : Agreed D b) {p : Party} {m : Mode}
    (hsound : Sound D (b.go p m))
    (hended : m.Over → b.phase p.other = .redeemed ∨ (b.phase p).Unheld)
    (hrefund : p = .initiator → m = .working .refund → b.Clear (b.mode .responder))
    (hclear : p = .responder → b.Late D → b.Clear (b.mode .responder) → b.Clear m)
    (hheld : p = .responder → m = .working .refund → b.phase .responder = .opened) :
    Agreed D (b.go p m) where
  toSound := hsound
  ended q hq := by
    by_cases hqp : q = p
    · subst hqp
      exact hended (by simpa [Board.go] using hq)
    · exact h.ended q (by simpa [Board.go, hqp] using hq)
  clear hI := by
    cases p with
    | initiator =>
        rcases hI with hphase | hmode
        · exact h.clear (.inl hphase)
        · exact hrefund rfl (by simpa [Board.go] using hmode)
    | responder =>
        have hI' : b.phase .initiator = .refunded ∨ b.mode .initiator = .working .refund := by
          simpa [Board.go] using hI
        have hlate : b.Late D := by
          rcases hI' with hphase | hmode
          · exact h.late _ hphase
          · exact (h.fits _ _ hmode).2
        show b.Clear (Function.update b.mode .responder m .responder)
        rw [Function.update_self]
        exact hclear rfl hlate (h.clear hI')
  held hR := by
    cases p with
    | initiator => exact h.held (by simpa [Board.go] using hR)
    | responder => exact hheld rfl (by simpa [Board.go] using hR)

/-- Who is to take its funds back in this pass, is not elsewhere in it. -/
theorem Board.Clear.keep {b : Board} {m m' : Mode} (h : b.Clear m)
    (hsecret : m ≠ .working .auditSecret) (hrefund : m ≠ .working .refund) : b.Clear m' := by
  rcases h with hunheld | ⟨-, hm⟩
  · exact .inl hunheld
  · exact absurd hm (by simp [hsecret, hrefund])

theorem Sound.not_settled {b : Board} (h : Sound D b) {p : Party} (hover : ¬ (b.mode p).Over) :
    ¬ b.Settled p :=
  fun hp => hover (h.through p hp)

/-- What a party is to be paid from is open as long as it is not through, and the swap has
    not expired. -/
theorem Sound.opened {b : Board} (h : Sound D b) {p : Party} (hover : ¬ (b.mode p).Over)
    (hfunded : b.phase p.other ≠ .unfunded) (hnot : b.phase p.other ≠ .refunded) :
    b.phase p.other = .opened := by
  have hsettled := h.not_settled hover
  cases hphase : b.phase p.other with
  | unfunded => exact absurd hphase hfunded
  | opened => rfl
  | redeemed => exact absurd (.inl hphase) hsettled
  | refunded => exact absurd hphase hnot

/-- In time, what a party redeems is open. -/
theorem Sound.redeemable {b : Board} (h : Sound D b) {p : Party} {c : Contract}
    {secret : Bytes32} {reply : Reply (.redeem c secret)}
    (hmode : b.mode p = .working (.redeem secret))
    (htime : InTime D b.clock (.operate p ⟨.redeem c secret, reply⟩)) :
    b.phase p.other = .opened ∧ D.Opens secret := by
  obtain ⟨hopens, -, haudits, hknown⟩ := h.fits p _ hmode
  refine ⟨h.opened (by simp [hmode, Mode.Over]) haudits fun hrefunded => ?_, hopens⟩
  cases p with
  | initiator => exact absurd (h.late _ hrefunded) (not_lt.mpr (htime c secret reply rfl))
  | responder => exact h.apart (h.published secret (hknown rfl)) hrefunded

/-- What a party refunds is open. -/
theorem Agreed.refundable {b : Board} (h : Agreed D b) {p : Party}
    (hmode : b.mode p = .working .refund) : b.phase p = .opened ∧ b.Late D := by
  obtain ⟨hfunded, hlate⟩ := h.fits p _ hmode
  refine ⟨?_, hlate⟩
  have hsettled := h.not_settled (p := p) (by simp [hmode, Mode.Over])
  cases p with
  | responder => exact h.held hmode
  | initiator =>
      cases hphase : b.phase .initiator with
      | unfunded => exact absurd hphase hfunded
      | opened => rfl
      | redeemed => exact absurd (.inl (h.paid hphase)) hsettled
      | refunded => exact absurd (.inr hphase) hsettled

theorem Agreed.fund {b : Board} (h : Agreed D b) {p : Party}
    (hsound : Sound D ((b.settle p .opened).go p (.working p.funded)))
    (hmode : b.mode p = .working .initiate) (hphase : b.phase p = .unfunded) :
    Agreed D ((b.settle p .opened).go p (.working p.funded)) := by
  have hI := h.ended .initiator
  have hR := h.ended .responder
  have hclear := h.clear
  have hheld := h.held
  have hpaid := h.paid
  cases p with
  | initiator =>
      refine ⟨hsound, ?_, ?_, ?_⟩
      · rintro (_ | _) <;> simp_all [Board.settle, Board.go, Party.funded, Mode.Over]
      · simp_all [Board.settle, Board.go, Party.funded, Mode.Over]
      · simp_all [Board.settle, Board.go, Party.funded, Mode.Over]
  | responder =>
      refine ⟨hsound, ?_, ?_, ?_⟩
      · rintro (_ | _) <;> simp_all [Board.settle, Board.go, Party.funded, Mode.Over]
      · simp_all [Board.settle, Board.go, Party.funded, Mode.Over, Board.Clear]
      · simp_all [Board.settle, Board.go, Party.funded, Mode.Over]

theorem Agreed.redeem {b : Board} (h : Agreed D b) {p : Party} {c : Contract}
    {secret : Bytes32} {reply : Reply (.redeem c secret)}
    (hsound : Sound D { (b.settle p.other .redeemed).go p (.working (.done true)) with
      revealed := secret :: b.revealed })
    (hmode : b.mode p = .working (.redeem secret)) (hphase : b.phase p.other = .opened)
    (htime : InTime D b.clock (.operate p ⟨.redeem c secret, reply⟩)) :
    Agreed D { (b.settle p.other .redeemed).go p (.working (.done true)) with
      revealed := secret :: b.revealed } := by
  have hI := h.ended .initiator
  have hR := h.ended .responder
  have hclear := h.clear
  have hheld := h.held
  have hsettled := h.not_settled (p := p) (by simp [hmode, Mode.Over])
  obtain ⟨-, -, -, hknown⟩ := h.fits p _ hmode
  cases p with
  | initiator =>
      -- the responder takes back only what has expired
      have hrefund : b.mode .responder ≠ .working .refund := fun hrefund =>
        absurd (h.fits _ _ hrefund).2 (not_lt.mpr (htime c secret reply rfl))
      refine ⟨hsound, ?_, ?_, ?_⟩
      · rintro (_ | _) <;> simp_all [Board.settle, Board.go, Mode.Over, Phase.Unheld]
      · simp_all [Board.settle, Board.go, Board.Settled]
      · simp_all [Board.settle, Board.go]
  | responder =>
      have hpaid := h.published secret (hknown rfl)
      have hover := h.through .initiator (.inl hpaid)
      refine ⟨hsound, ?_, ?_, ?_⟩
      · rintro (_ | _) <;> simp_all [Board.settle, Board.go, Mode.Over, Phase.Unheld]
      · rintro (hphase | hrefund)
        · simp [Board.settle, Board.go] at hphase
        · rw [show b.mode .initiator = .working .refund by
            simpa [Board.go, Board.settle] using hrefund] at hover
          exact hover.elim
      · simp_all [Board.settle, Board.go]

theorem Agreed.refund {b : Board} (h : Agreed D b) {p : Party}
    (hsound : Sound D ((b.settle p .refunded).go p (.working (.done true))))
    (hmode : b.mode p = .working .refund) (hphase : b.phase p = .opened) :
    Agreed D ((b.settle p .refunded).go p (.working (.done true))) := by
  have hI := h.ended .initiator
  have hR := h.ended .responder
  have hclear := h.clear
  have hheld := h.held
  cases p with
  | initiator =>
      refine ⟨hsound, ?_, ?_, ?_⟩
      · rintro (_ | _) <;> simp_all [Board.settle, Board.go, Mode.Over, Phase.Unheld]
      · simp_all [Board.settle, Board.go, Board.Clear]
      · simp_all [Board.settle, Board.go]
  | responder =>
      refine ⟨hsound, ?_, ?_, ?_⟩
      · rintro (_ | _) <;> simp_all [Board.settle, Board.go, Mode.Over, Phase.Unheld]
      · simp_all [Board.settle, Board.go, Board.Clear, Phase.Unheld]
      · simp_all [Board.settle, Board.go]

/-- A party goes on that was not about to take its funds back. -/
theorem Agreed.leave {b : Board} (h : Agreed D b) {p : Party} {m : Mode}
    (hsound : Sound D (b.go p m)) (hsecret : b.mode p ≠ .working .auditSecret)
    (hwas : b.mode p ≠ .working .refund)
    (hended : m.Over → b.phase p.other = .redeemed ∨ (b.phase p).Unheld)
    (hrefund : m = .working .refund → p = .initiator ∧ b.Clear (b.mode .responder)) :
    Agreed D (b.go p m) := by
  apply h.go hsound hended
  · exact fun _ hm => (hrefund hm).2
  · rintro rfl - hclear
    exact hclear.keep hsecret hwas
  · rintro rfl hm
    cases (hrefund hm).1

theorem Agreed.auditUnfunded {b : Board} (h : Agreed D b) {p : Party}
    (hsound : Sound D (b.go p (b.unaudited D p.expired))) (hmode : b.mode p = .working .audit)
    (hphase : b.phase p.other = .unfunded) : Agreed D (b.go p (b.unaudited D p.expired)) := by
  apply h.leave hsound (by simp [hmode]) (by simp [hmode])
  · cases p with
    | initiator =>
        by_cases hlate : b.Late D <;> simp [Board.unaudited, hlate, Party.expired, Mode.Over]
    | responder =>
        intro _
        refine .inr (.inl ?_)
        by_contra hfunded
        exact h.order hfunded hphase
  · cases p with
    | initiator => exact fun _ => ⟨rfl, .inl (.inl hphase)⟩
    | responder =>
        by_cases hlate : b.Late D <;> simp [Board.unaudited, hlate, Party.expired]

theorem Agreed.auditSpent {b : Board} (h : Agreed D b) {p : Party} {stage : Stage}
    (hsound : Sound D (b.go p (.working stage))) (hmode : b.mode p = .working .audit)
    (hphase : b.phase p.other = .redeemed ∨ b.phase p.other = .refunded)
    (hstage : stage = p.audited D.secret ∨ stage = p.expired ∨ stage = .done false) :
    Agreed D (b.go p (.working stage)) := by
  have hsettled := h.not_settled (p := p) (by simp [hmode, Mode.Over])
  have hrefunded : b.phase p.other = .refunded :=
    hphase.resolve_left fun hredeemed => hsettled (.inl hredeemed)
  apply h.leave hsound (by simp [hmode]) (by simp [hmode])
  · cases p with
    | initiator =>
        rcases hstage with rfl | rfl | rfl <;> simp [Party.audited, Party.expired, Mode.Over]
    | responder =>
        intro _
        rcases h.clear (.inl hrefunded) with hunheld | ⟨-, hm⟩
        · exact .inr hunheld
        · simp [hmode] at hm
  · cases p with
    | initiator => exact fun _ => ⟨rfl, .inl (.inr hrefunded)⟩
    | responder =>
        rcases hstage with rfl | rfl | rfl <;> simp [Party.audited, Party.expired]

/-- Whose secret is not published yet, holds what it is to take back. -/
theorem Agreed.secretPending {b : Board} (h : Agreed D b) {p : Party}
    (hsound : Sound D (b.go p (b.unaudited D .refund)))
    (hmode : b.mode p = .working .auditSecret) (hphase : b.phase p = .opened) :
    Agreed D (b.go p (b.unaudited D .refund)) := by
  obtain ⟨rfl, -⟩ := h.fits p _ hmode
  apply h.go hsound
  · by_cases hlate : b.Late D <;> simp [Board.unaudited, hlate, Mode.Over]
  · simp
  · intro _ hlate _
    refine .inr ⟨hphase, .inr ?_⟩
    rw [Board.unaudited, if_pos hlate]
  · intro _ _
    exact hphase

theorem Agreed.secretFound {b : Board} (h : Agreed D b) {p : Party} {secret : Bytes32}
    (hsound : Sound D (b.go p (.working (.redeem secret))))
    (hmode : b.mode p = .working .auditSecret) (hphase : b.phase p ≠ .opened) :
    Agreed D (b.go p (.working (.redeem secret))) := by
  obtain ⟨rfl, -⟩ := h.fits p _ hmode
  apply h.go hsound
  · simp [Mode.Over]
  · simp
  · intro _ _ hclear
    rcases hclear with hunheld | ⟨hopened, -⟩
    · exact .inl hunheld
    · exact absurd hopened hphase
  · simp

theorem turn_agreed {b b' : Board} {a : Action} (hb : Agreed D b) (h : Turn D period b a b')
    (htime : InTime D b.clock a) : Agreed D b' := by
  have hsound := turn_sound hb.toSound h
  cases h with
  | advance hclock => exact ⟨hsound, hb.ended, hb.clear, hb.held⟩
  | @start p haccepted hmode =>
      have hgo : Agreed D (b.go p (.working .build)) := by
        apply hb.leave _ (by simp [hmode]) (by simp [hmode])
        · simp [Mode.Over]
        · simp
        · exact hb.toSound.go (by simp [hmode, Mode.Over]) (by rintro stage ⟨⟩; trivial)
      exact ⟨hsound, hgo.ended, hgo.clear, hgo.held⟩
  | @build p _ hmode =>
      apply hb.leave hsound (by simp [hmode]) (by simp [hmode])
      · cases p <;> simp [Party.first, Mode.Over]
      · cases p <;> simp [Party.first]
  | fund hmode hphase => exact hb.fund hsound hmode hphase
  | @funded p _ hmode hphase =>
      apply hb.leave hsound (by simp [hmode]) (by simp [hmode])
      · cases p <;> simp [Party.funded, Mode.Over]
      · cases p <;> simp [Party.funded]
  | auditUnfunded hmode hphase => exact hb.auditUnfunded hsound hmode hphase
  | @audit p _ hmode hphase =>
      apply hb.leave hsound (by simp [hmode]) (by simp [hmode])
      · cases p <;> simp [Party.audited, Mode.Over]
      · cases p <;> simp [Party.audited]
  | auditSpent hmode hphase hstage => exact hb.auditSpent hsound hmode hphase hstage
  | redeem hmode hphase hopens => exact hb.redeem hsound hmode hphase htime
  | redeemFails hmode hnot => exact absurd (hb.redeemable hmode htime) hnot
  | secretPending hmode hphase => exact hb.secretPending hsound hmode hphase
  | secretFound hmode hphase hrevealed hopens => exact hb.secretFound hsound hmode hphase
  | @secretMissing p _ stage hmode hphase hstage =>
      obtain ⟨rfl, hfunded⟩ := hb.fits p _ hmode
      have hsettled := hb.not_settled (p := .responder) (by simp [hmode, Mode.Over])
      exact absurd (.inr (hphase.resolve_left hfunded)) hsettled
  | refund hmode hphase hlate => exact hb.refund hsound hmode hphase
  | refundFails hmode hnot => exact absurd (hb.refundable hmode) hnot
  | @finish p remove hmode =>
      apply hb.leave hsound (by simp [hmode]) (by simp [hmode])
      · cases remove with
        | true => exact fun _ => hb.ended p (by simp [hmode, Mode.Over])
        | false => simp [Mode.Over]
      · cases remove <;> simp

/-! ### Runs -/

/-- The daemons are in modes for which something holds of the board. -/
def Plays (D : AcceptedPair) (Q : Board → Prop) (s : State) : Prop :=
  ∃ mode, (∀ p, InMode D p (s.daemon p) (mode p)) ∧ Q (s.board mode)

/-- What every turn keeps, holds of the boards of a run. -/
theorem run_plays {Q : Board → Prop} {C : Int → Action → Prop}
    (hturn : ∀ {b a b'}, Q b → Turn D period b a b' → C b.clock a → Q b')
    {s s' : State} {ts : List (Transition State Action)} (h : Run (Moves D period) s ts s')
    (hs : Plays D Q s) (hC : ∀ t ∈ ts, C t.source.clock t.label) :
    Plays D Q s' ∧ ∀ t ∈ ts, Plays D Q t.source ∧ Plays D Q t.target := by
  refine h.invariant (C := fun s a => C s.clock a) ?_ hs hC
  rintro s a s' ⟨mode, hmode, hQ⟩ hmoves hCa
  obtain ⟨mode', hturn', hmode'⟩ := moves_turns hmode hmoves
  exact ⟨mode', hmode', hturn hQ hturn' hCa⟩

theorem inMode_init (p : Party) : InMode D p ((State.init D).daemon p) .idle := .idle rfl rfl

theorem sound_init : Sound D ((State.init D).board fun _ => .idle) := by
  constructor
  · constructor <;> simp [State.init, State.board]
  · simp [State.init, State.board, Board.Settled]
  · simp [State.board]

theorem agreed_init : Agreed D ((State.init D).board fun _ => .idle) where
  toSound := sound_init
  ended := by simp [State.board, Mode.Over]
  clear := by simp [State.board, State.init]
  held := by simp [State.board]

variable {s : State} {ts : List (Transition State Action)}

theorem run_sound (h : Run (Moves D period) (.init D) ts s) : Plays D (Sound D) s :=
  (run_plays (C := fun _ _ => True) (fun hb hturn _ => turn_sound hb hturn) h
    ⟨_, inMode_init, sound_init⟩ fun _ _ => trivial).1

theorem InMode.over_of_removed {p : Party} {d : Daemon} {m : Mode} (h : InMode D p d m)
    (hremoved : d.removed = true) : m.Over := by
  cases h with
  | idle _ hheld | working _ hheld =>
      rw [hremoved] at hheld
      cases hheld
  | removed => trivial

/-- **Both parties or neither.**  Two daemons that swap with each other never come to where
    one HTLC is paid out and the other is paid back.  When the initiator redeems in time and
    both have removed the swap, both HTLCs were redeemed, or neither party lost anything. -/
theorem both_or_neither (h : Run (Moves D period) (.init D) ts s) :
    (∀ p, ¬ (s.phase p = .redeemed ∧ s.phase p.other = .refunded)) ∧
      ((∀ t ∈ ts, InTime D t.source.clock t.label) → (∀ p, (s.daemon p).removed = true) →
        (∀ p, s.phase p = .redeemed) ∨ ∀ p, (s.phase p).Unheld) := by
  constructor
  · obtain ⟨mode, -, hsound⟩ := run_sound h
    rintro p ⟨hredeemed, hrefunded⟩
    cases p with
    | initiator =>
        have hpaid := hsound.paid hredeemed
        exact absurd (hpaid.symm.trans hrefunded) (by decide)
    | responder => exact hsound.apart hredeemed hrefunded
  · intro htime hremoved
    obtain ⟨⟨mode, hmode, hagreed⟩, -⟩ := run_plays (fun hb hturn => turn_agreed hb hturn) h
      ⟨_, inMode_init, agreed_init⟩ htime
    have hI := hagreed.ended .initiator ((hmode _).over_of_removed (hremoved _))
    have hR := hagreed.ended .responder ((hmode _).over_of_removed (hremoved _))
    have hphase : ∀ p, (s.board mode).phase p = s.phase p := fun _ => rfl
    simp only [hphase, other_initiator, other_responder] at hI hR
    rcases hI with hR' | hI'
    · rcases hR with hI' | hunheld
      · refine .inl fun p => ?_
        cases p with
        | initiator => exact hI'
        | responder => exact hR'
      · simp [hR', Phase.Unheld] at hunheld
    · rcases hR with hredeemed | hunheld
      · simp [hredeemed, Phase.Unheld] at hI'
      · refine .inr fun p => ?_
        cases p with
        | initiator => exact hI'
        | responder => exact hunheld

theorem both_or_neither_sample :
    ∃ s ts, Run (Moves sampleDaemons (40 * 60)) (.init sampleDaemons) ts s ∧
      (∀ p, ¬ (s.phase p = .redeemed ∧ s.phase p.other = .refunded)) ∧
        ((∀ p, s.phase p = .redeemed) ∨ ∀ p, (s.phase p).Unheld) := by
  obtain ⟨s, ts, hrun, hclock, -, hremoved⟩ := exchange_sample (le_refl _)
  obtain ⟨hnever, hends⟩ := both_or_neither hrun
  refine ⟨s, ts, hrun, hnever, hends ?_ hremoved⟩
  intro t ht _ _ _ _
  have hearly := (clock_le hrun).2 t ht
  rw [hclock] at hearly
  exact hearly.trans (by decide +kernel)

end Swapperd.Honest
