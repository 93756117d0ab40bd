/-
  Swapperd/IntakeRuns.lean
  ========================
  **What holds of the intake over whole runs.**

  Composer and service pass one message round, so that together they are always in one of
  five phases (`moves_turns`).  The phases give:

  * `intake_drains` — until the shutdown, what was written reaches the wallet after a
    bounded number of steps, whichever steps these are;
  * `lost_after_failure` — once `Receive` has failed nothing more reaches the wallet, and
    what is lost is what the buffer then holds;
  * `ticks_spaced` — a tick says that for thirty seconds nothing was received.
-/
import Swapperd.RequestIntake

namespace Swapperd.Intake

open BoundedChannel TransitionRuns

variable {α : Type} {s s' : State α} {l : Label α}

/-! ### Phases -/

/-- Where the one message of composer and service is. -/
inductive Phase (α : Type) where
  | requested
  | receiving (started : Nat)
  | accepted (msg : Message α)
  | failed (err : GoError)
  | stopped

namespace Phase

def serviceIn : Phase α → List (ServerMessage α)
  | .requested => [.acceptRequest]
  | _ => []

def receiving? : Phase α → Option Nat
  | .receiving started => some started
  | _ => none

def serviceOut : Phase α → List (ServerMessage α)
  | .accepted msg => [.acceptedRequest msg]
  | .failed err => [.error err]
  | _ => []

/-- The service is not asked again. -/
def Ended : Phase α → Prop
  | .failed _ | .stopped => True
  | _ => False

/-- How many steps the loop can take before it receives again. -/
def weight : Phase α → Nat
  | .accepted _ => 4
  | .requested => 3
  | .receiving _ => 2
  | .failed _ => 1
  | .stopped => 0

end Phase

/-- The queues and the service are as in the phase. -/
structure InPhase (s : State α) (p : Phase α) : Prop where
  serviceIn : s.serviceIn = p.serviceIn
  receiving : s.receiving = p.receiving?
  serviceOut : s.serviceOut = p.serviceOut
  ended : p.Ended → s.receiver.done = true

/-- The steps of the handlers and of time. -/
def Label.isOutside : Label α → Prop
  | .write _ _ | .shutdown | .pass _ => True
  | _ => False

/-- How a step changes the phase. -/
inductive Turns : Phase α → Label α → Phase α → Prop where
  | outside {p : Phase α} {l : Label α} (h : l.isOutside) : Turns p l p
  | receive (now : Nat) : Turns .requested .receive (.receiving now)
  | received {started : Nat} (msg : Message α) :
      Turns (.receiving started) (.received (.ok msg)) (.accepted msg)
  | failed {started : Nat} (err : GoError) :
      Turns (.receiving started) (.received (.error err)) (.failed err)
  | forward (msg : Message α) : Turns (.accepted msg) (.compose (.acceptedRequest msg)) .requested
  | log (err : GoError) : Turns (.failed err) (.compose (.error err)) .stopped

theorem inPhase_new (cap now : Nat) : InPhase (State.new cap now : State α) .requested where
  serviceIn := rfl
  receiving := rfl
  serviceOut := rfl
  ended := False.elim

theorem queued_new (cap now : Nat) : (State.new cap now : State α).queued = [] := rfl

theorem shutdown_ok {r r' : Receiver α} (h : r.shutdown = .ok r') :
    r.done = false ∧ r' = { r with done := true } := by
  unfold Receiver.shutdown at h
  split at h
  · cases h
  · rename_i hdone
    cases h
    exact ⟨by simpa using hdone, rfl⟩

/-- A `Receive` that fails found the receiver shutting down. -/
theorem receives_error {r r' : Receiver α} {started now : Nat} {err : GoError}
    (h : r.Receives started now (.error err) r') : r.done = true ∧ r' = r := by
  cases h with
  | done h => exact ⟨h, rfl⟩

theorem receives_done {r r' : Receiver α} {started now : Nat} {result : Except GoError (Message α)}
    (h : r.Receives started now result r') : r'.done = r.done := by
  cases h <;> rfl

theorem writes_done {r r' : Receiver α} {msg : α} {started now : Nat} {err : Option GoError}
    (h : r.Writes msg started now err r') : r'.done = r.done := by
  cases h <;> rfl

/-- Every step is a turn of the phase. -/
theorem moves_turns {p : Phase α} (hp : InPhase s p) (h : Moves s l s') :
    ∃ p', Turns p l p' ∧ InPhase s' p' := by
  obtain ⟨hin, hreceiving, hout, hended⟩ := hp
  cases h with
  | write h => exact ⟨p, .outside trivial, hin, hreceiving, hout,
      fun he => (writes_done h).trans (hended he)⟩
  | shutdown h =>
      obtain ⟨-, rfl⟩ := shutdown_ok h
      exact ⟨p, .outside trivial, hin, hreceiving, hout, fun _ => rfl⟩
  | pass elapsed => exact ⟨p, .outside trivial, hin, hreceiving, hout, hended⟩
  | receive hidle h =>
      cases p with
      | requested =>
          obtain ⟨-, rfl⟩ := List.cons.inj (h.symm.trans hin)
          exact ⟨_, .receive s.now, rfl, rfl, hout, False.elim⟩
      | _ => exact absurd (h.symm.trans hin) (List.cons_ne_nil _ _)
  | @received started result receiver h hreceives =>
      cases p with
      | receiving started' =>
          have hlast : s.serviceOut ++ [serviceAnswer result] = [serviceAnswer result] := by
            rw [hout]
            rfl
          cases result with
          | error err =>
              obtain ⟨hdone, rfl⟩ := receives_error hreceives
              exact ⟨_, .failed err, hin, rfl, hlast, fun _ => hdone⟩
          | ok msg => exact ⟨_, .received msg, hin, rfl, hlast, False.elim⟩
      | _ => exact absurd (h.symm.trans hreceiving) (Option.some_ne_none _)
  | unknown hidle h hmsg =>
      cases p with
      | requested =>
          obtain ⟨rfl, -⟩ := List.cons.inj (h.symm.trans hin)
          exact absurd rfl hmsg
      | _ => exact absurd (h.symm.trans hin) (List.cons_ne_nil _ _)
  | compose h =>
      cases p with
      | accepted msg =>
          obtain ⟨rfl, rfl⟩ := List.cons.inj (h.symm.trans hout)
          refine ⟨_, .forward msg, ?_, hreceiving, rfl, False.elim⟩
          rw [hin]
          rfl
      | failed err =>
          obtain ⟨rfl, rfl⟩ := List.cons.inj (h.symm.trans hout)
          refine ⟨_, .log err, ?_, hreceiving, rfl, fun _ => hended trivial⟩
          rw [hin]
          rfl
      | _ => exact absurd (h.symm.trans hout) (List.cons_ne_nil _ _)

theorem run_inPhase {ts : History α} (h : Run Moves s ts s') (hs : ∃ p, InPhase s p) :
    ∃ p, InPhase s' p := by
  obtain ⟨hlast, -⟩ := h.invariant (P := fun s => ∃ p, InPhase s p) (C := fun _ _ => True)
    (fun hp hstep _ => by
      obtain ⟨p, hp⟩ := hp
      obtain ⟨p', -, hp'⟩ := moves_turns hp hstep
      exact ⟨p', hp'⟩) hs fun _ _ => trivial
  exact hlast

theorem reachable_inPhase {cap now : Nat} {ts : History α}
    (h : Run Moves (.new cap now) ts s) : ∃ p, InPhase s p :=
  run_inPhase h ⟨_, inPhase_new cap now⟩

theorem moves_cap (h : Moves s l s') : s'.receiver.buf.cap = s.receiver.buf.cap := by
  cases h with
  | write h =>
      cases h with
      | done => rfl
      | expired => rfl
      | sent h => exact (Chan.trySend_eq_some_iff.mp h).2.1
  | shutdown h =>
      obtain ⟨-, rfl⟩ := shutdown_ok h
      rfl
  | received _ hreceives =>
      cases hreceives with
      | done => rfl
      | message h => exact (Chan.tryReceive_eq_some_iff.mp h).2
      | tick => rfl
  | _ => rfl

theorem run_cap {ts : History α} (h : Run Moves s ts s') :
    s'.receiver.buf.cap = s.receiver.buf.cap := by
  induction h with
  | nil => rfl
  | cons hstep _ ih => exact ih.trans (moves_cap hstep)

/-! ### Progress -/

/-- A step of composer and service other than a tick. -/
def Label.isLoop : Label α → Prop
  | .receive | .received (.error _) | .received (.ok (.request _)) | .compose _ => True
  | _ => False

/-- A bound on the steps that composer and service take on their own. -/
def work (s : State α) (p : Phase α) : Nat := 3 * s.receiver.buf.buf.length + p.weight

theorem loop_keeps_done (hl : l.isLoop) (h : Moves s l s') :
    s'.receiver.done = s.receiver.done := by
  cases h with
  | received _ hreceives => exact receives_done hreceives
  | receive => rfl
  | compose => rfl
  | _ => exact hl.elim

/-- A step of composer and service leaves them less to do. -/
theorem loop_works {p : Phase α} (hp : InPhase s p) (hl : l.isLoop) (h : Moves s l s') :
    ∃ p', InPhase s' p' ∧ work s' p' < work s p := by
  obtain ⟨p', hturns, hp'⟩ := moves_turns hp h
  refine ⟨p', hp', ?_⟩
  cases hturns with
  | outside hout => cases l <;> exact absurd hl (by simp_all [Label.isLoop, Label.isOutside])
  | receive now =>
      cases h with
      | receive => simp [work, Phase.weight]
  | received msg =>
      cases h with
      | received _ hreceives =>
          cases hreceives with
          | message h =>
              obtain ⟨hbuf, -⟩ := Chan.tryReceive_eq_some_iff.mp h
              simp only [work, Phase.weight, hbuf, List.length_cons]
              omega
          | tick => exact hl.elim
  | failed err =>
      cases h with
      | received _ hreceives =>
          obtain ⟨-, rfl⟩ := receives_error hreceives
          simp [work, Phase.weight]
  | forward msg =>
      cases h with
      | compose => simp [work, Phase.weight]
  | log err =>
      cases h with
      | compose => simp [work, Phase.weight]

/-- Composer and service have nothing to do. -/
def Idle (s : State α) : Prop := ∀ l s', l.isLoop → ¬ Moves s l s'

theorem idle_of_receiving {started : Nat} (hreceiving : s.receiving = some started)
    (hidle : Idle s) : s.receiver.buf.buf = [] := by
  rw [← Chan.tryReceive_eq_none_iff, Option.eq_none_iff_forall_ne_some]
  rintro ⟨msg, buf⟩ h
  exact hidle (.received (.ok (.request msg))) _ trivial (.received hreceiving (.message h))

/-- Until the shutdown they have nothing to do when nothing is queued. -/
theorem queued_of_idle {p : Phase α} (hp : InPhase s p) (hdone : s.receiver.done = false)
    (hidle : Idle s) : s.queued = [] := by
  obtain ⟨hin, hreceiving, hout, hended⟩ := hp
  have hnot : ¬ p.Ended := fun h => by simp [hended h] at hdone
  cases p with
  | requested => exact (hidle .receive _ trivial (.receive hreceiving hin)).elim
  | receiving started =>
      rw [State.queued, hout, idle_of_receiving hreceiving hidle]
      rfl
  | accepted msg => exact (hidle (.compose _) _ trivial (.compose hout)).elim
  | failed err => exact (hnot trivial).elim
  | stopped => exact (hnot trivial).elim

/-- Whatever composer and service do, they are done after as many steps. -/
theorem loop_bounded {p : Phase α} (hp : InPhase s p) {us : History α} (h : Run Moves s us s')
    (hus : ∀ u ∈ us, u.label.isLoop) :
    us.length ≤ work s p ∧ s'.receiver.done = s.receiver.done := by
  induction h generalizing p with
  | nil => exact ⟨Nat.zero_le _, rfl⟩
  | @cons s s₁ s₂ l us hstep hrest ih =>
      have hl : l.isLoop := hus _ List.mem_cons_self
      obtain ⟨p₁, hp₁, hless⟩ := loop_works hp hl hstep
      obtain ⟨hlength, hdone⟩ := ih hp₁ fun u hu => hus u (List.mem_cons_of_mem _ hu)
      exact ⟨Nat.le_trans (Nat.succ_le_succ hlength) hless, hdone.trans (loop_keeps_done hl hstep)⟩

/-- They can go on until they are done. -/
theorem exists_idle {p : Phase α} (hp : InPhase s p) :
    ∃ us s', Run Moves s us s' ∧ (∀ u ∈ us, u.label.isLoop) ∧ Idle s' := by
  induction hwork : work s p using Nat.strongRecOn generalizing s p with
  | ind n ih =>
      by_cases hidle : Idle s
      · exact ⟨[], s, .nil s, by simp, hidle⟩
      · simp only [Idle, not_forall, not_not] at hidle
        obtain ⟨l, s₁, hl, hstep⟩ := hidle
        obtain ⟨p₁, hp₁, hless⟩ := loop_works hp hl hstep
        obtain ⟨us, s', hrun, hus, hdone⟩ := ih _ (hwork ▸ hless) hp₁ rfl
        exact ⟨⟨s, l, s₁⟩ :: us, s', .cons hstep hrun, by simpa using ⟨hl, hus⟩, hdone⟩

/-- **What is written arrives.**  Until the shutdown, composer and service can take a
    bounded number of steps on their own, whichever they are, and when they can take no more
    every request whose `Write` returned nil has reached the wallet, in order. -/
theorem intake_drains {cap now : Nat} {ts : History α} (h : Run Moves (.new cap now) ts s)
    (hdone : s.receiver.done = false) :
    (∃ us s', Run Moves s us s' ∧ (∀ u ∈ us, u.label.isLoop) ∧ Idle s') ∧
      ∀ us s', Run Moves s us s' → (∀ u ∈ us, u.label.isLoop) →
        us.length ≤ 3 * s.receiver.buf.buf.length + 4 ∧
          (Idle s' → requests (forwarded (ts ++ us)) = written ts) := by
  obtain ⟨p, hp⟩ := reachable_inPhase h
  refine ⟨exists_idle hp, fun us s' hrun hus => ?_⟩
  obtain ⟨hlength, hkeep⟩ := loop_bounded hp hrun hus
  have hweight : p.weight ≤ 4 := by cases p <;> simp [Phase.weight]
  refine ⟨hlength.trans (Nat.add_le_add_left hweight _), fun hidle => ?_⟩
  obtain ⟨p', hp'⟩ := run_inPhase hrun ⟨p, hp⟩
  have hnone : written us = [] := by
    apply List.filterMap_eq_nil_iff.mpr
    intro u hu
    have hl := hus u hu
    cases hlabel : u.label with
    | write => exact (hlabel ▸ hl : Label.isLoop (.write _ _)).elim
    | _ => rfl
  have hconserves := intake_conserves (h.append hrun)
  rw [queued_of_idle hp' (hkeep.trans hdone) hidle, List.append_nil, written_append, hnone,
    List.append_nil] at hconserves
  exact hconserves.symm

/-! ### Shutdown -/

/-- After an error the composer sends nothing and the service is not asked again. -/
theorem turns_ended {p p' : Phase α} (h : Turns p l p') (hp : p.Ended) :
    p'.Ended ∧ l.forwarded? = none ∧ ∀ result, l ≠ .received result := by
  cases h with
  | outside h => cases l <;> first | exact h.elim | exact ⟨hp, rfl, by simp⟩
  | log err => exact ⟨trivial, rfl, by simp⟩
  | _ => exact hp.elim

theorem ended_forwards {p : Phase α} (hp : InPhase s p) (hended : p.Ended) {us : History α}
    (h : Run Moves s us s') :
    forwarded us = [] ∧ (∀ u ∈ us, ∀ result, u.label ≠ .received result) ∧
      ∃ p', InPhase s' p' ∧ p'.Ended := by
  induction h generalizing p with
  | nil => exact ⟨rfl, by simp, p, hp, hended⟩
  | @cons s s₁ s₂ l us hstep hrest ih =>
      obtain ⟨p₁, hturns, hp₁⟩ := moves_turns hp hstep
      obtain ⟨hended₁, hnone, hnot⟩ := turns_ended hturns hended
      obtain ⟨hforwarded, hreceived, hlast⟩ := ih hp₁ hended₁
      refine ⟨?_, by simpa using ⟨hnot, hreceived⟩, hlast⟩
      rw [forwarded_cons, hforwarded, hnone]
      rfl

theorem queued_of_ended {p : Phase α} (hp : InPhase s p) (hended : p.Ended) :
    s.queued = s.receiver.buf.buf := by
  have hout := hp.serviceOut
  unfold State.queued
  cases p with
  | failed err =>
      rw [hout]
      rfl
  | stopped =>
      rw [hout]
      rfl
  | _ => exact hended.elim

/-- A `Write` finds room whether the receiver is shutting down or not. -/
theorem write_of_room (msg : α) (h : s.receiver.buf.buf.length < s.receiver.buf.cap) :
    ∃ s', Moves s (.write msg none) s' := by
  obtain ⟨buf, hbuf⟩ : ∃ buf, s.receiver.buf.trySend msg = some buf := by
    rw [← Option.ne_none_iff_exists', ne_eq, Chan.trySend_eq_none_iff]
    exact Nat.ne_of_lt h
  exact ⟨_, .write (@Receiver.Writes.sent α s.receiver msg s.now s.now buf hbuf)⟩

/-- **What a shutdown loses.**  When `Receive` has failed the receiver is shutting down, and
    the service never reads it again.  A `Write` still returns nil while there is room; what
    was written and had not reached the wallet by then is what the buffer holds. -/
theorem lost_after_failure {cap now : Nat} {ts us : History α} {s s₁ s' : State α}
    {err : GoError}
    (h : Run Moves (.new cap now) (ts ++ ⟨s, .received (.error err), s₁⟩ :: us) s') :
    s.receiver.done = true ∧ forwarded us = [] ∧
      (∀ u ∈ us, ∀ result, u.label ≠ .received result) ∧
      written (ts ++ us) = requests (forwarded ts) ++ s'.receiver.buf.buf ∧
      s'.receiver.buf.buf.length ≤ cap ∧
      (s'.receiver.buf.buf.length < cap → ∀ msg, ∃ s'', Moves s' (.write msg none) s'') := by
  have hconserves := intake_conserves h
  have hcap : s'.receiver.buf.cap = cap := run_cap h
  obtain ⟨m, hfirst, hsecond⟩ := h.split
  obtain ⟨p, hp⟩ := reachable_inPhase hfirst
  cases hsecond with
  | cons hstep hrest =>
      obtain ⟨p₁, hturns, hp₁⟩ := moves_turns hp hstep
      have hended : p₁.Ended := by
        cases hturns with
        | outside h => exact h.elim
        | failed => trivial
      obtain ⟨hforwarded, hnot, p', hp', hended'⟩ := ended_forwards hp₁ hended hrest
      have hdone : s.receiver.done = true := by
        cases hstep with
        | received _ hreceives => exact (receives_error hreceives).1
      refine ⟨hdone, hforwarded, hnot, ?_, hcap ▸ s'.receiver.buf.bounded, fun hroom msg => ?_⟩
      · rw [queued_of_ended hp' hended', written_append, written_cons, forwarded_append,
          forwarded_cons, hforwarded] at hconserves
        simpa [queued_new, Label.written?, Label.forwarded?] using hconserves
      · exact write_of_room msg (hcap.symm ▸ hroom)

/-! ### Ticks -/

def Label.tick? : Label α → Option Nat
  | .received (.ok (.tick time)) => some time
  | _ => none

/-- The times of the ticks that the service answered with. -/
def ticks (ts : History α) : List Nat := ts.filterMap fun t => t.label.tick?

theorem ticks_concat (ts : History α) (t : Transition (State α) (Label α)) :
    ticks (ts ++ [t]) = ticks ts ++ t.label.tick?.toList := by
  unfold ticks
  rw [List.filterMap_append]
  cases h : t.label.tick? <;> simp [h]

/-- What holds of the past at a time: everything was received before, and there was time for
    the ticks since `start`. -/
structure Timely (start : Nat) (past : History α) (time : Nat) : Prop where
  received : ∀ u ∈ past, ∀ result, u.label = .received result → u.source.now ≤ time
  elapsed : start + (ticks past).length * tickPeriod ≤ time

theorem Timely.mono {start : Nat} {past : History α} {time time' : Nat}
    (h : Timely start past time) (hle : time ≤ time') : Timely start past time' where
  received u hu result hlabel := (h.received u hu result hlabel).trans hle
  elapsed := h.elapsed.trans hle

/-- A step in which the service receives nothing changes nothing. -/
theorem Timely.concat {start : Nat} {past : History α} {time : Nat} (h : Timely start past time)
    {t : Transition (State α) (Label α)} (ht : ∀ result, t.label ≠ .received result) :
    Timely start (past ++ [t]) time := by
  constructor
  · intro u hu result hlabel
    rcases List.mem_append.mp hu with hu | hu
    · exact h.received u hu result hlabel
    · rw [List.mem_singleton.mp hu] at hlabel
      exact absurd hlabel (ht result)
  · have hnone : t.label.tick? = none := by
      cases hlabel : t.label with
      | received result => exact absurd hlabel (ht result)
      | _ => rfl
    rw [ticks_concat, hnone]
    simpa using h.elapsed

/-- The past is over when the service calls `Receive`, and now. -/
structure Timed (start : Nat) (past : History α) (s : State α) : Prop where
  now : Timely start past s.now
  started : ∀ started, s.receiving = some started → started ≤ s.now ∧ Timely start past started

theorem moves_now (h : Moves s l s') : s.now ≤ s'.now := by
  cases h with
  | pass elapsed => exact Nat.le_add_right _ _
  | _ => exact Nat.le_refl _

/-- Only the service changes whether it waits. -/
theorem moves_receiving (h : Moves s l s') :
    (s'.receiving = s.receiving ∧ ∀ result, l ≠ .received result) ∨
      (s'.receiving = some s.now ∧ ∀ result, l ≠ .received result) ∨
      s'.receiving = none ∧ ∃ result, l = .received result := by
  cases h with
  | receive => exact .inr (.inl ⟨rfl, by simp⟩)
  | received => exact .inr (.inr ⟨rfl, _, rfl⟩)
  | _ => exact .inl ⟨rfl, by simp⟩

/-- A tick comes a period after `Receive` was called. -/
theorem tick_late {time : Nat} (h : Moves s l s') (htick : l.tick? = some time) :
    time = s.now ∧ ∃ started, s.receiving = some started ∧ started + tickPeriod ≤ s.now := by
  cases h with
  | received h hreceives =>
      cases hreceives with
      | done => cases htick
      | message => cases htick
      | tick hlate => exact ⟨(Option.some.inj htick).symm, _, h, hlate⟩
  | _ => cases htick

variable {start : Nat} {past : History α} {t : Transition (State α) (Label α)}

theorem Timed.received (hs : Timed start past t.source)
    (h : Moves t.source t.label t.target) : Timely start (past ++ [t]) t.source.now := by
  constructor
  · intro u hu result hlabel
    rcases List.mem_append.mp hu with hu | hu
    · exact hs.now.received u hu result hlabel
    · rw [List.mem_singleton.mp hu]
  · rw [ticks_concat]
    cases htick : t.label.tick? with
    | none => simpa using hs.now.elapsed
    | some time =>
        obtain ⟨-, started, hstarted, hlate⟩ := tick_late h htick
        have helapsed := (hs.started started hstarted).2.elapsed
        rw [List.length_append, Option.toList_some, List.length_singleton, Nat.succ_mul]
        omega

theorem moves_timed (hs : Timed start past t.source) (h : Moves t.source t.label t.target) :
    Timed start (past ++ [t]) t.target := by
  have hnow := moves_now h
  refine ⟨(hs.received h).mono hnow, fun started hstarted => ?_⟩
  rcases moves_receiving h with ⟨hsame, hother⟩ | ⟨hcalled, hother⟩ | ⟨hnone, -⟩
  · obtain ⟨hle, hpast⟩ := hs.started started (hsame ▸ hstarted)
    exact ⟨hle.trans hnow, hpast.concat hother⟩
  · obtain rfl : t.source.now = started := Option.some.inj (hcalled.symm.trans hstarted)
    exact ⟨hnow, hs.now.concat hother⟩
  · rw [hnone] at hstarted
    cases hstarted

/-- **Ticks need a pause.**  The service answers with a tick only when for thirty seconds it
    received nothing, neither a request nor a tick; there is one tick in thirty seconds at
    most. -/
theorem ticks_spaced {cap start : Nat} {ts : History α} (h : Run Moves (.new cap start) ts s) :
    start + (ticks ts).length * tickPeriod ≤ s.now ∧
      ∀ us t vs time, ts = us ++ t :: vs → t.label.tick? = some time →
        time = t.source.now ∧
          ∀ u ∈ us, ∀ result, u.label = .received result → u.source.now + tickPeriod ≤ time := by
  have hnew : Timed start [] (State.new cap start : State α) := by
    refine ⟨⟨by simp, by simp [ticks, State.new]⟩, fun started hstarted => ?_⟩
    cases hstarted
  obtain ⟨hlast, hall⟩ := h.history (P := Timed start) (C := fun _ _ => True)
    (fun hs hstep _ => moves_timed hs hstep) hnew fun _ _ _ _ => trivial
  refine ⟨hlast.now.elapsed, ?_⟩
  rintro us t vs time rfl htick
  obtain ⟨rfl, started, hstarted, hlate⟩ := tick_late (h.step_of_mem t (by simp)) htick
  refine ⟨rfl, fun u hu result hlabel => ?_⟩
  have hpast := ((hall us t vs rfl).started started hstarted).2.received u hu result hlabel
  omega

/-! ### Runs of a receiver with room for one request -/

/-- A request that is written, accepted and sent to the wallet. -/
theorem forwarded_run : ∃ ts s, Run Moves (State.new 1 0) ts s ∧ written ts = [7] ∧
    requests (forwarded ts) = [7] :=
  ⟨_, _, .cons (.write (@Receiver.Writes.sent _ _ 7 0 _ _ rfl)) <| .cons (.receive rfl rfl) <|
    .cons (.received rfl (.message rfl)) <| .cons (.compose rfl) (.nil _), rfl, rfl⟩

theorem intake_conserves_forwarded : ∃ ts s, Run Moves (State.new 1 0) ts s ∧ written ts = [7] ∧
    (State.new 1 0).queued ++ written ts = requests (forwarded ts) ++ s.queued := by
  obtain ⟨ts, s, hrun, hwritten, -⟩ := forwarded_run
  exact ⟨ts, s, hrun, hwritten, intake_conserves hrun⟩

/-- A request that is only written so far. -/
theorem intake_drains_written : ∃ ts s, Run Moves (State.new 1 0) ts s ∧ written ts = [7] ∧
    ∃ us s', Run Moves s us s' ∧ requests (forwarded (ts ++ us)) = [7] := by
  have hrun : Run Moves (State.new 1 0) _ _ :=
    .cons (.write (@Receiver.Writes.sent _ _ 7 0 _ _ rfl)) (.nil _)
  obtain ⟨⟨us, s', hloop, hus, hidle⟩, hall⟩ := intake_drains hrun rfl
  exact ⟨_, _, hrun, rfl, us, s', hloop, (hall us s' hloop hus).2 hidle⟩

/-- A request that is written before a shutdown, and lost by it. -/
theorem lost_run : ∃ ts s s₁ err,
    Run Moves (State.new 1 0) (ts ++ ⟨s, .received (.error err), s₁⟩ :: []) s₁ ∧
      written ts = [7] ∧ forwarded ts = [] :=
  ⟨[_, _, _], _, _, _, .cons (.receive rfl rfl) <|
    .cons (.write (@Receiver.Writes.sent _ _ 7 0 _ _ rfl)) <| .cons (.shutdown rfl) <|
    .cons (.received rfl (.done rfl)) (.nil _), rfl, rfl⟩

theorem lost_after_failure_run : ∃ ts s s₁ err,
    Run Moves (State.new 1 0) (ts ++ ⟨s, .received (.error err), s₁⟩ :: []) s₁ ∧
      s₁.receiver.buf.buf = [7] := by
  obtain ⟨ts, s, s₁, err, hrun, hwritten, hforwarded⟩ := lost_run
  obtain ⟨-, -, -, hlost, -⟩ := lost_after_failure hrun
  refine ⟨ts, s, s₁, err, hrun, ?_⟩
  rw [List.append_nil, hwritten, hforwarded] at hlost
  exact hlost.symm

/-- A tick after thirty seconds. -/
theorem tick_run : ∃ ts s, Run Moves (State.new 1 0 : State Nat) ts s ∧ ticks ts = [tickPeriod] :=
  ⟨_, _, .cons (.receive rfl rfl) <| .cons (.pass tickPeriod) <|
    .cons (.received rfl (.tick (Nat.le_refl _))) (.nil _), rfl⟩

theorem ticks_spaced_run : ∃ ts s, Run Moves (State.new 1 0 : State Nat) ts s ∧
    ticks ts = [tickPeriod] ∧ 0 + (ticks ts).length * tickPeriod ≤ s.now := by
  obtain ⟨ts, s, hrun, hticks⟩ := tick_run
  exact ⟨ts, s, hrun, hticks, (ticks_spaced hrun).1⟩

end Swapperd.Intake
