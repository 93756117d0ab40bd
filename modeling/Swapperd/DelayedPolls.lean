/-
  Swapperd/DelayedPolls.lean
  ==========================
  **What a poll sends and what it leaves** (`handleDelayedSwapRequest`).

  The password is taken out of the blob before the callback and put back after it: into
  the entry that is kept, or into the swap that the server filled.  In every run the
  callback gets submitted blobs without their passwords, the entries are submitted blobs
  with them, and a filled swap has the password of the blob that was polled
  (`polls_as_submitted`).  An ID may be submitted again with other contents: then the
  blob that is polled need not be the first one.
-/
import Swapperd.DelayedRuns

namespace Swapperd.Delayed

open CallProgram RetryTask TransitionRuns GoLibrary

variable {σ N : Type} {step : Behaviour Op Reply σ N}

/-! ### Submissions -/

/-- The blobs that the messages of a run submit, in their order. -/
def submissions (ts : List (Transition (SwapMap × σ) (Reduction σ N))) : List SwapBlob :=
  ts.filterMap fun t =>
    match t.label.input with
    | .request req => some req
    | .tick _ => none

/-- The blob that was submitted first for an ID. -/
def firstSubmitted (blobs : List SwapBlob) (id : SwapID) : Option SwapBlob :=
  blobs.find? fun blob => blob.id = id

/-- All submissions for the ID carry one blob. -/
def SubmittedAlike (blobs : List SwapBlob) (id : SwapID) : Prop :=
  ∀ blob ∈ blobs, ∀ blob' ∈ blobs, blob.id = id → blob'.id = id → blob = blob'

/-- What a message polls, keeps and fills comes from what was submitted. -/
structure PollsSubmitted (blobs : List SwapBlob)
    (t : Transition (SwapMap × σ) (Reduction σ N)) : Prop where
  polls : ∀ c ∈ t.label.calls, ∃ req ∈ blobs, c.1 = .post (req.withPassword "")
  entries : ∀ id req, t.target.1.lookup id = some req → req ∈ blobs ∧ req.id = id
  fills : ∀ blob, .swapRequest blob ∈ t.label.output →
    ∃ req ∈ blobs, ∃ c ∈ t.label.calls, ∃ filled, c.1 = .post (req.withPassword "") ∧
      Call.answer c = .ok filled ∧ blob = filled.withPassword req.password

/-- What a message polls, keeps and fills for the ID is the blob that was submitted first. -/
structure PollsFirst (blobs : List SwapBlob) (id : SwapID)
    (t : Transition (SwapMap × σ) (Reduction σ N)) : Prop where
  polls : ∀ c ∈ t.label.calls, Call.id c = id →
    ∃ req, firstSubmitted blobs id = some req ∧ c.1 = .post (req.withPassword "")
  entry : ∀ req, t.target.1.lookup id = some req → firstSubmitted blobs id = some req
  fills : ∀ c ∈ t.label.calls, Call.id c = id → ∀ filled, Call.answer c = .ok filled →
    ∃ req, firstSubmitted blobs id = some req ∧
      .swapRequest (filled.withPassword req.password) ∈ t.label.output

theorem submissions_append (us ts : List (Transition (SwapMap × σ) (Reduction σ N))) :
    submissions (us ++ ts) = submissions us ++ submissions ts := by
  simp [submissions]

theorem mem_submissions {t : Transition (SwapMap × σ) (Reduction σ N)} {req : SwapBlob}
    (h : t.label.input = .request req) (us : List (Transition (SwapMap × σ) (Reduction σ N))) :
    req ∈ submissions (us ++ [t]) := by
  simp [submissions, h]

theorem firstSubmitted_of_alike {blobs : List SwapBlob} {id : SwapID} {req : SwapBlob}
    (h : SubmittedAlike blobs id) (hreq : req ∈ blobs) (hid : req.id = id) :
    firstSubmitted blobs id = some req := by
  unfold firstSubmitted
  cases hfind : blobs.find? fun blob => blob.id = id with
  | none =>
      have hnone := List.find?_eq_none.mp hfind req hreq
      simp [hid] at hnone
  | some first =>
      have hfirst : first.id = id := by simpa using List.find?_some hfind
      rw [h first (List.mem_of_find?_eq_some hfind) req hreq hfirst hid]

/-! ### One pass -/

section PassStep

variable {s s' : SwapMap × σ} {p : Pass σ N}

theorem pass_stores {P : SwapBlob → Prop} (h : PassStep step task s p s') (hreq : P p.req)
    (hs : Stores P s.1) : Stores P s'.1 := by
  obtain ⟨c, -, -, hexit⟩ := pass_exits h
  generalize s'.1 = m, p.batch = batch at hexit ⊢
  cases hexit with
  | filled | cancelled => exact hs.erase _
  | unavailable | failed => exact hs.insert _ hreq

/-- The swaps that a pass emits are filled by its poll, with the password put back. -/
theorem pass_fills (h : PassStep step task s p s') :
    ∃ c : Call, p.calls = [c] ∧ c.1 = .post (p.req.withPassword "") ∧ ∀ blob,
      .swapRequest blob ∈ p.batch ↔
        ∃ filled, c.answer = .ok filled ∧ blob = filled.withPassword p.req.password := by
  obtain ⟨c, hcalls, hop, hexit⟩ := pass_exits h
  refine ⟨c, hcalls, hop, fun blob => ?_⟩
  generalize s'.1 = m, p.batch = batch at hexit ⊢
  cases hexit with
  | filled filled hanswer => simp [hanswer]
  | cancelled hanswer => simp [hanswer]
  | unavailable hanswer => simp [hanswer]
  | failed err hanswer => simp [hanswer]

end PassStep

/-! ### One message -/

/-- The requests that are kept are submitted ones, under their own IDs. -/
def KeepsSubmitted (past : List (Transition (SwapMap × σ) (Reduction σ N)))
    (s : SwapMap × σ) : Prop :=
  KeysAgree SwapBlob.id s.1 ∧ Stores (· ∈ submissions past) s.1

section Reduces

variable {past : List (Transition (SwapMap × σ) (Reduction σ N))}
  {t : Transition (SwapMap × σ) (Reduction σ N)}

/-- A message is handled in passes for submitted requests. -/
theorem reduces_submitted (h : Reduces step task t.source t.label t.target)
    (hs : KeepsSubmitted past t.source) :
    KeepsSubmitted (past ++ [t]) t.target ∧
      ∃ ps, Run (PassStep step task) t.source ps t.target ∧
        t.label.events = ps.flatMap (·.label.events) ∧
        t.label.output = ps.flatMap (·.label.batch) ∧
        ∀ p ∈ ps, p.label.req ∈ submissions (past ++ [t]) := by
  have hstore : Stores (· ∈ submissions (past ++ [t])) t.source.1 := by
    intro id req hlookup
    rw [submissions_append]
    exact List.mem_append_left _ (hs.2 id req hlookup)
  obtain ⟨hkept, hpasses⟩ := h.stores keepsKeys pass_stores hs.1 hstore
    fun req hinput => mem_submissions hinput past
  exact ⟨⟨h.keysAgree keepsKeys hs.1, hkept⟩, hpasses⟩

theorem reduces_pollsSubmitted (h : Reduces step task t.source t.label t.target)
    (hs : KeepsSubmitted past t.source) :
    PollsSubmitted (submissions (past ++ [t])) t := by
  obtain ⟨⟨hagree, hkept⟩, ps, hps, hevents, hout, hreq⟩ := reduces_submitted h hs
  constructor
  · intro c hc
    obtain ⟨p, hp, hc⟩ := (mem_calls hevents).mp hc
    obtain ⟨c', hcalls, hop, -⟩ := pass_fills (hps.step_of_mem p hp)
    rw [hcalls, List.mem_singleton] at hc
    exact ⟨p.label.req, hreq p hp, by rw [hc, hop]⟩
  · intro id req hlookup
    exact ⟨hkept id req hlookup, hagree id req hlookup⟩
  · intro blob hblob
    rw [hout] at hblob
    obtain ⟨p, hp, hblob⟩ := List.mem_flatMap.mp hblob
    obtain ⟨c, hcalls, hop, hfills⟩ := pass_fills (hps.step_of_mem p hp)
    obtain ⟨filled, hanswer, rfl⟩ := (hfills blob).mp hblob
    have hc : c ∈ t.label.calls := (mem_calls hevents).mpr ⟨p, hp, by simp [hcalls]⟩
    exact ⟨p.label.req, hreq p hp, c, hc, filled, hop, hanswer, rfl⟩

theorem reduces_pollsFirst (h : Reduces step task t.source t.label t.target)
    (hs : KeepsSubmitted past t.source) {id : SwapID}
    (halike : SubmittedAlike (submissions (past ++ [t])) id) :
    PollsFirst (submissions (past ++ [t])) id t := by
  obtain ⟨⟨hagree, hkept⟩, ps, hps, hevents, hout, hreq⟩ := reduces_submitted h hs
  have hpolled : ∀ c ∈ t.label.calls, Call.id c = id → ∃ p ∈ ps, p.label.calls = [c] ∧
      c.1 = .post (p.label.req.withPassword "") ∧
      firstSubmitted (submissions (past ++ [t])) id = some p.label.req := by
    intro c hc hid
    obtain ⟨p, hp, hc⟩ := (mem_calls hevents).mp hc
    obtain ⟨c', hcalls, hop, -⟩ := pass_fills (hps.step_of_mem p hp)
    rw [hcalls, List.mem_singleton] at hc
    subst hc
    have hreqid : p.label.req.id = id := by simpa [Call.id, hop, Op.partialSwap] using hid
    exact ⟨p, hp, hcalls, hop, firstSubmitted_of_alike halike (hreq p hp) hreqid⟩
  constructor
  · intro c hc hid
    obtain ⟨p, -, -, hop, hfirst⟩ := hpolled c hc hid
    exact ⟨p.label.req, hfirst, hop⟩
  · intro req hlookup
    exact firstSubmitted_of_alike halike (hkept id req hlookup) (hagree id req hlookup)
  · intro c hc hid filled hanswer
    obtain ⟨p, hp, hcalls, -, hfirst⟩ := hpolled c hc hid
    obtain ⟨c', hcalls', -, hfills⟩ := pass_fills (hps.step_of_mem p hp)
    obtain rfl : c = c' := by simpa [hcalls] using hcalls'
    refine ⟨p.label.req, hfirst, ?_⟩
    rw [hout]
    exact List.mem_flatMap.mpr ⟨p, hp, (hfills _).mpr ⟨filled, hanswer, rfl⟩⟩

end Reduces

/-! ### Runs -/

/-- **Polling leaves a swap as it was submitted.**  In every run, whatever the server
    answers, what is polled is a submitted blob without its password, what is kept is a
    submitted blob, and what is filled has the password of the blob that was polled; and
    that blob is the first one, when all submissions for the ID carry one. -/
theorem polls_as_submitted {w : σ} {s : SwapMap × σ}
    {ts : List (Transition (SwapMap × σ) (Reduction σ N))}
    (h : Run (Reduces step task) (∅, w) ts s) :
    ∀ us t vs, ts = us ++ t :: vs →
      PollsSubmitted (submissions (us ++ [t])) t ∧
        ∀ id, SubmittedAlike (submissions (us ++ [t])) id →
          PollsFirst (submissions (us ++ [t])) id t := by
  have hinit : KeepsSubmitted (N := N) [] ((∅, w) : SwapMap × σ) :=
    ⟨keysAgree_empty _, stores_empty _⟩
  have hkeeps := (h.history (P := KeepsSubmitted) (C := fun _ _ => True)
    (fun hs hstep _ => (reduces_submitted hstep hs).1) hinit (fun _ _ _ _ => trivial)).2
  intro us t vs heq
  have hs : KeepsSubmitted us t.source := hkeeps us t vs heq
  have hstep := h.step_of_mem t (by simp [heq])
  exact ⟨reduces_pollsSubmitted hstep hs, fun id => reduces_pollsFirst hstep hs⟩

/-! ### An ID that is submitted twice -/

def aliceBlob : SwapBlob := waitingBlob.withPassword "alice"

/-- The same ID with half the amount. -/
def halvedBlob : SwapBlob := { aliceBlob with sendAmount := "10000" }

/-- The server has nothing yet for a blob that is submitted. -/
def pollReduction (blob : SwapBlob) : Reduction Unit Unit where
  input := .request blob
  events := [⟨.post (blob.withPassword ""), (), (), noContent, ()⟩]
  output := []

def aliceTransition : Transition (SwapMap × Unit) (Reduction Unit Unit) :=
  ⟨(∅, ()), pollReduction aliceBlob, ((∅ : SwapMap).insert waitingBlob.id aliceBlob, ())⟩

def halvedTransition : Transition (SwapMap × Unit) (Reduction Unit Unit) :=
  ⟨aliceTransition.target, pollReduction halvedBlob,
    (aliceTransition.target.1.insert waitingBlob.id halvedBlob, ())⟩

theorem halved_run : Run (Reduces unconstrained task) (∅, ()) [aliceTransition, halvedTransition]
    halvedTransition.target :=
  .cons ⟨trivial, .call trivial (.pure _ _)⟩
    (.cons ⟨trivial, .call trivial (.pure _ _)⟩ (.nil _))

theorem polls_as_submitted_halved :
    PollsSubmitted (submissions [aliceTransition, halvedTransition]) halvedTransition ∧
      ∀ id, SubmittedAlike (submissions [aliceTransition, halvedTransition]) id →
        PollsFirst (submissions [aliceTransition, halvedTransition]) id halvedTransition :=
  polls_as_submitted halved_run [aliceTransition] halvedTransition [] rfl

/-- The second submission is polled and kept, and not the first one. -/
theorem halved_not_first :
    Run (Reduces unconstrained task) (∅, ()) [aliceTransition, halvedTransition]
        halvedTransition.target ∧
      ¬ PollsFirst (submissions [aliceTransition, halvedTransition]) waitingBlob.id
        halvedTransition := by
  refine ⟨halved_run, ?_⟩
  intro hfirst
  obtain ⟨req, hreq, hop⟩ :=
    hfirst.polls ⟨.post (halvedBlob.withPassword ""), noContent⟩ List.mem_cons_self rfl
  have halice : some aliceBlob = some req := hreq
  cases halice
  revert hop
  decide

end Swapperd.Delayed
