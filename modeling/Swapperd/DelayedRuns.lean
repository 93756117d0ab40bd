/-
  Swapperd/DelayedRuns.lean
  =========================
  **Runs of the delayed swapper.**

  The machine is the task's `swapMap` with a log of the swaps that were requested,
  polled and resolved.  A swap is resolved by the answer that fills or cancels it.

  `resolves_once` — as long as every filled answer carries the ID it was asked for,
  each requested swap is polled until it is resolved, once, and never again, and no
  other swap leaves the map with it.  `verifyDelaySwap` does not check the ID: without
  the condition a swap can leave the map unresolved (`mistaken_answer_drops_swap`).
-/
import Swapperd.DelayedSwapper

namespace Swapperd.Delayed

open CallProgram RetryTask TransitionRuns GoLibrary

variable {σ N : Type} {step : Behaviour Op Reply σ N}

/-! ### The machine -/

inductive Entry where
  | requested (id : SwapID)
  | polled (id : SwapID)
  | resolved (id : SwapID)
deriving DecidableEq

structure Machine (σ : Type) where
  state : SwapMap × σ
  log : List Entry

def Machine.init (w : σ) : Machine σ := ⟨(∅, w), []⟩

def callEntries (c : Call) : List Entry :=
  .polled c.id :: if c.resolves then [.resolved c.id] else []

def requestEntries : Input SwapID SwapBlob → List Entry
  | .request req => [.requested req.id]
  | .tick _ => []

def Machine.Reduces (step : Behaviour Op Reply σ N) (s : Machine σ) (l : Reduction σ N)
    (s' : Machine σ) : Prop :=
  RetryTask.Reduces step task s.state l s'.state ∧
    s'.log = s.log ++ requestEntries l.input ++ l.calls.flatMap callEntries

/-! ### What should hold -/

/-- Every requested swap is in the map until it is resolved, is resolved at most once
    and not polled after that. -/
structure Machine.ResolvesOnce (s : Machine σ) : Prop where
  once : ∀ id, s.log.count (.resolved id) ≤ 1
  held : ∀ id, .requested id ∈ s.log → (id ∈ s.state.1 ↔ .resolved id ∉ s.log)
  quiet : s.log.Pairwise fun e e' => ∀ id, e = .resolved id → e' ≠ .polled id

/-- The message resolves the swap that was polled. -/
def ResolutionFor (c : Call) (m : Message) : Prop :=
  (c.answer = .error .swapCancelled ∧ m = .deleteSwap c.id) ∨
    ∃ filled password, c.answer = .ok filled ∧ m = .swapRequest (filled.withPassword password)

def Message.isResolution : Message → Bool
  | .swapRequest _ => true
  | .deleteSwap _ => true
  | .receiptUpdate _ => false
  | .error _ => false

/-- A tick polls every swap in the map, a swap leaves the map only by its own
    resolution, and the resolutions emitted are those of the polls, one each. -/
structure Orderly (t : Transition (Machine σ) (Reduction σ N)) : Prop where
  polls_all : ∀ order, t.label.input = .tick order → t.label.calls.map Call.id = order
  removes_own : ∀ id ∈ t.source.state.1, id ∉ t.target.state.1 →
    ∃ c ∈ t.label.calls, Call.id c = id ∧ Call.resolves c
  emits : List.Forall₂ ResolutionFor (t.label.calls.filter Call.resolves)
    (t.label.output.filter Message.isResolution)

/-- A new request has an ID that was not requested before. -/
def FreshRequest (s : Machine σ) (l : Reduction σ N) : Prop :=
  ∀ req, l.input = .request req → .requested req.id ∉ s.log

/-- Every filled answer carries the ID it was asked for. -/
def KeepsIDs (l : Reduction σ N) : Prop := ∀ c ∈ l.calls, Call.KeepsID c

/-! ### One pass -/

section PassStep

variable {s s' : SwapMap × σ} {p : Pass σ N}

/-- A poll whose answer keeps the ID resolves its own swap or stores it, and leaves the
    other entries as they are. -/
theorem pass_keepsID (h : PassStep step task s p s') (hkeeps : ∀ c ∈ p.calls, Call.KeepsID c) :
    ∃ c : Call, p.calls = [c] ∧ c.id = p.req.id ∧
      s'.1 = (if c.resolves then s.1.erase p.req.id else s.1.insert p.req.id p.req) := by
  obtain ⟨c, hcalls, hop, hexit⟩ := pass_exits h
  have hid : c.id = p.req.id := by simp [Call.id, hop, Op.partialSwap]
  have hc : c.KeepsID := hkeeps c (by simp [hcalls])
  refine ⟨c, hcalls, hid, ?_⟩
  generalize s'.1 = m, p.batch = batch at hexit ⊢
  cases hexit with
  | filled filled hanswer => simp [Call.resolves, hanswer, hc filled hanswer, hid]
  | cancelled hanswer => simp [Call.resolves, hanswer]
  | unavailable hanswer => simp [Call.resolves, hanswer]
  | failed err hanswer hcancelled => simp [Call.resolves, hanswer, hcancelled]

theorem pass_emits (h : PassStep step task s p s') :
    List.Forall₂ ResolutionFor (p.calls.filter Call.resolves)
      (p.batch.filter Message.isResolution) := by
  obtain ⟨c, hcalls, hop, hexit⟩ := pass_exits h
  have hid : c.id = p.req.id := by simp [Call.id, hop, Op.partialSwap]
  rw [hcalls]
  generalize s'.1 = m, p.batch = batch at hexit ⊢
  cases hexit with
  | filled filled hanswer =>
      have hfor : ResolutionFor c (.swapRequest (filled.withPassword p.req.password)) :=
        .inr ⟨filled, _, hanswer, rfl⟩
      simpa [List.filter_cons, Call.resolves, hanswer, Message.isResolution] using hfor
  | cancelled hanswer =>
      have hfor : ResolutionFor c (.deleteSwap p.req.id) := .inl ⟨hanswer, by rw [hid]⟩
      simpa [List.filter_cons, Call.resolves, hanswer, Message.isResolution] using hfor
  | unavailable hanswer => simp [Call.resolves, hanswer]
  | failed err hanswer hcancelled =>
      simp [Call.resolves, hanswer, hcancelled, Message.isResolution]

/-- The entries of a swap that is neither polled nor requested stay as they are. -/
theorem pass_mem_ne (h : PassStep step task s p s') (hkeeps : ∀ c ∈ p.calls, Call.KeepsID c)
    {id : SwapID} (hid : id ≠ p.req.id) : id ∈ s'.1 ↔ id ∈ s.1 := by
  obtain ⟨c, -, -, hmap⟩ := pass_keepsID h hkeeps
  rw [hmap]
  split
  · simp [Finmap.mem_erase, hid]
  · simp [hid]

end PassStep

/-! ### The invariant -/

/-- `ResolvesOnce`, and that only requested swaps are in the map, polled or resolved. -/
structure Sound (swapMap : SwapMap) (log : List Entry) : Prop where
  once : ∀ id, log.count (.resolved id) ≤ 1
  held : ∀ id, .requested id ∈ log → (id ∈ swapMap ↔ .resolved id ∉ log)
  quiet : log.Pairwise fun e e' => ∀ id, e = .resolved id → e' ≠ .polled id
  known : ∀ id, id ∈ swapMap ∨ .resolved id ∈ log → .requested id ∈ log

theorem sound_empty : Sound ∅ [] := by
  constructor <;> simp [Finmap.notMem_empty]

def passEntries (p : Pass σ N) : List Entry :=
  (if p.retry then [] else [.requested p.req.id]) ++ p.calls.flatMap callEntries

theorem pass_sound {s s' : SwapMap × σ} {p : Pass σ N} {log : List Entry}
    (h : PassStep step task s p s') (hkeeps : ∀ c ∈ p.calls, Call.KeepsID c)
    (hfresh : p.retry = false → .requested p.req.id ∉ log) (hs : Sound s.1 log) :
    Sound s'.1 (log ++ passEntries p) := by
  obtain ⟨c, hcalls, hid, hmap⟩ := pass_keepsID h hkeeps
  have hunresolved : .resolved p.req.id ∉ log := by
    cases hretry : p.retry with
    | true =>
        have hmem : p.req.id ∈ s.1 := h.mem_of_retry hretry
        exact (hs.held _ (hs.known _ (.inl hmem))).mp hmem
    | false =>
        intro hresolved
        exact hfresh hretry (hs.known _ (.inr hresolved))
  have hrequested : .requested p.req.id ∈ log ++ passEntries p := by
    cases hretry : p.retry with
    | true => simpa using .inl (hs.known _ (.inl (h.mem_of_retry hretry)))
    | false => simp [passEntries, hretry]
  have hnew : passEntries p = (if p.retry then [] else [.requested p.req.id]) ++
      (.polled p.req.id :: if c.resolves then [.resolved p.req.id] else []) := by
    simp [passEntries, hcalls, callEntries, hid]
  have hold : ∀ id, .requested id ∈ log ++ passEntries p → id ≠ p.req.id →
      .requested id ∈ log := by
    intro id hmem hne
    rw [hnew] at hmem
    grind
  have hresolved : ∀ id, .resolved id ∈ log ++ passEntries p ↔
      .resolved id ∈ log ∨ c.resolves = true ∧ id = p.req.id := by
    intro id
    rw [hnew]
    grind
  have hmem : ∀ id, id ∈ s'.1 ↔
      (if id = p.req.id then c.resolves = false else id ∈ s.1) := by
    intro id
    by_cases heq : id = p.req.id
    · rw [hmap, if_pos heq, heq]
      cases c.resolves <;> simp
    · rw [if_neg heq]
      exact pass_mem_ne h hkeeps heq
  constructor
  · intro id
    rw [List.count_append, hnew]
    have honce := hs.once id
    have hzero : id = p.req.id → log.count (.resolved id) = 0 := by
      rintro rfl
      exact List.count_eq_zero.mpr hunresolved
    grind
  · intro id hreq
    rw [hmem, hresolved]
    by_cases heq : id = p.req.id
    · subst heq
      simp [hunresolved]
    · simpa [heq] using hs.held id (hold id hreq heq)
  · rw [hnew]
    have hquiet := hs.quiet
    grind
  · intro id hid'
    by_cases heq : id = p.req.id
    · rw [heq]
      exact hrequested
    · have hknown := hs.known id
      rw [hmem, hresolved, if_neg heq] at hid'
      simp only [heq, and_false, or_false] at hid'
      exact List.mem_append_left _ (hknown hid')

/-! ### One message -/

/-- The passes of one message log what the message logs. -/
theorem passes_log {l : Reduction σ N}
    {ts : List (Transition (SwapMap × σ) (Pass σ N))}
    (hevents : l.events = ts.flatMap (·.label.events))
    (hretry : ∀ t ∈ ts, t.label.retry = true) :
    l.calls.flatMap callEntries = ts.flatMap fun t => passEntries t.label := by
  rw [calls_eq_flatMap hevents, List.flatMap_assoc]
  apply List.flatMap_congr
  intro t ht
  simp [passEntries, hretry t ht]

theorem run_sound {s s' : SwapMap × σ} {ts : List (Transition (SwapMap × σ) (Pass σ N))}
    {log : List Entry} (h : Run (PassStep step task) s ts s')
    (hretry : ∀ t ∈ ts, t.label.retry = true)
    (hkeeps : ∀ t ∈ ts, ∀ c ∈ t.label.calls, Call.KeepsID c) (hs : Sound s.1 log) :
    Sound s'.1 (log ++ ts.flatMap fun t => passEntries t.label) := by
  induction h generalizing log with
  | nil => simpa using hs
  | @cons s s₁ _ p ts hpass _ ih =>
      have hp : p.retry = true := hretry _ List.mem_cons_self
      have hnext := pass_sound hpass (hkeeps _ List.mem_cons_self) (by simp [hp]) hs
      have hlast := ih (fun t ht => hretry t (List.mem_cons_of_mem _ ht))
        (fun t ht => hkeeps t (List.mem_cons_of_mem _ ht)) hnext
      simpa [List.append_assoc] using hlast

/-- What the machine keeps: the requests under their own keys, and `Sound`. -/
def Machine.Sound (s : Machine σ) : Prop :=
  KeysAgree SwapBlob.id s.state.1 ∧ Delayed.Sound s.state.1 s.log

section Reduces

variable {s s' : Machine σ} {l : Reduction σ N}

theorem mem_calls {ts : List (Transition (SwapMap × σ) (Pass σ N))}
    (hevents : l.events = ts.flatMap (·.label.events)) {c : Call} :
    c ∈ l.calls ↔ ∃ t ∈ ts, c ∈ t.label.calls := by
  rw [calls_eq_flatMap hevents]
  exact List.mem_flatMap

theorem reduces_sound (h : s.Reduces step l s') (hs : s.Sound) (hfresh : FreshRequest s l)
    (hkeeps : KeepsIDs l) : s'.Sound := by
  obtain ⟨hreduces, hlog⟩ := h
  refine ⟨hreduces.keysAgree keepsKeys hs.1, ?_⟩
  rw [hlog]
  cases hinput : l.input with
  | request req =>
      have hnext := pass_sound (hreduces.pass hinput) hkeeps (fun _ => hfresh req hinput) hs.2
      simpa [passEntries, requestEntries, Pass.calls, Reduction.calls] using hnext
  | tick order =>
      obtain ⟨ts, hts, hevents, -⟩ := hreduces.visits keepsKeys hinput hs.1
      have hlast := run_sound hts.run hts.retry
        (fun t ht c hc => hkeeps c ((mem_calls hevents).mpr ⟨t, ht, hc⟩)) hs.2
      rw [passes_log hevents hts.retry]
      simpa [requestEntries] using hlast

/-- A swap that leaves the map during a run of passes was resolved in it. -/
theorem run_removes_own {s s' : SwapMap × σ} {id : SwapID}
    {ts : List (Transition (SwapMap × σ) (Pass σ N))} (h : Run (PassStep step task) s ts s')
    (hkeeps : ∀ t ∈ ts, ∀ c ∈ t.label.calls, Call.KeepsID c) (hmem : id ∈ s.1)
    (hnot : id ∉ s'.1) : ∃ t ∈ ts, ∃ c ∈ t.label.calls, Call.id c = id ∧ Call.resolves c := by
  induction h with
  | nil => exact absurd hmem hnot
  | @cons s s₁ _ p ts hpass _ ih =>
      by_cases hnext : id ∈ s₁.1
      · obtain ⟨t, ht, hc⟩ := ih (fun t ht => hkeeps t (List.mem_cons_of_mem _ ht)) hnext hnot
        exact ⟨t, List.mem_cons_of_mem _ ht, hc⟩
      · obtain ⟨c, hcalls, hid, hmap⟩ := pass_keepsID hpass (hkeeps _ List.mem_cons_self)
        refine ⟨_, List.mem_cons_self, c, by simp [hcalls], ?_⟩
        have heq : id = p.req.id := by
          by_contra hne
          exact hnext ((pass_mem_ne hpass (hkeeps _ List.mem_cons_self) hne).mpr hmem)
        refine ⟨by rw [hid, heq], ?_⟩
        cases hresolves : c.resolves with
        | true => rfl
        | false => simp [hmap, hresolves, heq] at hnext

theorem run_emits {s s' : SwapMap × σ} {ts : List (Transition (SwapMap × σ) (Pass σ N))}
    (h : Run (PassStep step task) s ts s') :
    List.Forall₂ ResolutionFor ((ts.flatMap (·.label.calls)).filter Call.resolves)
      ((ts.flatMap (·.label.batch)).filter Message.isResolution) := by
  induction h with
  | nil => exact .nil
  | cons hpass _ ih =>
      simp only [List.flatMap_cons, List.filter_append]
      exact List.rel_append (pass_emits hpass) ih

/-- The passes of a tick poll the visited keys. -/
theorem visits_calls {s s' : SwapMap × σ} {order : List SwapID}
    {ts : List (Transition (SwapMap × σ) (Pass σ N))} (h : Visits step task order s ts s') :
    (ts.flatMap (·.label.calls)).map Call.id = ts.map (fun t => task.key t.label.req) := by
  induction h with
  | nil => rfl
  | skip _ _ ih => exact ih
  | visit _ hpass _ ih =>
      obtain ⟨c, hcalls, hop, -⟩ := pass_exits hpass
      simp [hcalls, ih, Call.id, hop, Op.partialSwap, task]

theorem reduces_orderly (h : s.Reduces step l s') (hs : s.Sound) (hkeeps : KeepsIDs l) :
    Orderly ⟨s, l, s'⟩ := by
  obtain ⟨hreduces, -⟩ := h
  obtain ⟨ts, hts, hevents, hout, -⟩ := hreduces.passes keepsKeys hs.1
  have hkeeps' : ∀ t ∈ ts, ∀ c ∈ t.label.calls, Call.KeepsID c :=
    fun t ht c hc => hkeeps c ((mem_calls hevents).mpr ⟨t, ht, hc⟩)
  constructor
  · intro order hinput
    obtain ⟨us, hus, hevents', -⟩ := hreduces.visits keepsKeys hinput hs.1
    have hvalid := hreduces.1
    rw [hinput] at hvalid
    show l.calls.map Call.id = order
    rw [calls_eq_flatMap hevents', visits_calls hus]
    apply hus.keys (C := fun p => ∀ c ∈ p.calls, Call.KeepsID c) _ _ hvalid.1
    · intro k hk
      exact (hvalid.2 k).mp hk
    · intro s p s' hpass hC k hk hmem
      exact (pass_mem_ne hpass hC hk).mpr hmem
    · intro t ht c hc
      exact hkeeps c ((mem_calls hevents').mpr ⟨t, ht, hc⟩)
  · intro id hmem hnot
    obtain ⟨t, ht, c, hc, hid⟩ := run_removes_own hts hkeeps' hmem hnot
    exact ⟨c, (mem_calls hevents).mpr ⟨t, ht, hc⟩, hid⟩
  · show List.Forall₂ ResolutionFor (l.calls.filter Call.resolves)
      (l.output.filter Message.isResolution)
    rw [calls_eq_flatMap hevents, hout]
    exact run_emits hts

end Reduces

/-! ### Runs -/

/-- **Every delayed swap resolves once and affects no other**, in every run in which the
    requests have distinct IDs and every filled answer carries the ID it was asked
    for. -/
theorem resolves_once {w : σ} {s : Machine σ}
    {ts : List (Transition (Machine σ) (Reduction σ N))}
    (h : Run (Machine.Reduces step) (Machine.init w) ts s)
    (hfresh : ∀ t ∈ ts, FreshRequest t.source t.label) (hkeeps : ∀ t ∈ ts, KeepsIDs t.label) :
    ∀ t ∈ ts, t.target.ResolvesOnce ∧ Orderly t := by
  have hinit : (Machine.init w).Sound := ⟨keysAgree_empty _, sound_empty⟩
  have hall := (h.invariant (P := Machine.Sound)
    (C := fun s l => FreshRequest s l ∧ KeepsIDs l)
    (fun hs hstep hC => reduces_sound hstep hs hC.1 hC.2) hinit
    (fun t ht => ⟨hfresh t ht, hkeeps t ht⟩)).2
  intro t ht
  obtain ⟨hsource, -, htarget⟩ := hall t ht
  exact ⟨⟨htarget.once, htarget.held, htarget.quiet⟩,
    reduces_orderly (h.step_of_mem t ht) hsource (hkeeps t ht)⟩

/-! ### A mistaken answer -/

def waitingBlob : SwapBlob where
  id := "c7t5VHbJdx2M0PtRS6G3lN2nrRH1fX0arUoZYkFBlvI="
  sendToken := "BTC"
  receiveToken := "ETH"
  sendAmount := "20000"
  receiveAmount := "5000000000000000"
  delay := true
  delayCallbackURL := "http://localhost:8080/swap"

def secondBlob : SwapBlob :=
  { waitingBlob with id := "7b3kZ0cSkwJqXxN0gH8cJx1c5rZ1aG4k2m3oS3bU9ZM=" }

/-- The server has nothing for a swap yet. -/
def noContent : HttpReply := .answered 204 "" (.error "unexpected end of JSON input")

/-- The server answers with the details of `waitingBlob`. -/
def filledWaiting : HttpReply := .answered 200 "" (.ok waitingBlob)

def waitingReduction : Reduction Unit Unit where
  input := .request waitingBlob
  events := [⟨.post waitingBlob, (), (), noContent, ()⟩]
  output := []

def mistakenReduction : Reduction Unit Unit where
  input := .request secondBlob
  events := [⟨.post secondBlob, (), (), filledWaiting, ()⟩]
  output :=
    [.receiptUpdate ⟨waitingBlob.id, .fill waitingBlob.receiveAmount waitingBlob.sendAmount 0⟩,
      .swapRequest { waitingBlob with delay := false }]

def waitingMachine : Machine Unit where
  state := ((∅ : SwapMap).insert waitingBlob.id waitingBlob, ())
  log := [.requested waitingBlob.id, .polled waitingBlob.id]

def mistakenMachine : Machine Unit where
  state := (((∅ : SwapMap).insert waitingBlob.id waitingBlob).erase waitingBlob.id, ())
  log := waitingMachine.log ++
    [.requested secondBlob.id, .polled secondBlob.id, .resolved secondBlob.id]

theorem waiting_step :
    (Machine.init ()).Reduces unconstrained waitingReduction waitingMachine :=
  ⟨⟨trivial, .call trivial (.pure _ _)⟩, rfl⟩

theorem resolves_once_waiting : waitingMachine.ResolvesOnce := by
  have hrun : Run (Machine.Reduces unconstrained) (Machine.init ())
      [⟨Machine.init (), waitingReduction, waitingMachine⟩] waitingMachine :=
    .cons waiting_step (.nil _)
  refine (resolves_once hrun ?_ ?_ _ List.mem_cons_self).1
  · intro t ht req _
    rw [List.mem_singleton.mp ht]
    simp [Machine.init]
  · intro t ht c hc filled hfilled
    rw [List.mem_singleton.mp ht] at hc
    obtain rfl := List.mem_singleton.mp hc
    cases hfilled

/-- The answer for one swap drops another one, which was requested and is not
    resolved. -/
theorem mistaken_answer_drops_swap :
    Run (Machine.Reduces unconstrained) (Machine.init ())
      [⟨Machine.init (), waitingReduction, waitingMachine⟩,
        ⟨waitingMachine, mistakenReduction, mistakenMachine⟩] mistakenMachine ∧
    FreshRequest (Machine.init ()) waitingReduction ∧
    FreshRequest waitingMachine mistakenReduction ∧ ¬ mistakenMachine.ResolvesOnce := by
  refine ⟨.cons waiting_step (.cons ⟨⟨trivial, ?_⟩, rfl⟩ (.nil _)), ?_, ?_, ?_⟩
  · exact .call trivial (.pure _ _)
  · intro req _
    simp [Machine.init]
  · intro req hreq
    cases hreq
    decide
  · intro hsound
    have hmem := (hsound.held waitingBlob.id (by decide)).mpr (by decide)
    simp [mistakenMachine] at hmem

end Swapperd.Delayed
