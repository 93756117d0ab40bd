/-
  Swapperd/ImmediateRuns.lean
  ===========================
  **Runs of the immediate swapper.**

  A machine is the task's `swapMap` beside an arbitrary outside world, with a log of
  the requests it handled and the swaps it deleted.  The world answers the calls as
  the behaviour `step` allows, so every theorem here is about every outcome of
  `BuildSwapContracts` and of every contract operation.

  * `retained_iff_built` — no handled swap is forgotten exactly as long as the
    contracts of every new request can be built when it is handled;
  * `operations_in_order` — the order of operations within the passes of a run, and
    that a settled swap sees no further operation until it is requested again.
-/
import Swapperd.ImmediatePasses

namespace Swapperd.Immediate

open CallProgram RetryTask TransitionRuns GoLibrary

variable {σ N : Type} {step : Behaviour Op Reply σ N} {H : Hashes}

/-! ### The machine -/

inductive Entry where
  | handled (req : SwapRequest)
  | deleted (id : SwapID)
deriving DecidableEq

structure Machine (σ : Type) where
  state : SwapMap × σ
  log : List Entry

def Machine.init (w : σ) : Machine σ := ⟨(∅, w), []⟩

def handledEntries : Input SwapID SwapRequest → List Entry
  | .request req => [.handled req]
  | .tick _ => []

def deletedEntries (output : List Message) : List Entry :=
  output.filterMap fun
    | .deleteSwap id => some (.deleted id)
    | _ => none

def Machine.Reduces (step : Behaviour Op Reply σ N) (H : Hashes) (s : Machine σ)
    (l : Reduction σ N) (s' : Machine σ) : Prop :=
  RetryTask.Reduces step (task H) s.state l s'.state ∧
    s'.log = s.log ++ handledEntries l.input ++ deletedEntries l.output

/-! ### No accepted swap is forgotten -/

/-- How one log entry changes what is owed for a swap. -/
def owedStep (id : SwapID) (owed : Option SwapRequest) : Entry → Option SwapRequest
  | .handled req => if req.id = id then some req else owed
  | .deleted id' => if id' = id then none else owed

/-- The last request handled for a swap, unless the swap was deleted since. -/
def owed (id : SwapID) (log : List Entry) : Option SwapRequest :=
  log.foldl (owedStep id) none

theorem owed_append (id : SwapID) (log entries : List Entry) :
    owed id (log ++ entries) = entries.foldl (owedStep id) (owed id log) := by
  simp [owed, List.foldl_append]

/-- What is owed is in the map, to be retried on the next tick. -/
def Retains (swapMap : SwapMap) (log : List Entry) : Prop :=
  ∀ id req, owed id log = some req → swapMap.lookup id = some req

def Machine.Retained (s : Machine σ) : Prop := Retains s.state.1 s.log

/-- The contracts of the request could not be built. -/
def BuildFailed (req : SwapRequest) (calls : List Call) : Prop :=
  ∃ err, (⟨.buildSwapContracts req, .error err⟩ : Call) ∈ calls

def passEntries (p : Pass σ N) : List Entry :=
  (if p.retry then [] else [.handled p.req]) ++ deletedEntries p.batch

def PassKept (p : Pass σ N) (swapMap : SwapMap) : Prop :=
  p.retry = true ∨ ¬ BuildFailed p.req p.calls ∨ swapMap.lookup p.req.id = some p.req

theorem pass_retains_iff {s s' : SwapMap × σ} {p : Pass σ N} {log : List Entry}
    (h : PassStep step (task H) s p s') (hs : Retains s.1 log) :
    Retains s'.1 (log ++ passEntries p) ↔ PassKept p s.1 := by
  have hretry := h.2
  rcases pass_exits h with ⟨err, hcalls, hmap, hbatch⟩ | ⟨calls, status, err, remove, hexit,
    hcalls, hmap, hbatch⟩
  · -- the map stays as it was
    have hfailed : BuildFailed p.req p.calls := ⟨err, by simp [hcalls]⟩
    rw [hmap]
    cases hr : p.retry with
    | true => simpa [PassKept, passEntries, hr, hbatch, deletedEntries] using hs
    | false =>
        have hentries : passEntries p = [.handled p.req] := by
          simp [passEntries, hr, hbatch, deletedEntries]
        simp only [PassKept, hr, Bool.false_eq_true, hfailed, not_true_eq_false, false_or]
        rw [hentries]
        constructor
        · intro hkept
          exact hkept _ _ (by simp [owed_append, owedStep])
        · intro hlookup id req howed
          rw [owed_append] at howed
          simp only [List.foldl_cons, List.foldl_nil, owedStep] at howed
          split at howed
          · rename_i hid
            cases howed
            rwa [← hid]
          · exact hs id req howed
  · have hbuilt : ¬ BuildFailed p.req p.calls := by
      rintro ⟨e, he⟩
      rw [hcalls, List.mem_cons] at he
      rcases he with he | he
      · cases he
      · exact hexit.not_build _ he p.req rfl
    have hdeleted : deletedEntries p.batch = if remove then [.deleted p.req.id] else [] := by
      rw [hbatch]
      cases remove <;> cases err <;> rfl
    refine iff_of_true ?_ (.inr (.inl hbuilt))
    intro id req howed
    rw [owed_append, passEntries, hdeleted] at howed
    rw [hmap]
    by_cases hid : p.req.id = id
    · subst hid
      cases remove with
      | true => simp [List.foldl_append, owedStep] at howed
      | false =>
          rw [if_neg Bool.false_ne_true, Finmap.lookup_insert]
          cases hr : p.retry with
          | true =>
              have hold : owed p.req.id log = some req := by simpa [hr] using howed
              rw [← hs _ _ hold]
              exact (hretry hr).symm
          | false => simpa [hr, owedStep] using howed
    · have hold : owed id log = some req := by
        cases hr : p.retry <;> cases remove <;> simpa [hr, owedStep, hid] using howed
      have hne : id ≠ p.req.id := fun heq => hid heq.symm
      rw [← hs id req hold]
      split
      · exact Finmap.lookup_erase_ne hne
      · exact Finmap.lookup_insert_of_ne _ hne

/-- Retries keep what is owed. -/
theorem retains_of_retries {s s' : SwapMap × σ}
    {ts : List (Transition (SwapMap × σ) (Pass σ N))} {log : List Entry}
    (h : Run (PassStep step (task H)) s ts s') (hretry : ∀ t ∈ ts, t.label.retry = true)
    (hs : Retains s.1 log) :
    Retains s'.1 (log ++ deletedEntries (ts.flatMap (·.label.batch))) := by
  induction h generalizing log with
  | nil => simpa [deletedEntries] using hs
  | @cons s s₁ _ p ts hpass _ ih =>
      have hp : p.retry = true := hretry _ List.mem_cons_self
      have hnext := (pass_retains_iff hpass hs).mpr (.inl hp)
      have hlast := ih (fun t ht => hretry t (List.mem_cons_of_mem _ ht)) hnext
      simpa [passEntries, hp, deletedEntries, List.append_assoc] using hlast

/-- The message is no request whose contracts cannot be built and which the map does
    not hold already. -/
def BuiltOrKept (s : Machine σ) (l : Reduction σ N) : Prop :=
  ∀ req, l.input = .request req →
    ¬ BuildFailed req l.calls ∨ s.state.1.lookup req.id = some req

/-- The requests in the map are stored under their own keys, and all that is owed is
    among them. -/
def Machine.Sound (s : Machine σ) : Prop :=
  KeysAgree SwapRequest.id s.state.1 ∧ s.Retained

theorem sound_init (w : σ) : (Machine.init w).Sound :=
  ⟨keysAgree_empty _, by simp [Machine.Retained, Machine.init, Retains, owed]⟩

theorem reduces_retained_iff {s s' : Machine σ} {l : Reduction σ N}
    (h : s.Reduces step H l s') (hs : s.Sound) : s'.Retained ↔ BuiltOrKept s l := by
  obtain ⟨hreduces, hlog⟩ := h
  unfold Machine.Retained
  rw [hlog]
  cases hinput : l.input with
  | tick order =>
      obtain ⟨ts, hts, -, hout, htrigger⟩ := hreduces.passes keepsKeys hs.1
      rw [hinput] at htrigger
      refine iff_of_true ?_ (by simp [BuiltOrKept, hinput])
      have hretry : ∀ t ∈ ts, t.label.retry = true :=
        fun t ht => htrigger _ (List.mem_map_of_mem ht)
      simpa [handledEntries, hout] using retains_of_retries hts hretry hs.2
  | request req =>
      have hiff := pass_retains_iff (hreduces.pass hinput) hs.2
      simpa [passEntries, PassKept, Pass.calls, BuiltOrKept, Reduction.calls, hinput,
        handledEntries] using hiff

theorem reduces_sound_iff {s s' : Machine σ} {l : Reduction σ N}
    (h : s.Reduces step H l s') (hs : s.Sound) : s'.Sound ↔ BuiltOrKept s l := by
  rw [← reduces_retained_iff h hs]
  exact and_iff_right (h.1.keysAgree keepsKeys hs.1)

/-- **No handled swap is forgotten** — every swap whose request was handled is in the
    map with its last request, or was deleted since — in every state of a run exactly
    if in each step that handles a request the contracts could be built, or the map
    held that very request already. -/
theorem retained_iff_built {w : σ} {s : Machine σ}
    {ts : List (Transition (Machine σ) (Reduction σ N))}
    (h : Run (Machine.Reduces step H) (Machine.init w) ts s) :
    (∀ t ∈ ts, t.target.Retained) ↔ ∀ t ∈ ts, BuiltOrKept t.source t.label := by
  have hiff := h.forall_iff (P := Machine.Sound) (C := BuiltOrKept)
    (fun hs hstep => reduces_sound_iff hstep hs) (sound_init w)
  have hagree := (h.invariant (P := fun s => KeysAgree SwapRequest.id s.state.1)
    (C := fun _ _ => True) (fun hs hstep _ => hstep.1.keysAgree keepsKeys hs)
    (keysAgree_empty _) (fun _ _ => trivial)).2
  rw [← hiff]
  constructor
  · intro hall t ht
    exact ⟨(hagree t ht).2, hall t ht⟩
  · intro hall t ht
    exact (hall t ht).2

/-- A request whose contracts cannot be built yet, for instance because the Ethereum
    node does not answer. -/
def unbuiltRequest : SwapRequest where
  blob :=
    { id := "c7t5VHbJdx2M0PtRS6G3lN2nrRH1fX0arUoZYkFBlvI=", sendToken := "ETH",
      receiveToken := "BTC", sendAmount := "20000000000000000", receiveAmount := "20000",
      shouldInitiateFirst := true }

def unbuiltReduction : Reduction Unit Unit where
  input := .request unbuiltRequest
  events := [⟨.buildSwapContracts unbuiltRequest, (), (), .error (.errorf "no node"), ()⟩]
  output := [.error (.errorf "no node")]

/-- The request was handled, its swap neither stored nor deleted. -/
def forgetful : Machine Unit := ⟨(∅, ()), [.handled unbuiltRequest]⟩

theorem unbuilt_run :
    Run (Machine.Reduces unconstrained zeroHashes) (Machine.init ())
      [⟨Machine.init (), unbuiltReduction, forgetful⟩] forgetful :=
  .cons ⟨⟨trivial, .call trivial (.pure _ _)⟩, rfl⟩ (.nil _)

theorem forgetful_not_retained : ¬ forgetful.Retained := by
  intro hretained
  have hlookup := hretained unbuiltRequest.id unbuiltRequest rfl
  simp [forgetful] at hlookup

theorem retained_iff_built_unbuilt :
    (∀ t ∈ [(⟨Machine.init (), unbuiltReduction, forgetful⟩ :
      Transition (Machine Unit) (Reduction Unit Unit))], t.target.Retained) ↔
    ∀ t ∈ [(⟨Machine.init (), unbuiltReduction, forgetful⟩ :
      Transition (Machine Unit) (Reduction Unit Unit))], BuiltOrKept t.source t.label :=
  retained_iff_built unbuilt_run

/-- The daemon forgets an accepted swap: its contracts cannot be built when its request
    is handled. -/
theorem unbuilt_swap_forgotten :
    Run (Machine.Reduces unconstrained zeroHashes) (Machine.init ())
      [⟨Machine.init (), unbuiltReduction, forgetful⟩] forgetful ∧ ¬ forgetful.Retained :=
  ⟨unbuilt_run, forgetful_not_retained⟩

/-! ### The order of operations -/

def IsInitiate (c : Call) : Prop := ∃ k, c.1 = .initiate k
def IsRedeem (c : Call) : Prop := ∃ k secret, c.1 = .redeem k secret
def IsRefund (c : Call) : Prop := ∃ k, c.1 = .refund k

/-- The call reported `ErrSwapExpired`. -/
def ReportsExpired (req : SwapRequest) (c : Call) : Prop :=
  c = ⟨.audit req.foreign, .error .swapExpired⟩ ∨
    c = ⟨.auditSecret req.native, .error .swapExpired⟩

/-- The order of the calls of a pass for `req`. -/
structure InOrder (H : Hashes) (req : SwapRequest) (calls : List Call) : Prop where
  redeems_foreign : ∀ c ∈ calls, ∀ k secret, c.1 = .redeem k secret → k = req.foreign
  refunds_native : ∀ c ∈ calls, ∀ k, c.1 = .refund k → k = req.native
  initiates_native : ∀ c ∈ calls, ∀ k, c.1 = .initiate k → k = req.native
  initiator_redeem : req.blob.shouldInitiateFirst = true →
    OnlyAfter (· = ⟨.initiate req.native, .ok ()⟩) IsRedeem calls ∧
    OnlyAfter (· = ⟨.audit req.foreign, .ok ()⟩) IsRedeem calls ∧
    ∀ c ∈ calls, ∀ k secret, c.1 = .redeem k secret →
      secret = H.sha3Sum256 (stringBytes req.blob.password ++ stringBytes req.blob.id)
  responder_initiate : req.blob.shouldInitiateFirst = false →
    OnlyAfter (· = ⟨.audit req.foreign, .ok ()⟩) IsInitiate calls
  responder_redeem : req.blob.shouldInitiateFirst = false → ∀ secret,
    OnlyAfter (· = ⟨.auditSecret req.native, .ok secret⟩)
      (fun c => ∃ k, c.1 = .redeem k secret) calls
  refund_expired : OnlyAfter (ReportsExpired req) IsRefund calls
  redeem_or_refund : ¬ ((∃ c ∈ calls, IsRedeem c) ∧ ∃ c ∈ calls, IsRefund c)

theorem onlyAfter_of_none {Q P : Call → Prop} {calls : List Call} (h : ∀ c ∈ calls, ¬ P c) :
    OnlyAfter Q P calls := by
  rintro pre c post rfl hc
  exact absurd hc (h c (by simp))

/-- Where nothing is redeemed or refunded, only the initiates have an order. -/
theorem inOrder_of_quiet {req : SwapRequest} {calls : List Call}
    (hquiet : ∀ c ∈ calls, ¬ IsRedeem c ∧ ¬ IsRefund c)
    (hnative : ∀ c ∈ calls, ∀ k, c.1 = .initiate k → k = req.native)
    (hresponder : req.blob.shouldInitiateFirst = false →
      OnlyAfter (· = ⟨.audit req.foreign, .ok ()⟩) IsInitiate calls) :
    InOrder H req calls := by
  have hredeem : ∀ c ∈ calls, ∀ k secret, c.1 ≠ .redeem k secret :=
    fun c hc k secret heq => (hquiet c hc).1 ⟨k, secret, heq⟩
  have hrefund : ∀ c ∈ calls, ¬ IsRefund c := fun c hc => (hquiet c hc).2
  have hnone : ∀ c ∈ calls, ¬ IsRedeem c := fun c hc => (hquiet c hc).1
  constructor
  · exact fun c hc k secret heq => absurd heq (hredeem c hc k secret)
  · exact fun c hc k heq => absurd ⟨k, heq⟩ (hrefund c hc)
  · exact hnative
  · intro _
    exact ⟨onlyAfter_of_none hnone, onlyAfter_of_none hnone,
      fun c hc k secret heq => absurd heq (hredeem c hc k secret)⟩
  · exact hresponder
  · intro _ secret
    refine onlyAfter_of_none fun c hc => ?_
    rintro ⟨k, heq⟩
    exact hredeem c hc k secret heq
  · exact onlyAfter_of_none hrefund
  · rintro ⟨⟨c, hc, hloud⟩, -⟩
    exact hnone c hc hloud

section Exits

variable {req : SwapRequest} {calls : List Call} {status : Status} {err : Option GoError}
  {remove : Bool}

theorem inOrder_of_unbuilt (req : SwapRequest) (err : GoError) :
    InOrder H req [⟨.buildSwapContracts req, .error err⟩] := by
  refine inOrder_of_quiet ?_ ?_ fun _ => onlyAfter_of_none ?_ <;>
    simp [IsInitiate, IsRedeem, IsRefund]

theorem inOrder_of_initiate (hrole : req.blob.shouldInitiateFirst = true)
    (h : InitiateExit H req calls status err remove) :
    InOrder H req (⟨.buildSwapContracts req, .ok ()⟩ :: calls) := by
  have hresponder {P : Prop} (hfalse : req.blob.shouldInitiateFirst = false) : P := by
    rw [hrole] at hfalse
    cases hfalse
  cases h with
  | initiateFailed | auditPending | auditFailed =>
      refine inOrder_of_quiet ?_ ?_ hresponder <;> simp [IsRedeem, IsRefund, eq_comm]
  | refundFailed | refunded =>
      refine ⟨?_, ?_, ?_, fun _ => ?_, hresponder, hresponder, ?_, ?_⟩ <;>
        simp [onlyAfter_cons, onlyAfter_nil, IsRedeem, IsRefund, ReportsExpired, eq_comm]
  | redeemFailed | redeemed =>
      refine ⟨?_, ?_, ?_, fun _ => ?_, hresponder, hresponder, ?_, ?_⟩ <;>
        simp [onlyAfter_cons, onlyAfter_nil, IsRedeem, IsRefund, -Subtype.forall, eq_comm]

theorem inOrder_of_respond (hrole : req.blob.shouldInitiateFirst = false)
    (h : RespondExit req calls status err remove) :
    InOrder H req (⟨.buildSwapContracts req, .ok ()⟩ :: calls) := by
  have hinitiator {P : Prop} (htrue : req.blob.shouldInitiateFirst = true) : P := by
    rw [hrole] at htrue
    cases htrue
  cases h with
  | auditPending | expired | auditFailed =>
      refine inOrder_of_quiet ?_ ?_ fun _ => onlyAfter_of_none ?_ <;>
        simp [IsInitiate, IsRedeem, IsRefund]
  | initiateFailed | secretPending | secretFailed =>
      refine inOrder_of_quiet ?_ ?_ fun _ => ?_ <;>
        simp [onlyAfter_cons, IsInitiate, IsRedeem, IsRefund, eq_comm]
  | refundFailed | refunded =>
      refine ⟨?_, ?_, ?_, hinitiator, fun _ => ?_, fun _ _ => ?_, ?_, ?_⟩ <;>
        simp [onlyAfter_cons, onlyAfter_nil, IsInitiate, IsRedeem, IsRefund, ReportsExpired,
          eq_comm]
  | redeemFailed | redeemed =>
      refine ⟨?_, ?_, ?_, hinitiator, fun _ => ?_, fun _ _ => ?_, ?_, ?_⟩ <;>
        simp [onlyAfter_cons, onlyAfter_nil, IsInitiate, IsRedeem, IsRefund, -Subtype.forall,
          eq_comm, Classical.em]

end Exits

theorem pass_inOrder {s s' : SwapMap × σ} {p : Pass σ N} (h : PassStep step (task H) s p s') :
    InOrder H p.req p.calls := by
  rcases pass_exits h with ⟨err, hcalls, -⟩ | ⟨calls, _, _, _, hexit, hcalls, -⟩
  · rw [hcalls]
    exact inOrder_of_unbuilt p.req err
  · rw [hcalls]
    cases hrole : p.req.blob.shouldInitiateFirst with
    | true => exact inOrder_of_initiate hrole (by simpa [PassExit, hrole] using hexit)
    | false => exact inOrder_of_respond hrole (by simpa [PassExit, hrole] using hexit)

/-- A pass of `initiate` or `respond` emits `DeleteSwap` exactly if its receipt update
    sets a final status, and exactly if the swap is not in the map afterwards. -/
def DeletesWhenFinal (p : Pass σ N) (after : SwapMap) : Prop :=
  (⟨.buildSwapContracts p.req, .ok ()⟩ : Call) ∈ p.calls →
    (.deleteSwap p.req.id ∈ p.batch ↔
      ∃ status, Status.Final status ∧
        .receiptUpdate ⟨p.req.id, .setStatus status⟩ ∈ p.batch) ∧
    (.deleteSwap p.req.id ∈ p.batch ↔ p.req.id ∉ after)

theorem pass_deletesWhenFinal {s s' : SwapMap × σ} {p : Pass σ N}
    (h : PassStep step (task H) s p s') : DeletesWhenFinal p s'.1 := by
  intro hbuilt
  rcases pass_exits h with ⟨err, hcalls, -⟩ | ⟨_, status, err, remove, hexit, -, hmap, hbatch⟩
  · rw [hcalls] at hbuilt
    simp at hbuilt
  · have hfinal := hexit.remove_iff
    rw [hmap, hbatch]
    cases remove with
    | true => simp [newReceiptUpdate, ← hfinal]
    | false => simp [newReceiptUpdate, ← hfinal]

/-- Operations for `id` after the point where a call settled it. -/
def QuietAfterSettling (id : SwapID) (calls : List Call) : Prop :=
  calls.Pairwise fun c c' => Settles c → c.1.id = id → c'.1.id ≠ id

/-- As long as no new request for `id` comes, a run of passes performs nothing for
    `id` after it settled, and nothing at all when `id` is not in the map. -/
theorem run_quiet {id : SwapID} {s s' : SwapMap × σ}
    {ts : List (Transition (SwapMap × σ) (Pass σ N))} (h : Run (PassStep step (task H)) s ts s')
    (hretry : ∀ t ∈ ts, t.label.req.id = id → t.label.retry = true) :
    QuietAfterSettling id (ts.flatMap (·.label.calls)) ∧
      ∀ c ∈ ts.flatMap (·.label.calls), c.1.id = id → id ∈ s.1 := by
  refine h.pairwise (O := Call) (f := Pass.calls) (P := fun _ => True)
    (C := fun _ p => p.req.id = id → p.retry = true)
    (M := fun s c => c.1.id = id → id ∈ s.1) ?_ ?_ ?_ ?_ trivial hretry
  · intro _ _ _ _ _ _
    trivial
  · intro s p _ _ hstep hC c hc hid
    have hreq : p.req.id = id := (pass_call_id hstep c hc).symm.trans hid
    rw [← hreq]
    exact hstep.mem_of_retry (hC hreq)
  · intro s p s' c _ hstep hC hok
    constructor
    · intro hid
      by_cases hreq : p.req.id = id
      · rw [← hreq]
        exact hstep.mem_of_retry (hC hreq)
      · have hmem := hok hid
        rw [← Finmap.lookup_isSome] at hmem ⊢
        rwa [pass_lookup_ne hstep (fun heq => hreq heq.symm)] at hmem
    · intro c' hc' hsettles hid' hid
      have hreq : p.req.id = id := (pass_call_id hstep c' hc').symm.trans hid'
      exact pass_not_mem_of_settles hstep hc' hsettles (hreq ▸ hok hid)
  · intro s p s' _ hstep _
    exact (pass_settles_last hstep).imp fun hnot hsettles => absurd hsettles hnot

/-- From the handling of a request for `id` (or from anywhere) until the next one, no
    operation for `id` follows one that settled it. -/
theorem stretch_quiet {id : SwapID} {s s' : SwapMap × σ}
    {ts : List (Transition (SwapMap × σ) (Reduction σ N))}
    (h : Run (Reduces step (task H)) s ts s') (hs : KeysAgree SwapRequest.id s.1)
    (hid : ∀ t ∈ ts.tail, ¬ t.label.Requests (task H) id) :
    QuietAfterSettling id (ts.flatMap (·.label.calls)) := by
  cases h with
  | nil => exact .nil
  | @cons _ s₁ _ l ts hfirst hrest =>
      obtain ⟨ps, hps, hevents, -, htrigger⟩ := hfirst.passes keepsKeys hs
      obtain ⟨qs, hqs, hcalls, -, hretry⟩ :=
        run_passes keepsKeys hrest (hfirst.keysAgree keepsKeys hs) hid
      obtain ⟨hquiet, hmem⟩ := run_quiet hqs hretry
      simp only [List.flatMap_cons, calls_eq_flatMap hevents, hcalls]
      cases hinput : l.input with
      | tick order =>
          rw [hinput] at htrigger
          have hall : ∀ t ∈ ps ++ qs, t.label.req.id = id → t.label.retry = true := by
            intro t ht htid
            rcases List.mem_append.mp ht with ht | ht
            · exact htrigger _ (List.mem_map_of_mem ht)
            · exact hretry t ht htid
          have := (run_quiet (hps.append hqs) hall).1
          simpa using this
      | request req =>
          rw [hinput] at htrigger
          obtain ⟨p, hp, -, -⟩ := htrigger
          obtain ⟨t, rfl, rfl⟩ := List.map_eq_singleton_iff.mp hp
          have hstep := hps.step_of_mem t List.mem_cons_self
          have htarget : t.target = s₁ := by
            cases hps with
            | cons _ hnil => cases hnil; rfl
          simp only [List.flatMap_cons, List.flatMap_nil, List.append_nil]
          refine List.pairwise_append.mpr ⟨?_, hquiet, ?_⟩
          · exact (pass_settles_last hstep).imp fun hnot hsettles => absurd hsettles hnot
          · intro c hc c' hc' hsettles hcid hcid'
            have hreq := (pass_call_id hstep c hc).symm.trans hcid
            have hnot := pass_not_mem_of_settles hstep hc hsettles
            rw [htarget, hreq] at hnot
            exact hnot (hmem c' hc' hcid')

/-- **The order of operations.**  Every step of a run is a sequence of passes, each of
    which keeps the order of operations and deletes its swap exactly with a final
    status; and between two requests for a swap, no operation for it follows a redeem
    or a refund that returned nil. -/
theorem operations_in_order {w : σ} {s : SwapMap × σ}
    {ts : List (Transition (SwapMap × σ) (Reduction σ N))}
    (h : Run (Reduces step (task H)) (∅, w) ts s) :
    (∀ t ∈ ts, ∃ ps,
      Run (PassStep step (task H)) t.source ps t.target ∧
      t.label.events = ps.flatMap (·.label.events) ∧
      t.label.output = ps.flatMap (·.label.batch) ∧
      ∀ p ∈ ps, InOrder H p.label.req p.label.calls ∧
        DeletesWhenFinal p.label p.target.1) ∧
    ∀ id before stretch after, ts = before ++ stretch ++ after →
      (∀ t ∈ stretch.tail, ¬ t.label.Requests (task H) id) →
      QuietAfterSettling id (stretch.flatMap (·.label.calls)) := by
  have hinit : KeysAgree SwapRequest.id (∅ : SwapMap) := keysAgree_empty _
  constructor
  · intro t ht
    have hagree := ((run_keysAgree keepsKeys h hinit).2 t ht).1
    obtain ⟨ps, hps, hevents, hout, -⟩ := (h.step_of_mem t ht).passes keepsKeys hagree
    refine ⟨ps, hps, hevents, hout, fun p hp => ?_⟩
    have hstep := hps.step_of_mem p hp
    exact ⟨pass_inOrder hstep, pass_deletesWhenFinal hstep⟩
  · intro id before stretch after heq hid
    subst heq
    obtain ⟨m, hfirst, -⟩ := h.split
    obtain ⟨m', hbefore, hstretch⟩ := hfirst.split
    exact stretch_quiet hstretch (run_keysAgree keepsKeys hbefore hinit).1 hid

/-- A responder's request that is redeemed in its first pass. -/
def promptRequest : SwapRequest where
  blob :=
    { id := "7b3kZ0cSkwJqXxN0gH8cJx1c5rZ1aG4k2m3oS3bU9ZM=", sendToken := "BTC",
      receiveToken := "ETH", sendAmount := "20000", receiveAmount := "20000000000000000" }

def promptSecret : Bytes32 := zeroHashes.sha256 []

def promptReduction : Reduction Unit Unit where
  input := .request promptRequest
  events :=
    [⟨.buildSwapContracts promptRequest, (), (), .ok (), ()⟩,
      ⟨.audit promptRequest.foreign, (), (), .ok (), ()⟩,
      ⟨.initiate promptRequest.native, (), (), .ok (), ()⟩,
      ⟨.auditSecret promptRequest.native, (), (), .ok promptSecret, ()⟩,
      ⟨.redeem promptRequest.foreign promptSecret, (), (), .ok (), ()⟩]
  output :=
    [.receiptUpdate ⟨promptRequest.id, .setStatus .redeemed⟩, .deleteSwap promptRequest.id]

theorem prompt_run :
    Run (Reduces unconstrained (task zeroHashes)) (∅, ())
      [⟨(∅, ()), promptReduction, ((∅ : SwapMap).erase promptRequest.id, ())⟩]
      ((∅ : SwapMap).erase promptRequest.id, ()) := by
  refine .cons ⟨trivial, ?_⟩ (.nil _)
  exact .call trivial (.call trivial (.call trivial (.call trivial (.call trivial (.pure _ _)))))

theorem operations_in_order_prompt :
    QuietAfterSettling promptRequest.id promptReduction.calls := by
  have hquiet := (operations_in_order prompt_run).2 promptRequest.id []
    [⟨(∅, ()), promptReduction, ((∅ : SwapMap).erase promptRequest.id, ())⟩] [] rfl (by simp)
  exact hquiet

end Swapperd.Immediate
