/-
  Swapperd/ContractRuns.lean
  ==========================
  **The immediate swapper over the real binders.**

  Each contract operation of a pass is now a run of its binder against the chain, and a
  life of the daemon is a run of the task with restarts, after which `swapMap` is empty.

  `statuses_truthful_iff` — every nil of `Redeem` and `Refund` and every expiry that an
  audit reports, and with them every final status and every deletion, tell the truth
  exactly as long as the answers of the chain are the ones the binders rely on.
-/
import Swapperd.ContractWorld
import Swapperd.ImmediateRuns

namespace Swapperd.Chain

open CallProgram RetryTask TransitionRuns GoLibrary Immediate

/-! ### Lives -/

abbrev OpEvent := Event Immediate.Op Immediate.Reply World (List ClientEvent)
abbrev OpPass := Immediate.Pass World (List ClientEvent)
abbrev OpReduction := Immediate.Reduction World (List ClientEvent)

variable {H : Hashes} {B : Contract → Binder}

/-- An operation of a contract is a run of the binder that `BuildSwapContracts` made. -/
def contractStep (H : Hashes) (B : Contract → Binder) :
    Behaviour Immediate.Op Immediate.Reply World (List ClientEvent) := fun op w note reply w' =>
  match op, reply with
  | .buildSwapContracts _, _ => note = [] ∧ w.Evolves w'
  | .initiate c, reply => Exec clientStep (B c).initiate w note reply w'
  | .audit c, reply => Exec clientStep (B c).audit w note reply w'
  | .redeem c secret, reply => Exec clientStep ((B c).redeem secret) w note reply w'
  | .auditSecret c, reply => Exec clientStep ((B c).auditSecret H) w note reply w'
  | .refund c, reply => Exec clientStep (B c).refund w note reply w'

theorem contractStep_evolves {op : Immediate.Op} {w w' : World} {note : List ClientEvent}
    {reply : Immediate.Reply op} (h : contractStep H B op w note reply w') : w.Evolves w' := by
  cases op with
  | buildSwapContracts req => exact h.2
  | initiate c => exact exec_evolves h
  | audit c => exact exec_evolves h
  | redeem c secret => exact exec_evolves h
  | auditSecret c => exact exec_evolves h
  | refund c => exact exec_evolves h

inductive Life where
  | reduce (l : OpReduction)
  | restart

def Life.events : Life → List OpEvent
  | .reduce l => l.events
  | .restart => []

def Lives (H : Hashes) (B : Contract → Binder) (s : SwapMap × World) (l : Life)
    (s' : SwapMap × World) : Prop :=
  match l with
  | .reduce l => Reduces (contractStep H B) (task H) s l s'
  | .restart => s'.1 = ∅ ∧ s.2.Evolves s'.2

theorem lives_keysAgree {s s' : SwapMap × World} {l : Life} (h : Lives H B s l s')
    (hs : KeysAgree SwapRequest.id s.1) : KeysAgree SwapRequest.id s'.1 := by
  cases l with
  | reduce l => exact Reduces.keysAgree keepsKeys h hs
  | restart =>
      rw [h.1]
      exact keysAgree_empty _

/-- The passes that handled a message of a life. -/
structure PassesOf (H : Hashes) (B : Contract → Binder) (t : Transition (SwapMap × World) Life)
    (l : OpReduction) (ps : List (Transition (SwapMap × World) OpPass)) : Prop where
  run : Run (PassStep (contractStep H B) (task H)) t.source ps t.target
  events : l.events = ps.flatMap (·.label.events)
  output : l.output = ps.flatMap (·.label.batch)

/-- A message handled in a life is a run of passes. -/
theorem run_reduces_passes {w : World} {s : SwapMap × World}
    {ts : List (Transition (SwapMap × World) Life)} (h : Run (Lives H B) (∅, w) ts s)
    {t : Transition (SwapMap × World) Life} (ht : t ∈ ts) {l : OpReduction}
    (hl : t.label = .reduce l) : ∃ ps, PassesOf H B t l ps := by
  have hagree := (h.invariant (P := fun s => KeysAgree SwapRequest.id s.1)
    (C := fun _ _ => True) (fun hs hstep _ => lives_keysAgree hstep hs) (keysAgree_empty _)
    (fun _ _ => trivial)).2 t ht
  have hstep := h.step_of_mem t ht
  rw [hl] at hstep
  obtain ⟨ps, hps, hevents, hout, -⟩ := Reduces.passes keepsKeys hstep hagree.1
  exact ⟨ps, hps, hevents, hout⟩

theorem PassesOf.mem_events {t : Transition (SwapMap × World) Life} {l : OpReduction}
    {ps : List (Transition (SwapMap × World) OpPass)} (hps : PassesOf H B t l ps)
    (hl : t.label = .reduce l) {p : Transition (SwapMap × World) OpPass} (hp : p ∈ ps)
    {e : OpEvent} (he : e ∈ p.label.events) : e ∈ t.label.events := by
  rw [hl]
  show e ∈ l.events
  rw [hps.events]
  exact List.mem_flatMap.mpr ⟨p, hp, he⟩

/-- Every operation of a life is one that its binder may have run. -/
theorem run_allowed {w : World} {s : SwapMap × World}
    {ts : List (Transition (SwapMap × World) Life)} (h : Run (Lives H B) (∅, w) ts s)
    {t : Transition (SwapMap × World) Life} (ht : t ∈ ts) {e : OpEvent}
    (he : e ∈ t.label.events) : contractStep H B e.op e.before e.note e.reply e.after := by
  have hstep := h.step_of_mem t ht
  cases hl : t.label with
  | reduce l =>
      rw [hl] at hstep he
      exact hstep.2.allowed e he
  | restart =>
      rw [hl] at he
      simp [Life.events] at he

/-! ### Truthful operations -/

/-- The foreign contract of a responder. -/
def ForResponder (c : Contract) : Prop :=
  c.leg = .foreign ∧ c.req.blob.shouldInitiateFirst = false

/-- What the operation reports is so. A nil means that the HTLC was spent in this way; the
    expiry that ends a responder's swap means that its own HTLC holds nothing; and expiry
    is not reported on a query that failed. -/
structure OutcomeTruthful (B : Contract → Binder) (e : OpEvent) : Prop where
  redeem : ∀ c secret, e.call = (⟨.redeem c secret, .ok ()⟩ : Call) →
    e.after.phase (B c).htlc.addr = .redeemed
  refund : ∀ c, e.call = (⟨.refund c, .ok ()⟩ : Call) → (e.after.phase (B c).htlc.addr).Unheld
  expired : ∀ c, e.call = (⟨.audit c, .error .swapExpired⟩ : Call) → ForResponder c →
    (e.after.phase (B c.req.native).htlc.addr).Unheld
  conclusive : ∀ c, e.call = (⟨.audit c, .error .swapExpired⟩ : Call) ∨
    e.call = (⟨.auditSecret c, .error .swapExpired⟩ : Call) → ¬ Inconclusive e.note

/-- The chain's answers during the operation are the ones its binder relies on. -/
structure Informed (B : Contract → Binder) (e : OpEvent) : Prop where
  redeem : ∀ c secret, e.op = .redeem c secret → (B c).RedeemInformed e.note
  refund : ∀ c, e.op = .refund c → (B c).RefundInformed e.note
  expired : ∀ c, e.op = .audit c → ForResponder c → (B c).Expires e.note →
    (e.after.phase (B c.req.native).htlc.addr).Unheld
  conclusive : ∀ c, e.op = .audit c ∨ e.op = .auditSecret c → Inconclusive e.note →
    ¬ (B c).Expires e.note

section Outcomes

variable {e : OpEvent} (he : contractStep H B e.op e.before e.note e.reply e.after)
include he

theorem outcome_redeem_iff (c : Contract) (secret : Bytes32) :
    (e.call = (⟨.redeem c secret, .ok ()⟩ : Call) →
      e.after.phase (B c).htlc.addr = .redeemed) ↔
    (e.op = .redeem c secret → (B c).RedeemInformed e.note) := by
  by_cases hop : e.op = .redeem c secret
  · obtain ⟨op, before, note, reply, after⟩ := e
    cases hop
    have hiff := Binder.redeem_truthful_iff he
    constructor
    · exact fun htruth _ => hiff.mp fun hok => htruth (by rw [← hok]; rfl)
    · intro hinformed hcall
      cases hcall
      exact hiff.mpr (hinformed rfl) rfl
  · exact iff_of_true (fun hcall => absurd (congrArg Sigma.fst hcall) hop) fun h => absurd h hop

theorem outcome_refund_iff (c : Contract) :
    (e.call = (⟨.refund c, .ok ()⟩ : Call) → (e.after.phase (B c).htlc.addr).Unheld) ↔
    (e.op = .refund c → (B c).RefundInformed e.note) := by
  by_cases hop : e.op = .refund c
  · obtain ⟨op, before, note, reply, after⟩ := e
    cases hop
    have hiff := Binder.refund_truthful_iff he
    constructor
    · exact fun htruth _ => hiff.mp fun hok => htruth (by rw [← hok]; rfl)
    · intro hinformed hcall
      cases hcall
      exact hiff.mpr (hinformed rfl) rfl
  · exact iff_of_true (fun hcall => absurd (congrArg Sigma.fst hcall) hop) fun h => absurd h hop

theorem outcome_audit_iff (c : Contract) :
    e.call = (⟨.audit c, .error .swapExpired⟩ : Call) ↔
      e.op = .audit c ∧ (B c).Expires e.note := by
  by_cases hop : e.op = .audit c
  · obtain ⟨op, before, note, reply, after⟩ := e
    cases hop
    rw [← Binder.audit_expired_iff he]
    constructor
    · intro hcall
      cases hcall
      exact ⟨rfl, rfl⟩
    · rintro ⟨-, hexpired⟩
      rw [← hexpired]
      rfl
  · exact iff_of_false (fun hcall => hop (congrArg Sigma.fst hcall)) fun h => hop h.1

theorem outcome_auditSecret_iff (c : Contract) :
    e.call = (⟨.auditSecret c, .error .swapExpired⟩ : Call) ↔
      e.op = .auditSecret c ∧ (B c).Expires e.note := by
  by_cases hop : e.op = .auditSecret c
  · obtain ⟨op, before, note, reply, after⟩ := e
    cases hop
    rw [← Binder.auditSecret_expired_iff he]
    constructor
    · intro hcall
      cases hcall
      exact ⟨rfl, rfl⟩
    · rintro ⟨-, hexpired⟩
      rw [← hexpired]
      rfl
  · exact iff_of_false (fun hcall => hop (congrArg Sigma.fst hcall)) fun h => hop h.1

theorem outcomeTruthful_iff : OutcomeTruthful B e ↔ Informed B e := by
  constructor
  · intro htruth
    constructor
    · exact fun c secret => (outcome_redeem_iff he c secret).mp (htruth.redeem c secret)
    · exact fun c => (outcome_refund_iff he c).mp (htruth.refund c)
    · intro c hop hresponds hexpires
      exact htruth.expired c ((outcome_audit_iff he c).mpr ⟨hop, hexpires⟩) hresponds
    · rintro c (hop | hop) hfailed hexpires
      · exact htruth.conclusive c (.inl ((outcome_audit_iff he c).mpr ⟨hop, hexpires⟩)) hfailed
      · exact htruth.conclusive c (.inr ((outcome_auditSecret_iff he c).mpr ⟨hop, hexpires⟩))
          hfailed
  · intro hinformed
    constructor
    · exact fun c secret => (outcome_redeem_iff he c secret).mpr (hinformed.redeem c secret)
    · exact fun c => (outcome_refund_iff he c).mpr (hinformed.refund c)
    · intro c hcall hresponds
      obtain ⟨hop, hexpires⟩ := (outcome_audit_iff he c).mp hcall
      exact hinformed.expired c hop hresponds hexpires
    · rintro c (hcall | hcall) hfailed
      · obtain ⟨hop, hexpires⟩ := (outcome_audit_iff he c).mp hcall
        exact hinformed.conclusive c (.inl hop) hfailed hexpires
      · obtain ⟨hop, hexpires⟩ := (outcome_auditSecret_iff he c).mp hcall
        exact hinformed.conclusive c (.inr hop) hfailed hexpires

end Outcomes

/-! ### Truthful statuses -/

/-- The chain bears out how the pass settles its swap: each final status, and the deletion
    with which the swap leaves the retry map and the pending table. -/
structure StatusTruthful (B : Contract → Binder) (p : Transition (SwapMap × World) OpPass) :
    Prop where
  redeemed : .receiptUpdate ⟨p.label.req.id, .setStatus .redeemed⟩ ∈ p.label.batch →
    p.target.2.phase (B p.label.req.foreign).htlc.addr = .redeemed
  refunded : .receiptUpdate ⟨p.label.req.id, .setStatus .refunded⟩ ∈ p.label.batch →
    (p.target.2.phase (B p.label.req.native).htlc.addr).Unheld
  expired : .receiptUpdate ⟨p.label.req.id, .setStatus .expired⟩ ∈ p.label.batch →
    (p.target.2.phase (B p.label.req.native).htlc.addr).Unheld
  deleted : .deleteSwap p.label.req.id ∈ p.label.batch ∨
      p.label.req.id ∈ p.source.1 ∧ p.label.req.id ∉ p.target.1 →
    p.target.2.phase (B p.label.req.foreign).htlc.addr = .redeemed ∨
      (p.target.2.phase (B p.label.req.native).htlc.addr).Unheld

theorem redeemed_last {req : SwapRequest} {calls : List Call} {err : Option GoError}
    {remove : Bool} (h : PassExit H req calls .redeemed err remove) :
    ∃ pre secret, calls = pre ++ [⟨.redeem req.foreign secret, .ok ()⟩] := by
  unfold PassExit at h
  split at h
  · cases h
    exact ⟨[_, _], _, rfl⟩
  · cases h
    exact ⟨[_, _, _], _, rfl⟩

theorem refunded_last {req : SwapRequest} {calls : List Call} {err : Option GoError}
    {remove : Bool} (h : PassExit H req calls .refunded err remove) :
    ∃ pre, calls = pre ++ [⟨.refund req.native, .ok ()⟩] := by
  unfold PassExit at h
  split at h
  · cases h
    exact ⟨[_, _], rfl⟩
  · cases h
    exact ⟨[_, _, _], rfl⟩

section PassStep

variable {s s' : SwapMap × World} {p : OpPass}

/-- The last call of a pass and its event, after which the pass is over. -/
theorem pass_last_event (h : PassStep (contractStep H B) (task H) s p s') {pre : List Call}
    {c : Call} (hcalls : p.calls = pre ++ [c]) :
    ∃ e ∈ p.events, e.call = c ∧ e.after = s'.2 := by
  obtain ⟨first, last, hevents, -, hlast⟩ := List.map_eq_append_iff.mp hcalls
  obtain ⟨e, rfl, rfl⟩ := List.map_eq_singleton_iff.mp hlast
  have hexec := h.1
  rw [hevents] at hexec
  exact ⟨e, by simp [hevents], rfl, hexec.last⟩

/-- The exit of a pass that reports a status. -/
theorem pass_exit_of_status (h : PassStep (contractStep H B) (task H) s p s') {status : Status}
    (hstatus : .receiptUpdate ⟨p.req.id, .setStatus status⟩ ∈ p.batch) :
    ∃ calls err remove, PassExit H p.req calls status err remove ∧
      p.calls = ⟨.buildSwapContracts p.req, .ok ()⟩ :: calls := by
  rcases pass_exits h with ⟨err, -, -, hbatch⟩ | ⟨calls, status', err, remove, hexit, hcalls,
    -, hbatch⟩
  · rw [hbatch] at hstatus
    simp at hstatus
  · rw [hbatch] at hstatus
    have heq : status' = status := by
      cases remove <;> simpa [newReceiptUpdate, eq_comm] using hstatus
    rw [heq] at hexit
    exact ⟨calls, err, remove, hexit, hcalls⟩

/-- A pass that deletes its swap reports a final status. -/
theorem pass_exit_of_deleted (h : PassStep (contractStep H B) (task H) s p s')
    (hdeleted : .deleteSwap p.req.id ∈ p.batch ∨ p.req.id ∈ s.1 ∧ p.req.id ∉ s'.1) :
    ∃ status, Status.Final status ∧
      .receiptUpdate ⟨p.req.id, .setStatus status⟩ ∈ p.batch := by
  rcases pass_exits h with ⟨err, -, hmap, hbatch⟩ | ⟨calls, status, err, remove, hexit, -, hmap,
    hbatch⟩
  · rw [hbatch, hmap] at hdeleted
    rcases hdeleted with hmem | ⟨hmem, hnot⟩
    · simp at hmem
    · exact absurd hmem hnot
  · have hremove : remove = true := by
      by_contra hkept
      rw [hbatch, hmap] at hdeleted
      rcases hdeleted with hmem | ⟨-, hnot⟩
      · simp [hkept] at hmem
      · simp [hkept] at hnot
    exact ⟨status, hexit.remove_iff.mp hremove, by simp [hbatch, newReceiptUpdate]⟩

theorem expired_last {req : SwapRequest} {calls : List Call} {err : Option GoError}
    {remove : Bool} (h : PassExit H req calls .expired err remove) :
    req.blob.shouldInitiateFirst = false ∧
      calls = [⟨.audit req.foreign, .error .swapExpired⟩] := by
  unfold PassExit at h
  split at h
  · cases h
  · rename_i hrole
    cases h
    exact ⟨by simpa using hrole, rfl⟩

theorem pass_redeemed (h : PassStep (contractStep H B) (task H) s p s')
    (htruth : ∀ e ∈ p.events, OutcomeTruthful B e)
    (hstatus : .receiptUpdate ⟨p.req.id, .setStatus .redeemed⟩ ∈ p.batch) :
    s'.2.phase (B p.req.foreign).htlc.addr = .redeemed := by
  obtain ⟨calls, err, remove, hexit, hcalls⟩ := pass_exit_of_status h hstatus
  obtain ⟨pre, secret, rfl⟩ := redeemed_last hexit
  obtain ⟨e, he, hcall, hafter⟩ :=
    pass_last_event (c := _) h (hcalls.trans (List.cons_append ..).symm)
  rw [← hafter]
  exact (htruth e he).redeem _ secret hcall

theorem pass_refunded (h : PassStep (contractStep H B) (task H) s p s')
    (htruth : ∀ e ∈ p.events, OutcomeTruthful B e)
    (hstatus : .receiptUpdate ⟨p.req.id, .setStatus .refunded⟩ ∈ p.batch) :
    (s'.2.phase (B p.req.native).htlc.addr).Unheld := by
  obtain ⟨calls, err, remove, hexit, hcalls⟩ := pass_exit_of_status h hstatus
  obtain ⟨pre, rfl⟩ := refunded_last hexit
  obtain ⟨e, he, hcall, hafter⟩ :=
    pass_last_event (c := _) h (hcalls.trans (List.cons_append ..).symm)
  rw [← hafter]
  exact (htruth e he).refund _ hcall

theorem pass_expired (h : PassStep (contractStep H B) (task H) s p s')
    (htruth : ∀ e ∈ p.events, OutcomeTruthful B e)
    (hstatus : .receiptUpdate ⟨p.req.id, .setStatus .expired⟩ ∈ p.batch) :
    (s'.2.phase (B p.req.native).htlc.addr).Unheld := by
  obtain ⟨calls, err, remove, hexit, hcalls⟩ := pass_exit_of_status h hstatus
  obtain ⟨hrole, rfl⟩ := expired_last hexit
  have hsplit : p.calls = [⟨.buildSwapContracts p.req, .ok ()⟩] ++
      [⟨.audit p.req.foreign, .error .swapExpired⟩] := hcalls
  obtain ⟨e, he, hcall, hafter⟩ := pass_last_event h hsplit
  rw [← hafter]
  exact (htruth e he).expired _ hcall ⟨rfl, hrole⟩

end PassStep

theorem pass_statusTruthful {p : Transition (SwapMap × World) OpPass}
    (h : PassStep (contractStep H B) (task H) p.source p.label p.target)
    (htruth : ∀ e ∈ p.label.events, OutcomeTruthful B e) : StatusTruthful B p := by
  refine ⟨pass_redeemed h htruth, pass_refunded h htruth, pass_expired h htruth, ?_⟩
  intro hdeleted
  obtain ⟨status, rfl | rfl | rfl, hstatus⟩ := pass_exit_of_deleted h hdeleted
  · exact .inl (pass_redeemed h htruth hstatus)
  · exact .inr (pass_refunded h htruth hstatus)
  · exact .inr (pass_expired h htruth hstatus)

/-- Every outcome of the life tells the truth, and so do every final status and every
    deletion. -/
structure LifeTruthful (H : Hashes) (B : Contract → Binder)
    (ts : List (Transition (SwapMap × World) Life)) : Prop where
  outcomes : ∀ t ∈ ts, ∀ e ∈ t.label.events, OutcomeTruthful B e
  passes : ∀ t ∈ ts, ∀ l, t.label = .reduce l → ∃ ps, PassesOf H B t l ps
  statuses : ∀ t ∈ ts, ∀ l, t.label = .reduce l → ∀ ps, PassesOf H B t l ps →
    ∀ p ∈ ps, StatusTruthful B p

def sampleSwap (token : Token) (value : Int) : Swap where
  id := "c7t5VHbJdx2M0PtRS6G3lN2nrRH1fX0arUoZYkFBlvI="
  token := token
  value := value
  fee := 12000000000
  brokerFee := 0
  secretHash := zeroHashes.sha256 []
  timeLock := 1550021600
  spendingAddress := "0x52bc44d5378309EE2abF1539BF71dE1b7d7bE3b5"
  withdrawAddress := "0x52bc44d5378309EE2abF1539BF71dE1b7d7bE3b5"
  fundingAddress := "0x9b9a3e7c6aD1a8b7B4b5E3f1F2b8bC0f51b3C0A2"
  brokerAddress := ""

def nativeBinder : EthBinder :=
  ⟨⟨List.replicate 32 1, List.length_replicate⟩, sampleSwap tokenWBTC 20000⟩

def foreignBinder : EthBinder :=
  ⟨⟨List.replicate 32 2, List.length_replicate⟩, sampleSwap tokenETH 5000000000000000⟩

def sampleBinders (c : Contract) : Binder :=
  match c.leg with
  | .native => .erc20 nativeBinder
  | .foreign => .eth foreignBinder

/-- Both HTLCs are open, long before they expire. -/
def openWorld : World where
  clock := 1550000600
  blockTime := 1550000600
  phase _ := .opened
  revealed _ := []

def hastyRequest : SwapRequest where
  blob :=
    { id := "c7t5VHbJdx2M0PtRS6G3lN2nrRH1fX0arUoZYkFBlvI=", sendToken := "WBTC",
      receiveToken := "ETH", shouldInitiateFirst := true, timeLock := 1550021600 }

def hastySecret : Bytes32 :=
  zeroHashes.sha3Sum256
    (stringBytes hastyRequest.blob.password ++ stringBytes hastyRequest.blob.id)

def hastyRedeem : OpEvent :=
  ⟨.redeem hastyRequest.foreign hastySecret, openWorld,
    [⟨⟨foreignBinder.htlc, .redeemable⟩, openWorld, (), .error (.errorf "no node"), openWorld⟩],
    .ok (), openWorld⟩

def hastyReduction : OpReduction where
  input := .request hastyRequest
  events :=
    [⟨.buildSwapContracts hastyRequest, openWorld, [], .ok (), openWorld⟩,
      ⟨.initiate hastyRequest.native, openWorld,
        [⟨⟨nativeBinder.htlc, .initiatable⟩, openWorld, (), .ok false, openWorld⟩],
        .ok (), openWorld⟩,
      ⟨.audit hastyRequest.foreign, openWorld,
        [⟨⟨foreignBinder.htlc, .initiatable⟩, openWorld, (), .ok false, openWorld⟩,
          ⟨⟨foreignBinder.htlc, .audit⟩, openWorld, (),
            .ok (foreignBinder.swap.spendingAddress, 5000000000000000), openWorld⟩],
        .ok (), openWorld⟩,
      hastyRedeem]
  output :=
    [.receiptUpdate ⟨hastyRequest.id, .setStatus .redeemed⟩, .deleteSwap hastyRequest.id]

def hastyTransition : Transition (SwapMap × World) Life :=
  ⟨(∅, openWorld), .reduce hastyReduction, ((∅ : SwapMap).erase hastyRequest.id, openWorld)⟩

theorem hasty_run :
    Run (Lives zeroHashes sampleBinders) (∅, openWorld) [hastyTransition]
      hastyTransition.target := by
  have hinitiate : Exec clientStep nativeBinder.initiateERC20 openWorld
      [⟨⟨nativeBinder.htlc, .initiatable⟩, openWorld, (), .ok false, openWorld⟩] (.ok ())
      openWorld :=
    .call ⟨.refl _, rfl⟩ (.pure _ _)
  have haudit : Exec clientStep (foreignBinder.audit EthBinder.ethMismatch) openWorld
      [⟨⟨foreignBinder.htlc, .initiatable⟩, openWorld, (), .ok false, openWorld⟩,
        ⟨⟨foreignBinder.htlc, .audit⟩, openWorld, (),
          .ok (foreignBinder.swap.spendingAddress, 5000000000000000), openWorld⟩] (.ok ())
      openWorld :=
    .call ⟨.refl _, rfl⟩ (.call ⟨.refl _, trivial⟩ (.pure _ _))
  have hredeem : Exec clientStep (foreignBinder.redeem hastySecret) openWorld
      hastyRedeem.note (.ok ()) openWorld :=
    .call ⟨.refl _, trivial⟩ (.pure _ _)
  refine .cons ⟨trivial, ?_⟩ (.nil _)
  exact .call ⟨rfl, .refl _⟩ (.call hinitiate (.call haudit (.call hredeem (.pure _ _))))

end Swapperd.Chain
