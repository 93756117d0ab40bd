/-
  Swapperd/ContractDeadlines.lean
  ===============================
  **Nothing irrevocable after expiry.**

  `Initiate` of no binder reads the clock, and an audit that finds the contract funded
  does not either.  `passes_timely` is about the lives whose passes begin early enough, or
  find nothing to fund and nothing to redeem, and are answered conclusively when they begin
  late: nothing is funded and no secret is revealed past the timelock, and a pass that
  begins after it leads to a refund, to the end of the swap, or redeems with a secret that
  was published.
-/
import Swapperd.ContractRuns

namespace Swapperd.Chain

open CallProgram RetryTask TransitionRuns GoLibrary Immediate

/-! ### What the binders find and send -/

/-- The event sends a transaction. -/
def Sends (e : ClientEvent) : Prop := ∃ tx, e.op.query = .send tx

/-- The chain answers that the HTLC is still to be funded. -/
def Binder.FindsUnfunded (e : ClientEvent) : Binder → Prop
  | .btc _ b => ∃ value,
      Answers b.htlc (.scriptFunded (int64 b.swap.value)) (.ok (false, value)) e ∧
        600 ≤ int64 (int64 b.swap.value - value)
  | .eth b | .erc20 b => Answers b.htlc .initiatable (.ok true) e

/-- The chain answers that the HTLC holds what an audit wants to see. -/
def Binder.FindsFunded (e : ClientEvent) : Binder → Prop
  | .btc _ b => ∃ amount,
      Answers b.htlc (.scriptFunded (int64 b.swap.value)) (.ok (true, amount)) e ∧
        int64 (b.swap.value - b.swap.brokerFee) ≤ amount
  | .eth b | .erc20 b => ∃ value,
      Answers b.htlc .audit (.ok (b.swap.spendingAddress, value)) e ∧
        b.swap.value - b.swap.brokerFee ≤ value

/-- `Initiate` gets to its first query, leaves the HTLC as it is, and takes it to be
    funded. -/
def Binder.LeavesAlone (events : List ClientEvent) (b : Binder) : Prop :=
  (∀ e ∈ events, ¬ b.FindsUnfunded e) ∧
    match b with
    | .btc _ _ => events ≠ []
    | .eth _ => True
    | .erc20 b => ∃ e ∈ events, Answers b.htlc .initiatable (.ok false) e

/-- The chain answers that there is nothing to be audited yet. The Bitcoin binder takes a
    failed query for that answer. -/
def Binder.FindsNothing (events : List ClientEvent) : Binder → Prop
  | .btc _ b => ∀ e ∈ events, ∀ amount,
      ¬ Answers b.htlc (.scriptFunded (int64 b.swap.value)) (.ok (true, amount)) e
  | .eth b | .erc20 b => ∃ e ∈ events, Answers b.htlc .initiatable (.ok true) e

/-- The chain answers that the HTLC has not been spent. -/
def Binder.FindsUnspent (events : List ClientEvent) : Binder → Prop
  | .btc _ b => ∀ e ∈ events, ¬ Answers b.htlc .scriptSpent (.ok true) e
  | .eth b | .erc20 b => ∃ e ∈ events, Answers b.htlc .redeemable (.ok true) e

/-- The chain answers with the secret. -/
def Binder.FindsSecret (H : Hashes) (events : List ClientEvent) : Binder → Prop
  | .btc _ b => ∃ e ∈ events, ∃ pushes, Answers b.htlc .pushesOfSpent (.ok pushes) e ∧
      ∃ push ∈ pushes, H.sha256 push = b.swap.secretHash
  | .eth b | .erc20 b => ∃ e ∈ events, ∃ secret, Answers b.htlc .auditSecret (.ok secret) e

/-- The chain shows the secret at an HTLC: `copy` fills what a shorter push leaves. -/
def Published (w : World) (htlc : Htlc) (secret : Bytes32) : Prop :=
  ∃ push ∈ w.revealed htlc.addr, secret = Bitcoin.SwapContractBinder.copy32 push

theorem Published.mono {w w' : World} {htlc : Htlc} {secret : Bytes32}
    (h : Published w htlc secret) (hevolves : w.Evolves w') : Published w' htlc secret := by
  obtain ⟨push, hpush, hsecret⟩ := h
  exact ⟨push, hevolves.revealed _ hpush, hsecret⟩

section Operations

variable {w w' : World} {events : List ClientEvent} {result : Except GoError Unit}

/-- A transaction is sent only after its pre-condition passed. -/
theorem TransactResult.passes_of_sends {htlc : Htlc} {pre : Check Tx} {post : Check Unit}
    (h : TransactResult htlc pre post events result w') (hpre : pre.query.Reads)
    (hsends : ∃ e ∈ events, Sends e) : ∃ e ∈ events, ∃ tx, Passes htlc pre tx e := by
  obtain ⟨first, rest, rfl⟩ := List.exists_cons_of_ne_nil h.nonempty
  by_cases htx : ∃ tx, Passes htlc pre tx first
  · exact ⟨first, List.mem_cons_self, htx⟩
  · obtain ⟨rfl, -, -⟩ := h.skipped first rest rfl htx
    obtain ⟨e, he, tx, hquery⟩ := hsends
    obtain rfl := List.mem_singleton.mp he
    rw [h.first _ _ rfl] at hquery
    dsimp only at hquery
    rw [hquery] at hpre
    exact absurd hpre id

open Bitcoin (SwapContractBinder Account)

theorem not_sends_of_answers {htlc : Htlc} {query : Query} {answer : Answer query}
    {e : ClientEvent} (h : Answers htlc query answer e) (hreads : query.Reads) : ¬ Sends e := by
  obtain ⟨op, before, note, reply, after⟩ := e
  cases h
  rintro ⟨tx, hquery⟩
  dsimp only at hquery
  rw [hquery] at hreads
  exact hreads

/-- An audit sends nothing, and passes exactly on an HTLC that is funded. -/
theorem EthBinder.AuditExec.funded_iff {b : EthBinder} (h : b.AuditExec events result) :
    (∀ e ∈ events, ¬ Sends e) ∧
      (result = .ok () ↔ ∃ e ∈ events, (Binder.eth b).FindsFunded e) := by
  cases h with
  | failed he =>
      have hsends := not_sends_of_answers he trivial
      simp [Binder.FindsFunded, he.iff, hsends]
  | unfunded he hn =>
      have hsends := not_sends_of_answers he trivial
      have hsends' := not_sends_of_answers hn trivial
      simp [Binder.FindsFunded, clockVerdict, he.iff, hn.iff, hsends, hsends']
  | reportFailed he ha =>
      have hsends := not_sends_of_answers he trivial
      have hsends' := not_sends_of_answers ha trivial
      simp [Binder.FindsFunded, he.iff, ha.iff, hsends, hsends']
  | mismatch text he ha hreport =>
      have hsends := not_sends_of_answers he trivial
      have hsends' := not_sends_of_answers ha trivial
      refine ⟨by simp [hsends, hsends'], iff_of_false (by simp) ?_⟩
      rintro ⟨ce, hce, value, hanswer, hvalue⟩
      rcases List.mem_cons.mp hce with rfl | hce
      · cases he.iff.mp hanswer
      · rw [List.mem_singleton.mp hce, ha.iff] at hanswer
        cases hanswer
        exact absurd (hreport rfl) (not_lt.mpr hvalue)
  | funded he ha hvalue =>
      have hsends := not_sends_of_answers he trivial
      have hsends' := not_sends_of_answers ha trivial
      exact ⟨by simp [hsends, hsends'], iff_of_true rfl ⟨_, by simp, _, ha, hvalue⟩⟩

theorem BtcAuditExec.funded_iff {b : SwapContractBinder} {account : Account}
    (h : BtcAuditExec b events result) :
    (∀ e ∈ events, ¬ Sends e) ∧
      (result = .ok () ↔ ∃ e ∈ events, (Binder.btc account b).FindsFunded e) := by
  cases h with
  | short text he hamount =>
      have hsends := not_sends_of_answers he trivial
      refine ⟨by simp [hsends], iff_of_false (by simp) ?_⟩
      rintro ⟨ce, hce, value, hanswer, hvalue⟩
      rw [List.mem_singleton.mp hce, he.iff] at hanswer
      cases hanswer
      exact absurd hamount (not_lt.mpr hvalue)
  | funded he hamount =>
      have hsends := not_sends_of_answers he trivial
      exact ⟨by simp [hsends], iff_of_true rfl ⟨_, List.mem_cons_self, _, he, hamount⟩⟩
  | unfunded he hanswer hn =>
      have hsends := not_sends_of_answers he trivial
      have hsends' := not_sends_of_answers hn trivial
      simp [Binder.FindsFunded, clockVerdict, he.iff, hn.iff, hsends, hsends', hanswer]

theorem Binder.audit_funded_iff {b : Binder} (h : Exec clientStep b.audit w events result w') :
    (∀ e ∈ events, ¬ Sends e) ∧ (result = .ok () ↔ ∃ e ∈ events, b.FindsFunded e) := by
  cases b with
  | btc account b => exact (btc_audit_exec h).funded_iff
  | eth b => exact (EthBinder.audit_exec h).funded_iff
  | erc20 b => exact (EthBinder.audit_exec h).funded_iff

/-- A clock is not read before the operation began. -/
theorem clock_le_of_answers {α : Type} {p : Calls α} {a : α}
    (h : Exec clientStep p w events a w') {htlc : Htlc} {n : ClientEvent} (hn : n ∈ events)
    {time : Int} (hanswer : Answers htlc .now time n) : w.clock ≤ time := by
  have htime : time = n.after.clock := Answers.truthful hanswer (h.allowed n hn)
  have hbefore := (h.around World.Evolves.refl World.Evolves.trans (fun hstep => hstep.1) n hn).1
  rw [htime]
  exact le_trans hbefore.clock (h.allowed n hn).1.clock

theorem clockVerdict_late {α : Type} {timeLock time : Int} (h : timeLock < time) :
    (clockVerdict timeLock time : Except GoError α) = .error .swapExpired := by
  unfold clockVerdict
  rw [if_pos h]

/-- An audit that gets a report found something. -/
theorem EthBinder.not_findsNothing {b : EthBinder} {e a : ClientEvent} {answer : Answer .audit}
    (he : Answers b.htlc .initiatable (.ok false) e) (ha : Answers b.htlc .audit answer a) :
    ¬ (Binder.eth b).FindsNothing [e, a] := by
  rintro ⟨e', he', hanswer⟩
  rcases List.mem_cons.mp he' with rfl | he'
  · cases he.iff.mp hanswer
  · rw [List.mem_singleton.mp he', ha.iff] at hanswer
    cases hanswer

/-- A late audit that finds nothing reports that the swap has expired. -/
theorem Binder.audit_late {b : Binder} (h : Exec clientStep b.audit w events result w')
    (hlate : b.htlc.timeLock < w.clock) (hnothing : b.FindsNothing events) :
    result = .error .swapExpired := by
  have heth : ∀ b : EthBinder, b.htlc.timeLock < w.clock → b.AuditExec events result →
      (Binder.eth b).FindsNothing events → result = .error .swapExpired := by
    intro b hlate hcases hnothing
    cases hcases with
    | failed he => simp [Binder.FindsNothing, he.iff] at hnothing
    | unfunded he hn =>
        exact clockVerdict_late (hlate.trans_le (clock_le_of_answers h (by simp) hn))
    | reportFailed he ha => exact absurd hnothing (EthBinder.not_findsNothing he ha)
    | mismatch text he ha hreport => exact absurd hnothing (EthBinder.not_findsNothing he ha)
    | funded he ha hvalue => exact absurd hnothing (EthBinder.not_findsNothing he ha)
  cases b with
  | btc account b =>
      cases btc_audit_exec h with
      | short text he hamount => exact absurd he (hnothing _ (by simp) _)
      | funded he hamount => exact absurd he (hnothing _ (by simp) _)
      | unfunded he hanswer hn =>
          exact clockVerdict_late (hlate.trans_le (clock_le_of_answers h (by simp) hn))
  | eth b => exact heth b hlate (EthBinder.audit_exec h) hnothing
  | erc20 b => exact heth b hlate (EthBinder.audit_exec h) hnothing

variable {secret : Except GoError Bytes32} {H : Hashes}

/-- A late audit of the secret of an HTLC that is not spent reports that the swap has
    expired. -/
theorem Binder.auditSecret_late {b : Binder}
    (h : Exec clientStep (b.auditSecret H) w events secret w')
    (hlate : b.htlc.timeLock < w.clock) (hunspent : b.FindsUnspent events) :
    secret = .error .swapExpired := by
  have heth : ∀ b : EthBinder, b.htlc.timeLock < w.clock → b.AuditSecretExec events secret →
      (Binder.eth b).FindsUnspent events → secret = .error .swapExpired := by
    intro b hlate hcases hunspent
    cases hcases with
    | failed he => simp [Binder.FindsUnspent, he.iff] at hunspent
    | unspent he hn =>
        exact clockVerdict_late (hlate.trans_le (clock_le_of_answers h (by simp) hn))
    | answered he ha =>
        simp only [Binder.FindsUnspent, List.mem_cons, List.not_mem_nil, or_false,
          exists_eq_or_imp, exists_eq_left, he.iff, ha.iff] at hunspent
        rcases hunspent with hunspent | hunspent <;> cases hunspent
  cases b with
  | btc account b =>
      cases btc_auditSecret_exec h with
      | unspent he hanswer hn =>
          exact clockVerdict_late (hlate.trans_le (clock_le_of_answers h (by simp) hn))
      | pushesFailed he ha => exact absurd he (hunspent _ (by simp))
      | found he ha hpush => exact absurd he (hunspent _ (by simp))
      | missing err he ha hpush => exact absurd he (hunspent _ (by simp))
  | eth b => exact heth b hlate (EthBinder.auditSecret_exec h) hunspent
  | erc20 b => exact heth b hlate (EthBinder.auditSecret_exec h) hunspent

/-- An audit that the chain answers with the secret passes. -/
theorem Binder.auditSecret_finds {b : Binder}
    (h : Exec clientStep (b.auditSecret H) w events secret w')
    (hfinds : b.FindsSecret H events) : ∃ s, secret = .ok s := by
  have heth : ∀ b : EthBinder, b.AuditSecretExec events secret →
      (Binder.eth b).FindsSecret H events → ∃ s, secret = .ok s := by
    intro b hcases hfinds
    cases hcases with
    | failed he => simp [Binder.FindsSecret, he.iff] at hfinds
    | unspent he hn => simp [Binder.FindsSecret, he.iff, hn.iff] at hfinds
    | answered he ha => simpa [Binder.FindsSecret, he.iff, ha.iff] using hfinds
  cases b with
  | btc account b =>
      cases btc_auditSecret_exec h with
      | unspent he hanswer hn => simp [Binder.FindsSecret, he.iff, hn.iff] at hfinds
      | pushesFailed he ha => simp [Binder.FindsSecret, he.iff, ha.iff] at hfinds
      | found he ha hpush => exact ⟨_, rfl⟩
      | missing err he ha hpush =>
          simp only [Binder.FindsSecret, List.mem_cons, List.not_mem_nil, or_false,
            exists_eq_or_imp, exists_eq_left, he.iff, ha.iff] at hfinds
          rcases hfinds with ⟨pushes, heq, -⟩ | ⟨pushes, heq, push, hmem, hhash⟩
          · cases heq
          · cases heq
            exact absurd hhash (hpush push hmem)
  | eth b => exact heth b (EthBinder.auditSecret_exec h) hfinds
  | erc20 b => exact heth b (EthBinder.auditSecret_exec h) hfinds

theorem copy32_val (secret : Bytes32) : SwapContractBinder.copy32 secret.1 = secret := by
  obtain ⟨bytes, hbytes⟩ := secret
  simp [SwapContractBinder.copy32, hbytes]

/-- An audit of the secret sends nothing, and finds only what is published. -/
theorem Binder.auditSecret_published {b : Binder}
    (h : Exec clientStep (b.auditSecret H) w events secret w') :
    (∀ e ∈ events, ¬ Sends e) ∧ ∀ s, secret = .ok s → Published w' b.htlc s := by
  have hevolves : ∀ e ∈ events, e.after.Evolves w' := fun e he =>
    (h.around World.Evolves.refl World.Evolves.trans (fun hstep => hstep.1) e he).2
  have heth : ∀ b : EthBinder, b.AuditSecretExec events secret →
      (∀ e ∈ events, ¬ Sends e) ∧ ∀ s, secret = .ok s → Published w' b.htlc s := by
    intro b hcases
    cases hcases with
    | failed he =>
        have hsends := not_sends_of_answers he trivial
        simp [hsends]
    | unspent he hn =>
        have hsends := not_sends_of_answers he trivial
        have hsends' := not_sends_of_answers hn trivial
        simp [clockVerdict, hsends, hsends']
    | @answered e a answer he ha =>
        have hsends := not_sends_of_answers he trivial
        have hsends' := not_sends_of_answers ha trivial
        refine ⟨by simp [hsends, hsends'], ?_⟩
        rintro s rfl
        have htrue := Answers.truthful ha (h.allowed a (by simp))
        exact Published.mono ⟨s.1, htrue.2, (copy32_val s).symm⟩ (hevolves a (by simp))
  cases b with
  | btc account b =>
      cases btc_auditSecret_exec h with
      | unspent he hanswer hn =>
          have hsends := not_sends_of_answers he trivial
          have hsends' := not_sends_of_answers hn trivial
          simp [clockVerdict, hsends, hsends']
      | pushesFailed he ha =>
          have hsends := not_sends_of_answers he trivial
          have hsends' := not_sends_of_answers ha trivial
          simp [hsends, hsends']
      | @found e a pushes push he ha hpush =>
          have hsends := not_sends_of_answers he trivial
          have hsends' := not_sends_of_answers ha trivial
          refine ⟨by simp [hsends, hsends'], ?_⟩
          rintro s hs
          cases hs
          have htrue := Answers.truthful ha (h.allowed a (by simp))
          exact Published.mono ⟨push, htrue push (List.mem_of_find?_eq_some hpush), rfl⟩
            (hevolves a (by simp))
      | missing err he ha hpush =>
          have hsends := not_sends_of_answers he trivial
          have hsends' := not_sends_of_answers ha trivial
          simp [hsends, hsends']
  | eth b => exact heth b (EthBinder.auditSecret_exec h)
  | erc20 b => exact heth b (EthBinder.auditSecret_exec h)

/-- An operation whose pre-condition does not hold returns nil. -/
theorem TransactResult.ok_of_not_passes {htlc : Htlc} {pre : Check Tx} {post : Check Unit}
    (h : TransactResult htlc pre post events result w')
    (hpre : ∀ e ∈ events, ∀ tx, ¬ Passes htlc pre tx e) : result = .ok () := by
  obtain ⟨first, rest, rfl⟩ := List.exists_cons_of_ne_nil h.nonempty
  refine (h.skipped first rest rfl ?_).2.1
  rintro ⟨tx, htx⟩
  exact hpre first List.mem_cons_self tx htx

/-- The pre-condition of `Initiate` passes only when the HTLC is found unfunded. -/
theorem btc_findsUnfunded {b : SwapContractBinder} {account : Account} {pkScript : List UInt8}
    {tx : Tx} {e : ClientEvent} (h : Passes b.htlc (b.initiateCheck pkScript) tx e) :
    (Binder.btc account b).FindsUnfunded e := by
  obtain ⟨answer, hanswer, hread⟩ := h
  unfold SwapContractBinder.initiateCheck at hanswer hread
  dsimp only at hread
  split at hread
  · cases hread
  · cases hread
  · split at hread
    · cases hread
    · exact ⟨_, hanswer, by omega⟩

/-- How an initiation of the Bitcoin binder goes. -/
theorem btc_initiate_exec {b : SwapContractBinder} {account : Account}
    (h : Exec clientStep (b.initiate account) w events result w') :
    events = [] ∨ ∃ pkScript, TransactResult b.htlc (b.initiateCheck pkScript) b.fundedCheck
      events result w' := by
  unfold SwapContractBinder.initiate at h
  split at h
  · exact .inl (exec_pure_iff.mp h).1
  · split at h
    · exact .inl (exec_pure_iff.mp h).1
    · exact .inr ⟨_, transactSkipping_exec h trivial⟩

theorem eth_findsUnfunded {b : EthBinder} {value : Int} {tx : Tx} {e : ClientEvent}
    (h : Passes b.htlc ⟨.initiatable, expect true (b.initiateTx value)⟩ tx e) :
    (Binder.eth b).FindsUnfunded e := by
  obtain ⟨answer, hanswer, hread⟩ := h
  obtain ⟨rfl, -⟩ := expect_eq_some_iff.mp hread
  exact hanswer

theorem EthBinder.initiate_exec {b : EthBinder}
    (h : Exec clientStep b.initiate w events result w') :
    TransactResult b.htlc ⟨.initiatable, expect true (b.initiateTx b.swap.value)⟩
      ⟨.initiatable, expect false ()⟩ events result w' := by
  unfold EthBinder.initiate at h
  exact transactSkipping_exec h trivial

/-- The ERC20 binder goes by the answer to its first query. -/
theorem EthBinder.initiateERC20_exec {b : EthBinder}
    (h : Exec clientStep b.initiateERC20 w events result w') :
    ∃ e rest, events = e :: rest ∧
      ((∃ err, rest = [] ∧ Answers b.htlc .initiatable (.error err) e) ∨
        (rest = [] ∧ Answers b.htlc .initiatable (.ok false) e ∧ result = .ok ()) ∨
          (Binder.erc20 b).FindsUnfunded e) := by
  unfold EthBinder.initiateERC20 Htlc.ask at h
  obtain ⟨n, answer, w₁, rest, rfl, -, h⟩ := exec_perform_bind_iff.mp h
  refine ⟨_, rest, rfl, ?_⟩
  cases answer with
  | error err => exact .inl ⟨err, (exec_pure_iff.mp h).1, rfl⟩
  | ok answer =>
      cases answer with
      | false =>
          obtain ⟨hrest, hresult, -⟩ := exec_pure_iff.mp h
          exact .inr (.inl ⟨hrest, rfl, hresult⟩)
      | true => exact .inr (.inr rfl)

/-- `Initiate` sends only when it finds its HTLC unfunded. -/
theorem Binder.initiate_sends {b : Binder} (h : Exec clientStep b.initiate w events result w')
    (hsends : ∃ e ∈ events, Sends e) : ∃ e ∈ events, b.FindsUnfunded e := by
  cases b with
  | btc account b =>
      rcases btc_initiate_exec h with rfl | ⟨pkScript, hresult⟩
      · simp at hsends
      · obtain ⟨e, he, tx, htx⟩ := hresult.passes_of_sends trivial hsends
        exact ⟨e, he, btc_findsUnfunded htx⟩
  | eth b =>
      obtain ⟨e, he, tx, htx⟩ :=
        (EthBinder.initiate_exec h).passes_of_sends trivial hsends
      exact ⟨e, he, eth_findsUnfunded htx⟩
  | erc20 b =>
      obtain ⟨e, rest, rfl, ⟨err, rfl, hanswer⟩ | ⟨rfl, hanswer, -⟩ | hfinds⟩ :=
        EthBinder.initiateERC20_exec h
      · have hnot := not_sends_of_answers hanswer trivial
        simp [hnot] at hsends
      · have hnot := not_sends_of_answers hanswer trivial
        simp [hnot] at hsends
      · exact ⟨e, List.mem_cons_self, hfinds⟩

theorem Binder.initiate_leavesAlone {b : Binder}
    (h : Exec clientStep b.initiate w events result w') (halone : b.LeavesAlone events) :
    result = .ok () := by
  obtain ⟨hnot, hmore⟩ := halone
  cases b with
  | btc account b =>
      rcases btc_initiate_exec h with rfl | ⟨pkScript, hresult⟩
      · exact absurd rfl hmore
      · exact hresult.ok_of_not_passes fun e he tx htx => hnot e he (btc_findsUnfunded htx)
  | eth b =>
      exact (EthBinder.initiate_exec h).ok_of_not_passes fun e he tx htx =>
        hnot e he (eth_findsUnfunded htx)
  | erc20 b =>
      obtain ⟨e, rest, rfl, ⟨err, rfl, hanswer⟩ | ⟨-, -, hresult⟩ | hfinds⟩ :=
        EthBinder.initiateERC20_exec h
      · simp [hanswer.iff] at hmore
      · exact hresult
      · exact absurd hfinds (hnot e List.mem_cons_self)

end Operations

/-! ### Passes -/

variable {H : Hashes} {B : Contract → Binder}

/-- Both HTLCs of the request have expired. -/
def Expired (B : Contract → Binder) (req : SwapRequest) (w : World) : Prop :=
  (B req.native).htlc.timeLock < w.clock ∧ (B req.foreign).htlc.timeLock < w.clock

/-- A pass of at most `limit` that begins now is over before either HTLC expires. -/
def Early (B : Contract → Binder) (limit : Int) (req : SwapRequest) (w : World) : Prop :=
  w.clock + limit ≤ (B req.native).htlc.timeLock ∧ w.clock + limit ≤ (B req.foreign).htlc.timeLock

/-- The chain answers that there is nothing to fund, and an initiator that there is nothing
    to redeem. -/
structure Idle (B : Contract → Binder) (p : OpPass) : Prop where
  initiate : ∀ e ∈ p.events, ∀ c, e.op = .initiate c → ∀ ce ∈ e.note, ¬ (B c).FindsUnfunded ce
  audit : p.req.blob.shouldInitiateFirst = true → ∀ e ∈ p.events, ∀ c, e.op = .audit c →
    ∀ ce ∈ e.note, ¬ (B c).FindsFunded ce

/-- The chain's answers to a late pass decide it: its own HTLC is to be left alone, an
    audit finds nothing, or a responder's the HTLC as it should be, and an audit of the
    secret finds the HTLC not spent, or the secret. -/
structure Decided (H : Hashes) (B : Contract → Binder) (p : OpPass) : Prop where
  initiate : ∀ e ∈ p.events, ∀ c, e.op = .initiate c → (B c).LeavesAlone e.note
  audit : ∀ e ∈ p.events, ∀ c, e.op = .audit c → (B c).FindsNothing e.note ∨
    p.req.blob.shouldInitiateFirst = false ∧ ∃ ce ∈ e.note, (B c).FindsFunded ce
  auditSecret : ∀ e ∈ p.events, ∀ c, e.op = .auditSecret c →
    (B c).FindsUnspent e.note ∨ (B c).FindsSecret H e.note

/-- What is to be so of a pass: it takes at most `limit`; it begins early enough, or there is
    nothing to do; and if it begins late, the chain's answers decide it. -/
structure PassInTime (H : Hashes) (B : Contract → Binder) (limit : Int)
    (p : Transition (SwapMap × World) OpPass) : Prop where
  duration : p.target.2.clock ≤ p.source.2.clock + limit
  early : Early B limit p.label.req p.source.2 ∨ Idle B p.label
  late : Expired B p.label.req p.source.2 → Decided H B p.label

/-- Nothing irrevocable happens in the pass after expiry. -/
structure PassTimely (B : Contract → Binder) (before : World) (p : OpPass) : Prop where
  funds : ∀ e ∈ p.events, ∀ c, e.op = .initiate c → ∀ ce ∈ e.note, Sends ce →
    ce.after.clock ≤ (B c).htlc.timeLock
  reveals : p.req.blob.shouldInitiateFirst = true → ∀ e ∈ p.events, ∀ c secret,
    e.op = .redeem c secret → e.before.clock ≤ (B c).htlc.timeLock
  late_sends : ∀ e ∈ p.events, Expired B p.req e.before → (∃ ce ∈ e.note, Sends ce) →
    e.op = .refund p.req.native ∨
    p.req.blob.shouldInitiateFirst = false ∧ ∃ secret, e.op = .redeem p.req.foreign secret ∧
      Published e.before (B p.req.native).htlc secret
  late_status : Expired B p.req before → ∀ status, Status.Final status →
    .receiptUpdate ⟨p.req.id, .setStatus status⟩ ∈ p.batch →
    status = .refunded ∨ status = .expired ∨
      p.req.blob.shouldInitiateFirst = false ∧ status = .redeemed
  late_leads : Expired B p.req before → ⟨.buildSwapContracts p.req, .ok ()⟩ ∈ p.calls →
    (∃ e ∈ p.events, e.op = .refund p.req.native) ∨
    .receiptUpdate ⟨p.req.id, .setStatus .expired⟩ ∈ p.batch ∨
    p.req.blob.shouldInitiateFirst = false ∧ ∃ e ∈ p.events, ∃ secret,
      e.op = .redeem p.req.foreign secret ∧ Published e.before (B p.req.native).htlc secret

/-- What follows for an operation: an `Initiate` that finds its HTLC unfunded is done by
    the timelock, and so is an initiator's audit that finds the other one funded. -/
structure InTime (B : Contract → Binder) (e : OpEvent) : Prop where
  initiate : ∀ c, e.op = .initiate c → (∃ ce ∈ e.note, (B c).FindsUnfunded ce) →
    e.after.clock ≤ (B c).htlc.timeLock
  audit : ∀ req : SwapRequest, e.op = .audit req.foreign → req.blob.shouldInitiateFirst = true →
    (∃ ce ∈ e.note, (B req.foreign).FindsFunded ce) →
    e.after.clock ≤ (B req.foreign).htlc.timeLock

section PassStep

variable {s s' : SwapMap × World} {p : OpPass}

theorem pass_pairwise (h : PassStep (contractStep H B) (task H) s p s') :
    p.events.Pairwise fun e e' => e.after.Evolves e'.before :=
  h.1.pairwise World.Evolves.refl World.Evolves.trans contractStep_evolves

/-- The calls of an initiator's pass that redeems. -/
theorem initiate_redeem_calls {req : SwapRequest} {calls : List Call} {status : Status}
    {err : Option GoError} {remove : Bool} (h : InitiateExit H req calls status err remove)
    {c : Contract} {secret : Bytes32} (hc : ∃ call ∈ calls, call.1 = .redeem c secret) :
    c = req.foreign ∧ ∃ last, calls =
      [⟨.initiate req.native, .ok ()⟩, ⟨.audit req.foreign, .ok ()⟩, last] := by
  cases h with
  | redeemFailed err => simp_all [-Subtype.forall]
  | redeemed => simp_all [-Subtype.forall]
  | _ => simp at hc

/-- The initiator redeems right after an audit that passed. -/
theorem redeem_after_audit (h : PassStep (contractStep H B) (task H) s p s')
    (hrole : p.req.blob.shouldInitiateFirst = true) {e : OpEvent} (he : e ∈ p.events)
    {c : Contract} {secret : Bytes32} (hop : e.op = .redeem c secret) :
    c = p.req.foreign ∧ ∃ e' ∈ p.events, e'.call = (⟨.audit c, .ok ()⟩ : Call) ∧
      e'.after = e.before := by
  have hcall : e.call ∈ p.calls := List.mem_map_of_mem he
  rcases pass_exits h with ⟨err, hcalls, -⟩ | ⟨calls, status, err, remove, hexit, hcalls, -⟩
  · rw [hcalls, List.mem_singleton] at hcall
    have hbuild := congrArg Sigma.fst hcall
    rw [show e.call.1 = _ from hop] at hbuild
    cases hbuild
  · have hmem : ∃ call ∈ calls, call.1 = .redeem c secret := by
      rw [hcalls, List.mem_cons] at hcall
      rcases hcall with hbuild | hmem
      · have hbuild := congrArg Sigma.fst hbuild
        rw [show e.call.1 = _ from hop] at hbuild
        cases hbuild
      · exact ⟨_, hmem, hop⟩
    have hinitiate : InitiateExit H p.req calls status err remove := by
      simpa [PassExit, hrole] using hexit
    obtain ⟨rfl, last, rfl⟩ := initiate_redeem_calls hinitiate hmem
    obtain ⟨e₀, _, hevents, hc₀, h₀⟩ := List.map_eq_cons_iff.mp hcalls
    obtain ⟨e₁, _, rfl, hc₁, h₁⟩ := List.map_eq_cons_iff.mp h₀
    obtain ⟨e₂, _, rfl, hc₂, h₂⟩ := List.map_eq_cons_iff.mp h₁
    obtain ⟨e₃, rfl, -⟩ := List.map_eq_singleton_iff.mp h₂
    have hexec := h.1
    rw [hevents] at hexec he
    have hlast : e = e₃ := by
      have hne : ∀ e', e'.call.1 ≠ e.op → e ≠ e' := fun e' hne heq => hne (by rw [heq]; rfl)
      have h₀ := hne e₀ (by rw [hc₀, hop]; simp)
      have h₁ := hne e₁ (by rw [hc₁, hop]; simp)
      have h₂ := hne e₂ (by rw [hc₂, hop]; simp)
      simpa [h₀, h₁, h₂] using he
    subst hlast
    have hbefore : e.before = e₂.after :=
      Exec.adjacent (show Exec _ _ _ ([e₀, e₁] ++ e₂ :: e :: []) _ _ from hexec)
    exact ⟨rfl, e₂, by simp [hevents], hc₂, hbefore.symm⟩

/-- A responder redeems with a secret that is published. -/
theorem redeem_published (h : PassStep (contractStep H B) (task H) s p s')
    (hrole : p.req.blob.shouldInitiateFirst = false) {e : OpEvent} (he : e ∈ p.events)
    {c : Contract} {secret : Bytes32} (hop : e.op = .redeem c secret) :
    Published e.before (B p.req.native).htlc secret := by
  obtain ⟨pre, post, hevents⟩ := List.append_of_mem he
  have hcalls : p.calls = pre.map Event.call ++ e.call :: post.map Event.call := by
    simp [Pass.calls, hevents]
  obtain ⟨q, hq, rfl⟩ :=
    (pass_inOrder h).responder_redeem hrole secret _ _ _ hcalls ⟨c, hop⟩
  obtain ⟨e', he', hcall⟩ := List.mem_map.mp hq
  have hallowed := h.1.allowed e' (by simp [hevents, he'])
  have hpairwise := pass_pairwise h
  rw [hevents] at hpairwise
  have hevolves := (List.pairwise_append.mp hpairwise).2.2 e' he' e List.mem_cons_self
  obtain ⟨op, before, note, reply, after⟩ := e'
  cases hcall
  exact ((Binder.auditSecret_published hallowed).2 secret rfl).mono hevolves

variable (h : PassStep (contractStep H B) (task H) s p s') (hin : ∀ e ∈ p.events, InTime B e)
include h hin

/-- An `Initiate` that sends a transaction is over by the timelock. -/
theorem initiate_inTime {e : OpEvent} (he : e ∈ p.events) {c : Contract} (hop : e.op = .initiate c)
    (hsends : ∃ ce ∈ e.note, Sends ce) : e.before.clock ≤ (B c).htlc.timeLock ∧
      ∀ ce ∈ e.note, ce.after.clock ≤ (B c).htlc.timeLock := by
  have hallowed := h.1.allowed e he
  have hdone := (hin e he).initiate c hop
  obtain ⟨op, before, note, reply, after⟩ := e
  cases hop
  have hexec : Exec clientStep (B c).initiate before note reply after := hallowed
  have hlast := hdone (Binder.initiate_sends hexec hsends)
  refine ⟨le_trans (exec_evolves hexec).clock hlast, ?_⟩
  intro ce hce
  have hclock := (hexec.around World.Evolves.refl World.Evolves.trans
    (fun hstep => hstep.1) ce hce).2.clock
  exact le_trans hclock hlast

theorem pass_funds : ∀ e ∈ p.events, ∀ c, e.op = .initiate c → ∀ ce ∈ e.note, Sends ce →
    ce.after.clock ≤ (B c).htlc.timeLock := by
  intro e he c hop ce hce hsends
  exact (initiate_inTime h hin he hop ⟨ce, hce, hsends⟩).2 ce hce

theorem pass_reveals (hrole : p.req.blob.shouldInitiateFirst = true) {e : OpEvent}
    (he : e ∈ p.events) {c : Contract} {secret : Bytes32} (hop : e.op = .redeem c secret) :
    c = p.req.foreign ∧ e.before.clock ≤ (B c).htlc.timeLock := by
  obtain ⟨rfl, e', he', hcall, hafter⟩ := redeem_after_audit h hrole he hop
  refine ⟨rfl, ?_⟩
  rw [← hafter]
  have hallowed := h.1.allowed e' he'
  have hdone := (hin e' he').audit
  obtain ⟨op, before, note, reply, after⟩ := e'
  cases hcall
  exact hdone _ rfl hrole ((Binder.audit_funded_iff hallowed).2.mp rfl)

theorem pass_late_sends {e : OpEvent} (he : e ∈ p.events) (hexpired : Expired B p.req e.before)
    (hsends : ∃ ce ∈ e.note, Sends ce) :
    e.op = .refund p.req.native ∨
    p.req.blob.shouldInitiateFirst = false ∧ ∃ secret, e.op = .redeem p.req.foreign secret ∧
      Published e.before (B p.req.native).htlc secret := by
  have hallowed := h.1.allowed e he
  have horder := pass_inOrder h
  have hcall : e.call ∈ p.calls := List.mem_map_of_mem he
  cases hop : e.op with
  | buildSwapContracts req =>
      obtain ⟨op, before, note, reply, after⟩ := e
      cases hop
      obtain ⟨ce, hce, -⟩ := hsends
      rw [show note = [] from hallowed.1] at hce
      simp at hce
  | initiate c =>
      -- it would have found the HTLC unfunded after its timelock
      obtain rfl : c = p.req.native := horder.initiates_native _ hcall c hop
      have hclock := (initiate_inTime h hin he hop hsends).1
      exact absurd hexpired.1 (not_lt.mpr hclock)
  | audit c =>
      obtain ⟨op, before, note, reply, after⟩ := e
      cases hop
      obtain ⟨ce, hce, hsend⟩ := hsends
      exact absurd hsend ((Binder.audit_funded_iff hallowed).1 ce hce)
  | redeem c secret =>
      obtain rfl : c = p.req.foreign := horder.redeems_foreign _ hcall c secret hop
      cases hrole : p.req.blob.shouldInitiateFirst with
      | true =>
          have hclock := (pass_reveals h hin hrole he hop).2
          exact absurd hexpired.2 (not_lt.mpr hclock)
      | false => exact .inr ⟨rfl, secret, rfl, redeem_published h hrole he hop⟩
  | auditSecret c =>
      obtain ⟨op, before, note, reply, after⟩ := e
      cases hop
      obtain ⟨ce, hce, hsend⟩ := hsends
      exact absurd hsend ((Binder.auditSecret_published hallowed).1 ce hce)
  | refund c =>
      obtain rfl : c = p.req.native := horder.refunds_native _ hcall c hop
      exact .inl rfl

theorem pass_late_status (hexpired : Expired B p.req s.2) {status : Status}
    (hfinal : Status.Final status)
    (hstatus : .receiptUpdate ⟨p.req.id, .setStatus status⟩ ∈ p.batch) :
    status = .refunded ∨ status = .expired ∨
      p.req.blob.shouldInitiateFirst = false ∧ status = .redeemed := by
  rcases hfinal with rfl | hrefunded | hexpired'
  · cases hrole : p.req.blob.shouldInitiateFirst with
    | false => exact .inr (.inr ⟨rfl, rfl⟩)
    | true =>
        -- the redeem came after the pass began
        obtain ⟨calls, err, remove, hexit, hcalls⟩ := pass_exit_of_status h hstatus
        obtain ⟨pre, secret, rfl⟩ := redeemed_last hexit
        obtain ⟨e, he, hcall, -⟩ :=
          pass_last_event (c := _) h (hcalls.trans (List.cons_append ..).symm)
        have hclock := (pass_reveals h hin hrole he (congrArg Sigma.fst hcall)).2
        have hbefore := (h.1.around World.Evolves.refl World.Evolves.trans
          contractStep_evolves e he).1.clock
        have hlate := hexpired.2
        omega
  · exact .inl hrefunded
  · exact .inr (.inl hexpired')

end PassStep

/-- An initiator whose `Initiate` passes and whose audit reports expiry refunds. -/
theorem InitiateExit.refunds {req : SwapRequest} {calls : List Call} {status : Status}
    {err : Option GoError} {remove : Bool} (h : InitiateExit H req calls status err remove)
    (hinitiate : ∀ err, (⟨.initiate req.native, .error err⟩ : Call) ∉ calls)
    (haudit : ∀ reply, (⟨.audit req.foreign, reply⟩ : Call) ∈ calls →
      reply = .error .swapExpired) :
    ∃ reply, (⟨.refund req.native, reply⟩ : Call) ∈ calls := by
  cases h with
  | initiateFailed err => exact absurd List.mem_cons_self (hinitiate err)
  | auditPending => cases haudit _ (by simp; rfl)
  | auditFailed err hpending hexpired =>
      exact absurd (Except.error.inj (haudit (.error err) (by simp))) hexpired
  | refundFailed err => exact ⟨.error err, by simp⟩
  | refunded => exact ⟨.ok (), by simp⟩
  | redeemFailed err => cases haudit (.ok ()) (by simp)
  | redeemed => cases haudit (.ok ()) (by simp)

/-- A responder whose audits are decided ends its swap, refunds, or redeems. -/
theorem RespondExit.leads {req : SwapRequest} {calls : List Call} {status : Status}
    {err : Option GoError} {remove : Bool} (h : RespondExit req calls status err remove)
    (hinitiate : ∀ err, (⟨.initiate req.native, .error err⟩ : Call) ∉ calls)
    (haudit : ∀ reply, (⟨.audit req.foreign, reply⟩ : Call) ∈ calls →
      reply = .error .swapExpired ∨ reply = .ok ())
    (hsecret : ∀ reply, (⟨.auditSecret req.native, reply⟩ : Call) ∈ calls →
      reply = .error .swapExpired ∨ ∃ secret, reply = .ok secret) :
    (∃ reply, (⟨.refund req.native, reply⟩ : Call) ∈ calls) ∨ status = .expired ∨
      ∃ secret reply, (⟨.redeem req.foreign secret, reply⟩ : Call) ∈ calls := by
  cases h with
  | auditPending => simpa using haudit (.error .auditPending) (by simp)
  | expired => exact .inr (.inl rfl)
  | auditFailed err hpending hexpired =>
      exact absurd (by simpa using haudit (.error err) (by simp)) hexpired
  | initiateFailed err => exact absurd (by simp) (hinitiate err)
  | secretPending => simpa using hsecret (.error .auditPending) (by simp)
  | secretFailed err hpending hexpired =>
      exact absurd (by simpa using hsecret (.error err) (by simp)) hexpired
  | refundFailed err => exact .inl ⟨.error err, by simp⟩
  | refunded => exact .inl ⟨.ok (), by simp⟩
  | redeemFailed secret err => exact .inr (.inr ⟨secret, .error err, by simp⟩)
  | redeemed secret => exact .inr (.inr ⟨secret, .ok (), by simp⟩)

section PassInTime

variable {limit : Int} {p : Transition (SwapMap × World) OpPass}
  (h : PassStep (contractStep H B) (task H) p.source p.label p.target)
include h

theorem clock_le_target {e : OpEvent} (he : e ∈ p.label.events) :
    p.source.2.clock ≤ e.before.clock ∧ e.after.clock ≤ p.target.2.clock := by
  obtain ⟨hbefore, hafter⟩ :=
    h.1.around World.Evolves.refl World.Evolves.trans contractStep_evolves e he
  exact ⟨hbefore.clock, hafter.clock⟩

/-- The operations of a pass that is in time are in time. -/
theorem PassInTime.inTime (hin : PassInTime H B limit p) {e : OpEvent} (he : e ∈ p.label.events) :
    InTime B e := by
  have hcall : e.call ∈ p.label.calls := List.mem_map_of_mem he
  have horder := pass_inOrder h
  have hover : e.after.clock ≤ p.source.2.clock + limit :=
    (clock_le_target h he).2.trans hin.duration
  constructor
  · rintro c hop ⟨ce, hce, hfinds⟩
    obtain rfl : c = p.label.req.native := horder.initiates_native _ hcall c hop
    rcases hin.early with hearly | hidle
    · exact hover.trans hearly.1
    · exact absurd hfinds (hidle.initiate e he _ hop ce hce)
  · rintro req hop hrole ⟨ce, hce, hfinds⟩
    obtain rfl : req = p.label.req := by
      have hreq := pass_call_req h _ hcall
      rwa [show e.call.1 = _ from hop] at hreq
    rcases hin.early with hearly | hidle
    · exact hover.trans hearly.2
    · exact absurd hfinds (hidle.audit hrole e he _ hop ce hce)

theorem Decided.initiate_ok (hdecided : Decided H B p.label) {c : Contract} {err : GoError} :
    (⟨.initiate c, .error err⟩ : Call) ∉ p.label.calls := by
  intro hcall
  obtain ⟨e, he, hcall⟩ := List.mem_map.mp hcall
  have hallowed := h.1.allowed e he
  have halone := hdecided.initiate e he c (congrArg Sigma.fst hcall)
  obtain ⟨op, before, note, reply, after⟩ := e
  cases hcall
  cases Binder.initiate_leavesAlone hallowed halone

/-- A late audit that is decided passes, for a responder, or finds the swap expired. -/
theorem Decided.audit_cases (hdecided : Decided H B p.label)
    (hlate : Expired B p.label.req p.source.2) {reply : Except GoError Unit}
    (hcall : (⟨.audit p.label.req.foreign, reply⟩ : Call) ∈ p.label.calls) :
    reply = .error .swapExpired ∨
      p.label.req.blob.shouldInitiateFirst = false ∧ reply = .ok () := by
  obtain ⟨e, he, hcall⟩ := List.mem_map.mp hcall
  have hallowed := h.1.allowed e he
  have hclock := (clock_le_target h he).1
  have haudit := hdecided.audit e he _ (congrArg Sigma.fst hcall)
  obtain ⟨op, before, note, reply', after⟩ := e
  cases hcall
  rcases haudit with hnothing | ⟨hrole, hfinds⟩
  · exact .inl (Binder.audit_late hallowed (hlate.2.trans_le hclock) hnothing)
  · exact .inr ⟨hrole, (Binder.audit_funded_iff hallowed).2.mpr hfinds⟩

theorem Decided.auditSecret_cases (hdecided : Decided H B p.label)
    (hlate : Expired B p.label.req p.source.2) {reply : Except GoError Bytes32}
    (hcall : (⟨.auditSecret p.label.req.native, reply⟩ : Call) ∈ p.label.calls) :
    reply = .error .swapExpired ∨ ∃ secret, reply = .ok secret := by
  obtain ⟨e, he, hcall⟩ := List.mem_map.mp hcall
  have hallowed := h.1.allowed e he
  have hclock := (clock_le_target h he).1
  have haudit := hdecided.auditSecret e he _ (congrArg Sigma.fst hcall)
  obtain ⟨op, before, note, reply', after⟩ := e
  cases hcall
  rcases haudit with hunspent | hfinds
  · exact .inl (Binder.auditSecret_late hallowed (hlate.1.trans_le hclock) hunspent)
  · exact .inr (Binder.auditSecret_finds hallowed hfinds)

omit h in
theorem exists_event_of_call {op : Immediate.Op} {reply : Immediate.Reply op}
    (hcall : (⟨op, reply⟩ : Call) ∈ p.label.calls) : ∃ e ∈ p.label.events, e.op = op := by
  obtain ⟨e, he, heq⟩ := List.mem_map.mp hcall
  exact ⟨e, he, congrArg Sigma.fst heq⟩

/-- What a late pass leads to. -/
theorem pass_late_leads (hin : PassInTime H B limit p) (hlate : Expired B p.label.req p.source.2)
    (hbuilt : ⟨.buildSwapContracts p.label.req, .ok ()⟩ ∈ p.label.calls) :
    (∃ e ∈ p.label.events, e.op = .refund p.label.req.native) ∨
    .receiptUpdate ⟨p.label.req.id, .setStatus .expired⟩ ∈ p.label.batch ∨
    p.label.req.blob.shouldInitiateFirst = false ∧ ∃ e ∈ p.label.events, ∃ secret,
      e.op = .redeem p.label.req.foreign secret ∧
        Published e.before (B p.label.req.native).htlc secret := by
  have hdecided := hin.late hlate
  rcases pass_exits h with ⟨err, hcalls, -⟩ | ⟨calls, status, err, remove, hexit, hcalls, -,
    hbatch⟩
  · rw [hcalls] at hbuilt
    simp at hbuilt
  have hmem : ∀ c ∈ calls, c ∈ p.label.calls := fun c hc => by
    rw [hcalls]
    exact List.mem_cons_of_mem _ hc
  have hinitiate : ∀ err, (⟨.initiate p.label.req.native, .error err⟩ : Call) ∉ calls :=
    fun err hc => hdecided.initiate_ok h (hmem _ hc)
  cases hrole : p.label.req.blob.shouldInitiateFirst with
  | true =>
      have hinitiator : InitiateExit H p.label.req calls status err remove := by
        simpa [PassExit, hrole] using hexit
      obtain ⟨reply, hrefund⟩ := InitiateExit.refunds hinitiator hinitiate fun reply hc => by
        simpa [hrole] using hdecided.audit_cases h hlate (hmem _ hc)
      exact .inl (exists_event_of_call (hmem _ hrefund))
  | false =>
      have hresponder : RespondExit p.label.req calls status err remove := by
        simpa [PassExit, hrole] using hexit
      rcases RespondExit.leads hresponder hinitiate
          (fun reply hc => (hdecided.audit_cases h hlate (hmem _ hc)).imp_right And.right)
          (fun reply hc => hdecided.auditSecret_cases h hlate (hmem _ hc))
        with ⟨reply, hrefund⟩ | rfl | ⟨secret, reply, hredeem⟩
      · exact .inl (exists_event_of_call (hmem _ hrefund))
      · exact .inr (.inl (by simp [hbatch, newReceiptUpdate]))
      · obtain ⟨e, he, hop⟩ := exists_event_of_call (hmem _ hredeem)
        exact .inr (.inr ⟨rfl, e, he, secret, hop, redeem_published h hrole he hop⟩)

theorem pass_timely (hin : PassInTime H B limit p) : PassTimely B p.source.2 p.label := by
  have hops : ∀ e ∈ p.label.events, InTime B e := fun e he => hin.inTime h he
  constructor
  · exact pass_funds h hops
  · exact fun hrole e he c secret hop => (pass_reveals h hops hrole he hop).2
  · exact fun e he => pass_late_sends h hops he
  · exact fun hexpired status => pass_late_status h hops hexpired
  · exact pass_late_leads h hin

end PassInTime

/-- **Nothing irrevocable after expiry**, in every pass of a life whose passes are in
    time. -/
theorem passes_timely {w : World} {s : SwapMap × World}
    {ts : List (Transition (SwapMap × World) Life)} (h : Run (Lives H B) (∅, w) ts s) {limit : Int}
    (hin : ∀ t ∈ ts, ∀ l, t.label = .reduce l → ∀ ps, PassesOf H B t l ps →
      ∀ p ∈ ps, PassInTime H B limit p) :
    ∀ t ∈ ts, ∀ l, t.label = .reduce l → (∃ ps, PassesOf H B t l ps) ∧
      ∀ ps, PassesOf H B t l ps → ∀ p ∈ ps, PassTimely B p.source.2 p.label := by
  intro t ht l hl
  refine ⟨run_reduces_passes h ht hl, ?_⟩
  intro ps hps p hp
  exact pass_timely (hps.run.step_of_mem p hp) (hin t ht l hl ps hps p hp)

theorem openWorld_early (req : SwapRequest) : Early sampleBinders 3600 req openWorld := by
  exact ⟨show (1550000600 : Int) + 3600 ≤ 1550021600 by decide,
    show (1550000600 : Int) + 3600 ≤ 1550021600 by decide⟩

theorem run_clock_le {s s' : SwapMap × World} {ps : List (Transition (SwapMap × World) OpPass)}
    (h : Run (PassStep (contractStep H B) (task H)) s ps s') : s.2.clock ≤ s'.2.clock := by
  induction h with
  | nil => exact le_refl _
  | cons hstep _ ih =>
      have hevolves := hstep.1.preserves World.Evolves.refl World.Evolves.trans
        contractStep_evolves
      exact hevolves.clock.trans ih

/-- The clock stands still while the message is handled. -/
theorem hasty_inTime {l : OpReduction} {ps : List (Transition (SwapMap × World) OpPass)}
    (hps : PassesOf zeroHashes sampleBinders hastyTransition l ps) :
    ∀ p ∈ ps, PassInTime zeroHashes sampleBinders 3600 p := by
  intro p hp
  obtain ⟨us, vs, rfl⟩ := List.append_of_mem hp
  obtain ⟨m, hfirst, hrest⟩ := hps.run.split
  cases hrest with
  | @cons _ s₁ _ q _ hstep hrest =>
      have hsource : (1550000600 : Int) ≤ m.2.clock := run_clock_le hfirst
      have hpass := (run_clock_le (.cons hstep (.nil s₁)) : m.2.clock ≤ s₁.2.clock)
      have htarget : s₁.2.clock ≤ 1550000600 := run_clock_le hrest
      have hearly := openWorld_early q.req
      constructor
      · show s₁.2.clock ≤ m.2.clock + 3600
        omega
      · left
        unfold Early at hearly ⊢
        have hclock : m.2.clock = openWorld.clock := le_antisymm (hpass.trans htarget) hsource
        rwa [hclock]
      · intro hlate
        have hnative : (1550021600 : Int) < m.2.clock := hlate.1
        omega

theorem passes_timely_hasty :
    (∃ ps, PassesOf zeroHashes sampleBinders hastyTransition hastyReduction ps) ∧
      ∀ ps, PassesOf zeroHashes sampleBinders hastyTransition hastyReduction ps →
        ∀ p ∈ ps, PassTimely sampleBinders p.source.2 p.label := by
  have hin : ∀ t ∈ [hastyTransition], ∀ l, t.label = .reduce l → ∀ ps,
      PassesOf zeroHashes sampleBinders t l ps →
        ∀ p ∈ ps, PassInTime zeroHashes sampleBinders 3600 p := by
    intro t ht l _ ps hps
    obtain rfl := List.mem_singleton.mp ht
    exact hasty_inTime hps
  exact passes_timely hasty_run hin hastyTransition List.mem_cons_self hastyReduction rfl

/-! ### Funding an expired swap

Ether for WBTC: the daemon was down until the swap had expired, and funds it when it
resumes. -/

def lateBinders (c : Contract) : Binder :=
  match c.leg with
  | .native => .eth foreignBinder
  | .foreign => .erc20 nativeBinder

/-- Nothing is funded, and the timelock 1550021600 is a minute ago. -/
def lateWorld : World where
  clock := 1550021660
  blockTime := 1550021650
  phase _ := .unfunded
  revealed _ := []

def fundedWorld : World :=
  { lateWorld with
    phase := fun addr => if addr = foreignBinder.htlc.addr then .opened else .unfunded }

def lateRequest : SwapRequest where
  blob :=
    { id := "c7t5VHbJdx2M0PtRS6G3lN2nrRH1fX0arUoZYkFBlvI=", sendToken := "ETH",
      receiveToken := "WBTC", shouldInitiateFirst := true, timeLock := 1550021600 }

def lateSend : ClientEvent :=
  ⟨⟨foreignBinder.htlc, .send (foreignBinder.initiateTx foreignBinder.swap.value)⟩, lateWorld, (),
    .ok (), fundedWorld⟩

def lateInitiate : OpEvent :=
  ⟨.initiate lateRequest.native, lateWorld,
    [⟨⟨foreignBinder.htlc, .initiatable⟩, lateWorld, (), .ok true, lateWorld⟩,
      ⟨⟨foreignBinder.htlc, .schedule⟩, lateWorld, (), ([.send, .poll], "timeout"), lateWorld⟩,
      lateSend,
      ⟨⟨foreignBinder.htlc, .initiatable⟩, fundedWorld, (), .ok false, fundedWorld⟩],
    .ok (), fundedWorld⟩

def lateReduction : OpReduction where
  input := .request lateRequest
  events :=
    [⟨.buildSwapContracts lateRequest, lateWorld, [], .ok (), lateWorld⟩,
      lateInitiate,
      ⟨.audit lateRequest.foreign, fundedWorld,
        [⟨⟨nativeBinder.htlc, .initiatable⟩, fundedWorld, (), .error (.errorf "no node"),
          fundedWorld⟩],
        .error (.errorf "no node"), fundedWorld⟩]
  output :=
    [.receiptUpdate ⟨lateRequest.id, .setStatus .auditPending⟩, .error (.errorf "no node")]

def lateTransition : Transition (SwapMap × World) Life :=
  ⟨(∅, lateWorld), .reduce lateReduction,
    ((∅ : SwapMap).insert lateRequest.id lateRequest, fundedWorld)⟩

theorem lateWorld_evolves : lateWorld.Evolves fundedWorld :=
  ⟨le_refl _, le_refl _, fun _ => trivial, fun _ => List.Subset.refl _⟩

theorem fundedWorld_answer :
    Truthful foreignBinder.htlc fundedWorld .initiatable (.ok false) := by
  simp [Truthful, fundedWorld]

theorem late_run :
    Run (Lives zeroHashes lateBinders) (∅, lateWorld) [lateTransition] lateTransition.target := by
  have hinitiate : Exec clientStep foreignBinder.initiate lateWorld lateInitiate.note (.ok ())
      fundedWorld :=
    .call ⟨.refl _, rfl⟩ (.call ⟨.refl _, trivial⟩
      (.call ⟨lateWorld_evolves, trivial⟩ (.call ⟨.refl _, fundedWorld_answer⟩ (.pure _ _))))
  have haudit : Exec clientStep (nativeBinder.audit EthBinder.erc20Mismatch) fundedWorld
      [⟨⟨nativeBinder.htlc, .initiatable⟩, fundedWorld, (), .error (.errorf "no node"),
        fundedWorld⟩] (.error (.errorf "no node")) fundedWorld :=
    .call ⟨.refl _, trivial⟩ (.pure _ _)
  refine .cons ⟨trivial, ?_⟩ (.nil _)
  exact .call ⟨rfl, .refl _⟩ (.call hinitiate (.call haudit (.pure _ _)))

/-- The funding transaction is sent a minute after the timelock. -/
theorem late_swap_funded :
    Run (Lives zeroHashes lateBinders) (∅, lateWorld) [lateTransition] lateTransition.target ∧
    lateInitiate ∈ lateTransition.label.events ∧ lateInitiate.op = .initiate lateRequest.native ∧
    lateSend ∈ lateInitiate.note ∧ Sends lateSend ∧
    (lateBinders lateRequest.native).htlc.timeLock < lateSend.before.clock := by
  refine ⟨late_run, ?_, rfl, ?_, ⟨_, rfl⟩, by decide⟩
  · simp [lateTransition, Life.events, lateReduction]
  · simp [lateInitiate]

end Swapperd.Chain
