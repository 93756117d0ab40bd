/-
  Swapperd/ContractWorld.lean
  ===========================
  **The chain that the binders run against, and what their operations return there.**

  An HTLC is unfunded, then open, then redeemed or refunded.  Other parties act at any
  time: the world may evolve before every query.  A query may fail; when it is answered,
  it is answered truthfully (`Truthful`).  The swap contracts compare timelocks to the
  block time, the binders to their own clock.

  `redeem_truthful_iff` and `refund_truthful_iff` say exactly on which answers a nil of
  `Redeem` or `Refund` tells the truth.
-/
import Swapperd.SwapContracts

namespace Swapperd.Chain

open CallProgram GoLibrary

/-! ### Worlds -/

inductive Phase where
  | unfunded
  | opened
  | redeemed
  | refunded
deriving DecidableEq, Repr

/-- The phases that can follow a phase. -/
def Phase.Le : Phase → Phase → Prop
  | .unfunded, _ => True
  | .opened, p => p ≠ .unfunded
  | .redeemed, p => p = .redeemed
  | .refunded, p => p = .refunded

theorem Phase.Le.refl (p : Phase) : p.Le p := by
  cases p <;> simp [Phase.Le]

theorem Phase.Le.trans {p q r : Phase} (h : p.Le q) (h' : q.Le r) : p.Le r := by
  cases p <;> cases q <;> simp_all [Phase.Le]

/-- `revealed` lists the data pushed or passed when an HTLC was spent. -/
structure World where
  clock : Int
  blockTime : Int
  phase : (addr : String) → Phase
  revealed : (addr : String) → List (List UInt8)

structure World.Evolves (w w' : World) : Prop where
  clock : w.clock ≤ w'.clock
  blockTime : w.blockTime ≤ w'.blockTime
  phase : ∀ addr, (w.phase addr).Le (w'.phase addr)
  revealed : ∀ addr, w.revealed addr ⊆ w'.revealed addr

theorem World.Evolves.refl (w : World) : w.Evolves w :=
  ⟨le_refl _, le_refl _, fun _ => .refl _, fun _ => List.Subset.refl _⟩

theorem World.Evolves.trans {w₁ w₂ w₃ : World} (h : w₁.Evolves w₂) (h' : w₂.Evolves w₃) :
    w₁.Evolves w₃ where
  clock := le_trans h.clock h'.clock
  blockTime := le_trans h.blockTime h'.blockTime
  phase addr := (h.phase addr).trans (h'.phase addr)
  revealed addr := List.Subset.trans (h.revealed addr) (h'.revealed addr)

/-- What an answer to a query says is so. -/
def Truthful (htlc : Htlc) (w : World) : (query : Query) → Answer query → Prop
  | .now, time => time = w.clock
  | .initiatable, .ok answer => answer = decide (w.phase htlc.addr = .unfunded)
  | .redeemable, .ok answer => answer = decide (w.phase htlc.addr = .opened)
  | .refundable, .ok answer =>
      answer = decide (w.phase htlc.addr = .opened ∧ htlc.timeLock ≤ w.blockTime)
  | .auditSecret, .ok secret =>
      w.phase htlc.addr = .redeemed ∧ secret.1 ∈ w.revealed htlc.addr
  | .scriptSpent, .ok answer =>
      answer = decide (w.phase htlc.addr = .redeemed ∨ w.phase htlc.addr = .refunded)
  | .pushesOfSpent, .ok pushes => ∀ push ∈ pushes, push ∈ w.revealed htlc.addr
  | _, _ => True

abbrev ClientEvent := Event Op Reply World Unit
abbrev ClientCall := (op : Op) × Reply op

/-- The world evolves, then the query is answered. -/
def clientStep : Behaviour Op Reply World Unit := fun op w _ reply w' =>
  w.Evolves w' ∧ Truthful op.htlc w' op.query reply

theorem exec_evolves {α : Type} {p : Calls α} {w w' : World} {events : List ClientEvent} {a : α}
    (h : Exec clientStep p w events a w') : w.Evolves w' :=
  h.preserves World.Evolves.refl World.Evolves.trans (fun hstep => hstep.1)

/-! ### Checks -/

section Transact

variable {htlc : Htlc} {w w' : World} {events : List ClientEvent}

/-- The event is the check's query, and the callback returned `a` on its answer. -/
def Passes {α : Type} (htlc : Htlc) (c : Check α) (a : α) (e : ClientEvent) : Prop :=
  ∃ answer, e.call = (⟨⟨htlc, c.query⟩, answer⟩ : ClientCall) ∧ c.read answer = some a

theorem check_exec {α : Type} {c : Check α} {result : Option α}
    (h : Exec clientStep (htlc.check c) w events result w') :
    ∃ e : ClientEvent, events = [e] ∧ e.before = w ∧ e.after = w' ∧
      e.op = ⟨htlc, c.query⟩ ∧ ∀ a, result = some a ↔ Passes htlc c a e := by
  unfold Htlc.check Htlc.ask at h
  obtain ⟨n, answer, w₁, rest, rfl, -, h⟩ := exec_perform_bind_iff.mp h
  obtain ⟨rfl, rfl, rfl⟩ := exec_pure_iff.mp h
  refine ⟨_, rfl, rfl, rfl, rfl, ?_⟩
  intro a
  constructor
  · intro hread
    exact ⟨answer, rfl, hread⟩
  · rintro ⟨answer', hcall, hread⟩
    cases hcall
    exact hread

/-- The query reads the chain. -/
def Query.Reads : Query → Prop
  | .schedule | .send _ => False
  | _ => True

/-- A poll of a query that reads does not pass on another call. -/
theorem not_passes_of_op {α : Type} {c : Check α} {a : α} {e : ClientEvent} {query : Query}
    (hop : e.op = ⟨htlc, query⟩) (hquery : ¬ query.Reads) (hreads : c.query.Reads) :
    ¬ Passes htlc c a e := by
  rintro ⟨answer, hcall, -⟩
  have hop' : e.op = ⟨htlc, c.query⟩ := congrArg Sigma.fst hcall
  rw [hop] at hop'
  rw [(Op.mk.inj hop').2] at hquery
  exact hquery hreads

/-- What the rounds return, and on which events. -/
structure RoundsResult (htlc : Htlc) (tx : Tx) (post : Check Unit) (events : List ClientEvent)
    (result : Except GoError Unit) (w' : World) : Prop where
  ops : ∀ e ∈ events, e.op = ⟨htlc, .send tx⟩ ∨ e.op = ⟨htlc, post.query⟩
  error : result ≠ .error .preConditionCheckFailed
  ok : result = .ok () → ∃ e ∈ events, Passes htlc post () e
  passes : ∀ e ∈ events, Passes htlc post () e → result = .ok () ∧ e.after = w'

theorem runRounds_exec {tx : Tx} {post : Check Unit} (hpost : post.query.Reads)
    {giveUp : String} {rounds : List Round} {result : Except GoError Unit}
    (h : Exec clientStep (runRounds htlc tx (some post) giveUp rounds) w events result w') :
    RoundsResult htlc tx post events result w' := by
  induction rounds generalizing w events with
  | nil =>
      obtain ⟨rfl, rfl, rfl⟩ := exec_pure_iff.mp h
      constructor <;> simp
  | cons round rounds ih =>
      cases round with
      | send =>
          unfold runRounds Htlc.ask at h
          obtain ⟨n, reply, w₁, rest, rfl, -, h⟩ := exec_perform_bind_iff.mp h
          have hrest := ih h
          have hnot : ¬ Passes htlc post () (⟨⟨htlc, .send tx⟩, w, n, reply, w₁⟩ : ClientEvent) :=
            not_passes_of_op rfl id hpost
          refine ⟨?_, hrest.error, ?_, ?_⟩
          · simpa using hrest.ops
          · intro hok
            obtain ⟨e, he, hpasses⟩ := hrest.ok hok
            exact ⟨e, List.mem_cons_of_mem _ he, hpasses⟩
          · intro e he hpasses
            rcases List.mem_cons.mp he with rfl | he
            · exact absurd hpasses hnot
            · exact hrest.passes e he hpasses
      | poll =>
          unfold runRounds at h
          obtain ⟨answer, w₁, first, rest, rfl, hcheck, h⟩ := exec_bind_iff.mp h
          obtain ⟨e, rfl, -, hafter, hop, hanswer⟩ := check_exec hcheck
          cases answer with
          | some u =>
              obtain ⟨rfl, rfl, rfl⟩ := exec_pure_iff.mp h
              have hpasses : Passes htlc post () e := (hanswer ()).mp rfl
              refine ⟨by simp [hop], by simp, fun _ => ⟨e, by simp, hpasses⟩, ?_⟩
              intro e' he' _
              obtain rfl : e' = e := by simpa using he'
              exact ⟨rfl, hafter⟩
          | none =>
              have hrest := ih h
              have hnot : ¬ Passes htlc post () e := fun hpasses => by
                simpa using (hanswer ()).mpr hpasses
              refine ⟨?_, hrest.error, ?_, ?_⟩
              · simpa [hop] using hrest.ops
              · intro hok
                obtain ⟨e', he', hpasses⟩ := hrest.ok hok
                exact ⟨e', by simp [he'], hpasses⟩
              · intro e' he' hpasses
                rcases List.mem_append.mp he' with he' | he'
                · obtain rfl := List.mem_singleton.mp he'
                  exact absurd hpasses hnot
                · exact hrest.passes e' he' hpasses

/-- What an operation returns that skips a failed pre-condition, and on which events:
    the first one is the query of the pre-condition. -/
structure TransactResult (htlc : Htlc) (pre : Check Tx) (post : Check Unit)
    (events : List ClientEvent) (result : Except GoError Unit) (w' : World) : Prop where
  nonempty : events ≠ []
  first : ∀ first rest, events = first :: rest → first.op = ⟨htlc, pre.query⟩
  skipped : ∀ first rest, events = first :: rest → (¬ ∃ tx, Passes htlc pre tx first) →
    rest = [] ∧ result = .ok () ∧ first.after = w'
  sent : ∀ first rest tx, events = first :: rest → Passes htlc pre tx first →
    (∀ e ∈ rest, e.op = ⟨htlc, .schedule⟩ ∨ e.op = ⟨htlc, .send tx⟩ ∨
      e.op = ⟨htlc, post.query⟩) ∧
    (result = .ok () → ∃ e ∈ rest, Passes htlc post () e) ∧
    ∀ e ∈ rest, Passes htlc post () e → result = .ok () ∧ e.after = w'

theorem transact_exec {pre : Check Tx} {post : Check Unit} (hpost : post.query.Reads)
    {result : Except GoError Unit}
    (h : Exec clientStep (transact htlc pre post) w events result w') :
    TransactResult htlc pre post events (skipFailedCheck result) w' := by
  unfold transact at h
  obtain ⟨answer, w₁, first, rest, rfl, hcheck, h⟩ := exec_bind_iff.mp h
  obtain ⟨e, rfl, -, hafter, hop, hanswer⟩ := check_exec hcheck
  cases answer with
  | none =>
      obtain ⟨rfl, rfl, rfl⟩ := exec_pure_iff.mp h
      have hnot : ∀ tx, ¬ Passes htlc pre tx e := fun tx hpasses => by
        simpa using (hanswer tx).mpr hpasses
      constructor
      · simp
      · intro f r heq
        obtain ⟨rfl, rfl⟩ := List.cons.inj heq
        exact hop
      · intro f r heq _
        obtain ⟨rfl, rfl⟩ := List.cons.inj heq
        exact ⟨rfl, rfl, hafter⟩
      · intro f r tx heq hpasses
        obtain ⟨rfl, rfl⟩ := List.cons.inj heq
        exact absurd hpasses (hnot tx)
  | some tx =>
      have htx : Passes htlc pre tx e := (hanswer tx).mp rfl
      unfold submit Htlc.ask at h
      obtain ⟨n, ⟨rounds, giveUp⟩, w₂, rest', rfl, -, h⟩ := exec_perform_bind_iff.mp h
      have hrounds := runRounds_exec hpost h
      have hresult : skipFailedCheck result = result := by
        unfold skipFailedCheck
        split
        · exact absurd rfl hrounds.error
        · rfl
      rw [hresult]
      have hschedule : ¬ Passes htlc post ()
          (⟨⟨htlc, .schedule⟩, w₁, n, (rounds, giveUp), w₂⟩ : ClientEvent) :=
        not_passes_of_op rfl id hpost
      constructor
      · simp
      · intro f r heq
        obtain ⟨rfl, rfl⟩ := List.cons.inj heq
        exact hop
      · intro f r heq hnot
        obtain ⟨rfl, rfl⟩ := List.cons.inj heq
        exact absurd ⟨tx, htx⟩ hnot
      · intro f r tx' heq hpasses
        obtain ⟨rfl, rfl⟩ := List.cons.inj heq
        obtain rfl : tx = tx' := Option.some.inj ((hanswer tx').mpr hpasses)
        refine ⟨?_, ?_, ?_⟩
        · intro e' he'
          rcases List.mem_cons.mp he' with rfl | he'
          · exact .inl rfl
          · exact .inr (hrounds.ops e' he')
        · intro hok
          obtain ⟨e', he', hpasses'⟩ := hrounds.ok hok
          exact ⟨e', List.mem_cons_of_mem _ he', hpasses'⟩
        · intro e' he' hpasses'
          rcases List.mem_cons.mp he' with rfl | he'
          · exact absurd hpasses' hschedule
          · exact hrounds.passes e' he' hpasses'

/-- An operation that ends with its transaction. -/
theorem transactThen_exec {pre : Check Tx} {post : Check Unit}
    {f : Except GoError Unit → Except GoError Unit} {result : Except GoError Unit}
    (h : Exec clientStep ((transact htlc pre post).bind fun err => .pure (f err)) w events result
      w') (hpost : post.query.Reads) :
    ∃ err, result = f err ∧ TransactResult htlc pre post events (skipFailedCheck err) w' := by
  obtain ⟨err, w₁, first, second, rfl, htransact, h⟩ := exec_bind_iff.mp h
  obtain ⟨rfl, rfl, rfl⟩ := exec_pure_iff.mp h
  rw [List.append_nil]
  exact ⟨err, rfl, transact_exec hpost htransact⟩

theorem transactSkipping_exec {pre : Check Tx} {post : Check Unit}
    {result : Except GoError Unit}
    (h : Exec clientStep ((transact htlc pre post).bind fun err => .pure (skipFailedCheck err)) w
      events result w') (hpost : post.query.Reads) :
    TransactResult htlc pre post events result w' := by
  obtain ⟨err, rfl, hresult⟩ := transactThen_exec h hpost
  exact hresult

/-- The first event of an operation satisfies `First`, every later one `Later`. -/
def FirstThen (First Later : ClientEvent → Prop) (events : List ClientEvent) : Prop :=
  ∀ first rest, events = first :: rest → First first ∧ ∀ e ∈ rest, Later e

/-- A nil tells the truth exactly if the HTLC is in the wanted phase whenever the
    pre-condition fails and whenever a poll of the post-condition passes. -/
theorem TransactResult.nil_iff {pre : Check Tx} {post : Check Unit}
    {result : Except GoError Unit} (h : TransactResult htlc pre post events result w')
    (G : Phase → Prop) :
    (result = .ok () → G (w'.phase htlc.addr)) ↔
      FirstThen (fun e => G (e.after.phase htlc.addr) ∨ ∃ tx, Passes htlc pre tx e)
        (fun e => Passes htlc post () e → G (e.after.phase htlc.addr)) events := by
  obtain ⟨first, rest, rfl⟩ := List.exists_cons_of_ne_nil h.nonempty
  by_cases hpre : ∃ tx, Passes htlc pre tx first
  · obtain ⟨tx, htx⟩ := hpre
    obtain ⟨-, hok, hpasses⟩ := h.sent first rest tx rfl htx
    constructor
    · intro htruth f r heq
      obtain ⟨rfl, rfl⟩ := List.cons.inj heq
      refine ⟨.inr ⟨tx, htx⟩, fun e he hpoll => ?_⟩
      obtain ⟨hresult, hafter⟩ := hpasses e he hpoll
      rw [hafter]
      exact htruth hresult
    · intro hevents hresult
      obtain ⟨e, he, hpoll⟩ := hok hresult
      rw [← (hpasses e he hpoll).2]
      exact (hevents first rest rfl).2 e he hpoll
  · obtain ⟨rfl, hresult, hafter⟩ := h.skipped first rest rfl hpre
    constructor
    · intro htruth f r heq
      obtain ⟨rfl, rfl⟩ := List.cons.inj heq
      refine ⟨.inl ?_, by simp⟩
      rw [hafter]
      exact htruth hresult
    · intro hevents _
      rw [← hafter]
      rcases (hevents first [] rfl).1 with hphase | htx
      · exact hphase
      · exact absurd htx hpre

theorem firstThen_congr {First First' Later Later' : ClientEvent → Prop}
    (hfirst : ∀ e ∈ events, (First e ↔ First' e)) (hlater : ∀ e ∈ events, (Later e ↔ Later' e)) :
    FirstThen First Later events ↔ FirstThen First' Later' events := by
  cases events with
  | nil => simp [FirstThen]
  | cons first rest =>
      have hf := hfirst first List.mem_cons_self
      have hl : (∀ e ∈ rest, Later e) ↔ ∀ e ∈ rest, Later' e := by
        constructor
        · intro h e he
          exact (hlater e (List.mem_cons_of_mem _ he)).mp (h e he)
        · intro h e he
          exact (hlater e (List.mem_cons_of_mem _ he)).mpr (h e he)
      simp only [FirstThen, List.cons.injEq, and_imp, forall_apply_eq_imp_iff, forall_eq', hf, hl]

theorem firstThen_nil (First Later : ClientEvent → Prop) : FirstThen First Later [] := by
  intro first rest h
  simp at h

end Transact

/-! ### Truthful answers -/

/-- The event is a query with its answer. -/
def Answers (htlc : Htlc) (query : Query) (answer : Answer query) (e : ClientEvent) : Prop :=
  e.call = (⟨⟨htlc, query⟩, answer⟩ : ClientCall)

/-- The event is one that a run of a client may have. -/
def Allowed (e : ClientEvent) : Prop := clientStep e.op e.before e.note e.reply e.after

theorem Answers.truthful {htlc : Htlc} {query : Query} {answer : Answer query} {e : ClientEvent}
    (h : Answers htlc query answer e) (he : Allowed e) : Truthful htlc e.after query answer := by
  obtain ⟨op, before, note, reply, after⟩ := e
  cases h
  exact he.2

theorem expect_eq_some_iff {α : Type} {expected : Bool} {a a' : α} {answer : Except GoError Bool} :
    expect expected a answer = some a' ↔ answer = .ok expected ∧ a' = a := by
  cases answer with
  | error err => simp [expect]
  | ok answer => simp [expect, eq_comm]

/-- The HTLC was never funded, or its funds are back. -/
def Phase.Unheld (p : Phase) : Prop := p = .unfunded ∨ p = .refunded

/-- On what a redeem may rely: either the HTLC was redeemed already, or the first query
    answers that it can be redeemed, with enough in it; and no poll is answered that
    would take another state of the HTLC for a redemption. -/
def Binder.RedeemInformed : Binder → List ClientEvent → Prop
  | .btc _ b => FirstThen
      (fun e => e.after.phase b.htlc.addr = .redeemed ∨
        ∃ val, Answers b.htlc (.scriptRedeemed 0) (.ok (false, val)) e ∧
          600 ≤ int64 (val - int64 b.swap.brokerFee - b.fee))
      (fun e => ∀ answer, Answers b.htlc .scriptSpent (.ok answer) e →
        e.after.phase b.htlc.addr ≠ .refunded)
  | .eth b | .erc20 b => FirstThen
      (fun e => e.after.phase b.htlc.addr = .redeemed ∨
        e.after.phase b.htlc.addr = .opened ∧ ∃ answer, Answers b.htlc .redeemable (.ok answer) e)
      (fun e => ∀ answer, Answers b.htlc .refundable (.ok answer) e →
        e.after.phase b.htlc.addr = .redeemed ∨
          e.after.phase b.htlc.addr = .opened ∧ b.htlc.timeLock ≤ e.after.blockTime)

/-- On what a refund may rely. -/
def Binder.RefundInformed : Binder → List ClientEvent → Prop
  | .btc _ b => FirstThen
      (fun e => (e.after.phase b.htlc.addr).Unheld ∨
        ∃ val, Answers b.htlc (.scriptFunded 0) (.ok (true, val)) e)
      (fun e => ∀ answer, Answers b.htlc .scriptSpent (.ok answer) e →
        e.after.phase b.htlc.addr ≠ .redeemed)
  | .eth b | .erc20 b => FirstThen
      (fun e => (e.after.phase b.htlc.addr).Unheld ∨
        e.after.phase b.htlc.addr = .opened ∧ b.htlc.timeLock ≤ e.after.blockTime ∧
          ∃ answer, Answers b.htlc .refundable (.ok answer) e)
      (fun e => ∀ answer, Answers b.htlc .refundable (.ok answer) e →
        (e.after.phase b.htlc.addr).Unheld ∨
          e.after.phase b.htlc.addr = .opened ∧ b.htlc.timeLock ≤ e.after.blockTime)

section Informed

variable {w w' : World} {events : List ClientEvent} {result : Except GoError Unit}

theorem EthBinder.redeem_exec {b : EthBinder} {secret : Bytes32}
    (h : Exec clientStep (b.redeem secret) w events result w') :
    TransactResult b.htlc ⟨.redeemable, expect true (.redeem b.swap.withdrawAddress secret)⟩
      ⟨.refundable, expect false ()⟩ events result w' := by
  unfold EthBinder.redeem at h
  exact transactSkipping_exec h trivial

theorem EthBinder.refund_exec {b : EthBinder}
    (h : Exec clientStep b.refund w events result w') :
    TransactResult b.htlc ⟨.refundable, expect true .refund⟩ ⟨.refundable, expect false ()⟩
      events result w' := by
  unfold EthBinder.refund at h
  exact transactSkipping_exec h trivial

/-- A passed poll of `!refundable` means `G` exactly if every answered one finds `G`, or the
    HTLC open past its timelock. -/
theorem EthBinder.poll_iff {b : EthBinder} {e : ClientEvent} {G : Prop} (he : Allowed e) :
    (Passes b.htlc ⟨.refundable, expect false ()⟩ () e → G) ↔
      ∀ answer, Answers b.htlc .refundable (.ok answer) e →
        G ∨ e.after.phase b.htlc.addr = .opened ∧ b.htlc.timeLock ≤ e.after.blockTime := by
  constructor
  · intro hpoll answer hanswer
    have htrue := hanswer.truthful he
    cases answer with
    | false => exact .inl (hpoll ⟨_, hanswer, by simp [expect]⟩)
    | true => exact .inr (by simpa [Truthful] using htrue)
  · rintro hanswers ⟨answer, hanswer, hread⟩
    obtain ⟨rfl, -⟩ := expect_eq_some_iff.mp hread
    have hfalse := Answers.truthful hanswer he
    rcases hanswers false hanswer with hgoal | ⟨hopened, htime⟩
    · exact hgoal
    · simp [Truthful, hopened, htime] at hfalse

theorem EthBinder.redeem_truthful_iff {b : EthBinder} {secret : Bytes32}
    (h : Exec clientStep (b.redeem secret) w events result w') :
    (result = .ok () → w'.phase b.htlc.addr = .redeemed) ↔
      (Binder.eth b).RedeemInformed events := by
  rw [(EthBinder.redeem_exec h).nil_iff (fun p => p = .redeemed)]
  apply firstThen_congr
  · intro e he
    have hallowed : Allowed e := h.allowed e he
    apply or_congr_right
    constructor
    · rintro ⟨tx, answer, hanswer, hread⟩
      obtain ⟨rfl, -⟩ := expect_eq_some_iff.mp hread
      have htrue := Answers.truthful hanswer hallowed
      exact ⟨by simpa [Truthful] using htrue, true, hanswer⟩
    · rintro ⟨hopened, answer, hanswer⟩
      have htrue : answer = true := by simpa [Truthful, hopened] using hanswer.truthful hallowed
      subst htrue
      exact ⟨_, _, hanswer, by simp [expect]; rfl⟩
  · intro e he
    exact EthBinder.poll_iff (h.allowed e he)

theorem EthBinder.refund_truthful_iff {b : EthBinder}
    (h : Exec clientStep b.refund w events result w') :
    (result = .ok () → (w'.phase b.htlc.addr).Unheld) ↔
      (Binder.eth b).RefundInformed events := by
  rw [(EthBinder.refund_exec h).nil_iff Phase.Unheld]
  apply firstThen_congr
  · intro e he
    have hallowed : Allowed e := h.allowed e he
    apply or_congr_right
    constructor
    · rintro ⟨tx, answer, hanswer, hread⟩
      obtain ⟨rfl, -⟩ := expect_eq_some_iff.mp hread
      have htrue := Answers.truthful hanswer hallowed
      obtain ⟨hopened, htime⟩ : e.after.phase b.htlc.addr = .opened ∧
        b.htlc.timeLock ≤ e.after.blockTime := by simpa [Truthful] using htrue
      exact ⟨hopened, htime, true, hanswer⟩
    · rintro ⟨hopened, htime, answer, hanswer⟩
      have htrue : answer = true := by
        simpa [Truthful, hopened, htime] using hanswer.truthful hallowed
      subst htrue
      exact ⟨_, _, hanswer, by simp [expect]; rfl⟩
  · intro e he
    exact EthBinder.poll_iff (h.allowed e he)

open Bitcoin (SwapContractBinder Account)

/-- A redeem of the Bitcoin binder fails before its first query, or it is a
    transaction. -/
theorem btc_redeem_exec {b : SwapContractBinder} {account : Account} {secret : Bytes32}
    (h : Exec clientStep (b.redeem account secret) w events result w') :
    (events = [] ∧ result ≠ .ok ()) ∨ ∃ pkScript feePkScript,
      TransactResult b.htlc (b.redeemCheck secret pkScript feePkScript)
        SwapContractBinder.spentCheck events result w' := by
  unfold SwapContractBinder.redeem at h
  split at h
  · obtain ⟨rfl, rfl, rfl⟩ := exec_pure_iff.mp h
    exact .inl ⟨rfl, by simp⟩
  · split at h
    · obtain ⟨rfl, rfl, rfl⟩ := exec_pure_iff.mp h
      exact .inl ⟨rfl, by simp⟩
    · exact .inr ⟨_, _, transactSkipping_exec h trivial⟩

theorem btc_refund_exec {b : SwapContractBinder} {account : Account}
    (h : Exec clientStep (b.refund account) w events result w') :
    (events = [] ∧ result ≠ .ok ()) ∨ ∃ pkScript result',
      (result = .ok () ↔ result' = .ok ()) ∧
      TransactResult b.htlc (b.refundCheck pkScript) SwapContractBinder.spentCheck events
        result' w' := by
  unfold SwapContractBinder.refund at h
  split at h
  · obtain ⟨rfl, rfl, rfl⟩ := exec_pure_iff.mp h
    exact .inl ⟨rfl, by simp⟩
  · split at h
    · obtain ⟨rfl, rfl, rfl⟩ := exec_pure_iff.mp h
      exact .inl ⟨rfl, by simp⟩
    · obtain ⟨err, rfl, hresult⟩ := transactThen_exec h trivial
      refine .inr ⟨_, skipFailedCheck err, ?_, hresult⟩
      cases skipFailedCheck err <;> simp

/-- What a poll of `scriptSpent` tells. -/
theorem spent_passes_iff {b : SwapContractBinder} {e : ClientEvent} (he : Allowed e) :
    Passes b.htlc SwapContractBinder.spentCheck () e ↔
      (∃ answer, Answers b.htlc .scriptSpent (.ok answer) e) ∧
        (e.after.phase b.htlc.addr = .redeemed ∨ e.after.phase b.htlc.addr = .refunded) := by
  constructor
  · rintro ⟨answer, hanswer, hread⟩
    obtain ⟨rfl, -⟩ := expect_eq_some_iff.mp hread
    have htrue := Answers.truthful hanswer he
    exact ⟨⟨true, hanswer⟩, by simpa [Truthful, SwapContractBinder.spentCheck] using htrue⟩
  · rintro ⟨⟨answer, hanswer⟩, hphase⟩
    have htrue : answer = true := by simpa [Truthful, hphase] using hanswer.truthful he
    subst htrue
    exact ⟨_, hanswer, by simp [SwapContractBinder.spentCheck, expect]⟩

theorem btc_redeem_truthful_iff {b : SwapContractBinder} {account : Account} {secret : Bytes32}
    (h : Exec clientStep (b.redeem account secret) w events result w') :
    (result = .ok () → w'.phase b.htlc.addr = .redeemed) ↔
      (Binder.btc account b).RedeemInformed events := by
  rcases btc_redeem_exec h with ⟨rfl, hresult⟩ | ⟨pkScript, feePkScript, htransact⟩
  · exact iff_of_true (fun hok => absurd hok hresult) (firstThen_nil _ _)
  rw [htransact.nil_iff (fun p => p = .redeemed)]
  apply firstThen_congr
  · intro e he
    apply or_congr_right
    constructor
    · rintro ⟨tx, answer, hanswer, hread⟩
      unfold SwapContractBinder.redeemCheck at hread hanswer
      dsimp only at hread
      split at hread
      · cases hread
      · cases hread
      · split at hread
        · cases hread
        · rename_i val hval
          exact ⟨val, hanswer, by omega⟩
    · rintro ⟨val, hanswer, hval⟩
      have hread : (b.redeemCheck secret pkScript feePkScript).read (.ok (false, val)) =
          some (.btcRedeem [⟨int64 b.swap.brokerFee, feePkScript⟩,
            ⟨int64 (val - int64 b.swap.brokerFee - b.fee), pkScript⟩] secret) :=
        if_neg (by omega)
      exact ⟨_, _, hanswer, hread⟩
  · intro e he
    rw [spent_passes_iff (h.allowed e he)]
    constructor
    · rintro hpoll answer hanswer hrefunded
      have hredeemed := hpoll ⟨⟨answer, hanswer⟩, .inr hrefunded⟩
      rw [hrefunded] at hredeemed
      cases hredeemed
    · rintro hanswers ⟨⟨answer, hanswer⟩, hredeemed | hrefunded⟩
      · exact hredeemed
      · exact absurd hrefunded (hanswers answer hanswer)

theorem btc_refund_truthful_iff {b : SwapContractBinder} {account : Account}
    (h : Exec clientStep (b.refund account) w events result w') :
    (result = .ok () → (w'.phase b.htlc.addr).Unheld) ↔
      (Binder.btc account b).RefundInformed events := by
  rcases btc_refund_exec h with ⟨rfl, hresult⟩ | ⟨pkScript, result', hiff, htransact⟩
  · exact iff_of_true (fun hok => absurd hok hresult) (firstThen_nil _ _)
  rw [hiff, htransact.nil_iff Phase.Unheld]
  apply firstThen_congr
  · intro e he
    apply or_congr_right
    constructor
    · rintro ⟨tx, answer, hanswer, hread⟩
      unfold SwapContractBinder.refundCheck at hread hanswer
      dsimp only at hread
      split at hread
      · cases hread
      · cases hread
      · exact ⟨_, hanswer⟩
    · rintro ⟨val, hanswer⟩
      exact ⟨_, _, hanswer, rfl⟩
  · intro e he
    rw [spent_passes_iff (h.allowed e he)]
    constructor
    · rintro hpoll answer hanswer hredeemed
      have hunheld := hpoll ⟨⟨answer, hanswer⟩, .inl hredeemed⟩
      simp [Phase.Unheld, hredeemed] at hunheld
    · rintro hanswers ⟨⟨answer, hanswer⟩, hredeemed | hrefunded⟩
      · exact absurd hredeemed (hanswers answer hanswer)
      · exact .inr hrefunded

/-- **A nil of `Redeem` tells the truth** exactly on these answers. -/
theorem Binder.redeem_truthful_iff {b : Binder} {secret : Bytes32}
    (h : Exec clientStep (b.redeem secret) w events result w') :
    (result = .ok () → w'.phase b.htlc.addr = .redeemed) ↔ b.RedeemInformed events := by
  cases b with
  | btc account b => exact btc_redeem_truthful_iff h
  | eth b => exact EthBinder.redeem_truthful_iff h
  | erc20 b => exact EthBinder.redeem_truthful_iff h

/-- **A nil of `Refund` tells the truth** exactly on these answers. -/
theorem Binder.refund_truthful_iff {b : Binder}
    (h : Exec clientStep b.refund w events result w') :
    (result = .ok () → (w'.phase b.htlc.addr).Unheld) ↔ b.RefundInformed events := by
  cases b with
  | btc account b => exact btc_refund_truthful_iff h
  | eth b => exact EthBinder.refund_truthful_iff h
  | erc20 b => exact EthBinder.refund_truthful_iff h

end Informed

/-! ### Audits -/

/-- The query failed with the error. -/
def Query.FailsWith (err : GoError) : (query : Query) → Answer query → Prop
  | .initiatable, answer | .redeemable, answer | .refundable, answer | .scriptSpent, answer =>
      answer = .error err
  | .audit, answer => answer = .error err
  | .auditSecret, answer => answer = .error err
  | .scriptFunded _, answer | .scriptRedeemed _, answer => answer = .error err
  | .pushesOfSpent, answer => answer = .error err
  | _, _ => False

def FailsWith (err : GoError) (e : ClientEvent) : Prop := e.op.query.FailsWith err e.reply

/-- Some query failed. -/
def Inconclusive (events : List ClientEvent) : Prop := ∃ e ∈ events, ∃ err, FailsWith err e

/-- The audit takes the swap to be over: it reads its clock past the timelock. (A node
    could also answer with the error that stands for it; the Bitcoin binder would not pass
    it on.) -/
def Binder.Expires : Binder → List ClientEvent → Prop
  | .btc _ b, events =>
      ∃ e ∈ events, ∃ time, Answers b.htlc .now time e ∧ b.htlc.timeLock < time
  | .eth b, events | .erc20 b, events =>
      ∃ e ∈ events, (∃ time, Answers b.htlc .now time e ∧ b.htlc.timeLock < time) ∨
        FailsWith .swapExpired e

/-- What an audit of an HTLC that is not there yet returns. -/
def clockVerdict {α : Type} (timeLock time : Int) : Except GoError α :=
  .error (if timeLock < time then .swapExpired else .auditPending)

section Audits

variable {w w' : World} {events : List ClientEvent} {result : Except GoError Unit} {H : Hashes}

theorem Answers.iff {htlc htlc' : Htlc} {query query' : Query} {answer : Answer query}
    {answer' : Answer query'} {e : ClientEvent} (h : Answers htlc query answer e) :
    Answers htlc' query' answer' e ↔
      (⟨⟨htlc, query⟩, answer⟩ : ClientCall) = ⟨⟨htlc', query'⟩, answer'⟩ := by
  unfold Answers at h ⊢
  rw [h]

theorem Answers.failsWith_iff {htlc : Htlc} {query : Query} {answer : Answer query}
    {e : ClientEvent} {err : GoError} (h : Answers htlc query answer e) :
    FailsWith err e ↔ query.FailsWith err answer := by
  obtain ⟨op, before, note, reply, after⟩ := e
  cases h
  exact Iff.rfl

/-- How an audit of the Ethereum binders goes. -/
inductive EthBinder.AuditExec (b : EthBinder) :
    List ClientEvent → Except GoError Unit → Prop where
  | failed {e : ClientEvent} {err : GoError} (he : Answers b.htlc .initiatable (.error err) e) :
      AuditExec b [e] (.error err)
  | unfunded {e n : ClientEvent} {time : Int} (he : Answers b.htlc .initiatable (.ok true) e)
      (hn : Answers b.htlc .now time n) :
      AuditExec b [e, n] (clockVerdict b.htlc.timeLock time)
  | reportFailed {e a : ClientEvent} {err : GoError}
      (he : Answers b.htlc .initiatable (.ok false) e)
      (ha : Answers b.htlc .audit (.error err) a) : AuditExec b [e, a] (.error err)
  | mismatch {e a : ClientEvent} {receiver : String} {value : Int} (text : String)
      (he : Answers b.htlc .initiatable (.ok false) e)
      (ha : Answers b.htlc .audit (.ok (receiver, value)) a)
      (hreport : receiver = b.swap.spendingAddress → value < b.swap.value - b.swap.brokerFee) :
      AuditExec b [e, a] (.error (.errorf text))
  | funded {e a : ClientEvent} {value : Int} (he : Answers b.htlc .initiatable (.ok false) e)
      (ha : Answers b.htlc .audit (.ok (b.swap.spendingAddress, value)) a)
      (hvalue : b.swap.value - b.swap.brokerFee ≤ value) : AuditExec b [e, a] (.ok ())

/-- Reading the clock gives the verdict. -/
theorem clock_exec {α : Type} {htlc : Htlc} {timeLock : Int} {result : Except GoError α}
    (h : Exec clientStep (htlc.ask .now >>= fun time =>
      if time > timeLock then pure (.error .swapExpired) else pure (.error .auditPending))
        w events result w') :
    ∃ n time, events = [n] ∧ Answers htlc .now time n ∧ result = clockVerdict timeLock time := by
  unfold Htlc.ask at h
  obtain ⟨_, time, _, _, rfl, -, h⟩ := exec_perform_bind_iff.mp h
  unfold clockVerdict
  split at h
  · rename_i hlate
    obtain ⟨rfl, rfl, -⟩ := exec_pure_iff.mp h
    exact ⟨_, time, rfl, rfl, by rw [if_pos hlate]⟩
  · rename_i hearly
    obtain ⟨rfl, rfl, -⟩ := exec_pure_iff.mp h
    exact ⟨_, time, rfl, rfl, by rw [if_neg hearly]⟩

theorem EthBinder.audit_exec {b : EthBinder} {mismatch : Int → Int → String}
    (h : Exec clientStep (b.audit mismatch) w events result w') : b.AuditExec events result := by
  unfold EthBinder.audit Htlc.ask at h
  obtain ⟨n, answer, w₁, rest, rfl, -, h⟩ := exec_perform_bind_iff.mp h
  cases answer with
  | error err =>
      obtain ⟨rfl, rfl, -⟩ := exec_pure_iff.mp h
      exact .failed rfl
  | ok answer =>
      cases answer with
      | true =>
          obtain ⟨n, time, rfl, hn, rfl⟩ := clock_exec h
          exact .unfunded rfl hn
      | false =>
          obtain ⟨_, report, _, _, rfl, -, h⟩ := exec_perform_bind_iff.mp h
          cases report with
          | error err =>
              obtain ⟨rfl, rfl, -⟩ := exec_pure_iff.mp h
              exact .reportFailed rfl rfl
          | ok report =>
              obtain ⟨receiver, value⟩ := report
              dsimp only at h
              split at h
              · rename_i hreceiver
                obtain ⟨rfl, rfl, -⟩ := exec_pure_iff.mp h
                exact .mismatch _ rfl rfl fun heq => absurd heq hreceiver
              · split at h
                · rename_i hvalue
                  obtain ⟨rfl, rfl, -⟩ := exec_pure_iff.mp h
                  exact .mismatch _ rfl rfl fun _ => hvalue
                · rename_i hreceiver hvalue
                  obtain ⟨rfl, rfl, -⟩ := exec_pure_iff.mp h
                  obtain rfl : receiver = b.swap.spendingAddress := not_not.mp hreceiver
                  exact .funded rfl rfl (not_lt.mp hvalue)

/-- How an audit of the secret goes. -/
inductive EthBinder.AuditSecretExec (b : EthBinder) :
    List ClientEvent → Except GoError Bytes32 → Prop where
  | failed {e : ClientEvent} {err : GoError} (he : Answers b.htlc .redeemable (.error err) e) :
      AuditSecretExec b [e] (.error err)
  | unspent {e n : ClientEvent} {time : Int} (he : Answers b.htlc .redeemable (.ok true) e)
      (hn : Answers b.htlc .now time n) :
      AuditSecretExec b [e, n] (clockVerdict b.htlc.timeLock time)
  | answered {e a : ClientEvent} {answer : Except GoError Bytes32}
      (he : Answers b.htlc .redeemable (.ok false) e)
      (ha : Answers b.htlc .auditSecret answer a) : AuditSecretExec b [e, a] answer

theorem EthBinder.auditSecret_exec {b : EthBinder} {result : Except GoError Bytes32}
    (h : Exec clientStep b.auditSecret w events result w') : b.AuditSecretExec events result := by
  unfold EthBinder.auditSecret Htlc.ask at h
  obtain ⟨n, answer, w₁, rest, rfl, -, h⟩ := exec_perform_bind_iff.mp h
  cases answer with
  | error err =>
      obtain ⟨rfl, rfl, -⟩ := exec_pure_iff.mp h
      exact .failed rfl
  | ok answer =>
      cases answer with
      | true =>
          obtain ⟨n, time, rfl, hn, rfl⟩ := clock_exec h
          exact .unspent rfl hn
      | false =>
          obtain ⟨_, answer, w₂, _, rfl, hstep, h⟩ := exec_call_iff.mp h
          obtain ⟨rfl, rfl, rfl⟩ := exec_pure_iff.mp h
          exact .answered rfl rfl

open Bitcoin (SwapContractBinder)

/-- How an audit of the Bitcoin binder goes: a failed query counts as not funded. -/
inductive BtcAuditExec (b : SwapContractBinder) :
    List ClientEvent → Except GoError Unit → Prop where
  | short {e : ClientEvent} {amount : Int} (text : String)
      (he : Answers b.htlc (.scriptFunded (int64 b.swap.value)) (.ok (true, amount)) e)
      (hamount : amount < int64 (b.swap.value - b.swap.brokerFee)) :
      BtcAuditExec b [e] (.error (.errorf text))
  | funded {e : ClientEvent} {amount : Int}
      (he : Answers b.htlc (.scriptFunded (int64 b.swap.value)) (.ok (true, amount)) e)
      (hamount : int64 (b.swap.value - b.swap.brokerFee) ≤ amount) : BtcAuditExec b [e] (.ok ())
  | unfunded {e n : ClientEvent} {answer : Except GoError (Bool × Int)} {time : Int}
      (he : Answers b.htlc (.scriptFunded (int64 b.swap.value)) answer e)
      (hanswer : ∀ amount, answer ≠ .ok (true, amount)) (hn : Answers b.htlc .now time n) :
      BtcAuditExec b [e, n] (clockVerdict b.htlc.timeLock time)

theorem btc_audit_exec {b : SwapContractBinder}
    (h : Exec clientStep b.audit w events result w') : BtcAuditExec b events result := by
  unfold SwapContractBinder.audit Htlc.ask at h
  obtain ⟨n, answer, w₁, rest, rfl, -, h⟩ := exec_perform_bind_iff.mp h
  split at h
  · split at h
    · rename_i hamount
      obtain ⟨rfl, rfl, -⟩ := exec_pure_iff.mp h
      exact .short _ rfl hamount
    · rename_i hamount
      obtain ⟨rfl, rfl, -⟩ := exec_pure_iff.mp h
      exact .funded rfl (not_lt.mp hamount)
  · rename_i hanswer
    obtain ⟨n, time, rfl, hn, rfl⟩ := clock_exec h
    exact .unfunded rfl (fun amount heq => hanswer amount heq) hn

inductive BtcAuditSecretExec (H : Hashes) (b : SwapContractBinder) :
    List ClientEvent → Except GoError Bytes32 → Prop where
  | unspent {e n : ClientEvent} {answer : Except GoError Bool} {time : Int}
      (he : Answers b.htlc .scriptSpent answer e) (hanswer : answer ≠ .ok true)
      (hn : Answers b.htlc .now time n) :
      BtcAuditSecretExec H b [e, n] (clockVerdict b.htlc.timeLock time)
  | pushesFailed {e a : ClientEvent} {err : GoError}
      (he : Answers b.htlc .scriptSpent (.ok true) e)
      (ha : Answers b.htlc .pushesOfSpent (.error err) a) :
      BtcAuditSecretExec H b [e, a] (.error (SwapContractBinder.errAuditSecret err))
  | found {e a : ClientEvent} {pushes : List (List UInt8)} {push : List UInt8}
      (he : Answers b.htlc .scriptSpent (.ok true) e)
      (ha : Answers b.htlc .pushesOfSpent (.ok pushes) a)
      (hpush : pushes.find? (fun push => H.sha256 push = b.swap.secretHash) = some push) :
      BtcAuditSecretExec H b [e, a] (.ok (SwapContractBinder.copy32 push))
  | missing {e a : ClientEvent} {pushes : List (List UInt8)} (err : GoError)
      (he : Answers b.htlc .scriptSpent (.ok true) e)
      (ha : Answers b.htlc .pushesOfSpent (.ok pushes) a)
      (hpush : ∀ push ∈ pushes, H.sha256 push ≠ b.swap.secretHash) :
      BtcAuditSecretExec H b [e, a] (.error (SwapContractBinder.errAuditSecret err))

theorem btc_auditSecret_exec {b : SwapContractBinder} {result : Except GoError Bytes32}
    (h : Exec clientStep (b.auditSecret H) w events result w') :
    BtcAuditSecretExec H b events result := by
  unfold SwapContractBinder.auditSecret Htlc.ask at h
  obtain ⟨n, answer, w₁, rest, rfl, -, h⟩ := exec_perform_bind_iff.mp h
  split at h
  · obtain ⟨_, answer, w₂, _, rfl, hstep, h⟩ := exec_perform_bind_iff.mp h
    cases answer with
    | error err =>
        obtain ⟨rfl, rfl, -⟩ := exec_pure_iff.mp h
        exact .pushesFailed rfl rfl
    | ok pushes =>
        dsimp only at h
        split at h
        · rename_i push hpush
          obtain ⟨rfl, rfl, rfl⟩ := exec_pure_iff.mp h
          exact .found rfl rfl hpush
        · rename_i hnone
          obtain ⟨rfl, rfl, -⟩ := exec_pure_iff.mp h
          exact .missing _ rfl rfl (by simpa using hnone)
  · rename_i hanswer
    obtain ⟨n, time, rfl, hn, rfl⟩ := clock_exec h
    exact .unspent rfl hanswer hn

/-- **An audit reports that the swap has expired** exactly if it expires. -/
theorem Binder.audit_expired_iff {b : Binder} (h : Exec clientStep b.audit w events result w') :
    result = .error .swapExpired ↔ b.Expires events := by
  have heth : ∀ b : EthBinder, b.AuditExec events result →
      (result = .error .swapExpired ↔ (Binder.eth b).Expires events) := by
    intro b hcases
    cases hcases with
    | failed he => simp [Binder.Expires, he.iff, he.failsWith_iff, Query.FailsWith]
    | unfunded he hn =>
        simp [Binder.Expires, clockVerdict, he.iff, he.failsWith_iff, hn.iff, hn.failsWith_iff,
          Query.FailsWith]
    | reportFailed he ha =>
        simp [Binder.Expires, he.iff, he.failsWith_iff, ha.iff, ha.failsWith_iff,
          Query.FailsWith]
    | mismatch text he ha hreport =>
        simp [Binder.Expires, he.iff, he.failsWith_iff, ha.iff, ha.failsWith_iff,
          Query.FailsWith]
    | funded he ha hvalue =>
        simp [Binder.Expires, he.iff, he.failsWith_iff, ha.iff, ha.failsWith_iff,
          Query.FailsWith]
  cases b with
  | btc account b =>
      cases btc_audit_exec h with
      | short text he hamount => simp [Binder.Expires, he.iff]
      | funded he hamount => simp [Binder.Expires, he.iff]
      | unfunded he hanswer hn => simp [Binder.Expires, clockVerdict, he.iff, hn.iff]
  | eth b => exact heth b (EthBinder.audit_exec h)
  | erc20 b => exact heth b (EthBinder.audit_exec h)

theorem Binder.auditSecret_expired_iff {b : Binder} {result : Except GoError Bytes32}
    (h : Exec clientStep (b.auditSecret H) w events result w') :
    result = .error .swapExpired ↔ b.Expires events := by
  have heth : ∀ b : EthBinder, b.AuditSecretExec events result →
      (result = .error .swapExpired ↔ (Binder.eth b).Expires events) := by
    intro b hcases
    cases hcases with
    | failed he => simp [Binder.Expires, he.iff, he.failsWith_iff, Query.FailsWith]
    | unspent he hn =>
        simp [Binder.Expires, clockVerdict, he.iff, he.failsWith_iff, hn.iff, hn.failsWith_iff,
          Query.FailsWith]
    | answered he ha =>
        simp [Binder.Expires, he.iff, he.failsWith_iff, ha.iff, ha.failsWith_iff,
          Query.FailsWith]
  cases b with
  | btc account b =>
      cases btc_auditSecret_exec h with
      | unspent he hanswer hn => simp [Binder.Expires, clockVerdict, he.iff, hn.iff]
      | pushesFailed he ha =>
          simp [Binder.Expires, he.iff, ha.iff, SwapContractBinder.errAuditSecret]
      | found he ha hpush => simp [Binder.Expires, he.iff, ha.iff]
      | missing err he ha hpush =>
          simp [Binder.Expires, he.iff, ha.iff, SwapContractBinder.errAuditSecret]
  | eth b => exact heth b (EthBinder.auditSecret_exec h)
  | erc20 b => exact heth b (EthBinder.auditSecret_exec h)

end Audits

end Swapperd.Chain
