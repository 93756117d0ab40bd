/-
  Swapperd/SecretExtraction.lean
  ==============================
  **The secret that a responder takes from a spent Bitcoin HTLC** (`AuditSecret` of
  `adapter/binder/btc`, `respond`).

  `AuditSecret` hashes the pushes of the spending script whole, and copies the first one
  that matches into 32 bytes.  The copy is the push only if the push has 32 bytes
  (`secretSafe_iff`): a responder that refunded its own HTLC pushed the empty string, and
  where the secret hash is the digest of that, it goes on to redeem with 32 zero bytes.
-/
import Swapperd.Atomicity
import Swapperd.BitcoinAmounts
import Swapperd.ContractRuns

namespace Swapperd.Chain

open CallProgram RetryTask GoLibrary Immediate
open Bitcoin (SwapContractBinder Account Network newBTCSwapContractBinder newBTCSwapContractBinder_ok)
open Bitcoin.SwapContractBinder (copy32 errAuditSecret)
open Atomicity (Opens)

/-! ### One list of pushes -/

/-- The push that `AuditSecret` takes. -/
def takenPush (H : Hashes) (secretHash : Bytes32) (pushes : List (List UInt8)) :
    Option (List UInt8) :=
  pushes.find? fun push => H.sha256 push = secretHash

/-- What `AuditSecret` returns on the pushes that it finds. -/
def extracted (H : Hashes) (secretHash : Bytes32) (pushes : List (List UInt8)) :
    Except GoError Bytes32 :=
  match takenPush H secretHash pushes with
  | some push => .ok (copy32 push)
  | none => .error (errAuditSecret (.errorf ("redeem transaction returned by " ++
      "the Bitcoin blockchain is malformed")))

/-- What an extraction is to return: a preimage, wherever the pushes have one. -/
structure Extracts (H : Hashes) (secretHash : Bytes32) (pushes : List (List UInt8))
    (reply : Except GoError Bytes32) : Prop where
  sound : ∀ secret, reply = .ok secret → H.sha256 secret.1 = secretHash
  complete : (∃ push ∈ pushes, push.length = 32 ∧ H.sha256 push = secretHash) →
    ∃ secret, reply = .ok secret ∧ H.sha256 secret.1 = secretHash

/-- The push that is taken, if there is one, is as long as a secret. -/
def TakesSecret (H : Hashes) (secretHash : Bytes32) (pushes : List (List UInt8)) : Prop :=
  ∀ push, takenPush H secretHash pushes = some push → push.length = 32

/-- The hash tells a push from its copy. -/
def TellsCopies (H : Hashes) (pushes : List (List UInt8)) : Prop :=
  ∀ push ∈ pushes, H.sha256 (copy32 push).1 = H.sha256 push → (copy32 push).1 = push

section Pushes

variable {H : Hashes} {secretHash : Bytes32} {pushes : List (List UInt8)} {push : List UInt8}

theorem copy32_of_length (h : push.length = 32) : (copy32 push).1 = push := by
  simp [copy32, ← h]

theorem takenPush_some (h : takenPush H secretHash pushes = some push) :
    push ∈ pushes ∧ H.sha256 push = secretHash :=
  ⟨List.mem_of_find?_eq_some h, by simpa using List.find?_some h⟩

theorem takenPush_isSome (hmem : push ∈ pushes) (hhash : H.sha256 push = secretHash) :
    ∃ taken, takenPush H secretHash pushes = some taken := by
  have hfinds : (takenPush H secretHash pushes).isSome = true := by
    unfold takenPush
    rw [List.find?_isSome]
    exact ⟨push, hmem, by simpa using hhash⟩
  exact Option.isSome_iff_exists.mp hfinds

theorem extracted_of_some (h : takenPush H secretHash pushes = some push) :
    extracted H secretHash pushes = .ok (copy32 push) := by
  simp only [extracted, h]

theorem extracted_eq_ok_iff {secret : Bytes32} : extracted H secretHash pushes = .ok secret ↔
    ∃ push, takenPush H secretHash pushes = some push ∧ copy32 push = secret := by
  unfold extracted
  cases takenPush H secretHash pushes with
  | none => simp
  | some push => simp

/-- A whole secret opens the hash that its push matched. -/
theorem TakesSecret.sound (h : TakesSecret H secretHash pushes) {secret : Bytes32}
    (hsecret : extracted H secretHash pushes = .ok secret) : H.sha256 secret.1 = secretHash := by
  obtain ⟨push, htaken, rfl⟩ := extracted_eq_ok_iff.mp hsecret
  rw [copy32_of_length (h push htaken)]
  exact (takenPush_some htaken).2

/-- An extraction is sound and complete exactly if it takes a whole secret. -/
theorem extracts_iff (hcopies : TellsCopies H pushes) :
    Extracts H secretHash pushes (extracted H secretHash pushes) ↔
      TakesSecret H secretHash pushes := by
  constructor
  · intro h push htaken
    obtain ⟨hmem, hhash⟩ := takenPush_some htaken
    have hcopy := h.sound _ (extracted_of_some htaken)
    rw [← hcopies push hmem (hcopy.trans hhash.symm)]
    exact (copy32 push).2
  · intro h
    refine ⟨fun _ => h.sound, ?_⟩
    rintro ⟨push, hmem, -, hhash⟩
    obtain ⟨taken, htaken⟩ := takenPush_isSome hmem hhash
    have hok := extracted_of_some htaken
    exact ⟨_, hok, h.sound hok⟩

end Pushes

/-! ### One call of `AuditSecret` -/

/-- Among the queries, the one that found these pushes in the spending script. -/
def FindsPushes (b : SwapContractBinder) (pushes : List (List UInt8))
    (events : List ClientEvent) : Prop :=
  ∃ e ∈ events, Answers b.htlc .pushesOfSpent (.ok pushes) e

/-- A call that returns a secret found it among some pushes, and what a call that found
    pushes returns is what they have. -/
theorem auditSecret_found {H : Hashes} {b : SwapContractBinder} {w w' : World}
    {events : List ClientEvent} {reply : Except GoError Bytes32}
    (h : Exec clientStep (b.auditSecret H) w events reply w') :
    (∀ secret, reply = .ok secret → ∃ pushes, FindsPushes b pushes events) ∧
      ∀ pushes, FindsPushes b pushes events → reply = extracted H b.swap.secretHash pushes := by
  unfold SwapContractBinder.auditSecret Htlc.ask at h
  obtain ⟨_, spent, _, _, rfl, -, h⟩ := exec_perform_bind_iff.mp h
  split at h
  · obtain ⟨_, answer, _, rest, rfl, -, h⟩ := exec_perform_bind_iff.mp h
    cases answer with
    | error err =>
        obtain ⟨rfl, rfl, -⟩ := exec_pure_iff.mp h
        simp [FindsPushes, Answers, Event.call]
    | ok pushes =>
        have hreply : rest = [] ∧ reply = extracted H b.swap.secretHash pushes := by
          unfold extracted takenPush
          dsimp only at h
          cases hfind : pushes.find? fun push => decide (H.sha256 push = b.swap.secretHash) with
          | some push =>
              rw [hfind] at h
              obtain ⟨rfl, rfl, -⟩ := exec_pure_iff.mp h
              exact ⟨rfl, rfl⟩
          | none =>
              rw [hfind] at h
              obtain ⟨rfl, rfl, -⟩ := exec_pure_iff.mp h
              exact ⟨rfl, rfl⟩
        obtain ⟨rfl, rfl⟩ := hreply
        simp only [FindsPushes, Answers, Event.call, List.mem_cons, List.not_mem_nil, or_false,
          exists_eq_or_imp, exists_eq_left, Sigma.mk.injEq, Op.mk.injEq, true_and, reduceCtorEq,
          and_false, false_and, false_or, heq_eq_eq]
        refine ⟨fun _ _ => ⟨pushes, rfl⟩, ?_⟩
        intro found heq
        rw [Except.ok.inj heq]
  · obtain ⟨_, time, _, rest, rfl, -, h⟩ := exec_perform_bind_iff.mp h
    split at h
    · obtain ⟨rfl, rfl, -⟩ := exec_pure_iff.mp h
      simp [FindsPushes, Answers, Event.call]
    · obtain ⟨rfl, rfl, -⟩ := exec_pure_iff.mp h
      simp [FindsPushes, Answers, Event.call]

/-! ### Passes of a responder -/

/-- In the pass, every secret that is extracted opens the hash, wherever it stood, and so
    does every secret that is redeemed with. -/
structure SecretSafe (H : Hashes) (b : SwapContractBinder) (foreign : Swap) (p : OpPass) :
    Prop where
  extracts : ∀ e ∈ p.events, ∀ reply, e.call = (⟨.auditSecret p.req.native, reply⟩ : Call) →
    ∀ pushes, FindsPushes b pushes e.note → Extracts H b.swap.secretHash pushes reply
  opens : ∀ e ∈ p.events, ∀ c secret, e.op = .redeem c secret → Opens H foreign secret

section PassStep

variable {H : Hashes} {B : Contract → Binder} {s s' : SwapMap × World} {p : OpPass}
  {account : Account} {b : SwapContractBinder}

/-- An audit of the pass is a call of the Bitcoin binder. -/
theorem pass_auditSecret (h : PassStep (contractStep H B) (task H) s p s')
    (hnative : B p.req.native = .btc account b) {e : OpEvent} (he : e ∈ p.events)
    {reply : Except GoError Bytes32}
    (hcall : e.call = (⟨.auditSecret p.req.native, reply⟩ : Call)) :
    Exec clientStep (b.auditSecret H) e.before e.note reply e.after := by
  have hstep := h.1.allowed e he
  obtain ⟨op, before, note, reply', after⟩ := e
  cases hcall
  have hexec : Exec clientStep ((B p.req.native).auditSecret H) before note _ after := hstep
  rw [hnative] at hexec
  exact hexec

/-- A responder redeems with what an audit of its pass extracted. -/
theorem redeem_extracted (h : PassStep (contractStep H B) (task H) s p s')
    (hrole : p.req.blob.shouldInitiateFirst = false) {e : OpEvent} (he : e ∈ p.events)
    {c : Contract} {secret : Bytes32} (hop : e.op = .redeem c secret) :
    ∃ e' ∈ p.events, e'.call = (⟨.auditSecret p.req.native, .ok secret⟩ : Call) := by
  obtain ⟨pre, post, hevents⟩ := List.append_of_mem he
  have hcalls : p.calls = pre.map Event.call ++ e.call :: post.map Event.call := by
    simp [Pass.calls, hevents]
  obtain ⟨q, hq, rfl⟩ :=
    (pass_inOrder h).responder_redeem hrole secret _ _ _ hcalls ⟨c, hop⟩
  obtain ⟨e', he', hcall⟩ := List.mem_map.mp hq
  exact ⟨e', by simp [hevents, he'], hcall⟩

/-- **A responder's pass extracts and redeems with preimages of the secret hash exactly if
    the push that every audit takes has 32 bytes.** -/
theorem secretSafe_iff {W : Wallet} {native foreign : Swap} {net : Network} {cost : Cost}
    (h : PassStep (contractStep H B) (task H) s p s')
    (hrole : p.req.blob.shouldInitiateFirst = false)
    (hswaps : Builder.buildComplementarySwaps W p.req.blob = .ok (native, foreign))
    (hbind : newBTCSwapContractBinder net native cost = .ok b)
    (hnative : B p.req.native = .btc account b)
    (hcopies : ∀ e ∈ p.events, ∀ pushes, FindsPushes b pushes e.note → TellsCopies H pushes) :
    SecretSafe H b foreign p ↔
      ∀ e ∈ p.events, e.op = .auditSecret p.req.native →
        ∀ pushes, FindsPushes b pushes e.note → TakesSecret H b.swap.secretHash pushes := by
  have hforeign : foreign.secretHash = b.swap.secretHash := by
    have hlegs := Builder.buildComplementarySwaps_ok hswaps
    rw [(newBTCSwapContractBinder_ok hbind).2]
    exact Except.ok.inj (hlegs.foreign_leg.secretHash.symm.trans hlegs.native_leg.secretHash)
  constructor
  · intro hsafe e he hop pushes hfinds
    obtain ⟨op, before, note, reply, after⟩ := e
    cases hop
    have hextracts := hsafe.extracts _ he reply rfl pushes hfinds
    have hreply : reply = extracted H b.swap.secretHash pushes :=
      (auditSecret_found (pass_auditSecret h hnative he rfl)).2 pushes hfinds
    rw [hreply] at hextracts
    exact (extracts_iff (hcopies _ he pushes hfinds)).mp hextracts
  · intro htakes
    have hwhole : ∀ e ∈ p.events, ∀ reply,
        e.call = (⟨.auditSecret p.req.native, reply⟩ : Call) →
        ∀ pushes, FindsPushes b pushes e.note → TakesSecret H b.swap.secretHash pushes ∧
          reply = extracted H b.swap.secretHash pushes := by
      intro e he reply hcall pushes hfinds
      have hexec := pass_auditSecret h hnative he hcall
      exact ⟨htakes e he (congrArg Sigma.fst hcall) pushes hfinds,
        (auditSecret_found hexec).2 pushes hfinds⟩
    constructor
    · intro e he reply hcall pushes hfinds
      obtain ⟨htaken, rfl⟩ := hwhole e he reply hcall pushes hfinds
      exact (extracts_iff (hcopies e he pushes hfinds)).mpr htaken
    · intro e he c secret hop
      obtain ⟨e', he', hcall⟩ := redeem_extracted h hrole he hop
      obtain ⟨pushes, hfinds⟩ :=
        (auditSecret_found (pass_auditSecret h hnative he' hcall)).1 secret rfl
      obtain ⟨htaken, hreply⟩ := hwhole e' he' _ hcall pushes hfinds
      rw [Opens, hforeign]
      exact htaken.sound hreply.symm

end PassStep

/-! ### A responder that was refunded

Bitcoin for ether, where the initiator chose the digest of the empty string as the secret
hash.  The refund of the responder was mined after its deadline, and the swap is retried. -/

def digest (text : String) : Bytes32 :=
  (Builder.unmarshalSecretHash text).toOption.getD (zeroHashes.sha256 [])

/-- What a refund pushes: a signature, the public key, zero and the script. -/
def refundPushes : List (List UInt8) :=
  [List.replicate 71 0x30, 2 :: List.replicate 32 1, [], List.replicate 110 0x63]

/-- SHA-256 of these pushes and of their copies. -/
def sampleDigests : Hashes where
  sha256 push := digest <|
    (List.lookup push
      [([], "47DEQpj8HBSa+/TImW+5JCeuQeRkm5NMpJWZG3hSuFU="),
        (List.replicate 32 0, "Zmh6rfhivXdsj8GLjp+OIAiXFIVu4jOzkCpZHQ1fKSU="),
        (List.replicate 71 0x30, "COFjXWnMj3CoZheR99QvXlNmI+BzUVDCdY4HfjwJnFY="),
        (List.replicate 32 0x30, "hODA6vqpWjTCk/J4rFLkXOU3urXnUqAOaVmhOuEDtlo="),
        (2 :: List.replicate 32 1, "ua+4Cm8SGpOIXswErr32YLeS+WsoK+q7G7wZ945IkYg="),
        (2 :: List.replicate 31 1, "pJzUj7/WR1tenxhSIKAVuAqlhfzvUs873QM45AsdtK0="),
        (List.replicate 110 0x63, "It8a0iIg0DOG2iAXHlF67PVm33JReYYJZL7/MCR/r/U="),
        (List.replicate 32 0x63, "zZN4K3+5VVneFPc4tlmIr4XUHcFWX3x9HtLQNWZbUZw=")]).getD ""
  sha3Sum256 := zeroHashes.sha3Sum256

def emptyRequest : SwapRequest where
  blob :=
    { Admission.testRequest Admission.theirAddress with
      secretHash := "47DEQpj8HBSa+/TImW+5JCeuQeRkm5NMpJWZG3hSuFU=" }

/-- A network where the script address is an address. -/
def scriptNet : Network :=
  { Admission.testNet3 with
    decodeAddress := fun address =>
      match Admission.testNet3.decodeAddress address with
      | .ok decoded => .ok decoded
      | .error _ => .ok (.other address) }

def emptySwaps : Swap × Swap :=
  (Builder.buildComplementarySwaps Admission.testWallet emptyRequest.blob).toOption.getD
    (Builder.sampleNative, Builder.sampleForeign)

theorem emptySwaps_built :
    Builder.buildComplementarySwaps Admission.testWallet emptyRequest.blob =
        .ok (emptySwaps.1, emptySwaps.2) ∧
      ∃ b, newBTCSwapContractBinder scriptNet emptySwaps.1 ∅ = .ok b := by
  refine ⟨eq_ok_getD_of_isOk (Builder.sampleNative, Builder.sampleForeign) ?_,
    Bitcoin.exists_binder ∅ ?_⟩
  · decide +kernel
  · decide +kernel

section Refunded

variable (b : SwapContractBinder)

def emptyForeignBinder : EthBinder := ⟨foreignBinder.id, emptySwaps.2⟩

def emptyBinders (c : Contract) : Binder :=
  match c.leg with
  | .native => .btc ⟨scriptNet, scriptNet.decodeAddress Admission.ownAddress⟩ b
  | .foreign => .eth emptyForeignBinder

/-- Two hours after the timelock the responder has its bitcoins back. -/
def emptyWorld : World where
  clock := 1550007200
  blockTime := 1550007100
  phase addr := if addr = b.scriptAddr then .refunded else .opened
  revealed _ := refundPushes

def emptyPass : OpPass where
  req := emptyRequest
  retry := false
  events :=
    [⟨.buildSwapContracts emptyRequest, emptyWorld b, [], .ok (), emptyWorld b⟩,
      ⟨.audit emptyRequest.foreign, emptyWorld b,
        [⟨⟨emptyForeignBinder.htlc, .initiatable⟩, emptyWorld b, (), .ok false, emptyWorld b⟩,
          ⟨⟨emptyForeignBinder.htlc, .audit⟩, emptyWorld b, (),
            .ok (emptySwaps.2.spendingAddress, 5000000000000000), emptyWorld b⟩],
        .ok (), emptyWorld b⟩,
      ⟨.initiate emptyRequest.native, emptyWorld b,
        [⟨⟨b.htlc, .scriptFunded (int64 b.swap.value)⟩, emptyWorld b, (), .ok (true, 20000),
          emptyWorld b⟩],
        .ok (), emptyWorld b⟩,
      ⟨.auditSecret emptyRequest.native, emptyWorld b,
        [⟨⟨b.htlc, .scriptSpent⟩, emptyWorld b, (), .ok true, emptyWorld b⟩,
          ⟨⟨b.htlc, .pushesOfSpent⟩, emptyWorld b, (), .ok refundPushes, emptyWorld b⟩],
        .ok (copy32 []), emptyWorld b⟩,
      ⟨.redeem emptyRequest.foreign (copy32 []), emptyWorld b,
        [⟨⟨emptyForeignBinder.htlc, .redeemable⟩, emptyWorld b, (), .error (.errorf "no node"),
          emptyWorld b⟩],
        .ok (), emptyWorld b⟩]
  batch :=
    [.receiptUpdate ⟨emptyRequest.id, .setStatus .redeemed⟩, .deleteSwap emptyRequest.id]

theorem emptyWorld_found (addr : String) : (emptyWorld b).phase addr ≠ .unfunded := by
  unfold emptyWorld
  dsimp only
  split <;> simp

theorem emptyPass_step
    (hb : newBTCSwapContractBinder scriptNet emptySwaps.1 ∅ = .ok b) :
    PassStep (contractStep sampleDigests (emptyBinders b)) (task sampleDigests)
      (∅, emptyWorld b) (emptyPass b) ((∅ : SwapMap).erase emptyRequest.id, emptyWorld b) := by
  have haudit : Exec clientStep (emptyForeignBinder.audit EthBinder.ethMismatch) (emptyWorld b)
      [⟨⟨emptyForeignBinder.htlc, .initiatable⟩, emptyWorld b, (), .ok false, emptyWorld b⟩,
        ⟨⟨emptyForeignBinder.htlc, .audit⟩, emptyWorld b, (),
          .ok (emptySwaps.2.spendingAddress, 5000000000000000), emptyWorld b⟩] (.ok ())
      (emptyWorld b) := by
    have hvalue : emptySwaps.2.value - emptySwaps.2.brokerFee = 5000000000000000 := by
      decide +kernel
    have hfound : Truthful emptyForeignBinder.htlc (emptyWorld b) .initiatable (.ok false) := by
      simp [Truthful, emptyWorld_found]
    refine .call ⟨.refl _, hfound⟩ (.call ⟨.refl _, trivial⟩ ?_)
    simp only [emptyForeignBinder, hvalue, ne_eq]
    exact .pure _ _
  have hinitiate : Exec clientStep
      (b.initiate ⟨scriptNet, scriptNet.decodeAddress Admission.ownAddress⟩) (emptyWorld b)
      [⟨⟨b.htlc, .scriptFunded (int64 b.swap.value)⟩, emptyWorld b, (), .ok (true, 20000),
        emptyWorld b⟩] (.ok ()) (emptyWorld b) := by
    have hdecodes : ∃ address, scriptNet.decodeAddress b.scriptAddr = .ok address := by
      unfold scriptNet
      dsimp only
      split
      · exact ⟨_, rfl⟩
      · exact ⟨_, rfl⟩
    obtain ⟨address, haddress⟩ := hdecodes
    unfold SwapContractBinder.initiate
    simp only [haddress]
    exact .call ⟨.refl _, trivial⟩ (.pure _ _)
  have hsecret : Exec clientStep (b.auditSecret sampleDigests) (emptyWorld b)
      [⟨⟨b.htlc, .scriptSpent⟩, emptyWorld b, (), .ok true, emptyWorld b⟩,
        ⟨⟨b.htlc, .pushesOfSpent⟩, emptyWorld b, (), .ok refundPushes, emptyWorld b⟩]
      (.ok (copy32 [])) (emptyWorld b) := by
    have hhash : b.swap.secretHash = emptySwaps.1.secretHash := by
      rw [(newBTCSwapContractBinder_ok hb).2]
    have htaken : takenPush sampleDigests emptySwaps.1.secretHash refundPushes = some [] := by
      decide +kernel
    have hspent : Truthful b.htlc (emptyWorld b) .scriptSpent (.ok true) := by
      simp [Truthful, emptyWorld, SwapContractBinder.htlc]
    have hrevealed : Truthful b.htlc (emptyWorld b) .pushesOfSpent (.ok refundPushes) :=
      fun push hpush => hpush
    refine .call ⟨.refl _, hspent⟩ (.call ⟨.refl _, hrevealed⟩ ?_)
    rw [← hhash] at htaken
    unfold takenPush at htaken
    simp only [Program.bind, htaken]
    exact .pure _ _
  have hredeem : Exec clientStep (emptyForeignBinder.redeem (copy32 [])) (emptyWorld b)
      [⟨⟨emptyForeignBinder.htlc, .redeemable⟩, emptyWorld b, (), .error (.errorf "no node"),
        emptyWorld b⟩] (.ok ()) (emptyWorld b) :=
    .call ⟨.refl _, trivial⟩ (.pure _ _)
  refine ⟨?_, fun hretry => absurd hretry Bool.false_ne_true⟩
  exact .call ⟨rfl, .refl _⟩
    (.call haudit (.call hinitiate (.call hsecret (.call hredeem (.pure _ _)))))

theorem emptyPass_tells : ∀ e ∈ (emptyPass b).events, ∀ pushes, FindsPushes b pushes e.note →
    TellsCopies sampleDigests pushes := by
  have htells : TellsCopies sampleDigests refundPushes := by
    unfold TellsCopies
    decide +kernel
  rintro e he pushes ⟨ce, hce, hfinds⟩
  have hfound : ce.op.query = .pushesOfSpent := by rw [show ce.op = _ from congrArg Sigma.fst hfinds]
  have hreply : ce.call = (⟨⟨b.htlc, .pushesOfSpent⟩, .ok refundPushes⟩ : ClientCall) := by
    simp only [emptyPass, List.mem_cons, List.not_mem_nil, or_false] at he
    rcases he with rfl | rfl | rfl | rfl | rfl <;>
      simp only [List.mem_cons, List.not_mem_nil, or_false] at hce
    · rcases hce with rfl | rfl <;> cases hfound
    · obtain rfl := hce
      cases hfound
    · rcases hce with rfl | rfl
      · cases hfound
      · rfl
    · obtain rfl := hce
      cases hfound
  have heq : (⟨⟨b.htlc, .pushesOfSpent⟩, .ok pushes⟩ : ClientCall) = _ := hfinds.symm.trans hreply
  cases heq
  exact htells

end Refunded

theorem secretSafe_iff_empty :
    ∃ b, newBTCSwapContractBinder scriptNet emptySwaps.1 ∅ = .ok b ∧
      (SecretSafe sampleDigests b emptySwaps.2 (emptyPass b) ↔
        ∀ e ∈ (emptyPass b).events, e.op = .auditSecret emptyRequest.native →
          ∀ pushes, FindsPushes b pushes e.note →
            TakesSecret sampleDigests b.swap.secretHash pushes) := by
  obtain ⟨hswaps, b, hb⟩ := emptySwaps_built
  exact ⟨b, hb, secretSafe_iff (emptyPass_step b hb) rfl hswaps hb rfl (emptyPass_tells b)⟩

/-- The responder redeems with 32 zero bytes, which do not open the ether's HTLC, and reports
    the swap redeemed. -/
theorem empty_secret_redeemed :
    Builder.buildComplementarySwaps Admission.testWallet emptyRequest.blob =
        .ok (emptySwaps.1, emptySwaps.2) ∧
      ∃ b, newBTCSwapContractBinder scriptNet emptySwaps.1 ∅ = .ok b ∧
        PassStep (contractStep sampleDigests (emptyBinders b)) (task sampleDigests)
          (∅, emptyWorld b) (emptyPass b)
          ((∅ : SwapMap).erase emptyRequest.id, emptyWorld b) ∧
        ¬ SecretSafe sampleDigests b emptySwaps.2 (emptyPass b) := by
  obtain ⟨hswaps, b, hb⟩ := emptySwaps_built
  refine ⟨hswaps, b, hb, emptyPass_step b hb, ?_⟩
  intro hsafe
  have hopens := hsafe.opens _ (List.mem_of_getElem? (i := 4) rfl) emptyRequest.foreign
    (copy32 []) rfl
  have hshut : ¬ Opens sampleDigests emptySwaps.2 (copy32 []) := by decide +kernel
  exact hshut hopens

end Swapperd.Chain
