/-
  Swapperd/SignedDelayInfo.lean
  =============================
  **The signature of the delay info** (`adapter/server/handler.go`, `adapter/db/db.go`,
  `adapter/callback/callback.go`).

  `signDelayInfo` signs the bytes of the request and writes them, with the signature,
  into an envelope.  The envelope is a raw message to whoever encodes the swap after
  that: the storage when the swap is put, and the callback when it posts the swap.  What
  the server reads is the envelope as the last of them wrote it.

  `signed_message_iff` — the compact form of what is posted has the signed bytes as its
  `message` if and only if there were any and the first encoder did not change them.
-/
import Swapperd.JsonText
import Swapperd.SwapHandler

namespace Swapperd.Handler

open GoLibrary JsonText

/-! ### The envelope -/

/-- What `json.Marshal` writes for a raw message: `null` for an absent one. -/
def rawMessage (message : List UInt8) : List UInt8 :=
  if message = [] then stringBytes "null" else marshalRaw message

/-- The text of the signed delay info, with the text of its message. -/
def envelope (message : List UInt8) (signature : String) : List UInt8 :=
  stringBytes "\x7b\"message\":" ++ message ++
    (stringBytes ",\"signature\":\"" ++ stringBytes signature ++ stringBytes "\"\x7d")

/-- `json.Marshal` fails on a raw message with an open string, as on everything that is
    not valid, and writes a base64 string as it is. -/
structure EncodesSigned (J : Json) : Prop where
  marshalSigned : ∀ message sig encoded,
    J.marshalSigned message (encodeToString sig) = .ok encoded →
      Closed message ∧ encoded = envelope (rawMessage message) (encodeToString sig)

/-- The `delayInfo` that `DelayCallback` posts for a swap that was put in the storage, and
    loaded, some number of times. -/
def postedDelayInfo (reloads : Nat) (delayInfo : List UInt8) : List UInt8 :=
  indent 1 (marshalRaw (marshalRaw^[reloads] delayInfo))

/-- What is posted is, in its compact form, the envelope of the bytes that were signed. -/
def MessageSigned (H : Hashes) (W : Wallet) (request : SwapBlob) (posted : List UInt8) : Prop :=
  ∃ sig, sign H W request.password request.delayInfo = .ok sig ∧
    compact posted = envelope request.delayInfo (encodeToString sig)

/-- A byte that ends no string, needs no escape and is in no separator. -/
def isLiteral (c : UInt8) : Bool := c ≠ quote && c ≠ backslash && isInert c

theorem base64_literal (sig : List UInt8) :
    (stringBytes (encodeToString sig)).all isLiteral = true := by
  have hall : ('=' :: base64Alphabet).all
      (fun c => (String.utf8EncodeChar c).all isLiteral) = true := by decide +kernel
  apply List.all_eq_true.mpr
  intro b hb
  obtain ⟨c, hc, hbyte⟩ := mem_stringBytes_encodeToString hb
  exact List.all_eq_true.mp (List.all_eq_true.mp hall c hc) b hbyte

theorem inert_of_literal {bytes : List UInt8} (h : bytes.all isLiteral = true) :
    bytes.all isInert = true := by
  rw [List.all_eq_true] at h ⊢
  intro c hc
  exact (Bool.and_eq_true_iff.mp (h c hc)).2

theorem lexFrom_literal {bytes : List UInt8} (h : bytes.all isLiteral = true) :
    lexFrom .inside bytes = .inside ∧ TightFrom .inside bytes := by
  induction bytes with
  | nil => exact ⟨rfl, trivial⟩
  | cons c rest ih =>
      rw [List.all_cons, Bool.and_eq_true] at h
      obtain ⟨hc, hrest⟩ := h
      obtain ⟨⟨hquote, hbackslash⟩, -⟩ : (c ≠ quote ∧ c ≠ backslash) ∧ isInert c = true := by
        simpa [isLiteral] using hc
      have hnext : Lex.inside.next c = .inside := by
        simp [Lex.next, hquote, hbackslash]
      rw [lexFrom_cons, TightFrom, hnext]
      exact ⟨(ih hrest).1, rfl, (ih hrest).2⟩

section Envelope

variable {message : List UInt8} {signature : String}

theorem envelope_inj {other : List UInt8} :
    envelope message signature = envelope other signature ↔ message = other := by
  unfold envelope
  rw [List.append_left_inj, List.append_right_inj]

/-- The envelope of a clean message is clean. -/
theorem clean_envelope (hclosed : Closed message) (hclean : Clean message)
    (hsignature : (stringBytes signature).all isLiteral = true) :
    Clean (envelope message signature) := by
  obtain ⟨hinside, htight⟩ := lexFrom_literal hsignature
  constructor
  · have hopen : lexFrom .outside (stringBytes "\x7b\"message\":") = .outside := by decide +kernel
    have hmiddle : lexFrom .outside (stringBytes ",\"signature\":\"") = .inside := by
      decide +kernel
    unfold Tight envelope
    simp only [tightFrom_append, lexFrom_append, hopen]
    rw [show lexFrom .outside message = .outside from hclosed, hmiddle, hinside]
    exact ⟨⟨by decide +kernel, hclean.tight⟩, ⟨by decide +kernel, htight⟩, by decide +kernel⟩
  · unfold envelope
    rw [List.append_assoc, plain_append_of_inert (by decide +kernel)]
    apply hclean.plain.append
    · rw [List.append_assoc, plain_append_of_inert (by decide +kernel),
        plain_append_of_inert (inert_of_literal hsignature)]
      decide +kernel
    · rw [List.append_assoc, List.head?_append_of_ne_nil _ (by decide +kernel)]
      decide +kernel

theorem clean_rawMessage (hclosed : Closed message) :
    Closed (rawMessage message) ∧ Clean (rawMessage message) := by
  unfold rawMessage
  split
  · decide +kernel
  · exact ⟨closed_marshalRaw.mpr hclosed, clean_marshalRaw message⟩

/-- The first encoder leaves a message as it is when there is one, and it is clean. -/
theorem rawMessage_eq_iff : rawMessage message = message ↔ message ≠ [] ∧ Clean message := by
  unfold rawMessage
  split
  · rename_i hnil
    subst hnil
    simp only [ne_eq, not_true_eq_false, false_and, iff_false]
    decide +kernel
  · rename_i hne
    rw [marshalRaw_eq_iff]
    exact (and_iff_right hne).symm

/-- No encoder changes a clean text, and the server drops what indentation adds. -/
theorem compact_posted {delayInfo : List UInt8} (h : Clean delayInfo) (reloads : Nat) :
    compact (postedDelayInfo reloads delayInfo) = delayInfo := by
  have hreloaded : marshalRaw^[reloads] delayInfo = delayInfo :=
    Function.iterate_fixed h.marshalRaw reloads
  unfold postedDelayInfo
  rw [hreloaded, h.marshalRaw, compact_indent]
  exact compactFrom_of_tightFrom h.tight

end Envelope

/-! ### Posted swaps -/

section Posted

variable {H : Hashes} {W : Wallet} {J : Json} {verifyBalance : VerifyBalance} {now : Int}
  {swapID : Bytes32} {request blob : SwapBlob}

/-- The delay info of a posted swap is the envelope of what was signed, encoded once. -/
theorem posted_envelope (hJ : EncodesSigned J)
    (h : postDelayedSwaps H W J verifyBalance now swapID request = .ok blob) :
    ∃ sig, sign H W request.password request.delayInfo = .ok sig ∧ Closed request.delayInfo ∧
      blob.delayInfo = envelope (rawMessage request.delayInfo) (encodeToString sig) := by
  obtain ⟨patched, hpatched, hsigned⟩ := except_bind_eq_ok_iff.mp h
  have hpatches := (patchDelayedSwap_ok hpatched).1
  have hpassword : patched.password = request.password := by rw [hpatches]
  have hdelayInfo : patched.delayInfo = request.delayInfo := by rw [hpatches]
  unfold signDelayInfo at hsigned
  rw [hpassword, hdelayInfo] at hsigned
  split at hsigned
  · cases hsigned
  · rename_i sig hsig
    split at hsigned
    · cases hsigned
    · rename_i encoded hencoded
      cases hsigned
      obtain ⟨hclosed, hencoded⟩ := hJ.marshalSigned _ _ _ hencoded
      exact ⟨sig, hsig, hclosed, hencoded⟩

/-- What the server reads is what the first encoder wrote. -/
theorem posted_compact (hJ : EncodesSigned J) (reloads : Nat)
    (h : postDelayedSwaps H W J verifyBalance now swapID request = .ok blob) :
    ∃ sig, sign H W request.password request.delayInfo = .ok sig ∧
      compact (postedDelayInfo reloads blob.delayInfo) =
        envelope (rawMessage request.delayInfo) (encodeToString sig) := by
  obtain ⟨sig, hsig, hclosed, hdelayInfo⟩ := posted_envelope hJ h
  obtain ⟨hrawClosed, hrawClean⟩ := clean_rawMessage hclosed
  refine ⟨sig, hsig, ?_⟩
  rw [hdelayInfo]
  exact compact_posted (clean_envelope hrawClosed hrawClean (base64_literal sig)) reloads

theorem messageSigned_iff (hJ : EncodesSigned J) (reloads : Nat)
    (h : postDelayedSwaps H W J verifyBalance now swapID request = .ok blob) :
    MessageSigned H W request (postedDelayInfo reloads blob.delayInfo) ↔
      rawMessage request.delayInfo = request.delayInfo := by
  obtain ⟨sig, hsig, hcompact⟩ := posted_compact hJ reloads h
  constructor
  · rintro ⟨sig', hsig', henvelope⟩
    obtain rfl := Except.ok.inj (hsig.symm.trans hsig')
    exact envelope_inj.mp (hcompact.symm.trans henvelope)
  · intro hraw
    refine ⟨sig, hsig, ?_⟩
    rw [hcompact, hraw]

/-- The signature is over the `message` that the server reads, in its compact form, when
    the delay info is there, has no white space between its tokens and nothing that is
    escaped for HTML. -/
theorem signed_message_iff (hJ : EncodesSigned J) (reloads : Nat)
    (h : postDelayedSwaps H W J verifyBalance now swapID request = .ok blob) :
    MessageSigned H W request (postedDelayInfo reloads blob.delayInfo) ↔
      request.delayInfo ≠ [] ∧ Clean request.delayInfo := by
  rw [messageSigned_iff hJ reloads h]
  exact rawMessage_eq_iff

end Posted

/-! ### Delay info with a space

The delay info of an order, as `json.Marshal` writes it, and with a space after the colon. -/

def indexJson : Json where
  marshalBlob _ := []
  marshalSigned message signature :=
    if Closed message then .ok (envelope (rawMessage message) signature)
    else .error (.errorf "unexpected end of JSON input")

theorem indexJson_encodes : EncodesSigned indexJson := by
  refine ⟨fun message sig encoded h => ?_⟩
  simp only [indexJson] at h
  split at h
  · rename_i hclosed
    cases h
    exact ⟨hclosed, rfl⟩
  · cases h

def indexRequest (delayInfo : List UInt8) : SwapBlob :=
  { Builder.sampleBlob with
    id := ""
    delay := true
    delayCallbackURL := "http://localhost:8080/swap"
    delayInfo := delayInfo
    password := "alice" }

def indexBlob (delayInfo : List UInt8) : SwapBlob :=
  { indexRequest delayInfo with
    id := encodeToString (zeroHashes.sha256 []).1
    secretHash := secretHash zeroHashes "alice" (encodeToString (zeroHashes.sha256 []).1)
    timeLock := 1549021600
    delayInfo := envelope (rawMessage delayInfo) "" }

def indexInfo : List UInt8 := stringBytes "\x7b\"index\":1\x7d"
def spacedInfo : List UInt8 := stringBytes "\x7b\"index\": 1\x7d"

theorem index_posted : ∀ delayInfo ∈ [indexInfo, spacedInfo],
    postDelayedSwaps zeroHashes Builder.responderWallet indexJson (fun _ _ _ => .ok ())
      1549000000 (zeroHashes.sha256 []) (indexRequest delayInfo) = .ok (indexBlob delayInfo) := by
  decide +kernel

theorem signed_message_iff_index :
    MessageSigned zeroHashes Builder.responderWallet (indexRequest indexInfo)
      (postedDelayInfo 1 (indexBlob indexInfo).delayInfo) :=
  (signed_message_iff indexJson_encodes 1 (index_posted indexInfo (by simp))).mpr
    (by decide +kernel)

/-- The server reads the message without the space that was signed with it. -/
theorem spaced_message_unsigned :
    postDelayedSwaps zeroHashes Builder.responderWallet indexJson (fun _ _ _ => .ok ())
        1549000000 (zeroHashes.sha256 []) (indexRequest spacedInfo) = .ok (indexBlob spacedInfo) ∧
      ¬ MessageSigned zeroHashes Builder.responderWallet (indexRequest spacedInfo)
        (postedDelayInfo 0 (indexBlob spacedInfo).delayInfo) := by
  have hposted := index_posted spacedInfo (by simp)
  refine ⟨hposted, fun h => ?_⟩
  have hraw := (messageSigned_iff indexJson_encodes 0 hposted).mp h
  exact absurd hraw (by decide +kernel)

end Swapperd.Handler
