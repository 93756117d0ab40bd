/-
  Swapperd/SwapPosts.lean
  =======================
  **What an error answer to a swap post says** (`PostSwaps` and `buildSwapResponse` in
  `adapter/server/handler.go`).

  A post writes its swap request to the receiver and then builds the response, which
  derives two addresses, signs and may post to the response URL.  Each of these can fail
  after the request was written.  The `Bootload` that a handler writes first is left out:
  it is no swap request.
-/
import Swapperd.MirrorSwaps

namespace Swapperd.Handler

open GoLibrary

/-- What one post meets on its way. -/
structure Attempt where
  wallet : Wallet
  verifyBalance : VerifyBalance
  now : Int
  swapID : Bytes32
  /-- What `receiver.Write` returns; it has written nothing when that is an error. -/
  write : SwapBlob → Except GoError Unit
  /-- What posting to the response URL ends in. -/
  post : PostSwapResponse → PostResult

variable (H : Hashes) (J : Json)

/-- The answer to a post, and the swap requests that it has written to the receiver. -/
def postSwaps (a : Attempt) (swapReq : SwapBlob) :
    Except GoError PostSwapResponse × List SwapBlob :=
  match patchSwap H a.wallet a.verifyBalance a.now a.swapID swapReq with
  | .error err => (.error err, [])
  | .ok blob =>
      match a.write blob with
      | .error err => (.error err, [])
      | .ok () => (buildSwapResponse H a.wallet J a.post blob, [blob])

/-- A client that repeats a post until it is not answered with an error: the swap requests
    that are written for it. -/
def repeatPosts (swapReq : SwapBlob) : List Attempt → List SwapBlob
  | [] => []
  | a :: attempts =>
      match postSwaps H J a swapReq with
      | (.ok _, written) => written
      | (.error _, written) => written ++ repeatPosts swapReq attempts

/-! ### Responses -/

/-- Everything that an accepted swap needs for its response goes well: both addresses are
    derived, the response is signed, and the response URL, if there is one, answers 200. -/
def Attempt.Responds (a : Attempt) (blob : SwapBlob) (send receive : Token) : Prop :=
  ∃ sendTo receiveFrom sig,
    a.wallet.getAddress blob.password receive.blockchain = .ok sendTo ∧
    a.wallet.getAddress blob.password send.blockchain = .ok receiveFrom ∧
    sign H a.wallet blob.password (J.marshalBlob (responseBlob blob sendTo receiveFrom)) =
      .ok sig ∧
    (blob.responseURL ≠ "" → ∃ body,
      a.post (postedResponse blob (responseBlob blob sendTo receiveFrom) sig) = .ok (200, body))

variable {H J}

theorem buildSwapResponse_ok_iff {a : Attempt} {blob : SwapBlob} {send receive : Token}
    (hsend : patchToken blob.sendToken = .ok send)
    (hreceive : patchToken blob.receiveToken = .ok receive) :
    (∃ response, buildSwapResponse H a.wallet J a.post blob = .ok response) ↔
      a.Responds H J blob send receive := by
  unfold buildSwapResponse Attempt.Responds
  simp only [exists_bind_eq_ok_iff, hsend, hreceive, Except.ok.injEq, exists_eq_left']
  constructor
  · rintro ⟨sendTo, hto, receiveFrom, hfrom, sig, hsig, response, h⟩
    refine ⟨sendTo, receiveFrom, sig, hto, hfrom, hsig, ?_⟩
    intro hurl
    rw [if_pos hurl] at h
    obtain ⟨⟨statusCode, body⟩, hpost, h⟩ := except_bind_eq_ok_iff.mp h
    by_cases hstatus : statusCode = 200
    · subst hstatus
      exact ⟨body, hpost⟩
    · -- any other status code ends in an error
      dsimp only at h
      rw [if_pos hstatus] at h
      obtain ⟨_, -, h⟩ := except_bind_eq_ok_iff.mp h
      cases h
  · rintro ⟨sendTo, receiveFrom, sig, hto, hfrom, hsig, hpost⟩
    refine ⟨sendTo, hto, receiveFrom, hfrom, sig, hsig, ?_⟩
    by_cases hurl : blob.responseURL ≠ ""
    · obtain ⟨body, hbody⟩ := hpost hurl
      rw [if_pos hurl]
      exact ⟨_, except_bind_eq_ok_iff.mpr ⟨_, hbody, rfl⟩⟩
    · rw [if_neg hurl]
      exact ⟨_, rfl⟩

/-! ### Errors -/

/-- An error answer says that no swap request was written. -/
def Attempt.ErrorIsClean (H : Hashes) (J : Json) (a : Attempt) (swapReq : SwapBlob) : Prop :=
  ∀ err, (postSwaps H J a swapReq).1 = .error err → (postSwaps H J a swapReq).2 = []

/-- When the post is accepted and written, its response goes well. -/
def Attempt.Answerable (H : Hashes) (J : Json) (a : Attempt) (swapReq : SwapBlob) : Prop :=
  ∀ blob send receive, patchSwap H a.wallet a.verifyBalance a.now a.swapID swapReq = .ok blob →
    a.write blob = .ok () → patchToken blob.sendToken = .ok send →
      patchToken blob.receiveToken = .ok receive → a.Responds H J blob send receive

/-- The tokens of an accepted swap are known. -/
theorem patchSwap_tokens {W : Wallet} {verifyBalance : VerifyBalance} {now : Int}
    {swapID : Bytes32} {request blob : SwapBlob}
    (h : patchSwap H W verifyBalance now swapID request = .ok blob) :
    ∃ send receive, patchToken blob.sendToken = .ok send ∧
      patchToken blob.receiveToken = .ok receive := by
  obtain ⟨send, receive, hadmits⟩ := (patchSwap_ok_iff.mp h).1
  have hpatches := (patchSwap_patches h).1
  refine ⟨send, receive, ?_, ?_⟩
  · rw [hpatches]
    exact hadmits.sendToken
  · rw [hpatches]
    exact hadmits.receiveToken

variable {a : Attempt} {swapReq : SwapBlob}

theorem errorIsClean_iff : a.ErrorIsClean H J swapReq ↔ a.Answerable H J swapReq := by
  unfold Attempt.ErrorIsClean Attempt.Answerable postSwaps
  cases hpatch : patchSwap H a.wallet a.verifyBalance a.now a.swapID swapReq with
  | error err => simp
  | ok blob =>
      dsimp only
      cases hwrite : a.write blob with
      | error err =>
          refine iff_of_true (fun _ _ => rfl) ?_
          intro blob' send receive hblob hok
          obtain rfl := Except.ok.inj hblob
          cases hwrite.symm.trans hok
      | ok u =>
          obtain ⟨send, receive, hsend, hreceive⟩ := patchSwap_tokens hpatch
          dsimp only
          constructor
          · intro h blob' send' receive' hblob _ hsend' hreceive'
            obtain rfl := Except.ok.inj hblob
            rw [← buildSwapResponse_ok_iff hsend' hreceive']
            cases hresponse : buildSwapResponse H a.wallet J a.post blob with
            | ok response => exact ⟨response, rfl⟩
            | error err =>
                have hnone := h err hresponse
                cases hnone
          · intro h err herr
            obtain ⟨response, hresponse⟩ :=
              (buildSwapResponse_ok_iff hsend hreceive).mpr
                (h blob send receive rfl hwrite hsend hreceive)
            cases hresponse.symm.trans herr

/-- No post writes more than one swap request. -/
theorem length_postSwaps_le (a : Attempt) (swapReq : SwapBlob) :
    (postSwaps H J a swapReq).2.length ≤ 1 := by
  unfold postSwaps
  split
  · simp
  · split <;> simp

theorem length_repeatPosts_le {attempts : List Attempt}
    (h : ∀ a ∈ attempts, a.ErrorIsClean H J swapReq) :
    (repeatPosts H J swapReq attempts).length ≤ 1 := by
  induction attempts with
  | nil => simp [repeatPosts]
  | cons a attempts ih =>
      unfold repeatPosts
      have hclean := h a List.mem_cons_self
      have hlength := length_postSwaps_le (H := H) (J := J) a swapReq
      unfold Attempt.ErrorIsClean at hclean
      split
      · rename_i response written heq
        rw [heq] at hlength
        exact hlength
      · rename_i err written heq
        rw [heq] at hclean
        have hnone : written = [] := hclean err rfl
        rw [hnone, List.nil_append]
        exact ih fun a' ha' => h a' (List.mem_cons_of_mem _ ha')

/-- **An error answer means that no swap was started exactly when the response of every
    accepted post goes well**; then repeating a failed post starts one swap at most. -/
theorem error_means_not_started (H : Hashes) (J : Json) (swapReq : SwapBlob) :
    (∀ a : Attempt, a.ErrorIsClean H J swapReq ↔ a.Answerable H J swapReq) ∧
      ∀ attempts : List Attempt, (∀ a ∈ attempts, a.Answerable H J swapReq) →
        (repeatPosts H J swapReq attempts).length ≤ 1 := by
  refine ⟨fun a => errorIsClean_iff, ?_⟩
  intro attempts h
  exact length_repeatPosts_le fun a ha => errorIsClean_iff.mpr (h a ha)

/-! ### A response URL that does not answer -/

def respondingRequest : SwapBlob :=
  { sampleRequest with responseURL := "http://localhost:1/response" }

def unansweredAttempt : Attempt where
  wallet := initiatorWallet
  verifyBalance _ _ _ := .ok ()
  now := 1550000000
  swapID := sampleID
  write _ := .ok ()
  post _ := .error (.errorf "connection refused")

def answeredAttempt : Attempt :=
  { unansweredAttempt with
    swapID := ⟨List.replicate 32 8, List.length_replicate⟩
    post := fun _ => .ok (200, .ok "") }

/-- The first post is answered with an error and its swap is started; so is the swap of
    the second one. -/
theorem failed_post_started :
    (∃ err, (postSwaps zeroHashes sampleJson unansweredAttempt respondingRequest).1 =
        .error err) ∧
      (postSwaps zeroHashes sampleJson unansweredAttempt respondingRequest).2.length = 1 ∧
      (repeatPosts zeroHashes sampleJson respondingRequest
        [unansweredAttempt, answeredAttempt]).length = 2 := by
  refine ⟨⟨.errorf "connection refused", ?_⟩, ?_, ?_⟩
  · decide +kernel
  · decide +kernel
  · decide +kernel

end Swapperd.Handler
