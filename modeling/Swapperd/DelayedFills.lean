/-
  Swapperd/DelayedFills.lean
  ==========================
  **What a callback server may make of a delayed swap** (`adapter/callback`).

  An `Offer` is what a swap sends and what it receives for it.  Offers are ordered by how
  good they are for the sender, and `verifyDelaySwap` accepts a fill when it is no worse
  an offer than the partial swap and receives its minimum.  It looks at nothing else: the
  blob it returns is the server's, whatever the other fields are.
-/
import Swapperd.DelayedSwapper
import Mathlib.Algebra.Order.Field.Rat
import Mathlib.Algebra.Order.Field.Basic
import Mathlib.Algebra.Order.Ring.Cast

namespace Swapperd.Delayed

open GoLibrary

/-! ### Offers -/

structure Offer where
  send : Int
  receive : Int
  send_pos : 0 < send

namespace Offer

/-- What is received for a unit that is sent. -/
def price (o : Offer) : ℚ := o.receive / o.send

/-- A better offer has no worse price and sends no more. -/
instance instPreorderOffer : Preorder Offer where
  le p f := p.price ≤ f.price ∧ f.send ≤ p.send
  le_refl p := ⟨le_refl _, le_refl _⟩
  le_trans p f g hpf hfg := ⟨hpf.1.trans hfg.1, hfg.2.trans hpf.2⟩

variable {p f g : Offer}

theorem le_iff : p ≤ f ↔ p.price ≤ f.price ∧ f.send ≤ p.send := Iff.rfl

/-- Prices are compared by cross-multiplication. -/
theorem price_le_iff : p.price ≤ f.price ↔ p.receive * f.send ≤ f.receive * p.send := by
  have hp : (0 : ℚ) < p.send := by exact_mod_cast p.send_pos
  have hf : (0 : ℚ) < f.send := by exact_mod_cast f.send_pos
  unfold price
  rw [div_le_div_iff₀ hp hf]
  exact_mod_cast Iff.rfl

theorem le_of_receive_le (hsend : g.send = f.send) (hreceive : f.receive ≤ g.receive) :
    f ≤ g := by
  refine le_iff.mpr ⟨price_le_iff.mpr ?_, hsend.le⟩
  rw [hsend]
  exact mul_le_mul_of_nonneg_right hreceive f.send_pos.le

theorem le_of_send_le (hsend : g.send ≤ f.send) (hreceive : g.receive = f.receive)
    (hnonneg : 0 ≤ f.receive) : f ≤ g := by
  refine le_iff.mpr ⟨price_le_iff.mpr ?_, hsend⟩
  rw [hreceive]
  exact mul_le_mul_of_nonneg_left hsend hnonneg

/-- A better offer than one that receives something receives something. -/
theorem receive_nonneg (hp : 0 ≤ p.receive) (h : p ≤ f) : 0 ≤ f.receive := by
  have hprice := price_le_iff.mp (le_iff.mp h).1
  have hleft : 0 ≤ p.receive * f.send := mul_nonneg hp f.send_pos.le
  exact nonneg_of_mul_nonneg_left (hleft.trans hprice) p.send_pos

end Offer
/-! ### Fills -/

/-- The amounts of a blob are those of an offer. -/
def Offers (blob : SwapBlob) (o : Offer) : Prop :=
  setString blob.sendAmount = some o.send ∧ setString blob.receiveAmount = some o.receive

def minimumReceived (blob : SwapBlob) : Int := (setString blob.minimumReceiveAmount).getD 0

def Accepts (partialSwap filledSwap : SwapBlob) : Prop :=
  ∃ blob, verifyDelaySwap partialSwap filledSwap = .ok blob

section Acceptance

variable {partialSwap filledSwap : SwapBlob} {p f : Offer}

/-- The code accepts the fills that are no worse an offer and receive the minimum. -/
theorem accepts_iff_le (hp : Offers partialSwap p) (hf : Offers filledSwap f) :
    Accepts partialSwap filledSwap ↔ p ≤ f ∧ minimumReceived partialSwap ≤ f.receive := by
  rw [Offer.le_iff, Offer.price_le_iff]
  unfold Accepts verifyDelaySwap minimumReceived
  rw [hp.1, hp.2, hf.1, hf.2]
  dsimp only
  constructor
  · rintro ⟨blob, h⟩
    split_ifs at h with hlimits hprice
    exact ⟨⟨by omega, by omega⟩, by omega⟩
  · rintro ⟨⟨hprice, hsend⟩, hminimum⟩
    rw [if_neg (by omega), if_neg (by omega)]
    exact ⟨_, rfl⟩

/-- What a trader may rely on when a partial swap is filled. -/
structure FillRules (partialSwap : SwapBlob) (p : Offer) : Prop where
  exact_limits : ∀ filledSwap f, Offers filledSwap f →
    (Accepts partialSwap filledSwap ↔
      (p.receive : ℚ) / p.send ≤ f.receive / f.send ∧ f.send ≤ p.send ∧
        minimumReceived partialSwap ≤ f.receive)
  unchanged : ∀ filledSwap, Offers filledSwap p →
    (Accepts partialSwap filledSwap ↔ minimumReceived partialSwap ≤ p.receive)
  more_received : ∀ filledSwap f filledSwap' f', Offers filledSwap f → Offers filledSwap' f' →
    f'.send = f.send → f.receive ≤ f'.receive →
      Accepts partialSwap filledSwap → Accepts partialSwap filledSwap'
  less_sent : 0 ≤ p.receive → ∀ filledSwap f filledSwap' f',
    Offers filledSwap f → Offers filledSwap' f' →
    f'.send ≤ f.send → f'.receive = f.receive →
      Accepts partialSwap filledSwap → Accepts partialSwap filledSwap'
  refilled : ∀ filledSwap f refilledSwap g, Offers filledSwap f → Offers refilledSwap g →
    minimumReceived filledSwap = minimumReceived partialSwap →
      Accepts partialSwap filledSwap → Accepts filledSwap refilledSwap →
        Accepts partialSwap refilledSwap

/-- **A fill is accepted exactly when its price is no worse and it is within the limits**,
    and acceptance follows the order of offers. -/
theorem fill_rules (hp : Offers partialSwap p) : FillRules partialSwap p where
  exact_limits filledSwap f hf := by
    rw [accepts_iff_le hp hf, Offer.le_iff, and_assoc]
    rfl
  unchanged filledSwap hf := by
    rw [accepts_iff_le hp hf]
    exact ⟨And.right, fun hminimum => ⟨le_refl p, hminimum⟩⟩
  more_received filledSwap f filledSwap' f' hf hf' hsend hreceive haccepts := by
    rw [accepts_iff_le hp hf] at haccepts
    rw [accepts_iff_le hp hf']
    exact ⟨haccepts.1.trans (Offer.le_of_receive_le hsend hreceive),
      haccepts.2.trans hreceive⟩
  less_sent hnonneg filledSwap f filledSwap' f' hf hf' hsend hreceive haccepts := by
    rw [accepts_iff_le hp hf] at haccepts
    rw [accepts_iff_le hp hf', hreceive]
    have hf0 : 0 ≤ f.receive := Offer.receive_nonneg hnonneg haccepts.1
    exact ⟨haccepts.1.trans (Offer.le_of_send_le hsend hreceive hf0), haccepts.2⟩
  refilled filledSwap f refilledSwap g hf hg hminimum hfirst hsecond := by
    rw [accepts_iff_le hp hf] at hfirst
    rw [accepts_iff_le hf hg, hminimum] at hsecond
    rw [accepts_iff_le hp hg]
    exact ⟨hfirst.1.trans hsecond.1, hsecond.2⟩

/-- A partial swap that sells up to 1000 for no less than a tenth each, and for 10 at
    least. -/
def limitOrder : SwapBlob where
  id := "c7t5VHbJdx2M0PtRS6G3lN2nrRH1fX0arUoZYkFBlvI="
  sendToken := "BTC"
  receiveToken := "ETH"
  sendAmount := "1000"
  receiveAmount := "100"
  minimumReceiveAmount := "10"
  withdrawAddress := "0x52bc44d5378309ee2abf1539bf71de1b7d7be3b5"
  delay := true

theorem fill_rules_limitOrder : FillRules limitOrder ⟨1000, 100, by decide⟩ :=
  fill_rules ⟨by decide, by decide⟩

end Acceptance

/-! ### The rest of the blob -/

/-- A blob agrees with a partial swap on everything that the user fixed. -/
structure KeepsTerms (partialSwap blob : SwapBlob) : Prop where
  id : blob.id = partialSwap.id
  sendToken : blob.sendToken = partialSwap.sendToken
  receiveToken : blob.receiveToken = partialSwap.receiveToken
  shouldInitiateFirst : blob.shouldInitiateFirst = partialSwap.shouldInitiateFirst
  withdrawAddress : blob.withdrawAddress = partialSwap.withdrawAddress
  sendFee : blob.sendFee = partialSwap.sendFee
  receiveFee : blob.receiveFee = partialSwap.receiveFee
  brokerFee : blob.brokerFee = partialSwap.brokerFee
  brokerSendTokenAddr : blob.brokerSendTokenAddr = partialSwap.brokerSendTokenAddr
  brokerReceiveTokenAddr : blob.brokerReceiveTokenAddr = partialSwap.brokerReceiveTokenAddr
  passwordHash : blob.passwordHash = partialSwap.passwordHash
  minimumReceiveAmount : blob.minimumReceiveAmount = partialSwap.minimumReceiveAmount
  secretHash : partialSwap.shouldInitiateFirst = true → blob.secretHash = partialSwap.secretHash
  timeLock : partialSwap.shouldInitiateFirst = true → blob.timeLock = partialSwap.timeLock

variable {partialSwap blob : SwapBlob} {reply : HttpReply}

/-- `Delay` is not one of the terms. -/
theorem keepsTerms_delay {answer : SwapBlob} {delay : Bool} :
    KeepsTerms partialSwap { answer with delay := delay } ↔ KeepsTerms partialSwap answer := by
  constructor
  · rintro ⟨⟩
    constructor <;> assumption
  · rintro ⟨⟩
    constructor <;> assumption

/-- `DelayCallback` succeeds only on a decoded body with status 200 that passes the
    checks. -/
theorem readReply_ok (h : readReply partialSwap reply = .ok blob) :
    ∃ body answer, reply = .answered 200 body (.ok answer) ∧
      verifyDelaySwap partialSwap answer = .ok blob := by
  cases reply with
  | failed err => cases h
  | answered statusCode body filled =>
      unfold readReply at h
      dsimp only at h
      split_ifs at h with hstatus
      cases filled with
      | error err => cases h
      | ok answer => exact ⟨body, answer, by rw [hstatus], h⟩

/-- **The filled swap keeps the user's terms exactly when the server's answer does.** -/
theorem fill_keeps_terms_iff (h : readReply partialSwap reply = .ok blob) :
    ∃ body answer, reply = .answered 200 body (.ok answer) ∧
      (KeepsTerms partialSwap blob ∧ blob.delay = false ↔ KeepsTerms partialSwap answer) := by
  obtain ⟨body, answer, hreply, hverify⟩ := readReply_ok h
  refine ⟨body, answer, hreply, ?_⟩
  rw [verifyDelaySwap_ok hverify, keepsTerms_delay]
  exact and_iff_left rfl

/-- An answer with the amounts of the limit order, for other tokens, paid out elsewhere. -/
def redirectedAnswer : SwapBlob :=
  { limitOrder with
    receiveToken := "PAX"
    withdrawAddress := "0x9b9a3e7c6aD1a8b7B4b5E3f1F2b8bC0f51b3C0A2" }

def redirectedSwap : SwapBlob := { redirectedAnswer with delay := false }

theorem redirected_accepted :
    readReply limitOrder (.answered 200 "" (.ok redirectedAnswer)) = .ok redirectedSwap := by
  decide +kernel

theorem fill_keeps_terms_iff_redirected :
    ∃ body answer,
      HttpReply.answered 200 "" (.ok redirectedAnswer) = .answered 200 body (.ok answer) ∧
        (KeepsTerms limitOrder redirectedSwap ∧ redirectedSwap.delay = false ↔
          KeepsTerms limitOrder answer) :=
  fill_keeps_terms_iff redirected_accepted

theorem redirected_terms_lost :
    readReply limitOrder (.answered 200 "" (.ok redirectedAnswer)) = .ok redirectedSwap ∧
      ¬ KeepsTerms limitOrder redirectedSwap := by
  refine ⟨redirected_accepted, ?_⟩
  intro hkeeps
  exact absurd hkeeps.receiveToken (by decide)

end Swapperd.Delayed
