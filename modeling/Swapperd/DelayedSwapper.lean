/-
  Swapperd/DelayedSwapper.lean
  ============================
  **The delayed swapper** (`core/wallet/swapper/delayed`, `adapter/callback`): the
  task that polls a callback server until a delayed swap is filled or cancelled.

  The only call of the task is the HTTP request of `DelayCallback`.  Its reply is what
  the source looks at: that the request failed, or a status code with a body and what
  `json.Unmarshal` makes of that body.
-/
import Swapperd.RetryTask
import Swapperd.Foundation

namespace Swapperd.Delayed

open CallProgram RetryTask GoLibrary

/-! ### The callback -/

inductive HttpReply where
  | failed (err : String)
  | answered (statusCode : Int) (body : String) (filled : Except String SwapBlob)

/-- The one call of the task: post a partial swap to its callback server. -/
inductive Op where
  | post (partialSwap : SwapBlob)
deriving DecidableEq

abbrev Reply : Op → Type
  | .post _ => HttpReply

def Op.partialSwap : Op → SwapBlob
  | .post partialSwap => partialSwap

abbrev Calls := Program Op Reply

def verifyDelaySwap (partialSwap filledSwap : SwapBlob) : Except GoError SwapBlob := do
  let initialMinReceiveValue := (setString partialSwap.minimumReceiveAmount).getD 0
  let some initialSendValue := setString partialSwap.sendAmount
    | .error (.errorf "corrupted send value")
  let some initialRecvValue := setString partialSwap.receiveAmount
    | .error (.errorf "corrupted receive value")
  let some filledSendValue := setString filledSwap.sendAmount
    | .error (.errorf "corrupted filled send value")
  let some filledReceiveValue := setString filledSwap.receiveAmount
    | .error (.errorf "corrupted filled receive value")
  if filledReceiveValue < initialMinReceiveValue ∨ initialSendValue < filledSendValue then
    .error (.errorf ("invalid filled swap receive value too low or send value too high " ++
      s!"{initialMinReceiveValue} {filledReceiveValue} {initialSendValue} {filledSendValue}"))
  else if filledReceiveValue * initialSendValue < initialRecvValue * filledSendValue then
    .error (.errorf "invalid filled swap unfavorable price")
  else
    .ok { filledSwap with delay := false }

/-- What `DelayCallback` makes of the server's reply. -/
def readReply (partialSwap : SwapBlob) : HttpReply → Except GoError SwapBlob
  | .failed err => .error (.errorf err)
  | .answered statusCode body filled =>
      if statusCode = 200 then
        match filled with
        | .error err => .error (.errorf err)
        | .ok filledSwap => verifyDelaySwap partialSwap filledSwap
      else if statusCode = 204 then .error .swapDetailsUnavailable
      else if statusCode = 410 then .error .swapCancelled
      else .error (.errorf s!"unexpected status code={statusCode}: {body}")

def delayCallback (partialSwap : SwapBlob) : Calls (Except GoError SwapBlob) := do
  let reply ← .perform (Op.post partialSwap)
  return readReply partialSwap reply

/-! ### The reducer -/

inductive Message where
  | receiptUpdate (update : ReceiptUpdate)
  | swapRequest (blob : SwapBlob)
  | error (err : GoError)
  | deleteSwap (id : SwapID)
deriving DecidableEq

abbrev SwapMap := Store SwapID SwapBlob

def handleCancelSwap (swapMap : SwapMap) (id : SwapID) : SwapMap × List Message :=
  (swapMap.erase id, [.receiptUpdate ⟨id, .cancel⟩, .deleteSwap id])

def handleUpdateSwap (swapMap : SwapMap) (req : SwapBlob) : SwapMap × List Message :=
  (swapMap.erase req.id,
    [.receiptUpdate ⟨req.id, .fill req.receiveAmount req.sendAmount req.timeLock⟩,
      .swapRequest req])

def handleDelayedSwapRequest (swapMap : SwapMap) (blob : SwapBlob) :
    Calls (SwapMap × List Message) := do
  let password := blob.password
  let blob := blob.withPassword ""
  match ← delayCallback blob with
  | .ok filledBlob => return handleUpdateSwap swapMap (filledBlob.withPassword password)
  | .error err =>
    if err = .swapCancelled then
      return handleCancelSwap swapMap blob.id
    else
      let blob := blob.withPassword password
      let swapMap := swapMap.insert blob.id blob
      if err ≠ .swapDetailsUnavailable then
        return (swapMap, [.error err])
      else
        return (swapMap, [])

def task : Task Op Reply SwapID SwapBlob Message where
  key := SwapBlob.id
  handle := handleDelayedSwapRequest

def handleTick (order : List SwapID) (swapMap : SwapMap) : Calls (SwapMap × List Message) :=
  task.handleTick order swapMap

abbrev Pass (σ N : Type) := RetryTask.Pass Op Reply σ N SwapBlob Message
abbrev Reduction (σ N : Type) := RetryTask.Reduction Op Reply σ N SwapID SwapBlob Message
abbrev Call := (op : Op) × Reply op

/-! ### Polls

A pass makes exactly one call; its reply decides the pass. -/

/-- The swap that was polled. -/
def Call.id (c : Call) : SwapID := c.1.partialSwap.id

/-- What the server's answer came to. -/
def Call.answer : Call → Except GoError SwapBlob
  | ⟨.post partialSwap, reply⟩ => readReply partialSwap reply

theorem verifyDelaySwap_ok {partialSwap filledSwap blob : SwapBlob}
    (h : verifyDelaySwap partialSwap filledSwap = .ok blob) :
    blob = { filledSwap with delay := false } := by
  unfold verifyDelaySwap at h
  dsimp only at h
  -- each amount is a number, or verification fails
  repeat
    split at h
    case h_2 => cases h
  split_ifs at h
  exact (Except.ok.inj h).symm

/-- An answer with the amounts that were asked for is accepted. -/
theorem verifyDelaySwap_same {partialSwap filledSwap : SwapBlob} {send receive : Int}
    (hsend : setString partialSwap.sendAmount = some send)
    (hreceive : setString partialSwap.receiveAmount = some receive)
    (hminimum : (setString partialSwap.minimumReceiveAmount).getD 0 ≤ receive)
    (hsends : filledSwap.sendAmount = partialSwap.sendAmount)
    (hreceives : filledSwap.receiveAmount = partialSwap.receiveAmount) :
    verifyDelaySwap partialSwap filledSwap = .ok { filledSwap with delay := false } := by
  unfold verifyDelaySwap
  rw [hsends, hreceives, hsend, hreceive]
  simp only
  rw [if_neg (by omega), if_neg (by omega)]

theorem readReply_delay {partialSwap blob : SwapBlob} {reply : HttpReply}
    (h : readReply partialSwap reply = .ok blob) : blob.delay = false := by
  cases reply with
  | failed err => cases h
  | answered statusCode body filled =>
      unfold readReply at h
      dsimp only at h
      split_ifs at h
      cases filled with
      | error err => cases h
      | ok filledSwap => rw [verifyDelaySwap_ok h]

/-- A filled swap is one to execute now. -/
theorem answer_delay {c : Call} {filled : SwapBlob} (h : c.answer = .ok filled) :
    filled.delay = false := by
  obtain ⟨⟨partialSwap⟩, reply⟩ := c
  exact readReply_delay h

/-- The answer fills or cancels the swap. -/
def Call.resolves (c : Call) : Bool :=
  match c.answer with
  | .ok _ => true
  | .error err => err = .swapCancelled

/-- A filled answer carries the ID it was asked for. -/
def Call.KeepsID (c : Call) : Prop := ∀ filled, c.answer = .ok filled → filled.id = c.id

variable {σ N : Type} {step : Behaviour Op Reply σ N} {s s' : SwapMap × σ} {p : Pass σ N}

/-- Every way in which a pass can end. -/
inductive PassExit (req : SwapBlob) (swapMap : SwapMap) (c : Call) :
    SwapMap → List Message → Prop where
  | filled (filled : SwapBlob) (hanswer : c.answer = .ok filled) :
      PassExit req swapMap c (swapMap.erase filled.id)
        [.receiptUpdate
            ⟨filled.id, .fill filled.receiveAmount filled.sendAmount filled.timeLock⟩,
          .swapRequest (filled.withPassword req.password)]
  | cancelled (hanswer : c.answer = .error .swapCancelled) :
      PassExit req swapMap c (swapMap.erase req.id)
        [.receiptUpdate ⟨req.id, .cancel⟩, .deleteSwap req.id]
  | unavailable (hanswer : c.answer = .error .swapDetailsUnavailable) :
      PassExit req swapMap c (swapMap.insert req.id req) []
  | failed (err : GoError) (hanswer : c.answer = .error err) (hcancelled : err ≠ .swapCancelled)
      (hunavailable : err ≠ .swapDetailsUnavailable) :
      PassExit req swapMap c (swapMap.insert req.id req) [.error err]

theorem delayCallback_call {partialSwap : SwapBlob} {w w' : σ}
    {events : List (Event Op Reply σ N)} {answer : Except GoError SwapBlob}
    (h : Exec step (delayCallback partialSwap) w events answer w') :
    ∃ c : Call, events.map Event.call = [c] ∧ c.1 = .post partialSwap ∧ c.answer = answer := by
  unfold delayCallback at h
  obtain ⟨_, reply, _, _, rfl, -, h⟩ := exec_perform_bind_iff.mp h
  obtain ⟨rfl, rfl, rfl⟩ := exec_pure_iff.mp h
  exact ⟨⟨.post partialSwap, reply⟩, rfl, rfl, rfl⟩

theorem pass_exits (h : PassStep step task s p s') :
    ∃ c : Call, p.calls = [c] ∧ c.1 = .post (p.req.withPassword "") ∧
      PassExit p.req s.1 c s'.1 p.batch := by
  have hexec : Exec step (handleDelayedSwapRequest s.1 p.req) s.2 p.events
      (s'.1, p.batch) s'.2 := h.1
  unfold handleDelayedSwapRequest at hexec
  obtain ⟨answer, w, first, second, hevents, hpoll, hexec⟩ := exec_bind_iff.mp hexec
  obtain ⟨c, hcall, hop, hanswer⟩ := delayCallback_call hpoll
  refine ⟨c, ?_⟩
  -- after the call the pass only returns
  have hends : ∀ {swapMap batch}, Exec step (.pure (swapMap, batch)) w second (s'.1, p.batch) s'.2 →
      PassExit p.req s.1 c swapMap batch →
      p.calls = [c] ∧ c.1 = .post (p.req.withPassword "") ∧ PassExit p.req s.1 c s'.1 p.batch := by
    intro swapMap batch hpure hexit
    obtain ⟨hsecond, hout, -⟩ := exec_pure_iff.mp hpure
    obtain ⟨hmap, hbatch⟩ := Prod.mk.inj hout
    refine ⟨by simp [Pass.calls, hevents, hsecond, hcall], hop, ?_⟩
    rw [hmap, hbatch]
    exact hexit
  cases answer with
  | ok filled => exact hends hexec (.filled filled hanswer)
  | error err =>
      by_cases hcancelled : err = .swapCancelled
      · subst hcancelled
        exact hends hexec (.cancelled hanswer)
      by_cases hunavailable : err = .swapDetailsUnavailable
      · subst hunavailable
        exact hends hexec (.unavailable hanswer)
      · simp only [hcancelled, hunavailable, ↓reduceIte, ne_eq, not_false_eq_true] at hexec
        exact hends hexec (.failed err hanswer hcancelled hunavailable)

theorem pass_call_id (h : PassStep step task s p s') : ∀ c ∈ p.calls, Call.id c = p.req.id := by
  obtain ⟨c, hcalls, hop, -⟩ := pass_exits h
  intro c' hc'
  rw [hcalls, List.mem_singleton] at hc'
  simp [hc', Call.id, hop, Op.partialSwap]

theorem keepsKeys : KeepsKeys step task := by
  intro s p s' h hs
  obtain ⟨c, -, -, hexit⟩ := pass_exits h
  generalize s'.1 = m, p.batch = batch at hexit ⊢
  cases hexit with
  | filled | cancelled => exact hs.erase _
  | unavailable | failed => exact hs.insert _

end Swapperd.Delayed
