/-
  Swapperd/DaemonIntake.lean
  ==========================
  **The daemon with the receiver that it has.**

  `Swapperd.Daemon` gives the handlers an unbounded queue, from which requests and ticks
  reach the wallet at any time.  Here handlers write to the bounded buffer of the receiver,
  a `Write` fails when its deadline passed or the receiver is shutting down, and requests
  and ticks come through the service and the composer.

  `daemon_refines` — seen through the requests that are on their way, every run of this
  daemon is one of that, so that what holds of all runs there holds here.
-/
import Swapperd.DaemonRuns
import Swapperd.IntakeRuns
import Swapperd.RunRefinement

namespace Swapperd.Daemon

open CallProgram RetryTask TransitionRuns

/-! ### The system -/

/-- The `receiver` of the daemon is not used: the receiver is in the intake. -/
structure Serving where
  intake : Intake.State WalletMessage
  daemon : State

/-- A daemon that starts with these tables. -/
def Serving.start (cap now : Nat) (pending : PendingTable) (owner : Store SwapID String) :
    Serving where
  intake := .new cap now
  daemon := .start pending owner

/-- What the wallet gets for a message of the receiver. -/
def toWallet : Intake.Message WalletMessage → WalletMessage
  | .request msg => msg
  | .tick _ => .tick

/-- The tasks below the wallet. -/
def Label.isTask : Label → Prop
  | .swapper _ _ | .immediate _ | .delayed _ => True
  | _ => False

/-- A step of the daemon, of the intake, or of both. -/
structure ServingLabel where
  daemon? : Option Label
  intake? : Option (Intake.Label WalletMessage)

/-- The step changes the threads of the handlers. -/
abbrev Serving.withThreads (s : Serving) (threads : List Thread) : Serving :=
  { s with daemon := { s.daemon with threads := threads } }

inductive Serves (D : Config) : Serving → ServingLabel → Serving → Prop where
  | http {s : Serving} (req : Request) :
      Serves D s ⟨some .thread, none⟩ (s.withThreads (.bootload req :: s.daemon.threads))
  | bootloaded {s : Serving} {pre post : List Thread} {req : Request}
      (h : s.daemon.threads = pre ++ .bootload req :: post)
      (hflag : Handler.passwordHash D.H req.password ∈ s.daemon.bootloaded) :
      Serves D s ⟨some .thread, none⟩ (s.withThreads (pre ++ .handle req :: post))
  | notBootloaded {s : Serving} {pre post : List Thread} {req : Request}
      (h : s.daemon.threads = pre ++ .bootload req :: post)
      (hflag : Handler.passwordHash D.H req.password ∉ s.daemon.bootloaded) :
      Serves D s ⟨some .thread, none⟩ (s.withThreads (pre ++ .writeBootload req :: post))
  /-- `Write` returns nil. -/
  | writeBootload {s : Serving} {pre post : List Thread} {req : Request}
      {intake : Intake.State WalletMessage}
      (h : s.daemon.threads = pre ++ .writeBootload req :: post)
      (hwrite : Intake.Moves s.intake (.write (.bootload req.password) none) intake) :
      Serves D s ⟨some .thread, some (.write (.bootload req.password) none)⟩
        { s.withThreads (pre ++ .setBootloaded req :: post) with intake := intake }
  /-- `Write` fails: the flag stays as it is. -/
  | bootloadFailed {s : Serving} {pre post : List Thread} {req : Request} {err : GoError}
      {intake : Intake.State WalletMessage}
      (h : s.daemon.threads = pre ++ .writeBootload req :: post)
      (hwrite : Intake.Moves s.intake (.write (.bootload req.password) (some err)) intake) :
      Serves D s ⟨some .thread, some (.write (.bootload req.password) (some err))⟩
        { s.withThreads (pre ++ .handle req :: post) with intake := intake }
  | setBootloaded {s : Serving} {pre post : List Thread} {req : Request}
      (h : s.daemon.threads = pre ++ .setBootloaded req :: post) :
      Serves D s ⟨some .thread, none⟩
        { s with
          daemon :=
            { s.daemon with
              threads := pre ++ .handle req :: post
              bootloaded :=
                insert (Handler.passwordHash D.H req.password) s.daemon.bootloaded } }
  /-- A posted swap is admitted. Its random ID was not used before. -/
  | patch {s : Serving} {pre post : List Thread} {swapReq blob : SwapBlob}
      {verifyBalance : VerifyBalance} {now : Int} {swapID : Bytes32}
      (h : s.daemon.threads = pre ++ .handle (.postSwaps swapReq) :: post)
      (hblob : postSwapsHandler D verifyBalance now swapID swapReq = .ok blob)
      (hfresh : blob.id ∉ s.daemon.owner) :
      Serves D s ⟨some .thread, none⟩
        { s with
          daemon :=
            { s.daemon with
              threads := pre ++ .writeRequest blob :: post
              owner := s.daemon.owner.insert blob.id blob.password } }
  /-- A request asks for no more, or fails. -/
  | handled {s : Serving} {pre post : List Thread} {req : Request}
      (h : s.daemon.threads = pre ++ .handle req :: post) :
      Serves D s ⟨some .thread, none⟩ (s.withThreads (pre ++ post))
  | writeRequest {s : Serving} {pre post : List Thread} {blob : SwapBlob} {err : Option GoError}
      {intake : Intake.State WalletMessage}
      (h : s.daemon.threads = pre ++ .writeRequest blob :: post)
      (hwrite : Intake.Moves s.intake (.write (.swapRequest blob) err) intake) :
      Serves D s ⟨some .thread, some (.write (.swapRequest blob) err)⟩
        { s.withThreads (pre ++ post) with intake := intake }
  /-- Time passes, the server shuts down, or the service or the composer does what sends
      nothing to the wallet. -/
  | intake {s : Serving} {l : Intake.Label WalletMessage} {intake : Intake.State WalletMessage}
      (h : Intake.Moves s.intake l intake) (hwritten : l.written? = none)
      (hforwarded : l.forwarded? = none) :
      Serves D s ⟨none, some l⟩ { s with intake := intake }
  /-- The composer sends to the wallet what the service accepted. -/
  | forward {s : Serving} {msg : Intake.Message WalletMessage}
      {intake : Intake.State WalletMessage}
      (h : Intake.Moves s.intake (.compose (.acceptedRequest msg)) intake) :
      Serves D s ⟨some .wallet, some (.compose (.acceptedRequest msg))⟩
        { intake := intake
          daemon := { s.daemon with walletIn := s.daemon.walletIn ++ [toWallet msg] } }
  | wallet {s : Serving} {msg : WalletMessage} {rest : List WalletMessage}
      (h : s.daemon.walletIn = msg :: rest) :
      Serves D s ⟨some .wallet, none⟩
        { s with
          daemon :=
            { s.daemon with walletIn := rest, swapperIn := s.daemon.swapperIn ++ [msg] } }
  | task {s : Serving} {l : Label} {daemon : State} (hl : l.isTask)
      (h : Moves D s.daemon l daemon) :
      Serves D s ⟨some l, none⟩ { s with daemon := daemon }
  | crash {s : Serving} :
      Serves D s ⟨some .crash, none⟩
        (.start s.intake.receiver.buf.cap s.intake.now s.daemon.pending s.daemon.owner)

/-! ### The refinement -/

/-- The daemon with the requests that are on their way in its queue. -/
def Serving.seen (s : Serving) : State := { s.daemon with receiver := s.intake.queued }

variable {D : Config}

/-- Tasks do not look at the receiver. -/
theorem task_frames {s s' : State} {l : Label} (hl : l.isTask) (h : Moves D s l s')
    (receiver : List WalletMessage) :
    Moves D { s with receiver := receiver } l { s' with receiver := receiver } := by
  cases h with
  | swapper h hstored =>
      cases h with
      | wallet h => exact .swapper (.wallet (s := { s with receiver := receiver }) h) hstored
      | immediate h => exact .swapper (.immediate (s := { s with receiver := receiver }) h) hstored
      | delayed h => exact .swapper (.delayed (s := { s with receiver := receiver }) h) hstored
  | immediate h hstart hreduces =>
      exact .immediate (s := { s with receiver := receiver }) h hstart hreduces
  | delayed h hstart hreduces =>
      exact .delayed (s := { s with receiver := receiver }) h hstart hreduces
  | _ => exact hl.elim

theorem queued_written {s s' : Intake.State WalletMessage} {msg : WalletMessage}
    (h : Intake.Moves s (.write msg none) s') : s'.queued = s.queued ++ [msg] :=
  (Intake.moves_conserves h).symm

/-- What writes nothing and sends nothing to the wallet leaves the same requests on their
    way. -/
theorem queued_silent {s s' : Intake.State WalletMessage} {l : Intake.Label WalletMessage}
    (h : Intake.Moves s l s') (hwritten : l.written? = none) (hforwarded : l.forwarded? = none) :
    s'.queued = s.queued := by
  have hconserves := Intake.moves_conserves h
  rw [hwritten, hforwarded] at hconserves
  simpa using hconserves.symm

/-- A step of the daemon here is one of the daemon with the unbounded queue. -/
theorem serves_moves {s s' : Serving} {l : ServingLabel} {m : Label} (h : Serves D s l s')
    (hm : l.daemon? = some m) : Moves D s.seen m s'.seen := by
  cases h with
  | http req =>
      cases hm
      exact .http (s := s.seen) req
  | bootloaded h hflag =>
      cases hm
      exact .bootloaded (s := s.seen) h hflag
  | notBootloaded h hflag =>
      cases hm
      exact .notBootloaded (s := s.seen) h hflag
  | writeBootload h hwrite =>
      cases hm
      have hmoves := Moves.writeBootload (D := D) (s := s.seen) h
      rwa [Serving.seen, Serving.seen, queued_written hwrite]
  | bootloadFailed h hwrite =>
      cases hm
      have hmoves := Moves.bootloadFailed (D := D) (s := s.seen) h
      rwa [Serving.seen, Serving.seen, queued_silent hwrite rfl rfl]
  | setBootloaded h =>
      cases hm
      exact .setBootloaded (s := s.seen) h
  | patch h hblob hfresh =>
      cases hm
      exact .patch (s := s.seen) h hblob hfresh
  | handled h =>
      cases hm
      exact .done (s := s.seen) h
  | @writeRequest pre post blob err intake h hwrite =>
      cases hm
      cases err with
      | none =>
          have hmoves := Moves.writeRequest (D := D) (s := s.seen) h
          rwa [Serving.seen, Serving.seen, queued_written hwrite]
      | some err =>
          have hmoves := Moves.done (D := D) (s := s.seen) h
          rwa [Serving.seen, Serving.seen, queued_silent hwrite rfl rfl]
  | intake => cases hm
  | @forward msg intake h =>
      cases hm
      have hconserves := Intake.moves_conserves h
      cases msg with
      | request msg =>
          have hqueued : s.seen.receiver = msg :: intake.queued :=
            (List.append_nil _).symm.trans hconserves
          exact .accept hqueued
      | tick time =>
          have hqueued : s.intake.queued = intake.queued :=
            (List.append_nil _).symm.trans hconserves
          have hmoves := Moves.tick (D := D) (s := s.seen)
          rwa [Serving.seen, Serving.seen, ← hqueued]
  | wallet h =>
      cases hm
      exact .wallet (s := s.seen) h
  | task hl h =>
      cases hm
      exact task_frames hl h _
  | crash =>
      cases hm
      exact .crash (s := s.seen)

/-- The receiver, the service and the composer are not seen. -/
theorem serves_stays {s s' : Serving} {l : ServingLabel} (h : Serves D s l s')
    (hl : l.daemon? = none) : s'.seen = s.seen := by
  cases h with
  | intake h hwritten hforwarded =>
      rw [Serving.seen, Serving.seen, queued_silent h hwritten hforwarded]
  | _ => cases hl

theorem daemon_refines (D : Config) :
    Refines (Serves D) (Moves D) Serving.seen ServingLabel.daemon? (fun _ => True) where
  keeps _ _ := trivial
  moves _ h hm := serves_moves h hm
  stays _ h hl := serves_stays h hl

/-- **The receiver cannot be told from an unbounded queue.**  What is seen of a run, from
    any tables and with a buffer of any positive capacity, is a run of the daemon with the queue. -/
theorem served_run_refines {cap now : Nat} {pending : PendingTable} {owner : Store SwapID String}
    {s : Serving} {ts : List (Transition Serving ServingLabel)}
    (h : Run (Serves D) (.start cap now pending owner) ts s) :
    Run (Moves D) (.start pending owner) (seen Serving.seen ServingLabel.daemon? ts) s.seen :=
  (daemon_refines D).run h trivial

/-- A request whose `Bootload` goes through the receiver to the wallet. -/
theorem bootload_served : ∃ s ts, Run (Serves sampleConfig) (.start 1 0 ∅ ∅) ts s ∧
    s.daemon.walletIn = [.bootload "alice"] :=
  ⟨_, _, .cons (.http (.get "alice")) <|
    .cons (@Serves.notBootloaded _ _ [] [] _ rfl (by simp [Serving.start, State.start])) <|
    .cons (.intake (.receive rfl rfl) rfl rfl) <|
    .cons (@Serves.writeBootload _ _ [] [] _ _ rfl
      (.write (@Intake.Receiver.Writes.sent _ _
        (WalletMessage.bootload "alice") 0 _ _ rfl))) <|
    .cons (.intake (.received rfl (.message rfl)) rfl rfl) <|
    .cons (.forward (.compose rfl)) (.nil _), rfl⟩

theorem served_run_refines_bootload : ∃ s ts, Run (Serves sampleConfig) (.start 1 0 ∅ ∅) ts s ∧
    s.seen.walletIn = [.bootload "alice"] ∧
    Run (Moves sampleConfig) (.start ∅ ∅) (seen Serving.seen ServingLabel.daemon? ts) s.seen := by
  obtain ⟨s, ts, hrun, hwallet⟩ := bootload_served
  exact ⟨s, ts, hrun, hwallet, served_run_refines hrun⟩

end Swapperd.Daemon
