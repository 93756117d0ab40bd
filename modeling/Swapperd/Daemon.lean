/-
  Swapperd/Daemon.lean
  ====================
  **The whole daemon**: HTTP handler threads, the receiver, and the wallet, swapper,
  immediate and delayed tasks (`adapter/server`, `core/wallet`, `core/wallet/swapper`).

  Every task has a queue and reduces one message at a time; the messages it emits reach
  its parent in their order.  The steps of threads and tasks interleave freely.  A crash
  loses everything but the table of pending swaps.

  Left out are transfers and balances: a request that only reads is a request that
  bootloads.  Receipt updates and errors end here where the swapper emits them; the status
  task that takes them is in `Swapperd.Statuses`.
-/
import Swapperd.ImmediatePasses
import Swapperd.DelayedSwapper
import Swapperd.SwapHandler
import Swapperd.SwapReceipts
import Mathlib.Data.List.DropRight

namespace Swapperd.Daemon

open CallProgram RetryTask TransitionRuns GoLibrary

/-- What the daemon runs with: hashes, a wallet, the JSON encodings that are signed, and
    whether `bcrypt.CompareHashAndPassword` returns nil. -/
structure Config where
  H : Hashes
  W : Wallet
  J : Handler.Json
  compareHashAndPassword : (hash : List UInt8) → (password : String) → Bool

/-! ### Handler threads -/

/-- An authenticated HTTP request, with its password in the swap that is posted. -/
inductive Request where
  | get (password : String)
  | postSwaps (swapReq : SwapBlob)

def Request.password : Request → String
  | .get password => password
  | .postSwaps swapReq => swapReq.password

/-- What posting a swap writes to the receiver. -/
def postSwapsHandler (D : Config) (verifyBalance : VerifyBalance) (now : Int) (swapID : Bytes32)
    (swapReq : SwapBlob) : Except GoError SwapBlob :=
  if swapReq.delay then
    Handler.postDelayedSwaps D.H D.W D.J verifyBalance now swapID swapReq
  else
    Handler.patchSwap D.H D.W verifyBalance now swapID swapReq

/-- Where a thread is: before `bootload` looks at its flag, between that and `Write`,
    between `Write` and setting the flag, after `bootload`, and before it writes its own
    request. -/
inductive Thread where
  | bootload (req : Request)
  | writeBootload (req : Request)
  | setBootloaded (req : Request)
  | handle (req : Request)
  | writeRequest (blob : SwapBlob)

inductive WalletMessage where
  | bootload (password : String)
  | swapRequest (blob : SwapBlob)
  | tick

/-! ### The swapper -/

/-- A message of a child task: a tick or a request. -/
inductive TaskMessage (Req : Type) where
  | tick
  | request (req : Req)

inductive Send where
  | immediate (msg : TaskMessage Immediate.SwapRequest)
  | delayed (msg : TaskMessage SwapBlob)

/-- What the swapper emits to the wallet. -/
inductive Output where
  | receiptUpdate (update : ReceiptUpdate)
  | error (err : GoError)

inductive SwapperMessage where
  | bootload (password : String)
  | swapRequest (blob : SwapBlob)
  | tick
  | immediate (msg : Immediate.Message)
  | delayed (msg : Delayed.Message)

/-- What the storage answers while one message is reduced. -/
structure StorageReplies where
  putSwap : Except GoError Unit
  deletePendingSwap : Except GoError Unit
  pendingSwaps : Except GoError (List SwapBlob)
  loadCosts : SwapID → CostOrNil × CostOrNil

def handleTick : List Send × List Output := ([.immediate .tick, .delayed .tick], [])

/-- The message that hands a swap to a child. No recorded cost is nil. -/
def handOver (R : StorageReplies) (blob : SwapBlob) : Send :=
  if blob.delay then
    .delayed (.request blob)
  else
    let (sendCost, receiveCost) := R.loadCosts blob.id
    .immediate (.request ⟨blob, amounts sendCost, amounts receiveCost⟩)

def handleSwapRequest (R : StorageReplies) (msg : SwapBlob) : List Send × List Output :=
  match R.putSwap with
  | .error err => ([], [.error err])
  | .ok () => ([handOver R msg], [])

/-- Whether a `Bootload` with this password resumes a pending swap. A swap without a
    password hash is resumed with any password. -/
def resumes (D : Config) (password : String) (pendingSwap : SwapBlob) : Bool :=
  if pendingSwap.passwordHash = "" then true
  else
    match decodeString pendingSwap.passwordHash with
    | none => false
    | some hash => D.compareHashAndPassword hash password

def handleBootload (D : Config) (R : StorageReplies) (password : String) :
    List Send × List Output :=
  match R.pendingSwaps with
  | .error err => ([], [.error err])
  | .ok pendingSwaps =>
      let resumed := pendingSwaps.filter (resumes D password)
      (resumed.map fun pendingSwap => handOver R (pendingSwap.withPassword password),
        resumed.map fun pendingSwap => .receiptUpdate ⟨pendingSwap.id, .activate⟩)

def handleDeleteSwap (R : StorageReplies) : List Send × List Output :=
  match R.deletePendingSwap with
  | .error err => ([], [.error err])
  | .ok () => ([], [])

def reduce (D : Config) (R : StorageReplies) : SwapperMessage → List Send × List Output
  | .bootload password => handleBootload D R password
  | .swapRequest blob => handleSwapRequest R blob
  | .immediate (.receiptUpdate update) => ([], [.receiptUpdate update])
  | .immediate (.deleteSwap _) => handleDeleteSwap R
  | .immediate (.error err) => ([], [.error err])
  | .delayed (.swapRequest blob) => handleSwapRequest R blob
  | .delayed (.receiptUpdate update) => ([], [.receiptUpdate update])
  | .delayed (.deleteSwap _) => handleDeleteSwap R
  | .delayed (.error err) => ([], [.error err])
  | .tick => handleTick

/-! ### The storage -/

abbrev PendingTable := Store SwapID SwapBlob

/-- `PutSwap` stores the swap without its password. It writes two tables: when it fails,
    the pending one may be written or not. -/
def Puts (pending : PendingTable) (blob : SwapBlob) (result : Except GoError Unit)
    (pending' : PendingTable) : Prop :=
  pending' = pending.insert blob.id (blob.withPassword "") ∨
    pending' = pending ∧ ∃ err, result = .error err

def Deletes (pending : PendingTable) (id : SwapID) (result : Except GoError Unit)
    (pending' : PendingTable) : Prop :=
  pending' = pending.erase id ∧ result = .ok () ∨
    pending' = pending ∧ ∃ err, result = .error err

/-- `PendingSwaps` fails, or lists the table, each swap once. -/
def Lists (pending : PendingTable) (result : Except GoError (List SwapBlob)) : Prop :=
  ∀ pendingSwaps, result = .ok pendingSwaps → (pendingSwaps.map SwapBlob.id).Nodup ∧
    ∀ blob ∈ pendingSwaps, pending.lookup blob.id = some blob

/-- How the pending table and the storage's answers go together. -/
def Stored (pending : PendingTable) (R : StorageReplies) (msg : SwapperMessage)
    (pending' : PendingTable) : Prop :=
  match msg with
  | .bootload _ => pending' = pending ∧ Lists pending R.pendingSwaps
  | .swapRequest blob | .delayed (.swapRequest blob) => Puts pending blob R.putSwap pending'
  | .immediate (.deleteSwap id) | .delayed (.deleteSwap id) =>
      Deletes pending id R.deletePendingSwap pending'
  | _ => pending' = pending

/-! ### States -/

/-- What a run of the daemon records: swaps that the swapper hands to a child, filled
    swaps that it hands on, calls of the two children, and what they emit when they are
    done with a swap. -/
inductive Entry where
  | handed (id : SwapID)
  | filled (id : SwapID)
  | operated (id : SwapID)
  | polled (id : SwapID)
  | deleted (id : SwapID)
  | cancelled (id : SwapID)
deriving DecidableEq

/-- `owner` gives the password that each swap was posted with; `log` is that of the
    current process. -/
structure State where
  bootloaded : Finset String
  threads : List Thread
  receiver : List WalletMessage
  walletIn : List WalletMessage
  swapperIn : List WalletMessage
  immediateIn : List (TaskMessage Immediate.SwapRequest)
  immediateMap : Immediate.SwapMap
  immediateOut : List Immediate.Message
  delayedIn : List (TaskMessage SwapBlob)
  delayedMap : Delayed.SwapMap
  delayedOut : List Delayed.Message
  pending : PendingTable
  owner : Store SwapID String
  log : List Entry

/-- A daemon that starts with these tables. -/
def State.start (pending : PendingTable) (owner : Store SwapID String) : State where
  bootloaded := ∅
  threads := []
  receiver := []
  walletIn := []
  swapperIn := []
  immediateIn := []
  immediateMap := ∅
  immediateOut := []
  delayedIn := []
  delayedMap := ∅
  delayedOut := []
  pending := pending
  owner := owner
  log := []

def State.init : State := .start ∅ ∅

/-! ### Steps -/

def toSwapper : WalletMessage → SwapperMessage
  | .bootload password => .bootload password
  | .swapRequest blob => .swapRequest blob
  | .tick => .tick

/-- The swapper takes a message of the wallet or of one of its children. -/
inductive Receives (s : State) : SwapperMessage → State → Prop where
  | wallet {msg : WalletMessage} {rest : List WalletMessage} (h : s.swapperIn = msg :: rest) :
      Receives s (toSwapper msg) { s with swapperIn := rest }
  | immediate {msg : Immediate.Message} {rest : List Immediate.Message}
      (h : s.immediateOut = msg :: rest) :
      Receives s (.immediate msg) { s with immediateOut := rest }
  | delayed {msg : Delayed.Message} {rest : List Delayed.Message}
      (h : s.delayedOut = msg :: rest) :
      Receives s (.delayed msg) { s with delayedOut := rest }

def immediateSends (sends : List Send) : List (TaskMessage Immediate.SwapRequest) :=
  sends.filterMap fun
    | .immediate msg => some msg
    | .delayed _ => none

def delayedSends (sends : List Send) : List (TaskMessage SwapBlob) :=
  sends.filterMap fun
    | .immediate _ => none
    | .delayed msg => some msg

/-- The swap that is handed over, if any. -/
def Send.blob : Send → Option SwapBlob
  | .immediate (.request req) => some req.blob
  | .delayed (.request blob) => some blob
  | _ => none

/-- What is recorded when the message makes the swapper hand a swap over. -/
def SwapperMessage.entry (id : SwapID) : SwapperMessage → Entry
  | .delayed _ => .filled id
  | _ => .handed id

def swapperEntries (msg : SwapperMessage) (sends : List Send) : List Entry :=
  (sends.filterMap Send.blob).map fun blob => msg.entry blob.id

/-- The swapper has reduced a message: the table is written and its messages are sent. -/
def State.swapped (s : State) (pending : PendingTable) (msg : SwapperMessage)
    (sends : List Send) : State :=
  { s with
    pending := pending
    immediateIn := s.immediateIn ++ immediateSends sends
    delayedIn := s.delayedIn ++ delayedSends sends
    log := s.log ++ swapperEntries msg sends }

def immediateEntries (calls : List Immediate.Call) (output : List Immediate.Message) :
    List Entry :=
  calls.map (fun c => .operated c.1.id) ++
    output.filterMap fun
      | .deleteSwap id => some (.deleted id)
      | _ => none

def delayedEntries (calls : List Delayed.Call) (output : List Delayed.Message) : List Entry :=
  calls.map (fun c => .polled c.id) ++
    output.filterMap fun
      | .deleteSwap id => some (.cancelled id)
      | _ => none

/-- A tick of a task visits its map in some order. -/
def TaskMessage.Starts {Req : Type} : TaskMessage Req → Input SwapID Req → Prop
  | .tick, input => ∃ order, input = .tick order
  | .request req, input => input = .request req

/-- The children's calls may have any reply. -/
abbrev ImmediateReduction := Immediate.Reduction Unit Unit
abbrev DelayedReduction := Delayed.Reduction Unit Unit

inductive Label where
  | thread
  | wallet
  | swapper (msg : SwapperMessage) (R : StorageReplies)
  | immediate (l : ImmediateReduction)
  | delayed (l : DelayedReduction)
  | crash

inductive Moves (D : Config) : State → Label → State → Prop where
  | http {s : State} (req : Request) :
      Moves D s .thread { s with threads := .bootload req :: s.threads }
  /-- The flag is set: there is nothing to load. -/
  | bootloaded {s : State} {pre post : List Thread} {req : Request}
      (h : s.threads = pre ++ .bootload req :: post)
      (hflag : Handler.passwordHash D.H req.password ∈ s.bootloaded) :
      Moves D s .thread { s with threads := pre ++ .handle req :: post }
  | notBootloaded {s : State} {pre post : List Thread} {req : Request}
      (h : s.threads = pre ++ .bootload req :: post)
      (hflag : Handler.passwordHash D.H req.password ∉ s.bootloaded) :
      Moves D s .thread { s with threads := pre ++ .writeBootload req :: post }
  | writeBootload {s : State} {pre post : List Thread} {req : Request}
      (h : s.threads = pre ++ .writeBootload req :: post) :
      Moves D s .thread
        { s with threads := pre ++ .setBootloaded req :: post,
                 receiver := s.receiver ++ [.bootload req.password] }
  /-- `Write` fails: the flag stays as it is. -/
  | bootloadFailed {s : State} {pre post : List Thread} {req : Request}
      (h : s.threads = pre ++ .writeBootload req :: post) :
      Moves D s .thread { s with threads := pre ++ .handle req :: post }
  | setBootloaded {s : State} {pre post : List Thread} {req : Request}
      (h : s.threads = pre ++ .setBootloaded req :: post) :
      Moves D s .thread
        { s with threads := pre ++ .handle req :: post,
                 bootloaded := insert (Handler.passwordHash D.H req.password) s.bootloaded }
  /-- A posted swap is admitted. Its random ID was not used before. -/
  | patch {s : State} {pre post : List Thread} {swapReq blob : SwapBlob}
      {verifyBalance : VerifyBalance} {now : Int} {swapID : Bytes32}
      (h : s.threads = pre ++ .handle (.postSwaps swapReq) :: post)
      (hblob : postSwapsHandler D verifyBalance now swapID swapReq = .ok blob)
      (hfresh : blob.id ∉ s.owner) :
      Moves D s .thread
        { s with threads := pre ++ .writeRequest blob :: post,
                 owner := s.owner.insert blob.id blob.password }
  | writeRequest {s : State} {pre post : List Thread} {blob : SwapBlob}
      (h : s.threads = pre ++ .writeRequest blob :: post) :
      Moves D s .thread
        { s with threads := pre ++ post, receiver := s.receiver ++ [.swapRequest blob] }
  /-- A thread ends: its request asks for no more, or fails. -/
  | done {s : State} {pre post : List Thread} {t : Thread} (h : s.threads = pre ++ t :: post) :
      Moves D s .thread { s with threads := pre ++ post }
  /-- The service accepts the next request, which goes to the wallet. -/
  | accept {s : State} {msg : WalletMessage} {rest : List WalletMessage}
      (h : s.receiver = msg :: rest) :
      Moves D s .wallet { s with receiver := rest, walletIn := s.walletIn ++ [msg] }
  | tick {s : State} : Moves D s .wallet { s with walletIn := s.walletIn ++ [.tick] }
  | wallet {s : State} {msg : WalletMessage} {rest : List WalletMessage}
      (h : s.walletIn = msg :: rest) :
      Moves D s .wallet { s with walletIn := rest, swapperIn := s.swapperIn ++ [msg] }
  | swapper {s s₁ : State} {msg : SwapperMessage} {R : StorageReplies} {pending : PendingTable}
      (h : Receives s msg s₁) (hstored : Stored s.pending R msg pending) :
      Moves D s (.swapper msg R) (s₁.swapped pending msg (reduce D R msg).1)
  | immediate {s : State} {msg : TaskMessage Immediate.SwapRequest}
      {rest : List (TaskMessage Immediate.SwapRequest)} {l : ImmediateReduction}
      {swapMap : Immediate.SwapMap} (h : s.immediateIn = msg :: rest) (hstart : msg.Starts l.input)
      (hreduces : Reduces unconstrained (Immediate.task D.H) (s.immediateMap, ()) l (swapMap, ())) :
      Moves D s (.immediate l)
        { s with
          immediateIn := rest
          immediateMap := swapMap
          immediateOut := s.immediateOut ++ l.output
          log := s.log ++ immediateEntries l.calls l.output }
  | delayed {s : State} {msg : TaskMessage SwapBlob} {rest : List (TaskMessage SwapBlob)}
      {l : DelayedReduction} {swapMap : Delayed.SwapMap} (h : s.delayedIn = msg :: rest)
      (hstart : msg.Starts l.input)
      (hreduces : Reduces unconstrained Delayed.task (s.delayedMap, ()) l (swapMap, ())) :
      Moves D s (.delayed l)
        { s with
          delayedIn := rest
          delayedMap := swapMap
          delayedOut := s.delayedOut ++ l.output
          log := s.log ++ delayedEntries l.calls l.output }
  | crash {s : State} : Moves D s .crash (.start s.pending s.owner)

/-- The state once the immediate swapper has reduced its next message. -/
abbrev State.immediateReduced (s : State) (rest : List (TaskMessage Immediate.SwapRequest))
    (swapMap : Immediate.SwapMap) (l : ImmediateReduction) : State :=
  { s with
    immediateIn := rest
    immediateMap := swapMap
    immediateOut := s.immediateOut ++ l.output
    log := s.log ++ immediateEntries l.calls l.output }

/-- The state once the delayed swapper has reduced its next message. -/
abbrev State.delayedReduced (s : State) (rest : List (TaskMessage SwapBlob))
    (swapMap : Delayed.SwapMap) (l : DelayedReduction) : State :=
  { s with
    delayedIn := rest
    delayedMap := swapMap
    delayedOut := s.delayedOut ++ l.output
    log := s.log ++ delayedEntries l.calls l.output }

/-! ### Histories -/

abbrev History := List (Transition State Label)

def Label.isCrash : Label → Bool
  | .crash => true
  | _ => false

/-- The steps of the current process. -/
def life (past : History) : History := past.rtakeWhile fun t => !t.label.isCrash

theorem life_concat (past : History) (t : Transition State Label) :
    life (past ++ [t]) = if t.label.isCrash then [] else life past ++ [t] := by
  unfold life
  rw [List.rtakeWhile_concat]
  cases t.label.isCrash <;> rfl

theorem life_append (past : History) {vs : History} (h : ∀ v ∈ vs, v.label.isCrash = false) :
    life (past ++ vs) = life past ++ vs := by
  induction vs using List.reverseRecOn with
  | nil => simp
  | append_singleton vs v ih =>
      rw [← List.append_assoc, life_concat, if_neg (by simp [h v]), ih fun u hu => h u (by simp [hu]),
        List.append_assoc]

end Swapperd.Daemon
