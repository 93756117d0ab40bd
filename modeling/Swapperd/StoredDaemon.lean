/-
  Swapperd/StoredDaemon.lean
  ==========================
  **The daemon on its database** (`core/wallet`, `core/wallet/swapper`,
  `core/wallet/status`, `adapter/db`).

  `Swapperd.Statuses` gives the tasks two tables of records, and lets the storage fail when
  it likes.  Here the tasks call the storage, which writes JSON under the keys of a LevelDB.

  `stored_refines` — seen through the tables that are read from the database, every run of
  this daemon is one of that in which the storage does not fail.
-/
import Swapperd.StoredTables
import Swapperd.SwapBodies
import Swapperd.RecordViews
import Swapperd.ReceiptCrashes
import Swapperd.RunRefinement

namespace Swapperd.Stored

open CallProgram RetryTask TransitionRuns GoLibrary Storage
open Daemon hiding State Label Moves
open Statuses (System Label Message Receipts)
open Bodies (handlerJson)
open JsonText (marshalRaw)

/-! ### The system -/

/-- The tables of `tasks` are not used: they are in the database. -/
structure State where
  tasks : System
  db : Db

def State.init : State := ⟨.init, .empty⟩

/-- What the swapper asks of the storage. -/
def swapperCall : SwapperMessage → Option StorageCall
  | .swapRequest blob | .delayed (.swapRequest blob) => some (.putSwap blob)
  | .immediate (.deleteSwap id) | .delayed (.deleteSwap id) => some (.deletePendingSwap id)
  | _ => none

/-- What the status task asks of it. -/
def statusCall (costs : ContractCosts) : Message → StorageCall
  | .receipt receipt => .putReceipt receipt
  | .receiptUpdate update => .updateReceipt update.id (update.update costs)

def outcome (result : Except GoError Db) : Except GoError Unit := result.map fun _ => ()

/-- The database after the swapper reduced a message. -/
def swapperRun (db : Db) (msg : SwapperMessage) : Db :=
  match swapperCall msg with
  | some call => call.run jsonCodecs db
  | none => db

/-- What the storage answers while the swapper reduces a message. -/
def replies (db : Db) (msg : SwapperMessage) : StorageReplies :=
  let result := (swapperCall msg).elim (.ok ()) fun call => outcome (call.result jsonCodecs db)
  { putSwap := result
    deletePendingSwap := result
    pendingSwaps := Statuses.listed (pendingSwaps jsonCodecs db)
    loadCosts := Storage.loadCosts jsonCodecs (swapperRun db msg) }

/-- The step calls the storage. -/
def UsesStorage : Label → Prop
  | .daemon (.swapper _ _) | .status _ _ _ => True
  | _ => False

inductive Moves (D : Config) : State → Label → State → Prop where
  | task {s : State} {l : Label} {tasks : System} (hl : ¬ UsesStorage l)
      (h : Statuses.Moves D s.tasks l tasks) : Moves D s l { s with tasks := tasks }
  | swapper {s : State} {msg : SwapperMessage} {daemon : Daemon.State}
      (h : Receives s.tasks.daemon msg daemon) :
      Moves D s (.daemon (.swapper msg (replies s.db msg)))
        { tasks :=
            { s.tasks with
              daemon := daemon.swapped daemon.pending msg (reduce D (replies s.db msg) msg).1
              swapperOut := s.tasks.swapperOut ++ (reduce D (replies s.db msg) msg).2 }
          db := swapperRun s.db msg }
  | status {s : State} {msg : Message} {rest : List Message} (costs : ContractCosts)
      (h : s.tasks.statusIn = msg :: rest) :
      Moves D s (.status msg costs (outcome ((statusCall costs msg).result jsonCodecs s.db)))
        { tasks := { s.tasks with statusIn := rest }
          db := (statusCall costs msg).run jsonCodecs s.db }

/-! ### What the tasks see -/

def pendingTable (db : Db) : PendingTable := tableOf jsonCodecs.blob db tablePendingSwaps

def receiptTable (db : Db) : Receipts := tableOf jsonCodecs.receipt db tableSwapReceipts

/-- The system with other tables. -/
def withTables (tasks : System) (pending : PendingTable) (receipts : Receipts) : System :=
  { tasks with daemon := { tasks.daemon with pending := pending }, receipts := receipts }

def State.seen (s : State) : System := withTables s.tasks (pendingTable s.db) (receiptTable s.db)

/-- The costs of what is in the table of receipts. -/
def onIDs (R : StorageReplies) : StorageReplies :=
  { R with loadCosts := fun id => if IsID id then R.loadCosts id else (∅, ∅) }

def seenLabel : Label → Label
  | .daemon (.swapper msg R) => .daemon (.swapper msg (onIDs R))
  | l => l

/-! ### The tasks do not look at the tables -/

section Tables

variable {D : Config}

theorem daemon_withPending {d d' : Daemon.State} {l : Daemon.Label} (h : Daemon.Moves D d l d')
    (hl : ∀ msg R, l ≠ .swapper msg R) (pending : PendingTable) :
    Daemon.Moves D { d with pending := pending } l { d' with pending := pending } := by
  cases h with
  | http req => exact .http req
  | bootloaded h hflag => exact .bootloaded h hflag
  | notBootloaded h hflag => exact .notBootloaded h hflag
  | writeBootload h => exact .writeBootload h
  | bootloadFailed h => exact .bootloadFailed h
  | setBootloaded h => exact .setBootloaded h
  | patch h hblob hfresh => exact .patch h hblob hfresh
  | writeRequest h => exact .writeRequest h
  | done h => exact .done h
  | accept h => exact .accept h
  | tick => exact .tick
  | wallet h => exact .wallet h
  | swapper => exact absurd rfl (hl _ _)
  | immediate h hstart hreduces => exact .immediate h hstart hreduces
  | delayed h hstart hreduces => exact .delayed h hstart hreduces
  | crash => exact .crash

theorem statuses_withTables {s s' : System} {l : Label} (h : Statuses.Moves D s l s')
    (hl : ¬ UsesStorage l) (pending : PendingTable) (receipts : Receipts) :
    Statuses.Moves D (withTables s pending receipts) l (withTables s' pending receipts) := by
  cases h with
  | thread h => exact .thread (daemon_withPending h (by simp) pending)
  | accept h => exact .accept h
  | tick => exact .tick
  | wallet h now => exact .wallet (s := withTables s pending receipts) h now
  | swapper | status => exact absurd trivial hl
  | immediate h => exact .immediate (daemon_withPending h (by simp) pending)
  | delayed h => exact .delayed (daemon_withPending h (by simp) pending)
  | forward h => exact .forward h
  | crash => exact .crash

theorem seenLabel_task {l : Label} (hl : ¬ UsesStorage l) : seenLabel l = l := by
  cases l with
  | daemon l =>
      cases l with
      | swapper => exact absurd trivial hl
      | _ => rfl
  | _ => rfl

end Tables

/-! ### Records that can be stored -/

/-- The swap is read from the database as it was stored. -/
structure Writable (blob : SwapBlob) : Prop where
  id : IsID blob.id
  fit : FitBlob blob
  form : marshalRaw blob.delayInfo = blob.delayInfo

/-- The update keeps receipts that can be stored. -/
structure UpdateFits (update : ReceiptUpdate) : Prop where
  id : IsID update.id
  fill : ∀ receiveAmount sendAmount timeLock,
    update.change = .fill receiveAmount sendAmount timeLock → IsInt64 timeLock

structure ReceiptFits (receipt : SwapReceipt) : Prop where
  id : IsID receipt.id
  fit : FitReceipt receipt
  form : marshalRaw receipt.delayInfo = receipt.delayInfo

def MessageFits : Message → Prop
  | .receipt receipt => ReceiptFits receipt
  | .receiptUpdate update => UpdateFits update

/-- What the swapper is asked to pass on, or to delete. -/
def ImmediateFits : Immediate.Message → Prop
  | .receiptUpdate update => UpdateFits update
  | .deleteSwap id => IsID id
  | .error _ => True

/-- What the swapper is asked to pass on, or to delete, or to put. -/
def DelayedFits : Delayed.Message → Prop
  | .receiptUpdate update => UpdateFits update
  | .deleteSwap id => IsID id
  | .swapRequest _ | .error _ => True

def OutputFits : Output → Prop
  | .receiptUpdate update => UpdateFits update
  | .error _ => True

section Records

variable {blob : SwapBlob} {receipt : SwapReceipt} {update : ReceiptUpdate}

theorem Writable.withPassword (h : Writable blob) (password : String) :
    Writable (blob.withPassword password) := ⟨h.id, h.fit.withPassword password, h.form⟩

theorem canonBlob_of_form (h : marshalRaw blob.delayInfo = blob.delayInfo) :
    canonBlob blob = blob := by
  rw [canonBlob, h]

theorem canonReceipt_of_form (h : marshalRaw receipt.delayInfo = receipt.delayInfo) :
    canonReceipt receipt = receipt := by
  rw [canonReceipt, h]

theorem Writable.roundTrips (h : Writable blob) :
    jsonCodecs.blob.RoundTrips (blob.withPassword "") := by
  have hround := roundTrips_blob (h.fit.withPassword "")
  rwa [canonBlob_of_form (h.withPassword "").form] at hround

theorem roundTrips_of_form (hfit : FitReceipt receipt)
    (hform : marshalRaw receipt.delayInfo = receipt.delayInfo) :
    jsonCodecs.receipt.RoundTrips receipt := by
  have hround := roundTrips_receipt hfit
  rwa [canonReceipt_of_form hform] at hround

/-- A receipt that is read as it was written is one that can be stored. -/
theorem form_of_roundTrips (h : jsonCodecs.receipt.RoundTrips receipt) :
    FitReceipt receipt ∧ marshalRaw receipt.delayInfo = receipt.delayInfo := by
  obtain ⟨bytes, hmarshal, hread⟩ := h
  have hfit := fitReceipt_of_unmarshal hread
  obtain ⟨bytes', hmarshal', -, hread'⟩ := receiptRecord.reads (fit_receipt_iff.mpr hfit)
  obtain rfl : bytes = bytes' := Except.ok.inj (hmarshal.symm.trans hmarshal')
  have hcanon : receipt = canonReceipt receipt := Except.ok.inj (hread.symm.trans hread')
  exact ⟨hfit, (congrArg SwapReceipt.delayInfo hcanon).symm⟩

theorem UpdateFits.roundTrips (h : UpdateFits update) (costs : ContractCosts) :
    (StorageCall.updateReceipt update.id (update.update costs)).RoundTrips jsonCodecs := by
  intro r hround
  obtain ⟨hfit, hform⟩ := form_of_roundTrips hround
  refine roundTrips_of_form (fits_update update costs h.fill r hfit) ?_
  have hdelayInfo : (update.update costs r).delayInfo = r.delayInfo := by
    unfold ReceiptUpdate.update
    cases update.change <;> rfl
  rw [hdelayInfo, hform]

end Records

/-! ### What the storage answers -/

section Storage

variable {db : Db} {t : Tables} {blob : SwapBlob} {id : SwapID}

theorem lookup_pending (h : Refines jsonCodecs db t) : (pendingTable db).lookup id = some blob ↔
    ∃ key : Bytes32, id = encodeToString key.1 ∧ t.pendingSwaps key = some blob :=
  lookup_represented h.keyed pending_mem h.pendingSwaps

theorem lookup_receipt (h : Refines jsonCodecs db t) {receipt : SwapReceipt} :
    (receiptTable db).lookup id = some receipt ↔
      ∃ key : Bytes32, id = encodeToString key.1 ∧ t.receipts key = some receipt :=
  lookup_represented h.keyed receipts_mem h.receipts

theorem run_eq {call : StorageCall} {db' : Db} (h : call.result jsonCodecs db = .ok db') :
    call.run jsonCodecs db = db' ∧ outcome (call.result jsonCodecs db) = .ok () := by
  rw [outcome, run_of_ok call h, h]
  exact ⟨rfl, rfl⟩

theorem putSwap_puts (h : Refines jsonCodecs db t) (hblob : Writable blob) :
    ∃ db' t', Storage.putSwap jsonCodecs db blob = .ok db' ∧ Refines jsonCodecs db' t' ∧
      pendingTable db' = (pendingTable db).insert blob.id (blob.withPassword "") ∧
        receiptTable db' = receiptTable db := by
  obtain ⟨key, hid⟩ := hblob.id
  have hkey : decodeID blob.id = .ok key.1 := hid ▸ decodeID_encodeToString key.1
  obtain ⟨db', hput, h'⟩ := h.putSwap hkey hblob.roundTrips
  refine ⟨db', _, hput, h', ?_, ?_⟩
  · rw [hid]
    exact tableOf_insert h.keyed h'.keyed pending_mem h.pendingSwaps h'.pendingSwaps
  · exact tableOf_congr h.keyed h'.keyed receipts_mem h.receipts h'.receipts

theorem deletePendingSwap_deletes (h : Refines jsonCodecs db t) (hid : IsID id) :
    ∃ db' t', Storage.deletePendingSwap db id = .ok db' ∧ Refines jsonCodecs db' t' ∧
      pendingTable db' = (pendingTable db).erase id ∧ receiptTable db' = receiptTable db := by
  obtain ⟨key, rfl⟩ := hid
  obtain ⟨db', hdelete, h'⟩ := h.deletePendingSwap (decodeID_encodeToString key.1)
  refine ⟨db', _, hdelete, h', ?_, ?_⟩
  · exact tableOf_erase h.keyed h'.keyed pending_mem h.pendingSwaps h'.pendingSwaps
  · exact tableOf_congr h.keyed h'.keyed receipts_mem h.receipts h'.receipts

/-- A listing has each swap once, under its own ID. -/
theorem pendingSwaps_lists (h : Refines jsonCodecs db t)
    (hids : ∀ key blob, t.pendingSwaps key = some blob → IsID blob.id) :
    Lists (pendingTable db) (Statuses.listed (pendingSwaps jsonCodecs db)) := by
  obtain ⟨keys, hnodup, -, hlisting⟩ := listRecords_eq h.keyed pending_mem h.pendingSwaps
  have hid : ∀ {key blob}, t.pendingSwaps key = some blob → blob.id = encodeToString key.1 := by
    intro key blob hstored
    obtain ⟨key', hid⟩ := hids key blob hstored
    have hdecode := h.ids key blob hstored
    rw [hid, decodeID_encodeToString] at hdecode
    rw [hid, Except.ok.inj hdecode]
  intro listed hlisted
  have hrecords : listed = keys.filterMap t.pendingSwaps := by
    rw [pendingSwaps, hlisting] at hlisted
    exact (Except.ok.inj hlisted).symm
  subst hrecords
  constructor
  · rw [List.Nodup, List.pairwise_map, List.pairwise_filterMap]
    refine hnodup.imp fun hne blob hblob blob' hblob' heq => hne (encodeToString_key.mp ?_)
    rw [← hid hblob, ← hid hblob', heq]
  · intro blob hblob
    obtain ⟨key, -, hstored⟩ := List.mem_filterMap.mp hblob
    exact (lookup_pending h).mpr ⟨key, hid hstored, hstored⟩

/-- The costs of a swap are those of its receipt. -/
theorem loadCosts_seen (h : Refines jsonCodecs db t) (id : SwapID) :
    Statuses.loadCosts (receiptTable db) id =
      if IsID id then Storage.loadCosts jsonCodecs db id else (∅, ∅) := by
  split_ifs with hid
  · obtain ⟨key, rfl⟩ := hid
    have hentry := h.receipts key
    cases hrecord : t.receipts key with
    | none =>
        rw [hrecord] at hentry
        have hnone : (receiptTable db).lookup (encodeToString key.1) = none := by
          refine Option.eq_none_iff_forall_ne_some.mpr fun receipt hlookup => ?_
          obtain ⟨key', hkey, hsome⟩ := (lookup_receipt h).mp hlookup
          rw [← encodeToString_key.mp hkey, hrecord] at hsome
          cases hsome
        have hfind : Storage.receipt jsonCodecs db (encodeToString key.1) =
            .error (.errorf "leveldb: not found") := by
          have hget : db.get (tableSwapReceipts.name ++ key.1) = none := hentry
          rw [Storage.receipt, getRecord, decodeID_encodeToString]
          show (find db tableSwapReceipts key.1 >>= _) = _
          rw [find, hget]
          rfl
        rw [Statuses.loadCosts, Storage.loadCosts, hnone, hfind]
    | some receipt =>
        rw [hrecord] at hentry
        obtain ⟨-, data, hdata, hread⟩ := hentry
        have hsome := (lookup_receipt h).mpr ⟨key, rfl, hrecord⟩
        have hfind : Storage.receipt jsonCodecs db (encodeToString key.1) = .ok receipt :=
          Bodies.getRecord_of_get rfl hdata hread
        rw [Statuses.loadCosts, Storage.loadCosts, hsome, hfind]
  · have hnone : (receiptTable db).lookup id = none := by
      refine Option.eq_none_iff_forall_ne_some.mpr fun receipt hlookup => ?_
      obtain ⟨key, hkey, -⟩ := (lookup_receipt h).mp hlookup
      exact hid ⟨key, hkey⟩
    rw [Statuses.loadCosts, hnone]

/-- What a call of the status task means to it: the tables that follow, and that it works
    when it can. -/
structure WritesTable (db : Db) (msg : Message) (costs : ContractCosts) (db' : Db) : Prop where
  refines : ∃ t, Refines jsonCodecs db' t
  pending : pendingTable db' = pendingTable db
  writes : Statuses.Writes (receiptTable db) msg costs
    (outcome ((statusCall costs msg).result jsonCodecs db)) (receiptTable db')
  works : (∃ receipts, Statuses.reduce (receiptTable db) costs msg = .ok receipts) →
    outcome ((statusCall costs msg).result jsonCodecs db) = .ok ()

theorem putReceipt_writes (h : Refines jsonCodecs db t) {receipt : SwapReceipt}
    (hreceipt : ReceiptFits receipt) (costs : ContractCosts) :
    WritesTable db (.receipt receipt) costs
      ((statusCall costs (.receipt receipt)).run jsonCodecs db) := by
  obtain ⟨key, hid⟩ := hreceipt.id
  have hkey : decodeID receipt.id = .ok key.1 := hid ▸ decodeID_encodeToString key.1
  have hround := roundTrips_of_form hreceipt.fit hreceipt.form
  obtain ⟨data, hdata, hput⟩ := putRecord_ok db tableSwapReceipts hkey hround
  have hresult : (statusCall costs (.receipt receipt)).result jsonCodecs db =
      .ok (db.put (tableSwapReceipts.name ++ key.1) data) := hput
  have h' : Refines jsonCodecs (db.put (tableSwapReceipts.name ++ key.1) data) _ :=
    h.writeReceipt hdata hround
  obtain ⟨hrun, houtcome⟩ := run_eq hresult
  rw [hrun]
  refine ⟨⟨_, h'⟩, ?_, .inl ⟨?_, houtcome⟩, fun _ => houtcome⟩
  · exact tableOf_congr h.keyed h'.keyed pending_mem h.pendingSwaps h'.pendingSwaps
  · refine congrArg Except.ok (Eq.symm ?_)
    rw [Statuses.putReceipt, hid]
    exact tableOf_insert h.keyed h'.keyed receipts_mem h.receipts h'.receipts

theorem updateReceipt_writes (h : Refines jsonCodecs db t) {update : ReceiptUpdate}
    (hupdate : UpdateFits update) (costs : ContractCosts) :
    WritesTable db (.receiptUpdate update) costs
      ((statusCall costs (.receiptUpdate update)).run jsonCodecs db) := by
  obtain ⟨key, hid⟩ := hupdate.id
  have hkey : decodeID update.id = .ok key.1 := hid ▸ decodeID_encodeToString key.1
  rcases updateRecord_cases h.receipts hkey (hupdate.roundTrips costs) with
    ⟨hnone, err, herr⟩ | ⟨r, data, hsome, hnew, hdata, hput⟩
  · have hresult : (statusCall costs (.receiptUpdate update)).result jsonCodecs db = .error err :=
      herr
    have hfails : Statuses.reduce (receiptTable db) costs (.receiptUpdate update) =
        .error (.errorf "leveldb: not found") := by
      have hlookup : (receiptTable db).lookup update.id = none := by
        refine Option.eq_none_iff_forall_ne_some.mpr fun receipt hlookup => ?_
        obtain ⟨key', hkey', hrecord⟩ := (lookup_receipt h).mp hlookup
        rw [← encodeToString_key.mp (hid.symm.trans hkey'), hnone] at hrecord
        cases hrecord
      rw [Statuses.reduce, Statuses.updateReceipt, hlookup]
    rw [run_of_error _ hresult]
    refine ⟨⟨t, h⟩, rfl, .inr ⟨rfl, err, ?_⟩, ?_⟩
    · rw [outcome, hresult]
      rfl
    · rintro ⟨receipts, hreceipts⟩
      cases hfails.symm.trans hreceipts
  · have hresult : (statusCall costs (.receiptUpdate update)).result jsonCodecs db =
        .ok (db.put (tableSwapReceipts.name ++ key.1) data) := hput
    have h' : Refines jsonCodecs (db.put (tableSwapReceipts.name ++ key.1) data) _ :=
      h.writeReceipt hdata hnew
    have hlookup : (receiptTable db).lookup update.id = some r :=
      (lookup_receipt h).mpr ⟨key, hid, hsome⟩
    obtain ⟨hrun, houtcome⟩ := run_eq hresult
    rw [hrun]
    refine ⟨⟨_, h'⟩, ?_, .inl ⟨?_, houtcome⟩, fun _ => houtcome⟩
    · exact tableOf_congr h.keyed h'.keyed pending_mem h.pendingSwaps h'.pendingSwaps
    · rw [Statuses.reduce, Statuses.updateReceipt, hlookup]
      refine congrArg Except.ok (Eq.symm ?_)
      rw [hid]
      exact tableOf_insert h.keyed h'.keyed receipts_mem h.receipts h'.receipts

end Storage

/-! ### Steps of the swapper -/

section Swapper

variable {D : Config} {db : Db} {t : Tables} {msg : SwapperMessage} {R : StorageReplies}

/-- What the swapper may ask of the storage. -/
structure AsksWell (msg : SwapperMessage) : Prop where
  puts : ∀ blob, msg.blob = some blob → Writable blob
  deletes : ∀ id, swapperCall msg = some (.deletePendingSwap id) → IsID id

theorem handOver_onIDs {blob : SwapBlob} (hid : IsID blob.id) :
    handOver (onIDs R) blob = handOver R blob := by
  have hcosts : (onIDs R).loadCosts blob.id = R.loadCosts blob.id := if_pos hid
  rw [handOver, handOver, hcosts]

/-- The swapper asks for the costs of swaps with IDs only. -/
theorem reduce_onIDs (hmsg : AsksWell msg)
    (hlist : ∀ listed, R.pendingSwaps = .ok listed → ∀ blob ∈ listed, IsID blob.id) :
    reduce D (onIDs R) msg = reduce D R msg := by
  have hrequest : ∀ blob, IsID blob.id →
      handleSwapRequest (onIDs R) blob = handleSwapRequest R blob := by
    intro blob hid
    have hput : (onIDs R).putSwap = R.putSwap := rfl
    rw [handleSwapRequest, handleSwapRequest, hput, handOver_onIDs hid]
  cases msg with
  | bootload password =>
      show handleBootload D (onIDs R) password = handleBootload D R password
      have hpending : (onIDs R).pendingSwaps = R.pendingSwaps := rfl
      rw [handleBootload, handleBootload, hpending]
      cases hlisted : R.pendingSwaps with
      | error err => rfl
      | ok listed =>
          refine congrArg (·, _) (List.map_congr_left fun blob hblob => ?_)
          exact handOver_onIDs (hlist listed hlisted blob (List.mem_filter.mp hblob).1)
  | swapRequest blob => exact hrequest blob (hmsg.puts blob rfl).id
  | tick => rfl
  | immediate msg => cases msg <;> rfl
  | delayed msg =>
      cases msg with
      | swapRequest blob => exact hrequest blob (hmsg.puts blob rfl).id
      | _ => rfl

/-- What the calls of the swapper mean to it. -/
structure StoresTable (db : Db) (msg : SwapperMessage) : Prop where
  refines : ∃ t, Refines jsonCodecs (swapperRun db msg) t
  stored : Daemon.Stored (pendingTable db) (onIDs (replies db msg)) msg
    (pendingTable (swapperRun db msg))
  receipts : receiptTable (swapperRun db msg) = receiptTable db
  works : (replies db msg).putSwap = .ok ()

theorem putSwap_stores (h : Refines jsonCodecs db t) {blob : SwapBlob} (hblob : Writable blob)
    (hcall : swapperCall msg = some (.putSwap blob))
    (hstored : ∀ R pending, Daemon.Stored (pendingTable db) R msg pending ↔
      Puts (pendingTable db) blob R.putSwap pending) : StoresTable db msg := by
  obtain ⟨db', t', hput, h', hpending, hreceipts⟩ := putSwap_puts h hblob
  have hresult : (StorageCall.putSwap blob).result jsonCodecs db = .ok db' := hput
  obtain ⟨hrun, houtcome⟩ := run_eq hresult
  have hdb : swapperRun db msg = db' := by
    rw [swapperRun, hcall]
    exact hrun
  have hworks : (replies db msg).putSwap = .ok () := by
    simp only [replies, hcall]
    exact houtcome
  refine ⟨⟨t', by rw [hdb]; exact h'⟩, (hstored _ _).mpr (.inl ?_), by rw [hdb, hreceipts], hworks⟩
  rw [hdb, hpending]

theorem deletePendingSwap_stores (h : Refines jsonCodecs db t) {id : SwapID} (hid : IsID id)
    (hcall : swapperCall msg = some (.deletePendingSwap id))
    (hstored : ∀ R pending, Daemon.Stored (pendingTable db) R msg pending ↔
      Deletes (pendingTable db) id R.deletePendingSwap pending) : StoresTable db msg := by
  obtain ⟨db', t', hdelete, h', hpending, hreceipts⟩ := deletePendingSwap_deletes h hid
  have hresult : (StorageCall.deletePendingSwap id).result jsonCodecs db = .ok db' := hdelete
  obtain ⟨hrun, houtcome⟩ := run_eq hresult
  have hdb : swapperRun db msg = db' := by
    rw [swapperRun, hcall]
    exact hrun
  have hworks : (replies db msg).deletePendingSwap = .ok () := by
    simp only [replies, hcall]
    exact houtcome
  refine ⟨⟨t', by rw [hdb]; exact h'⟩, (hstored _ _).mpr (.inl ⟨?_, hworks⟩),
    by rw [hdb, hreceipts], hworks⟩
  rw [hdb, hpending]

theorem swapper_stores (h : Refines jsonCodecs db t)
    (hids : ∀ key blob, t.pendingSwaps key = some blob → IsID blob.id) (hmsg : AsksWell msg) :
    StoresTable db msg := by
  have hnothing : swapperCall msg = none →
      Daemon.Stored (pendingTable db) (onIDs (replies db msg)) msg (pendingTable db) →
        StoresTable db msg := by
    intro hcall hstored
    have hdb : swapperRun db msg = db := by rw [swapperRun, hcall]
    refine ⟨⟨t, by rw [hdb]; exact h⟩, by rw [hdb]; exact hstored, by rw [hdb], ?_⟩
    simp only [replies, hcall]
    rfl
  cases msg with
  | bootload password => exact hnothing rfl ⟨rfl, pendingSwaps_lists h hids⟩
  | swapRequest blob =>
      exact putSwap_stores h (hmsg.puts blob rfl) rfl fun _ _ => Iff.rfl
  | tick => exact hnothing rfl rfl
  | immediate msg =>
      cases msg with
      | deleteSwap id =>
          exact deletePendingSwap_stores h (hmsg.deletes id rfl) rfl fun _ _ => Iff.rfl
      | _ => exact hnothing rfl rfl
  | delayed msg =>
      cases msg with
      | swapRequest blob =>
          exact putSwap_stores h (hmsg.puts blob rfl) rfl fun _ _ => Iff.rfl
      | deleteSwap id =>
          exact deletePendingSwap_stores h (hmsg.deletes id rfl) rfl fun _ _ => Iff.rfl
      | _ => exact hnothing rfl rfl

end Swapper

/-! ### What is in the queues -/

/-- Every swap of the system can be stored, and so can what every message is about. -/
structure Storable (s : System) : Prop where
  everywhere : Everywhere Writable s.daemon
  immediateOut : ∀ msg ∈ s.daemon.immediateOut, ImmediateFits msg
  delayedOut : ∀ msg ∈ s.daemon.delayedOut, DelayedFits msg
  swapperOut : ∀ output ∈ s.swapperOut, OutputFits output
  statusIn : ∀ msg ∈ s.statusIn, MessageFits msg

/-- Every request to post a swap was made of a JSON body, with the `delayInfo` of a swap to
    execute now in the form of `json.Marshal`. -/
def PostsDecoded (d : Daemon.State) : Prop :=
  ∀ swapReq, .handle (.postSwaps swapReq) ∈ d.threads → ∃ body decoded password hash,
    blobRecord.decode body = .ok decoded ∧ swapReq = authorize password hash decoded ∧
      (decoded.delay = false → marshalRaw decoded.delayInfo = decoded.delayInfo)

/-- Every answer that fills a swap is the JSON of a blob with the ID that was asked for, and
    with a `delayInfo` in that form. -/
def FillsDecoded : Daemon.Label → Prop
  | .delayed l => ∀ c ∈ l.calls, ∀ filled, Delayed.Call.answer c = .ok filled →
      filled.id = Delayed.Call.id c ∧ ∃ text decoded, jsonCodecs.blob.unmarshal text = .ok decoded ∧
        filled = { decoded with delay := false } ∧
          marshalRaw decoded.delayInfo = decoded.delayInfo
  | _ => True

/-- The clock of the wallet is an `int64`. -/
def Clocked : Label → Prop
  | .wallet _ now => IsInt64 now
  | _ => True

section Queues

variable {D : Config} {d d' : Daemon.State}

theorem carries_writable (hD : D.J = handlerJson) {l : Daemon.Label} (hposts : PostsDecoded d)
    (hfills : FillsDecoded l) : Carries D Writable Writable d l d' := by
  refine ⟨fun blob h => h, ?_, ?_, ?_⟩
  · intro now blob hadmitted
    obtain ⟨verifyBalance, swapID, swapReq, hthread, hposted⟩ := hadmitted.posted
    obtain ⟨body, decoded, password, hash, hbody, rfl, hform⟩ := hposts swapReq hthread
    obtain ⟨text, htext⟩ := blobRecord.unmarshal_of_decode hbody
    have hdecoded := fit_blob_iff.mp (blobRecord.fit_unmarshal htext)
    have hfit : FitBlob (authorize password hash decoded) :=
      ⟨hdecoded.timeLock, hdecoded.brokerFee, hdecoded.delayInfo⟩
    have hid := Bodies.posted_id hposted
    have hblob := Bodies.posted_fit hD hfit hposted
    have hdelayInfo : (authorize password hash decoded).delayInfo = decoded.delayInfo := rfl
    refine ⟨⟨swapID, hid⟩, hblob, Bodies.posted_form hD ?_ hposted⟩
    rw [hdelayInfo]
    exact hform
  · intro password R listed _ _ blob _ _ posted h
    exact h.withPassword password
  · rintro reduction rfl c hc filled hanswer - password hpartial
    obtain ⟨hid, text, decoded, htext, hfilled, hform⟩ := hfills c hc filled hanswer
    have hfit := fit_blob_iff.mp (blobRecord.fit_unmarshal htext)
    have hcalled : IsID (Delayed.Call.id c) := hpartial.id
    have hwritable : Writable filled := by
      refine ⟨hid ▸ hcalled, ?_, ?_⟩
      · rw [hfilled]
        exact ⟨hfit.timeLock, hfit.brokerFee, hfit.delayInfo⟩
      · rw [hfilled]
        exact hform
    exact hwritable.withPassword password

/-- What the immediate swapper emits is about swaps that it has. -/
theorem immediate_fits (hs : Everywhere Writable d) {msg : TaskMessage Immediate.SwapRequest}
    {rest : List (TaskMessage Immediate.SwapRequest)} {l : ImmediateReduction}
    {swapMap : Immediate.SwapMap} (h : d.immediateIn = msg :: rest) (hstart : msg.Starts l.input)
    (hreduces : Reduces unconstrained (Immediate.task D.H) (d.immediateMap, ()) l (swapMap, ())) :
    ∀ emitted ∈ l.output, ImmediateFits emitted := by
  obtain ⟨-, hcalls⟩ := hs.immediate_requests h hstart hreduces
  obtain ⟨ts, hts, hevents, hout, -⟩ := hreduces.passes Immediate.keepsKeys hs.immediateKeys
  intro emitted hemitted
  rw [hout] at hemitted
  obtain ⟨t, ht, hmem⟩ := List.mem_flatMap.mp hemitted
  have hpass : ∀ c ∈ t.label.calls, Writable c.1.req.blob := by
    intro c hc
    refine hcalls c ?_
    rw [calls_eq_flatMap hevents]
    exact List.mem_flatMap.mpr ⟨t, ht, hc⟩
  rcases Immediate.pass_exits (hts.step_of_mem t ht) with ⟨err, -, -, hbatch⟩ |
    ⟨calls, status, err, remove, -, hpasses, -, hbatch⟩
  · rw [hbatch, List.mem_singleton] at hmem
    rw [hmem]
    trivial
  · have hid : IsID t.label.req.id := by
      rw [hpasses] at hpass
      exact (hpass _ List.mem_cons_self).id
    rw [hbatch] at hmem
    rcases List.mem_cons.mp hmem with rfl | hmem
    · refine ⟨hid, fun _ _ _ hchange => ?_⟩
      cases hchange
    rcases List.mem_append.mp hmem with herr | hdelete
    · obtain ⟨_, -, rfl⟩ := List.mem_map.mp herr
      trivial
    · cases remove with
      | true =>
          rw [List.mem_singleton.mp hdelete]
          exact hid
      | false => cases hdelete

/-- What the delayed swapper emits is about swaps that it has, or has had filled. -/
theorem delayed_fits (hs : Everywhere Writable d) {msg : TaskMessage SwapBlob}
    {rest : List (TaskMessage SwapBlob)} {l : DelayedReduction} {swapMap : Delayed.SwapMap}
    (h : d.delayedIn = msg :: rest) (hstart : msg.Starts l.input)
    (hreduces : Reduces unconstrained Delayed.task (d.delayedMap, ()) l (swapMap, ()))
    (hcarries : Carries D Writable Writable d (.delayed l) d') :
    ∀ emitted ∈ l.output, DelayedFits emitted := by
  obtain ⟨-, hout', hcalls⟩ := hs.delayed_requests h hstart hreduces hcarries
  obtain ⟨ts, hts, hevents, hout, -⟩ := hreduces.passes Delayed.keepsKeys hs.delayedKeys
  intro emitted hemitted
  rw [hout] at hemitted
  obtain ⟨t, ht, hmem⟩ := List.mem_flatMap.mp hemitted
  obtain ⟨c, hpasses, hop, hexit⟩ := Delayed.pass_exits (hts.step_of_mem t ht)
  have hid : IsID t.label.req.id := by
    have hc : c ∈ l.calls := by
      rw [calls_eq_flatMap hevents]
      exact List.mem_flatMap.mpr ⟨t, ht, by simp [hpasses]⟩
    obtain ⟨password, hpartial⟩ := hcalls c hc
    rw [hop] at hpartial
    exact hpartial.id
  have hputs : ∀ blob, .swapRequest blob ∈ t.label.batch → Writable blob := by
    intro blob hblob
    refine hout' blob ?_
    rw [hout]
    exact List.mem_flatMap.mpr ⟨t, ht, hblob⟩
  generalize t.target.1 = m, t.label.batch = batch at hexit hmem hputs
  cases hexit with
  | filled filled hanswer =>
      have hfilled := hputs _ (List.mem_cons_of_mem _ List.mem_cons_self)
      rcases List.mem_pair.mp hmem with rfl | rfl
      · refine ⟨hfilled.id, fun _ _ timeLock hchange => ?_⟩
        cases hchange
        exact hfilled.fit.timeLock
      · trivial
  | cancelled =>
      rcases List.mem_pair.mp hmem with rfl | rfl
      · refine ⟨hid, fun _ _ _ hchange => ?_⟩
        cases hchange
      · exact hid
  | unavailable => cases hmem
  | failed err =>
      rw [List.mem_singleton.mp hmem]
      trivial

/-- What the swapper emits was emitted to it, or is about a pending swap. -/
theorem reduce_fits {R : StorageReplies} {msg : SwapperMessage}
    (himmediate : ∀ m, msg = .immediate m → ImmediateFits m)
    (hdelayed : ∀ m, msg = .delayed m → DelayedFits m)
    (hlist : ∀ password, msg = .bootload password → ∀ listed, R.pendingSwaps = .ok listed →
      ∀ blob ∈ listed, IsID blob.id) :
    ∀ output ∈ (reduce D R msg).2, OutputFits output := by
  have hrequest : ∀ blob, ∀ output ∈ (handleSwapRequest R blob).2, OutputFits output := by
    intro blob output houtput
    unfold handleSwapRequest at houtput
    split at houtput
    · rw [List.mem_singleton.mp houtput]
      trivial
    · cases houtput
  have hdelete : ∀ output ∈ (handleDeleteSwap R).2, OutputFits output := by
    intro output houtput
    unfold handleDeleteSwap at houtput
    split at houtput
    · rw [List.mem_singleton.mp houtput]
      trivial
    · cases houtput
  intro output houtput
  cases msg with
  | bootload password =>
      change output ∈ (handleBootload D R password).2 at houtput
      unfold handleBootload at houtput
      split at houtput
      · rw [List.mem_singleton.mp houtput]
        trivial
      · rename_i listed hlisted
        obtain ⟨blob, hblob, rfl⟩ := List.mem_map.mp houtput
        refine ⟨?_, fun _ _ _ hchange => ?_⟩
        · exact hlist password rfl listed hlisted blob (List.mem_filter.mp hblob).1
        · cases hchange
  | swapRequest blob => exact hrequest blob output houtput
  | tick => cases houtput
  | immediate msg =>
      cases msg with
      | receiptUpdate update =>
          rw [List.mem_singleton.mp houtput]
          exact himmediate _ rfl
      | deleteSwap id => exact hdelete output houtput
      | error err =>
          rw [List.mem_singleton.mp houtput]
          trivial
  | delayed msg =>
      cases msg with
      | swapRequest blob => exact hrequest blob output houtput
      | receiptUpdate update =>
          rw [List.mem_singleton.mp houtput]
          exact hdelayed _ rfl
      | deleteSwap id => exact hdelete output houtput
      | error err =>
          rw [List.mem_singleton.mp houtput]
          trivial

/-- Pending swaps have IDs. -/
theorem lists_ids (hs : Everywhere Writable d) {listed : List SwapBlob}
    {result : Except GoError (List SwapBlob)} (hlists : Lists d.pending result)
    (hlisted : result = .ok listed) : ∀ blob ∈ listed, IsID blob.id := by
  intro blob hblob
  obtain ⟨password, hwritable⟩ := hs.pending _ _ ((hlists listed hlisted).2 blob hblob)
  exact hwritable.id

/-- What reaches the swapper can be stored. -/
theorem receives_fits {s : System} (hs : Storable s) {msg : SwapperMessage}
    (h : Receives s.daemon msg d) :
    (∀ m, msg = .immediate m → ImmediateFits m) ∧ (∀ m, msg = .delayed m → DelayedFits m) ∧
      (∀ m ∈ d.immediateOut, ImmediateFits m) ∧ (∀ m ∈ d.delayedOut, DelayedFits m) := by
  cases h with
  | @wallet msg rest h =>
      have hwallet : (∀ m, toSwapper msg ≠ .immediate m) ∧ ∀ m, toSwapper msg ≠ .delayed m := by
        cases msg <;> simp [toSwapper]
      exact ⟨fun m heq => absurd heq (hwallet.1 m), fun m heq => absurd heq (hwallet.2 m),
        hs.immediateOut, hs.delayedOut⟩
  | @immediate msg rest h =>
      have hout : ∀ m ∈ msg :: rest, ImmediateFits m := h ▸ hs.immediateOut
      refine ⟨?_, by simp, fun m hm => hout m (List.mem_cons_of_mem _ hm), hs.delayedOut⟩
      rintro m heq
      cases heq
      exact hout msg List.mem_cons_self
  | @delayed msg rest h =>
      have hout : ∀ m ∈ msg :: rest, DelayedFits m := h ▸ hs.delayedOut
      refine ⟨by simp, ?_, hs.immediateOut, fun m hm => hout m (List.mem_cons_of_mem _ hm)⟩
      rintro m heq
      cases heq
      exact hout msg List.mem_cons_self

theorem asksWell {s : System} (hs : Storable s) {msg : SwapperMessage}
    (h : Receives s.daemon msg d) : AsksWell msg := by
  obtain ⟨himmediate, hdelayed, -⟩ := receives_fits hs h
  refine ⟨(hs.everywhere.receives h).2, ?_⟩
  intro id hcall
  cases msg with
  | immediate msg =>
      cases msg with
      | deleteSwap id' =>
          cases hcall
          exact himmediate _ rfl
      | _ => cases hcall
  | delayed msg =>
      cases msg with
      | deleteSwap id' =>
          cases hcall
          exact hdelayed _ rfl
      | _ => cases hcall
  | _ => cases hcall

/-- **Step lemma.**  What is in the queues can be stored after every step. -/
theorem Storable.moves (hD : D.J = handlerJson) {s s' : System} {l : Label} (hs : Storable s)
    (h : Statuses.Moves D s l s') (hposts : PostsDecoded s.daemon)
    (hfills : ∀ l₀, l.base = some l₀ → FillsDecoded l₀) (hclock : Clocked l) : Storable s' := by
  have heverywhere : Everywhere Writable s'.daemon := by
    rcases h.base with ⟨l₀, hbase, hmoves⟩ | ⟨-, hsame⟩
    · exact hs.everywhere.moves hmoves (carries_writable hD hposts (hfills l₀ hbase))
    · rw [hsame]
      exact hs.everywhere
  cases h with
  | thread h =>
      have himmediate := front_outputs h (.inl rfl)
      have hdelayed := (front_sameBack h (.inl rfl)).delayedOut
      exact ⟨heverywhere, himmediate ▸ hs.immediateOut, hdelayed ▸ hs.delayedOut, hs.swapperOut,
        hs.statusIn⟩
  | accept | tick => exact { hs with everywhere := heverywhere }
  | @wallet msg rest h now =>
      refine { hs with everywhere := heverywhere, statusIn := ?_ }
      intro m hm
      rcases List.mem_append.mp hm with hold | hnew
      · exact hs.statusIn m hold
      · cases msg with
        | swapRequest blob =>
            have hblob : Writable blob := by
              refine hs.everywhere.front blob ?_
              simp [Daemon.State.front, h, WalletMessage.blob]
            rw [List.mem_singleton.mp hnew]
            exact ⟨hblob.id, ⟨hclock, hblob.fit.timeLock, hblob.fit.delayInfo⟩, hblob.form⟩
        | bootload | tick => cases hnew
  | @swapper d msg R h hcosts =>
      cases h with
      | swapper hreceives hstored =>
          obtain ⟨himmediate, hdelayed, himmediateOut, hdelayedOut⟩ := receives_fits hs hreceives
          refine ⟨heverywhere, himmediateOut, hdelayedOut, ?_, hs.statusIn⟩
          intro output houtput
          rcases List.mem_append.mp houtput with hold | hnew
          · exact hs.swapperOut output hold
          · refine reduce_fits himmediate hdelayed ?_ output hnew
            rintro password rfl listed hlisted
            exact lists_ids hs.everywhere hstored.2 hlisted
  | immediate h =>
      cases h with
      | immediate h hstart hreduces =>
          refine { hs with everywhere := heverywhere, immediateOut := ?_ }
          intro m hm
          rcases List.mem_append.mp hm with hold | hnew
          · exact hs.immediateOut m hold
          · exact immediate_fits hs.everywhere h hstart hreduces m hnew
  | @delayed d l h =>
      have hcarries : Carries D Writable Writable s.daemon (.delayed l) d :=
        carries_writable hD hposts (hfills _ rfl)
      cases h with
      | delayed h hstart hreduces =>
          refine { hs with everywhere := heverywhere, delayedOut := ?_ }
          intro m hm
          rcases List.mem_append.mp hm with hold | hnew
          · exact hs.delayedOut m hold
          · exact delayed_fits hs.everywhere h hstart hreduces hcarries m hnew
  | @forward output rest h =>
      have hout : ∀ o ∈ output :: rest, OutputFits o := h ▸ hs.swapperOut
      refine { hs with
        everywhere := heverywhere
        swapperOut := fun o ho => hout o (List.mem_cons_of_mem _ ho)
        statusIn := ?_ }
      intro m hm
      rcases List.mem_append.mp hm with hold | hnew
      · exact hs.statusIn m hold
      · cases output with
        | receiptUpdate update =>
            rw [List.mem_singleton.mp hnew]
            exact hout _ List.mem_cons_self
        | error err => cases hnew
  | @status msg rest costs result receipts h hwrites =>
      have hin : ∀ m ∈ msg :: rest, MessageFits m := h ▸ hs.statusIn
      exact { hs with statusIn := fun m hm => hin m (List.mem_cons_of_mem _ hm) }
  | crash => exact ⟨heverywhere, by simp [Statuses.System.start, Daemon.State.start],
      by simp [Statuses.System.start, Daemon.State.start], by simp [Statuses.System.start],
      by simp [Statuses.System.start]⟩

end Queues

/-! ### The refinement -/

/-- The database holds tables, and what is on its way to it can be stored. -/
structure Kept (s : State) : Prop where
  refines : ∃ t, Refines jsonCodecs s.db t
  storable : Storable s.seen

/-- What is relied on of the clients, of the callback servers and of the clock. -/
structure Decodes (s : State) (l : Label) : Prop where
  posts : PostsDecoded s.tasks.daemon
  fills : ∀ l₀, l.base = some l₀ → FillsDecoded l₀
  clock : Clocked l

section Refinement

variable {D : Config} {s s' : State} {l : Label}

theorem receives_withPending {d d' : Daemon.State} {msg : SwapperMessage} (h : Receives d msg d')
    (pending : PendingTable) :
    Receives { d with pending := pending } msg { d' with pending := pending } := by
  cases h with
  | wallet h => exact .wallet h
  | immediate h => exact .immediate h
  | delayed h => exact .delayed h

/-- What a step of this daemon is to that one. -/
structure Simulates (D : Config) (s : State) (l : Label) (s' : State) : Prop where
  moves : Statuses.Moves D s.seen (seenLabel l) s'.seen
  refines : ∃ t, Refines jsonCodecs s'.db t
  works : Statuses.StorageWorks s.seen (seenLabel l)

theorem task_simulates (hs : Kept s) {tasks : System} (hl : ¬ UsesStorage l)
    (h : Statuses.Moves D s.tasks l tasks) : Simulates D s l { s with tasks := tasks } where
  moves := by
    rw [seenLabel_task hl]
    exact statuses_withTables h hl _ _
  refines := hs.refines
  works := by
    rw [seenLabel_task hl]
    cases l with
    | daemon l =>
        cases l with
        | swapper => exact absurd trivial hl
        | _ => trivial
    | status => exact absurd trivial hl
    | _ => trivial

theorem swapper_simulates (hs : Kept s) {msg : SwapperMessage} {daemon : Daemon.State}
    (h : Receives s.tasks.daemon msg daemon) :
    Simulates D s (.daemon (.swapper msg (replies s.db msg)))
      { tasks :=
          { s.tasks with
            daemon := daemon.swapped daemon.pending msg (reduce D (replies s.db msg) msg).1
            swapperOut := s.tasks.swapperOut ++ (reduce D (replies s.db msg) msg).2 }
        db := swapperRun s.db msg } := by
  obtain ⟨t, ht⟩ := hs.refines
  have hreceives : Receives s.seen.daemon msg { daemon with pending := pendingTable s.db } :=
    receives_withPending h _
  have hids : ∀ key blob, t.pendingSwaps key = some blob → IsID blob.id := by
    intro key blob hstored
    obtain ⟨password, hwritable⟩ :=
      hs.storable.everywhere.pending _ blob ((lookup_pending ht).mpr ⟨key, rfl, hstored⟩)
    exact hwritable.id
  have hasks := asksWell hs.storable hreceives
  have hstores := swapper_stores ht hids hasks
  have hreduce : reduce D (onIDs (replies s.db msg)) msg = reduce D (replies s.db msg) msg :=
    reduce_onIDs hasks fun listed hlisted =>
      lists_ids hs.storable.everywhere (pendingSwaps_lists ht hids) hlisted
  have hcosts : (onIDs (replies s.db msg)).loadCosts = Statuses.loadCosts s.seen.receipts := by
    obtain ⟨t', ht'⟩ := hstores.refines
    have hreceipts : s.seen.receipts = receiptTable (swapperRun s.db msg) := hstores.receipts.symm
    rw [hreceipts]
    exact funext fun id => (loadCosts_seen ht' id).symm
  refine ⟨?_, hstores.refines, hstores.works⟩
  have hmoves := Statuses.Moves.swapper (.swapper hreceives hstores.stored (D := D)) hcosts
  rw [hreduce] at hmoves
  have htarget : ∀ tasks : System, State.seen ⟨tasks, swapperRun s.db msg⟩ =
      withTables tasks (pendingTable (swapperRun s.db msg)) (receiptTable s.db) := by
    intro tasks
    rw [State.seen, hstores.receipts]
  rw [htarget]
  exact hmoves

theorem status_simulates (hs : Kept s) {msg : Message} {rest : List Message}
    (costs : ContractCosts) (h : s.tasks.statusIn = msg :: rest) :
    Simulates D s (.status msg costs (outcome ((statusCall costs msg).result jsonCodecs s.db)))
      { tasks := { s.tasks with statusIn := rest }
        db := (statusCall costs msg).run jsonCodecs s.db } := by
  obtain ⟨t, ht⟩ := hs.refines
  have hmsg : MessageFits msg := hs.storable.statusIn msg (h ▸ List.mem_cons_self)
  have hwrites : WritesTable s.db msg costs ((statusCall costs msg).run jsonCodecs s.db) := by
    cases msg with
    | receipt receipt => exact putReceipt_writes ht hmsg costs
    | receiptUpdate update => exact updateReceipt_writes ht hmsg costs
  refine ⟨?_, hwrites.refines, hwrites.works⟩
  have hmoves := Statuses.Moves.status (s := s.seen) (D := D) h hwrites.writes
  have htarget : ∀ tasks : System,
      State.seen ⟨tasks, (statusCall costs msg).run jsonCodecs s.db⟩ =
        withTables tasks (pendingTable s.db)
          (receiptTable ((statusCall costs msg).run jsonCodecs s.db)) := by
    intro tasks
    rw [State.seen, hwrites.pending]
  rw [htarget]
  exact hmoves

/-- **Step lemma.**  A step of this daemon is one of that, in which the storage works. -/
theorem moves_simulates (hs : Kept s) (h : Moves D s l s') : Simulates D s l s' := by
  cases h with
  | task hl h => exact task_simulates hs hl h
  | swapper h => exact swapper_simulates hs h
  | status costs h => exact status_simulates hs costs h

/-- **Step lemma.**  The database goes on holding what can be stored. -/
theorem Kept.moves (hD : D.J = handlerJson) (hs : Kept s) (h : Moves D s l s')
    (hdecodes : Decodes s l) : Kept s' := by
  have hsimulates := moves_simulates hs h
  have hlabel : (∀ l₀, (seenLabel l).base = some l₀ → FillsDecoded l₀) ∧ Clocked (seenLabel l) := by
    cases l with
    | daemon l =>
        cases l with
        | swapper msg R =>
            refine ⟨?_, trivial⟩
            rintro l₀ hl₀
            cases hl₀
            trivial
        | _ => exact ⟨hdecodes.fills, trivial⟩
    | _ => exact ⟨hdecodes.fills, hdecodes.clock⟩
  exact ⟨hsimulates.refines,
    hs.storable.moves hD hsimulates.moves hdecodes.posts hlabel.1 hlabel.2⟩

theorem kept_init : Kept .init where
  refines := ⟨{}, refines_empty⟩
  storable := by
    refine ⟨everywhere_start (stores_empty _), ?_, ?_, ?_, ?_⟩
    all_goals
      intro m hm
      cases hm

/-- The steps whose inputs can be decoded refine those of the daemon with tables. -/
theorem stored_refines (hD : D.J = handlerJson) :
    TransitionRuns.Refines (fun s l s' => Moves D s l s' ∧ Decodes s l) (Statuses.Moves D)
      State.seen (fun l => some (seenLabel l)) Kept where
  keeps hs h := hs.moves hD h.1 h.2
  moves hs h hlabel := by
    cases hlabel
    exact (moves_simulates hs h.1).moves
  stays _ _ hlabel := by cases hlabel

/-- Reading a table that the database holds does not fail. -/
theorem listings_read {db : Db} (h : ∃ t, Refines jsonCodecs db t) :
    (pendingSwaps jsonCodecs db).2 = none ∧ (receipts jsonCodecs db).2 = none := by
  obtain ⟨t, ht⟩ := h
  obtain ⟨keys, -, -, hpending⟩ := listRecords_eq ht.keyed pending_mem ht.pendingSwaps
  obtain ⟨keys', -, -, hreceipts⟩ := listRecords_eq ht.keyed receipts_mem ht.receipts
  rw [pendingSwaps, receipts, hpending, hreceipts]
  exact ⟨rfl, rfl⟩

/-- **The database cannot be told from the tables of the tasks.**  Over every run of the
    daemon on its database, crashes included, from an empty one: as long as bodies and answers
    are JSON of swaps, what is seen of the run is one of the daemon with tables, in which the
    storage does not fail; and no record keeps the records from being listed. -/
theorem stored_run_refines (hD : D.J = handlerJson) {ts : List (Transition State Label)}
    (h : Run (Moves D) .init ts s) (hdecodes : ∀ t ∈ ts, Decodes t.source t.label) :
    Run (Statuses.Moves D) .init (seen State.seen (fun l => some (seenLabel l)) ts) s.seen ∧
      (∀ t ∈ ts, Statuses.StorageWorks t.source.seen (seenLabel t.label)) ∧
        (pendingSwaps jsonCodecs s.db).2 = none ∧ (receipts jsonCodecs s.db).2 = none := by
  obtain ⟨hlast, hall⟩ := h.invariant (P := Kept) (C := Decodes)
    (fun hs hmoves hC => hs.moves hD hmoves hC) kept_init hdecodes
  refine ⟨(stored_refines hD).run (h.meets hdecodes) kept_init, ?_, listings_read hlast.refines⟩
  intro t ht
  exact (moves_simulates (hall t ht).1 (h.step_of_mem t ht)).works

end Refinement

/-! ### A swap that is posted

The body is indented; the swap goes through the wallet to the swapper, which stores it. -/

def postedRequest : SwapBlob := authorize "alice" [] (sampleRequest.withPassword "")

theorem posted_decodes {s : State} {l : Label} (hclock : Clocked l)
    (hfills : ∀ reduction, l ≠ .daemon (.delayed reduction))
    (hthreads : ∀ swapReq, .handle (.postSwaps swapReq) ∈ s.tasks.daemon.threads →
      swapReq = postedRequest) : Decodes s l where
  posts swapReq hthread := ⟨Bodies.indentedBody, _, "alice", [], Bodies.indentedBody_decodes,
    hthreads swapReq hthread, fun _ => rfl⟩
  fills l₀ hbase := by
    cases l with
    | daemon l =>
        cases hbase
        cases l₀ with
        | delayed reduction => exact absurd rfl (hfills reduction)
        | _ => trivial
    | wallet =>
        cases hbase
        trivial
    | forward => cases hbase
    | status => cases hbase
  clock := hclock

theorem posted_run : ∃ ts s, Run (Moves Bodies.jsonConfig) .init ts s ∧
    (∀ t ∈ ts, Decodes t.source t.label) ∧
      s.seen.daemon.pending.lookup Bodies.indentedBlob.id =
        some (Bodies.indentedBlob.withPassword "") := by
  have hthread : ¬ UsesStorage (.daemon .thread) := id
  refine ⟨_, _, .cons (.task hthread (.thread (.http (.postSwaps postedRequest)))) <|
    .cons (.task hthread
      (.thread (@Daemon.Moves.notBootloaded _ _ [] [] _ rfl (Finset.notMem_empty _)))) <|
    .cons (.task hthread (.thread (@Daemon.Moves.bootloadFailed _ _ [] [] _ rfl))) <|
    .cons (.task hthread (.thread (@Daemon.Moves.patch _ _ [] [] _ _ _ _ _ rfl
      Bodies.indentedBlob_accepted Finmap.notMem_empty))) <|
    .cons (.task hthread (.thread (@Daemon.Moves.writeRequest _ _ [] [] _ rfl))) <|
    .cons (.task id (.accept rfl)) <| .cons (.task id (.wallet rfl 1550000000)) <|
    .cons (.status {} rfl) <| .cons (.swapper (.wallet rfl)) (.nil _), ?_, ?_⟩
  · simp only [List.forall_mem_cons]
    refine ⟨?_, ?_, ?_, ?_, ?_, ?_, ?_, ?_, ?_, by simp⟩
    · exact posted_decodes trivial (by simp) fun _ h => by cases h
    · exact posted_decodes trivial (by simp) fun _ h => by cases List.mem_singleton.mp h
    · exact posted_decodes trivial (by simp) fun _ h => by cases List.mem_singleton.mp h
    · refine posted_decodes trivial (by simp) fun _ h => ?_
      cases List.mem_singleton.mp h
      rfl
    · exact posted_decodes trivial (by simp) fun _ h => by cases List.mem_singleton.mp h
    · exact posted_decodes trivial (by simp) fun _ h => by cases h
    · refine posted_decodes ?_ (by simp) fun _ h => by cases h
      show IsInt64 1550000000
      decide
    · exact posted_decodes trivial (by simp) fun _ h => by cases h
    · exact posted_decodes trivial (by simp) fun _ h => by cases h
  · decide +kernel

theorem stored_run_refines_posted : ∃ ts s, Run (Moves Bodies.jsonConfig) .init ts s ∧
    s.seen.daemon.pending.lookup Bodies.indentedBlob.id =
      some (Bodies.indentedBlob.withPassword "") ∧
    Run (Statuses.Moves Bodies.jsonConfig) .init
      (seen State.seen (fun l => some (seenLabel l)) ts) s.seen ∧
      (∀ t ∈ ts, Statuses.StorageWorks t.source.seen (seenLabel t.label)) ∧
        (pendingSwaps jsonCodecs s.db).2 = none ∧ (receipts jsonCodecs s.db).2 = none := by
  obtain ⟨ts, s, hrun, hdecodes, hpending⟩ := posted_run
  exact ⟨ts, s, hrun, hpending, stored_run_refines rfl hrun hdecodes⟩

end Swapperd.Stored
