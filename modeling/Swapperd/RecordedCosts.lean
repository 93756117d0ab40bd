/-
  Swapperd/RecordedCosts.lean
  ===========================
  **Costs survive a restart** (`CostToCostBlob`, `CostBlobToCost`, `LoadCosts`).

  A cost is stored in its receipt as a map of decimal texts.  Every update rewrites the
  whole receipt, but only those of the immediate swapper write costs, so what `LoadCosts`
  reads after any history is what the last of them recorded (`loadCosts_eq`).  Of JSON it
  is assumed that the maps of a receipt are read as they were written.
-/
import Swapperd.StorageListing

namespace Swapperd

open GoLibrary

/-! ### Costs and their texts -/

theorem mapValues_mapValues {β γ δ : Type} (f : γ → δ) (g : β → γ)
    (m : Finmap fun _ : TokenName => β) : mapValues f (mapValues g m) = mapValues (f ∘ g) m := by
  apply Finmap.ext
  simp [mapValues, Multiset.map_map]

/-- A cost is read from its texts as it was, and none of it is nil. -/
theorem costBlobToCost_costToCostBlob (cost : Cost) :
    costBlobToCost (costToCostBlob cost) = notNil cost := by
  unfold costBlobToCost costToCostBlob notNil
  rw [mapValues_mapValues]
  have hread : setString ∘ (fun tokenCost : Int => toString tokenCost) = some := by
    funext tokenCost
    exact setString_toString tokenCost
  rw [hread]

theorem costToCostBlob_empty : costToCostBlob ∅ = ∅ := by
  apply Finmap.ext
  rfl

namespace Storage

/-! ### Histories of receipts -/

def StorageCall.WritesReceipts : StorageCall → Prop
  | putReceipt _ | updateReceipt .. => True
  | _ => False

/-- A write to the storage. The receipts that are put are those of new swaps. -/
inductive ReceiptCall where
  | put (now : Int) (blob : SwapBlob)
  | update (u : ReceiptUpdate) (costs : ContractCosts)
  | other (call : StorageCall)

namespace ReceiptCall

def call : ReceiptCall → StorageCall
  | put now blob => .putReceipt (newSwapReceipt now blob)
  | update u costs => .updateReceipt u.id (u.update costs)
  | other call => call

/-- The swap whose receipt is put. -/
def putID? : ReceiptCall → Option SwapID
  | put _ blob => some blob.id
  | _ => none

/-- The costs that an update of the immediate swapper records for the swap. -/
def records? (id : SwapID) : ReceiptCall → Option ContractCosts
  | .update ⟨swapID, .setStatus _⟩ costs => if swapID = id then some costs else none
  | _ => none

end ReceiptCall

/-- The costs that were recorded last, none at first. -/
def recordedCosts (id : SwapID) (calls : List ReceiptCall) : ContractCosts :=
  ((calls.filterMap (ReceiptCall.records? id)).getLast?).getD {}

/-- IDs are written as `base64.StdEncoding` writes them. -/
def Canonical (id : SwapID) : Prop := ∃ bytes, id = encodeToString bytes

/-- A receipt is put once, under a fresh ID, and updated after that. -/
def ReceiptCall.Proper (past : List ReceiptCall) : ReceiptCall → Prop
  | put _ blob => Canonical blob.id ∧ blob.id ∉ past.filterMap putID?
  | update u _ => u.id ∈ past.filterMap putID?
  | other call => ¬ call.WritesReceipts

def ProperHistory (calls : List ReceiptCall) : Prop :=
  ∀ past call rest, calls = past ++ call :: rest → call.Proper past

theorem properHistory_nil : ProperHistory [] := by
  intro past call rest h
  simp at h

theorem properHistory_concat {calls : List ReceiptCall} {call : ReceiptCall} :
    ProperHistory (calls ++ [call]) ↔ ProperHistory calls ∧ call.Proper calls := by
  constructor
  · intro h
    refine ⟨?_, h calls call [] rfl⟩
    rintro past c rest rfl
    exact h past c (rest ++ [call]) (by simp)
  · rintro ⟨hcalls, hcall⟩ past c rest heq
    rcases List.eq_nil_or_concat rest with rfl | ⟨rest, last, rfl⟩
    · obtain ⟨rfl, hlast⟩ := List.append_inj' heq rfl
      cases hlast
      exact hcall
    · rw [List.concat_eq_append, ← List.cons_append, ← List.append_assoc] at heq
      obtain ⟨rfl, -⟩ := List.append_inj' heq rfl
      exact hcalls past c rest rfl

/-- One swap, and updates of its receipt. -/
theorem properHistory_updates {now : Int} {blob : SwapBlob}
    (hput : (ReceiptCall.put now blob).Proper []) {updates : List (ReceiptUpdate × ContractCosts)}
    (hids : ∀ u ∈ updates, u.1.id = blob.id) :
    ProperHistory (.put now blob :: updates.map fun u => .update u.1 u.2) := by
  induction updates using List.reverseRecOn with
  | nil => exact properHistory_concat.mpr ⟨properHistory_nil, hput⟩
  | append_singleton updates u ih =>
      rw [List.map_append, ← List.cons_append]
      refine properHistory_concat.mpr ⟨?_, ?_⟩
      · exact ih fun v hv => hids v (List.mem_append_left _ hv)
      · have hid : u.1.id = blob.id := hids u (by simp)
        show u.1.id ∈ _
        simp [hid, ReceiptCall.putID?]

/-- The receipts of a class, which has all of a history, are written, and read with their
    maps. -/
structure KeepsCosts (c : Codec SwapReceipt) (Encodes : SwapReceipt → Prop)
    (calls : List ReceiptCall) : Prop where
  reads : ∀ r, Encodes r → ∃ data r', c.marshal r = .ok data ∧ c.unmarshal data = .ok r' ∧
    Encodes r' ∧ r'.sendCost = r.sendCost ∧ r'.receiveCost = r.receiveCost
  puts : ∀ now blob, .put now blob ∈ calls → Encodes (newSwapReceipt now blob)
  updates : ∀ u costs, .update u costs ∈ calls → ∀ r, Encodes r → Encodes (u.update costs r)

/-! ### Keys -/

theorem decodeID_encodeToString (bytes : Bytes) :
    decodeID (encodeToString bytes) = .ok bytes := by
  unfold decodeID
  rw [decodeString_encodeToString]

theorem Canonical.decodeID {id : SwapID} (h : Canonical id) :
    ∃ bytes, Storage.decodeID id = .ok bytes ∧
      ∀ id', Canonical id' → Storage.decodeID id' = .ok bytes → id' = id := by
  obtain ⟨bytes, rfl⟩ := h
  refine ⟨bytes, decodeID_encodeToString bytes, ?_⟩
  rintro id' ⟨bytes', rfl⟩ hdecode
  rw [decodeID_encodeToString] at hdecode
  rw [Except.ok.inj hdecode]

/-! ### Writes to the other tables -/

section Writes

variable {α : Type} {c : Codec α} {J : Codecs} {db db' : Db} {table : Table}
  {key : Except GoError Bytes} {k data : Bytes}

theorem putRecord_eq_ok {record : α} (h : putRecord c db table key record = .ok db') :
    ∃ id data, db' = db.put (table.name ++ id) data := by
  unfold putRecord at h
  obtain ⟨data, -, h⟩ := except_bind_eq_ok_iff.mp h
  obtain ⟨id, -, h⟩ := except_bind_eq_ok_iff.mp h
  cases h
  exact ⟨id, data, rfl⟩

theorem updateRecord_eq_ok {update : α → α} (h : updateRecord c db table key update = .ok db') :
    ∃ id data, db' = db.put (table.name ++ id) data := by
  unfold updateRecord at h
  obtain ⟨id, -, h⟩ := except_bind_eq_ok_iff.mp h
  obtain ⟨data, -, h⟩ := except_bind_eq_ok_iff.mp h
  obtain ⟨record, -, h⟩ := except_bind_eq_ok_iff.mp h
  obtain ⟨updated, -, h⟩ := except_bind_eq_ok_iff.mp h
  cases h
  exact ⟨id, updated, rfl⟩

/-- Keys of receipts are keys of no other table. -/
theorem receiptKey_ne (htable : table ∈ allTables) (hne : table.name ≠ tableSwapReceipts.name)
    (k l : Bytes) : tableSwapReceipts.name ++ k ≠ table.name ++ l := by
  intro h
  have hlen : tableSwapReceipts.name.length = table.name.length := by
    rw [name_length receipts_mem, name_length htable]
  exact hne (List.append_inj h hlen).1.symm

theorem get_put_of_ne (htable : table ∈ allTables) (hne : table.name ≠ tableSwapReceipts.name)
    (l : Bytes) : (db.put (table.name ++ l) data).get (tableSwapReceipts.name ++ k) =
      db.get (tableSwapReceipts.name ++ k) := by
  rw [OrderedStore.get_put, if_neg (receiptKey_ne htable hne k l)]

/-- A call of another kind leaves the receipts as they are. -/
theorem run_get_receipt {call : StorageCall} (h : ¬ call.WritesReceipts) (k : Bytes) :
    (call.run J db).get (tableSwapReceipts.name ++ k) = db.get (tableSwapReceipts.name ++ k) := by
  unfold StorageCall.run
  split
  · rename_i db' hresult
    cases call with
    | putReceipt | updateReceipt => exact absurd trivial h
    | putSwap blob =>
        unfold StorageCall.result Storage.putSwap at hresult
        obtain ⟨data, -, hresult⟩ := except_bind_eq_ok_iff.mp hresult
        obtain ⟨id, -, hresult⟩ := except_bind_eq_ok_iff.mp hresult
        cases hresult
        rw [get_put_of_ne swaps_mem (by decide), get_put_of_ne pending_mem (by decide)]
    | deletePendingSwap swapID =>
        unfold StorageCall.result Storage.deletePendingSwap at hresult
        obtain ⟨id, -, hresult⟩ := except_bind_eq_ok_iff.mp hresult
        cases hresult
        rw [OrderedStore.get_erase, if_neg (receiptKey_ne pending_mem (by decide) k id)]
    | putTransfer transfer =>
        obtain ⟨id, data, rfl⟩ := putRecord_eq_ok hresult
        exact get_put_of_ne transfers_mem (by decide) id
    | updateTransferReceipt txHash update =>
        obtain ⟨id, data, rfl⟩ := updateRecord_eq_ok hresult
        exact get_put_of_ne transfers_mem (by decide) id
  · rfl

end Writes

/-! ### The invariant -/

/-- The receipt at a key is one of the class, with these costs. -/
def HoldsCosts (J : Codecs) (Encodes : SwapReceipt → Prop) (db : Db) (key : Bytes)
    (costs : ContractCosts) : Prop :=
  ∃ data r, db.get (tableSwapReceipts.name ++ key) = some data ∧
    J.receipt.unmarshal data = .ok r ∧ Encodes r ∧ r.sendCost = costToCostBlob costs.native ∧
    r.receiveCost = costToCostBlob costs.foreign

/-- Every receipt that was put has the costs that were recorded last for its swap. -/
structure Recorded (J : Codecs) (Encodes : SwapReceipt → Prop) (past : List ReceiptCall)
    (db : Db) : Prop where
  canonical : ∀ id ∈ past.filterMap ReceiptCall.putID?, Canonical id
  held : ∀ id ∈ past.filterMap ReceiptCall.putID?, ∀ key, decodeID id = .ok key →
    HoldsCosts J Encodes db key (recordedCosts id past)
  absent : ∀ id, Canonical id → id ∉ past.filterMap ReceiptCall.putID? → ∀ key,
    decodeID id = .ok key → db.get (tableSwapReceipts.name ++ key) = none ∧
      past.filterMap (ReceiptCall.records? id) = []

theorem recordedCosts_append (id : SwapID) (past : List ReceiptCall) (call : ReceiptCall) :
    recordedCosts id (past ++ [call]) =
      ((ReceiptCall.records? id call).getD (recordedCosts id past)) := by
  unfold recordedCosts
  rw [List.filterMap_append]
  cases hrecords : ReceiptCall.records? id call with
  | none => simp [hrecords]
  | some costs => simp [hrecords]

section Steps

variable {J : Codecs} {Encodes : SwapReceipt → Prop} {calls past : List ReceiptCall} {db : Db}
  {call : ReceiptCall}

theorem recorded_empty : Recorded J Encodes [] OrderedStore.empty := by
  constructor <;> simp

/-- A call that writes no receipt. -/
theorem Recorded.other (h : Recorded J Encodes past db) {call : StorageCall}
    (hcall : ¬ call.WritesReceipts) :
    Recorded J Encodes (past ++ [.other call]) (call.run J db) := by
  have hputs : (past ++ [ReceiptCall.other call]).filterMap ReceiptCall.putID? =
      past.filterMap ReceiptCall.putID? := by
    simp [ReceiptCall.putID?]
  have hrecords : ∀ id, ReceiptCall.records? id (.other call) = none := fun id => rfl
  refine ⟨?_, ?_, ?_⟩
  · rw [hputs]
    exact h.canonical
  · rw [hputs]
    intro id hid key hkey
    rw [recordedCosts_append, hrecords, Option.getD_none]
    unfold HoldsCosts
    rw [run_get_receipt hcall]
    exact h.held id hid key hkey
  · rw [hputs]
    intro id hcanonical hid key hkey
    rw [run_get_receipt hcall, List.filterMap_append]
    obtain ⟨hget, hpast⟩ := h.absent id hcanonical hid key hkey
    exact ⟨hget, by simp [hpast, hrecords]⟩

/-- A receipt is written under a canonical ID, with the costs that are recorded now. -/
theorem Recorded.write (h : Recorded J Encodes past db) {id : SwapID} (hid : Canonical id)
    {key data : Bytes} {r : SwapReceipt} (hkey : decodeID id = .ok key)
    (hputs : ∀ id', id' ∈ (past ++ [call]).filterMap ReceiptCall.putID? ↔
      id' ∈ past.filterMap ReceiptCall.putID? ∨ id' = id)
    (hothers : ∀ id' ≠ id, call.records? id' = none)
    (hread : J.receipt.unmarshal data = .ok r) (hencodes : Encodes r)
    (hsend : r.sendCost = costToCostBlob (recordedCosts id (past ++ [call])).native)
    (hreceive : r.receiveCost = costToCostBlob (recordedCosts id (past ++ [call])).foreign) :
    Recorded J Encodes (past ++ [call]) (db.put (tableSwapReceipts.name ++ key) data) := by
  have hfar : ∀ id', Canonical id' → id' ≠ id → ∀ key', decodeID id' = .ok key' →
      (db.put (tableSwapReceipts.name ++ key) data).get (tableSwapReceipts.name ++ key') =
        db.get (tableSwapReceipts.name ++ key') := by
    intro id' hid' hne key' hkey'
    obtain ⟨bytes, hbytes, hunique⟩ := hid.decodeID
    rw [OrderedStore.get_put, if_neg]
    intro heq
    obtain rfl : key' = key := List.append_cancel_left heq
    rw [hkey] at hbytes
    cases hbytes
    exact hne (hunique id' hid' hkey')
  refine ⟨?_, ?_, ?_⟩
  · intro id' hid'
    rcases (hputs id').mp hid' with hold | rfl
    · exact h.canonical id' hold
    · exact hid
  · intro id' hid' key' hkey'
    by_cases hsame : id' = id
    · subst hsame
      obtain rfl : key = key' := Except.ok.inj (hkey.symm.trans hkey')
      exact ⟨data, r, by rw [OrderedStore.get_put, if_pos rfl], hread, hencodes, hsend, hreceive⟩
    · have hold := ((hputs id').mp hid').resolve_right hsame
      rw [recordedCosts_append, hothers id' hsame, Option.getD_none]
      unfold HoldsCosts
      rw [hfar id' (h.canonical id' hold) hsame key' hkey']
      exact h.held id' hold key' hkey'
  · intro id' hcanonical hid' key' hkey'
    have hnot : ¬ (id' ∈ past.filterMap ReceiptCall.putID? ∨ id' = id) :=
      fun hor => hid' ((hputs id').mpr hor)
    obtain ⟨hold, hne⟩ := not_or.mp hnot
    obtain ⟨hget, hpast⟩ := h.absent id' hcanonical hold key' hkey'
    rw [hfar id' hcanonical hne key' hkey', List.filterMap_append]
    exact ⟨hget, by simp [hpast, hothers id' hne]⟩

/-- A fresh receipt has no costs. -/
theorem Recorded.put (h : Recorded J Encodes past db) {now : Int} {blob : SwapBlob}
    (hproper : (ReceiptCall.put now blob).Proper past)
    (hcodec : KeepsCosts J.receipt Encodes calls) (hmem : .put now blob ∈ calls) :
    Recorded J Encodes (past ++ [.put now blob])
      ((ReceiptCall.put now blob).call.run J db) := by
  obtain ⟨hcanonical, hfresh⟩ := hproper
  obtain ⟨key, hkey, -⟩ := hcanonical.decodeID
  obtain ⟨data, r, hdata, hread, hencodes, hsend, hreceive⟩ :=
    hcodec.reads _ (hcodec.puts now blob hmem)
  have hrun : (ReceiptCall.put now blob).call.result J db =
      .ok (db.put (tableSwapReceipts.name ++ key) data) := by
    refine except_bind_eq_ok_iff.mpr ⟨data, hdata, ?_⟩
    exact except_bind_eq_ok_iff.mpr ⟨key, hkey, rfl⟩
  have hnone : recordedCosts blob.id (past ++ [.put now blob]) = {} := by
    rw [recordedCosts_append]
    unfold recordedCosts
    rw [(h.absent blob.id hcanonical hfresh key hkey).2]
    rfl
  rw [run_of_ok _ hrun]
  refine h.write hcanonical hkey ?_ (fun _ _ => rfl) hread hencodes ?_ ?_
  · simp [ReceiptCall.putID?]
  · rw [hsend, hnone]
    exact costToCostBlob_empty.symm
  · rw [hreceive, hnone]
    exact costToCostBlob_empty.symm

/-- An update finds its receipt, and rewrites it with the costs that it records, or with those
    that were there. -/
theorem Recorded.update (h : Recorded J Encodes past db) {u : ReceiptUpdate}
    {costs : ContractCosts} (hproper : (ReceiptCall.update u costs).Proper past)
    (hcodec : KeepsCosts J.receipt Encodes calls) (hmem : .update u costs ∈ calls) :
    Recorded J Encodes (past ++ [.update u costs])
      ((ReceiptCall.update u costs).call.run J db) := by
  have hcanonical := h.canonical u.id hproper
  obtain ⟨key, hkey, -⟩ := hcanonical.decodeID
  obtain ⟨old, r, hget, hold, holdencodes, holdsend, holdreceive⟩ := h.held u.id hproper key hkey
  obtain ⟨data, r', hdata, hread, hencodes, hsend, hreceive⟩ :=
    hcodec.reads _ (hcodec.updates u costs hmem r holdencodes)
  have hrun : (ReceiptCall.update u costs).call.result J db =
      .ok (db.put (tableSwapReceipts.name ++ key) data) := by
    refine except_bind_eq_ok_iff.mpr ⟨key, hkey, ?_⟩
    refine except_bind_eq_ok_iff.mpr ⟨old, find_ok hget, ?_⟩
    refine except_bind_eq_ok_iff.mpr ⟨r, hold, ?_⟩
    exact except_bind_eq_ok_iff.mpr ⟨data, hdata, rfl⟩
  rw [run_of_ok _ hrun]
  have hothers : ∀ id' ≠ u.id, (ReceiptCall.update u costs).records? id' = none := by
    intro id' hne
    unfold ReceiptCall.records?
    split
    · rename_i heq
      cases heq
      exact if_neg hne.symm
    · rfl
  obtain ⟨uid, change⟩ := u
  refine h.write hcanonical hkey ?_ hothers hread hencodes ?_ ?_
  · intro id'
    have hputs : (past ++ [ReceiptCall.update ⟨uid, change⟩ costs]).filterMap ReceiptCall.putID? =
        past.filterMap ReceiptCall.putID? := by
      simp [ReceiptCall.putID?]
    rw [hputs]
    exact ⟨.inl, fun hor => hor.elim id (fun heq => heq ▸ hproper)⟩
  · rw [hsend, recordedCosts_append]
    cases change with
    | setStatus status => simp [ReceiptUpdate.update, ReceiptCall.records?]
    | _ => exact holdsend
  · rw [hreceive, recordedCosts_append]
    cases change with
    | setStatus status => simp [ReceiptUpdate.update, ReceiptCall.records?]
    | _ => exact holdreceive

end Steps

/-! ### Runs -/

/-- The store after a history. -/
def runReceipts (J : Codecs) (calls : List ReceiptCall) : Db :=
  runAll J (calls.map ReceiptCall.call)

theorem run_recorded {J : Codecs} {Encodes : SwapReceipt → Prop} {all : List ReceiptCall}
    (hcodec : KeepsCosts J.receipt Encodes all) {calls : List ReceiptCall}
    (hsubset : calls ⊆ all) (hproper : ProperHistory calls) :
    Recorded J Encodes calls (runReceipts J calls) := by
  induction calls using List.reverseRecOn with
  | nil => exact recorded_empty
  | append_singleton past call ih =>
      obtain ⟨hbefore, hcall⟩ := properHistory_concat.mp hproper
      have hpast : Recorded J Encodes past (runReceipts J past) :=
        ih (fun c hc => hsubset (List.mem_append_left _ hc)) hbefore
      have hnext : runReceipts J (past ++ [call]) = call.call.run J (runReceipts J past) := by
        simp [runReceipts, runAll]
      have hmem : call ∈ all := hsubset (by simp)
      rw [hnext]
      cases call with
      | put now blob => exact hpast.put hcall hcodec hmem
      | update u costs => exact hpast.update hcall hcodec hmem
      | other call => exact hpast.other hcall

/-- **Recorded costs survive a restart**: after every history, `LoadCosts` reads the costs
    that the last update of the immediate swapper recorded for the swap, none of them nil, and
    empty maps where there was none. -/
theorem loadCosts_eq {J : Codecs} {Encodes : SwapReceipt → Prop} {calls : List ReceiptCall}
    (hcodec : KeepsCosts J.receipt Encodes calls) (hproper : ProperHistory calls) {id : SwapID}
    (hid : Canonical id) :
    loadCosts J (runReceipts J calls) id =
      (notNil (recordedCosts id calls).native, notNil (recordedCosts id calls).foreign) := by
  have hrecorded := run_recorded hcodec (List.Subset.refl calls) hproper
  obtain ⟨key, hkey, -⟩ := hid.decodeID
  by_cases hput : id ∈ calls.filterMap ReceiptCall.putID?
  · obtain ⟨data, r, hget, hread, -, hsend, hreceive⟩ := hrecorded.held id hput key hkey
    have hreceipt : receipt J (runReceipts J calls) id = .ok r := by
      refine except_bind_eq_ok_iff.mpr ⟨key, hkey, ?_⟩
      exact except_bind_eq_ok_iff.mpr ⟨data, find_ok hget, hread⟩
    unfold loadCosts
    rw [hreceipt]
    dsimp only
    rw [hsend, hreceive, costBlobToCost_costToCostBlob, costBlobToCost_costToCostBlob]
  · obtain ⟨hget, hnone⟩ := hrecorded.absent id hid hput key hkey
    have hreceipt : receipt J (runReceipts J calls) id =
        .error (.errorf "leveldb: not found") := by
      unfold receipt getRecord
      rw [hkey]
      show (find (runReceipts J calls) tableSwapReceipts key >>= J.receipt.unmarshal) = _
      unfold find
      rw [hget]
      rfl
    unfold loadCosts
    rw [hreceipt]
    unfold recordedCosts
    rw [hnone]
    rfl

/-! ### A refunded swap -/

/-- Initiating cost a transaction fee, and refunding gives the broker fee back. -/
def initiateCosts : ContractCosts where
  native := Finmap.singleton "BTC" 10600

def refundCosts : ContractCosts where
  native := Finmap.singleton "BTC" (-600)

def lastUpdates : List (ReceiptUpdate × ContractCosts) :=
  [(⟨lastBlob.id, .setStatus .initiated⟩, initiateCosts),
    (⟨lastBlob.id, .setStatus .refunded⟩, refundCosts), (⟨lastBlob.id, .activate⟩, {})]

def lastHistory : List ReceiptCall :=
  .put 1549000000 lastBlob :: lastUpdates.map fun entry => .update entry.1 entry.2

def lastReceipt (costs : ContractCosts) (status : Status) : SwapReceipt :=
  (ReceiptUpdate.mk lastBlob.id (.setStatus status)).update costs
    (newSwapReceipt 1549000000 lastBlob)

/-- The receipt as JSON, with these costs and this status. -/
def lastReceiptText (sendCost status : String) : String :=
  "\x7b\"id\":\"//////////////////////////////////////////8=\",\"sendToken\":\"BTC\"," ++
  "\"receiveToken\":\"ETH\",\"sendAmount\":\"20000\",\"receiveAmount\":\"5000000000000000\"," ++
  "\"sendCost\":\x7b" ++ sendCost ++ "\x7d,\"receiveCost\":\x7b\x7d,\"timestamp\":1549000000," ++
  "\"timeLock\":1550000000,\"status\":" ++ status ++ ",\"delay\":false,\"active\":true\x7d"

/-- The receipts of that history, and their JSON. -/
def lastReceipts : List (SwapReceipt × Bytes) :=
  [(newSwapReceipt 1549000000 lastBlob, stringBytes (lastReceiptText "" "0")),
    (lastReceipt initiateCosts .initiated, stringBytes (lastReceiptText "\"BTC\":\"10600\"" "1")),
    (lastReceipt refundCosts .refunded, stringBytes (lastReceiptText "\"BTC\":\"-600\"" "7"))]

/-- The encoding of those receipts. -/
def costCodecs : Codecs where
  blob := lastCodecs.blob
  receipt := {
    marshal := fun r => match lastReceipts.find? (·.1 = r) with
      | some entry => .ok entry.2
      | none => .error (.errorf "not encoded here")
    unmarshal := fun data => match lastReceipts.find? (·.2 = data) with
      | some entry => .ok entry.1
      | none => .error (.errorf "not encoded here") }
  transfer := lastCodecs.transfer

theorem lastReceipts_roundTrip : ∀ entry ∈ lastReceipts,
    costCodecs.receipt.marshal entry.1 = .ok entry.2 ∧
      costCodecs.receipt.unmarshal entry.2 = .ok entry.1 := by
  decide +kernel

theorem lastReceipts_update : ∀ entry ∈ lastReceipts, ∀ u ∈ lastUpdates,
    u.1.update u.2 entry.1 ∈ lastReceipts.map Prod.fst := by
  decide +kernel

theorem lastHistory_keepsCosts : KeepsCosts costCodecs.receipt
    (· ∈ lastReceipts.map Prod.fst) lastHistory := by
  refine ⟨?_, ?_, ?_⟩
  · intro r hr
    obtain ⟨entry, hentry, rfl⟩ := List.mem_map.mp hr
    obtain ⟨hmarshal, hunmarshal⟩ := lastReceipts_roundTrip entry hentry
    exact ⟨entry.2, entry.1, hmarshal, hunmarshal, hr, rfl, rfl⟩
  · intro now blob hmem
    rcases List.mem_cons.mp hmem with heq | hupdate
    · cases heq
      exact List.mem_cons_self
    · obtain ⟨u, -, heq⟩ := List.mem_map.mp hupdate
      cases heq
  · intro u costs hmem r hr
    obtain ⟨entry, hentry, rfl⟩ := List.mem_map.mp hr
    rcases List.mem_cons.mp hmem with heq | hupdate
    · cases heq
    · obtain ⟨u', hu', heq⟩ := List.mem_map.mp hupdate
      cases heq
      exact lastReceipts_update entry hentry u' hu'

theorem lastHistory_proper : ProperHistory lastHistory := by
  have hfresh : (ReceiptCall.put 1549000000 lastBlob).Proper [] :=
    And.intro ⟨lastKey.1, by decide +kernel⟩ List.not_mem_nil
  exact properHistory_updates hfresh (by decide)

/-- The negative cost is read back. -/
theorem loadCosts_eq_refunded :
    loadCosts costCodecs (runReceipts costCodecs lastHistory) lastBlob.id =
      (notNil (recordedCosts lastBlob.id lastHistory).native,
        notNil (recordedCosts lastBlob.id lastHistory).foreign) ∧
      recordedCosts lastBlob.id lastHistory = refundCosts :=
  ⟨loadCosts_eq lastHistory_keepsCosts lastHistory_proper ⟨lastKey.1, by decide +kernel⟩,
    by decide +kernel⟩

end Storage

end Swapperd
