/-
  Swapperd/TransferHistory.lean
  =============================
  **Which transfers can be listed** (`PostTransfers` and `GetTransfers` of
  `adapter/server/handler.go`, `core/wallet/transfer`).

  A post names any supported token, and the transfers task sends it and stores a receipt
  under the hash of the transaction.  `GetTransfers` looks up every stored transfer of the
  user, and the lookup knows no ERC20 tokens: one such transfer, and the user's listing
  fails from then on (`transfers_listed_iff`).

  Left out: the `Bootload` that a handler writes first, which is no transfer.
-/
import Swapperd.HttpServer
import Swapperd.RecordViews
import Swapperd.StorageListing
import Swapperd.TransactionCosts

namespace Swapperd.Transfers

open GoLibrary Daemon Storage Statuses
open Costs (CostMaps CostRef transactionCost)
open Server (PostTransfersRequest)

/-! ### Posting and sending -/

/-- The cost is the map of the package. -/
structure TransferRequest where
  password : String
  token : Token
  toAddress : String
  amount : Int
  txCost : CostRef

/-- A post, and what it meets on its way. -/
structure Post where
  req : PostTransfersRequest
  wallet : Wallet
  verifyBalance : VerifyBalance
  /-- The costs when the post is checked, and when its receipt is built. -/
  maps : CostMaps
  sentMaps : CostMaps
  /-- What `receiver.Write` returns. -/
  write : TransferRequest → Except GoError Unit
  /-- `Transfer` of the wallet: the hash of the transaction. -/
  transfer : (password : String) → Token → (toAddress : String) → (amount : Int) →
    Except GoError String
  /-- What hashing the password ends in. -/
  generated : Except GoError Bytes
  now : Int

namespace Post

variable (p : Post)

/-- The request that the handler writes. -/
def postTransfers : Except GoError TransferRequest := do
  let token ← patchToken p.req.token
  p.wallet.verifyAddress token.blockchain p.req.toAddress
  match setString p.req.amount with
  | none => .error (.errorf ("invalid amount " ++ p.req.amount))
  | some amount =>
      p.verifyBalance p.req.password token (some amount)
      let (_, txCost) := transactionCost p.maps token amount
      let msg : TransferRequest := ⟨p.req.password, token, p.req.toAddress, amount, txCost⟩
      p.write msg
      return msg

/-- An error of bcrypt is ignored. -/
def buildReceipt (req : TransferRequest) (fromAddress txHash : String) : TransferReceipt where
  confirmations := 0
  timestamp := p.now
  passwordHash := encodeToString (p.generated.toOption.getD [])
  toAddress := req.toAddress
  fromAddress := fromAddress
  token := req.token
  amount := toString req.amount
  txCost := costToCostBlob (p.sentMaps.read req.txCost)
  txHash := txHash

/-- The receipt of a transfer that was sent. -/
def sendTransfer (msg : TransferRequest) : Except GoError TransferReceipt := do
  let fromAddress ← p.wallet.getAddress msg.password msg.token.blockchain
  let txHash ← p.transfer msg.password msg.token msg.toAddress msg.amount
  return p.buildReceipt msg fromAddress txHash

def handleTransferRequest (J : Codecs) (db : Db) (msg : TransferRequest) : Except GoError Db := do
  let receipt ← p.sendTransfer msg
  putTransfer J db receipt

/-- The store after a post. -/
def run (J : Codecs) (db : Db) : Db :=
  match p.postTransfers >>= p.handleTransferRequest J db with
  | .ok db' => db'
  | .error _ => db

/-- The receipt of a post that is accepted and sent, if it has a key. -/
def stored? : Option (String × TransferReceipt) :=
  match p.postTransfers >>= p.sendTransfer with
  | .ok receipt =>
      if (txHashToBytes receipt.txHash).toOption.isSome then some (p.req.password, receipt)
      else none
  | .error _ => none

end Post

/-- The transfers that a history stores, each with the password that posted it. -/
def storedTransfers (posts : List Post) : List (String × TransferReceipt) :=
  posts.filterMap Post.stored?

def runPosts (J : Codecs) (posts : List Post) : Db :=
  posts.foldl (fun db p => p.run J db) OrderedStore.empty

/-! ### What a listing should say -/

/-- The confirmations that the client of the blockchain reports. -/
def confirmed (confirmations : BlockchainName → String → Except GoError Int)
    (receipt : TransferReceipt) : TransferReceipt :=
  { receipt with
    confirmations :=
      ((confirmations receipt.token.blockchain receipt.txHash).toOption).getD 0 }

/-- The entry of a transfer: its details, without the hash. -/
def entry (confirmations : BlockchainName → String → Except GoError Int)
    (receipt : TransferReceipt) : TransferReceipt :=
  { confirmed confirmations receipt with passwordHash := "" }

/-- `GetTransfers` succeeds, and has one entry for each of these transfers. -/
def ShowsAll (J : Codecs) (D : Config)
    (confirmations : BlockchainName → String → Except GoError Int) (password : String) (db : Db)
    (own : List TransferReceipt) : Prop :=
  ∀ answer, TransfersAnswer J D password confirmations db answer →
    ∃ shown, answer = .ok shown ∧ shown.Perm (own.map (entry confirmations))

/-- The stored transfers that a password is good for. -/
def ownTransfers (D : Config) (password : String) (stored : List (String × TransferReceipt)) :
    List TransferReceipt :=
  (stored.map Prod.snd).filter fun receipt => fits D password receipt.passwordHash

/-- A user's transfers are among those that the password is good for, and these are shown. -/
structure ListsTransfers (J : Codecs) (D : Config)
    (confirmations : BlockchainName → String → Except GoError Int) (posts : List Post)
    (password : String) : Prop where
  posted : ∀ s ∈ storedTransfers posts, s.1 = password →
    s.2 ∈ ownTransfers D password (storedTransfers posts)
  shown : ShowsAll J D confirmations password (runPosts J posts)
    (ownTransfers D password (storedTransfers posts))

/-- What is relied on of JSON, of bcrypt and of the clients of the blockchains. -/
structure Relies (J : Codecs) (D : Config)
    (confirmations : BlockchainName → String → Except GoError Int) (posts : List Post) : Prop where
  json : ∀ s ∈ storedTransfers posts, J.transfer.RoundTrips s.2
  /-- A hash compares equal with the password that was hashed. -/
  bcrypt : ∀ p ∈ posts, ∀ hash, p.generated = .ok hash →
    D.compareHashAndPassword hash p.req.password = true
  /-- No two transactions have one hash. -/
  fresh : ((storedTransfers posts).map fun s => txHashToBytes s.2.txHash).Nodup
  /-- The clients can answer. -/
  clients : ∀ s ∈ storedTransfers posts, ∃ n,
    confirmations s.2.token.blockchain s.2.txHash = .ok n

/-! ### What is stored -/

section Stored

variable {J : Codecs} {stored : List TransferReceipt}

theorem txHashToBytes_length {txHash : String} {bytes : Bytes}
    (h : txHashToBytes txHash = .ok bytes) : bytes.length = 32 := by
  unfold txHashToBytes at h
  split at h
  · cases h
  · split at h
    · cases h
    · rename_i hlen
      cases h
      exact not_not.mp hlen

/-- A receipt without a key is not put. -/
theorem putTransfer_error {db : Db} {receipt : TransferReceipt}
    (h : (txHashToBytes receipt.txHash).toOption = none) :
    ∃ err, putTransfer J db receipt = .error err := by
  unfold putTransfer putRecord
  cases hkey : txHashToBytes receipt.txHash with
  | ok key =>
      rw [hkey] at h
      cases h
  | error err =>
      cases hdata : J.transfer.marshal receipt with
      | error err => exact ⟨err, rfl⟩
      | ok data => exact ⟨err, rfl⟩

/-- A post does to the store what putting its receipt does. -/
theorem Post.run_eq (p : Post) (db : Db) :
    p.run J db = match p.stored? with
      | some s => (StorageCall.putTransfer s.2).run J db
      | none => db := by
  have hassoc : p.postTransfers >>= p.handleTransferRequest J db =
      (p.postTransfers >>= p.sendTransfer) >>= putTransfer J db := by
    rw [bind_assoc]
    rfl
  unfold Post.run Post.stored?
  rw [hassoc]
  cases p.postTransfers >>= p.sendTransfer with
  | error err => rfl
  | ok receipt =>
      change (match putTransfer J db receipt with
        | .ok db' => db'
        | .error _ => db) = _
      dsimp only
      split_ifs with hkey
      · rfl
      · rcases putTransfer_error (Option.not_isSome_iff_eq_none.mp hkey) with ⟨err, herr⟩
        rw [herr]

theorem runPosts_eq (posts : List Post) :
    runPosts J posts =
      runAll J ((storedTransfers posts).map fun s => .putTransfer s.2) := by
  induction posts using List.reverseRecOn with
  | nil => rfl
  | append_singleton posts p ih =>
      have hrun : runPosts J (posts ++ [p]) = p.run J (runPosts J posts) := by
        simp [runPosts]
      rw [hrun, ih, p.run_eq]
      unfold storedTransfers runAll
      rw [List.filterMap_append]
      cases hstored : p.stored? with
      | none => simp [hstored]
      | some s => simp [hstored]

/-- A table of transfers with different keys. -/
theorem written_transfers (stored : List TransferReceipt)
    (hkeys : ∀ r ∈ stored, ∃ key : Bytes32, txHashToBytes r.txHash = .ok key.1)
    (hfresh : (stored.map fun r => txHashToBytes r.txHash).Nodup) (key : Bytes32)
    (r : TransferReceipt) :
    (written (stored.map .putTransfer)).transfers key = some r ↔
      r ∈ stored ∧ txHashToBytes r.txHash = .ok key.1 := by
  induction stored using List.reverseRecOn with
  | nil => simp [written]
  | append_singleton stored last ih =>
      rw [List.map_append] at hfresh
      obtain ⟨hstored, -, hdisjoint⟩ := List.nodup_append.mp hfresh
      have hold := ih (fun r hr => hkeys r (by simp [hr])) hstored
      rcases hkeys last (by simp) with ⟨lastKey, hlast⟩
      have hwritten : written ((stored ++ [last]).map .putTransfer) =
          StorageCall.applyAt (written (stored.map .putTransfer)) lastKey (.putTransfer last) := by
        unfold written
        rw [List.map_append, List.foldl_append]
        have hkey32 : (StorageCall.putTransfer last).key32 = some lastKey :=
          key32_eq_some_iff.mpr hlast
        show StorageCall.apply _ (.putTransfer last) = _
        unfold StorageCall.apply
        rw [hkey32]
      rw [hwritten]
      simp only [StorageCall.applyAt, Function.update_apply]
      by_cases hkey : key = lastKey
      · rw [if_pos hkey, hkey]
        constructor
        · intro heq
          obtain rfl := Option.some.inj heq
          exact ⟨by simp, hlast⟩
        · rintro ⟨hr, hrkey⟩
          rcases List.mem_append.mp hr with hr | hr
          · exact absurd (hrkey.trans hlast.symm)
              (hdisjoint _ (List.mem_map_of_mem hr) _ (by simp))
          · rw [List.mem_singleton.mp hr]
      · rw [if_neg hkey, hold, List.mem_append, List.mem_singleton]
        constructor
        · rintro ⟨hr, hrkey⟩
          exact ⟨.inl hr, hrkey⟩
        · rintro ⟨hr | rfl, hrkey⟩
          · exact ⟨hr, hrkey⟩
          · rw [hlast] at hrkey
            exact absurd (Subtype.ext (Except.ok.inj hrkey)).symm hkey

/-- A listing reads every transfer but the one whose hash is the greatest key. -/
theorem transfers_runAll (hkeys : ∀ r ∈ stored, ∃ key : Bytes32, txHashToBytes r.txHash = .ok key.1)
    (hfresh : (stored.map fun r => txHashToBytes r.txHash).Nodup)
    (hround : ∀ r ∈ stored, J.transfer.RoundTrips r) :
    ∃ list, transfers J (runAll J (stored.map .putTransfer)) = (list, none) ∧ list.Nodup ∧
      ∀ r, r ∈ list ↔ r ∈ stored ∧ txHashToBytes r.txHash ≠ .ok lastKey.1 := by
  have hrefines : Refines J (runAll J (stored.map .putTransfer)) (written (stored.map .putTransfer)) := by
    apply refines_run
    · intro call hcall
      rcases List.mem_map.mp hcall with ⟨r, hr, rfl⟩
      exact hkeys r hr
    · intro call hcall
      rcases List.mem_map.mp hcall with ⟨r, hr, rfl⟩
      exact hround r hr
  have hwritten := written_transfers stored hkeys hfresh
  rcases listRecords_eq hrefines.keyed transfers_mem hrefines.transfers with
    ⟨keys, hnodup, hmem, hlist⟩
  refine ⟨_, hlist, ?_, ?_⟩
  · refine hnodup.filterMap ?_
    intro key key' r hr hr'
    have hkey := ((hwritten key r).mp hr).2
    exact Subtype.ext (Except.ok.inj (hkey.symm.trans ((hwritten key' r).mp hr').2))
  · intro r
    rw [List.mem_filterMap]
    constructor
    · rintro ⟨key, hkey, hr⟩
      rcases (hwritten key r).mp hr with ⟨hstored, hrkey⟩
      refine ⟨hstored, ?_⟩
      rw [hrkey]
      exact fun heq => ((hmem key).mp hkey).1 (Subtype.ext (Except.ok.inj heq))
    · rintro ⟨hstored, hne⟩
      rcases hkeys r hstored with ⟨key, hkey⟩
      have hr := (hwritten key r).mpr ⟨hstored, hkey⟩
      refine ⟨key, (hmem key).mpr ⟨?_, by rw [hr]; rfl⟩, hr⟩
      rintro rfl
      exact hne hkey

end Stored

/-! ### What is shown -/

section Shown

variable {J : Codecs} {D : Config} {password : String} {db : Db}
  {confirmations : BlockchainName → String → Except GoError Int} {list : List TransferReceipt}
  {m : TransferReceiptMap}

theorem lookupTransfer_eq {r : TransferReceipt} (hchain : r.token.blockchain ≠ .erc20)
    (hclient : ∃ n, confirmations r.token.blockchain r.txHash = .ok n) :
    lookupTransfer confirmations r = .ok (confirmed confirmations r) := by
  rcases hclient with ⟨n, hn⟩
  unfold lookupTransfer lookup confirmed
  cases hblockchain : r.token.blockchain with
  | erc20 => exact absurd hblockchain hchain
  | _ =>
      rw [hblockchain] at hn
      rw [hn]
      rfl

/-- When every lookup succeeds, the map has the transfers that the password is good for. -/
theorem collectTransfers_eq (hread : ∀ r ∈ list, ¬ Corrupt r.passwordHash)
    (hlookup : ∀ r ∈ list, fits D password r.passwordHash = true →
      lookupTransfer confirmations r = .ok (confirmed confirmations r)) :
    collectTransfers D confirmations password list m =
      .ok ((list.filter fun r => fits D password r.passwordHash).foldl
        (fun m r => m.insert r.txHash (confirmed confirmations r)) m) := by
  induction list generalizing m with
  | nil => rfl
  | cons r list ih =>
      have hrest := fun m => @ih m (fun r' hr' => hread r' (List.mem_cons_of_mem _ hr'))
        (fun r' hr' => hlookup r' (List.mem_cons_of_mem _ hr'))
      rw [collectTransfers, showTransfer_eq (hread r List.mem_cons_self)]
      by_cases hfits : fits D password r.passwordHash = true
      · rw [if_pos hfits, hlookup r List.mem_cons_self hfits,
          List.filter_cons_of_pos (by simpa using hfits), List.foldl_cons]
        exact hrest _
      · rw [if_neg hfits, List.filter_cons_of_neg (by simpa using hfits)]
        exact hrest m

/-- One transfer of an ERC20 token, and there is no map. -/
theorem collectTransfers_erc20 (confirmations : BlockchainName → String → Except GoError Int)
    (m : TransferReceiptMap) (hread : ∀ r ∈ list, ¬ Corrupt r.passwordHash)
    {r : TransferReceipt} (hr : r ∈ list) (hfits : fits D password r.passwordHash = true)
    (hchain : r.token.blockchain = .erc20) :
    ∃ err, collectTransfers D confirmations password list m = .error err := by
  induction list generalizing m with
  | nil => cases hr
  | cons first list ih =>
      rw [collectTransfers, showTransfer_eq (hread first List.mem_cons_self)]
      rcases List.mem_cons.mp hr with rfl | hr
      · have hlookup : lookupTransfer confirmations r = .error (lookupFailed r) := by
          unfold lookupTransfer lookup
          rw [hchain]
        rw [if_pos hfits, hlookup]
        exact ⟨_, rfl⟩
      · have hrest := fun m => @ih m (fun r' hr' => hread r' (List.mem_cons_of_mem _ hr')) hr
        split_ifs
        · cases lookupTransfer confirmations first with
          | error err => exact ⟨err, rfl⟩
          | ok shown => exact hrest _
        · exact hrest m

/-- The map of these transfers. -/
def transferMap (confirmations : BlockchainName → String → Except GoError Int)
    (list : List TransferReceipt) : TransferReceiptMap :=
  list.foldl (fun m r => m.insert r.txHash (confirmed confirmations r)) ∅

/-- Under the hash of each there is its receipt. -/
theorem lookup_transferMap (confirmations : BlockchainName → String → Except GoError Int)
    (hnodup : (list.map TransferReceipt.txHash).Nodup) (txHash : String)
    (shown : TransferReceipt) : (transferMap confirmations list).lookup txHash = some shown ↔
      ∃ r ∈ list, r.txHash = txHash ∧ confirmed confirmations r = shown := by
  induction list using List.reverseRecOn with
  | nil => simp [transferMap]
  | append_singleton list last ih =>
      rw [List.map_append] at hnodup
      obtain ⟨hlist, -, hdisjoint⟩ := List.nodup_append.mp hnodup
      have hmap : transferMap confirmations (list ++ [last]) =
          (transferMap confirmations list).insert last.txHash (confirmed confirmations last) := by
        simp [transferMap]
      rw [hmap]
      by_cases hkey : txHash = last.txHash
      · rw [hkey, Finmap.lookup_insert]
        constructor
        · intro heq
          exact ⟨last, by simp, rfl, Option.some.inj heq⟩
        · rintro ⟨r, hr, hrkey, rfl⟩
          rcases List.mem_append.mp hr with hr | hr
          · exact absurd hrkey (hdisjoint _ (List.mem_map_of_mem hr) _ (by simp))
          · rw [List.mem_singleton.mp hr]
      · rw [Finmap.lookup_insert_of_ne _ hkey, ih hlist]
        constructor
        · rintro ⟨r, hr, h⟩
          exact ⟨r, List.mem_append_left _ hr, h⟩
        · rintro ⟨r, hr, hrkey, heq⟩
          rcases List.mem_append.mp hr with hr | hr
          · exact ⟨r, hr, hrkey, heq⟩
          · rw [List.mem_singleton.mp hr] at hrkey
            exact absurd hrkey.symm hkey

/-- Whatever the order in which it is visited, the map shows each of them once. -/
theorem marshal_perm (hnodup : (list.map TransferReceipt.txHash).Nodup) {order : List String}
    (hvisits : OrderOf (transferMap confirmations list) order) :
    (marshalGetTransfersResponse (transferMap confirmations list) order).Perm
      (list.map (entry confirmations)) := by
  have hlookup := lookup_transferMap confirmations hnodup
  have horder : order.Perm (list.map TransferReceipt.txHash) := by
    refine (List.perm_ext_iff_of_nodup hvisits.1 hnodup).mpr fun txHash => ?_
    rw [hvisits.2, ← Finmap.lookup_isSome, Option.isSome_iff_exists, List.mem_map]
    constructor
    · rintro ⟨shown, hshown⟩
      rcases (hlookup txHash shown).mp hshown with ⟨r, hr, hkey, -⟩
      exact ⟨r, hr, hkey⟩
    · rintro ⟨r, hr, hkey⟩
      exact ⟨_, (hlookup txHash _).mpr ⟨r, hr, hkey, rfl⟩⟩
  have hfound : ∀ r ∈ list, (transferMap confirmations list).lookup r.txHash =
      some (confirmed confirmations r) :=
    fun r hr => (hlookup _ _).mpr ⟨r, hr, rfl, rfl⟩
  have hshown : (list.map TransferReceipt.txHash).filterMap (transferMap confirmations list).lookup =
      list.map (confirmed confirmations) := by
    rw [List.filterMap_map, ← List.filterMap_eq_map]
    exact List.filterMap_congr hfound
  have hperm := (horder.filterMap (transferMap confirmations list).lookup).map
    fun r : TransferReceipt => { r with passwordHash := "" }
  rw [hshown, List.map_map] at hperm
  exact hperm

/-- What is answered from a listing whose lookups all succeed. -/
theorem answers_iff (D : Config) (password : String) (hlist : transfers J db = (list, none))
    (hread : ∀ r ∈ list, ¬ Corrupt r.passwordHash)
    (hlookup : ∀ r ∈ list, fits D password r.passwordHash = true →
      lookupTransfer confirmations r = .ok (confirmed confirmations r))
    (answer : Except GoError (List TransferReceipt)) :
    TransfersAnswer J D password confirmations db answer ↔
      ∃ order, OrderOf (transferMap confirmations
          (list.filter fun r => fits D password r.passwordHash)) order ∧
        answer = .ok (marshalGetTransfersResponse (transferMap confirmations
          (list.filter fun r => fits D password r.passwordHash)) order) := by
  rw [transfersAnswer_iff hlist (collectTransfers_eq hread hlookup)]
  constructor
  · rintro ⟨order, hvisits, rfl⟩
    exact ⟨order, hvisits _ rfl, rfl⟩
  · rintro ⟨order, hvisits, rfl⟩
    refine ⟨order, ?_, rfl⟩
    intro receiptMap heq
    obtain rfl := Except.ok.inj heq
    exact hvisits

/-- **All transfers are shown exactly when** none is of an ERC20 token, and none has the
    greatest key. -/
theorem showsAll_iff {stored : List TransferReceipt}
    (hkeys : ∀ r ∈ stored, ∃ key : Bytes32, txHashToBytes r.txHash = .ok key.1)
    (hfresh : (stored.map fun r => txHashToBytes r.txHash).Nodup)
    (hround : ∀ r ∈ stored, J.transfer.RoundTrips r)
    (hread : ∀ r ∈ stored, ¬ Corrupt r.passwordHash)
    (hclients : ∀ r ∈ stored, ∃ n, confirmations r.token.blockchain r.txHash = .ok n) :
    ShowsAll J D confirmations password (runAll J (stored.map .putTransfer))
        (stored.filter fun r => fits D password r.passwordHash) ↔
      ∀ r ∈ stored, fits D password r.passwordHash = true →
        r.token.blockchain ≠ .erc20 ∧ txHashToBytes r.txHash ≠ .ok lastKey.1 := by
  rcases transfers_runAll hkeys hfresh hround with ⟨list, hlist, hnodup, hmem⟩
  have hstored : ∀ r ∈ list, r ∈ stored := fun r hr => ((hmem r).mp hr).1
  have hhashes : ∀ r ∈ stored, ∀ r' ∈ stored, r.txHash = r'.txHash → r = r' := by
    intro r hr r' hr' heq
    exact List.inj_on_of_nodup_map hfresh hr hr' (congrArg txHashToBytes heq)
  have hown : ((list.filter fun r => fits D password r.passwordHash).map
      TransferReceipt.txHash).Nodup := by
    refine List.Nodup.map_on ?_ (hnodup.filter _)
    intro r hr r' hr' heq
    exact hhashes r (hstored r (List.mem_filter.mp hr).1) r' (hstored r' (List.mem_filter.mp hr').1)
      heq
  have hanswers (hchains : ∀ r ∈ list, fits D password r.passwordHash = true →
      r.token.blockchain ≠ .erc20) :=
    answers_iff D password hlist (fun r hr => hread r (hstored r hr))
      fun r hr hfits => lookupTransfer_eq (hchains r hr hfits) (hclients r (hstored r hr))
  constructor
  · intro h r hr hfits
    have hchains : ∀ r ∈ list, fits D password r.passwordHash = true →
        r.token.blockchain ≠ .erc20 := by
      intro r hr hfits hchain
      rcases collectTransfers_erc20 confirmations ∅
        (fun r hr => hread r (hstored r hr)) hr hfits hchain with ⟨err, herr⟩
      rcases h _ ((transfersAnswer_error hlist herr _).mpr rfl) with ⟨shown, heq, -⟩
      cases heq
    -- the entry of the transfer is that of one which was read
    rcases exists_orderOf (transferMap confirmations
      (list.filter fun r => fits D password r.passwordHash)) with ⟨order, hvisits⟩
    rcases h _ ((hanswers hchains _).mpr ⟨order, hvisits, rfl⟩) with ⟨shown, heq, hshown⟩
    obtain rfl := Except.ok.inj heq
    have hentry : entry confirmations r ∈ _ :=
      hshown.mem_iff.mpr (List.mem_map_of_mem (List.mem_filter.mpr ⟨hr, hfits⟩))
    rcases List.mem_map.mp ((marshal_perm hown hvisits).mem_iff.mp hentry) with ⟨r', hr', heq⟩
    have hr' : r' ∈ list := (List.mem_filter.mp hr').1
    have htxHash : (entry confirmations r').txHash = (entry confirmations r).txHash :=
      congrArg TransferReceipt.txHash heq
    obtain rfl := hhashes r' (hstored r' hr') r hr htxHash
    exact ⟨hchains r' hr' hfits, ((hmem r').mp hr').2⟩
  · intro h answer hanswer
    have hchains : ∀ r ∈ list, fits D password r.passwordHash = true →
        r.token.blockchain ≠ .erc20 := fun r hr hfits => (h r (hstored r hr) hfits).1
    rcases (hanswers hchains answer).mp hanswer with ⟨order, hvisits, rfl⟩
    refine ⟨_, rfl, (marshal_perm hown hvisits).trans (List.Perm.map _ ?_)⟩
    refine (List.perm_ext_iff_of_nodup (hnodup.filter _) (hfresh.of_map.filter _)).mpr fun r => ?_
    rw [List.mem_filter, List.mem_filter, hmem]
    constructor
    · rintro ⟨⟨hr, -⟩, hfits⟩
      exact ⟨hr, hfits⟩
    · rintro ⟨hr, hfits⟩
      exact ⟨⟨hr, (h r hr hfits).2⟩, hfits⟩

end Shown

/-! ### Histories -/

section Histories

variable {J : Codecs} {D : Config} {posts : List Post}
  {confirmations : BlockchainName → String → Except GoError Int}

theorem not_corrupt_encodeToString (hash : Bytes) : ¬ Corrupt (encodeToString hash) := by
  rintro ⟨-, hnone⟩
  rw [decodeString_encodeToString] at hnone
  cases hnone

/-- The password that posted a transfer is good for it, also when hashing failed. -/
theorem fits_generated {generated : Except GoError Bytes} {password : String}
    (h : ∀ hash, generated = .ok hash → D.compareHashAndPassword hash password = true) :
    fits D password (encodeToString (generated.toOption.getD [])) = true := by
  unfold fits
  rw [decodeString_encodeToString]
  cases generated with
  | error err => rfl
  | ok hash => simp [Except.toOption, h hash rfl]

/-- Where a stored transfer comes from. -/
theorem mem_storedTransfers {s : String × TransferReceipt} (h : s ∈ storedTransfers posts) :
    ∃ p ∈ posts, s.1 = p.req.password ∧
      s.2.passwordHash = encodeToString (p.generated.toOption.getD []) ∧
      ∃ key : Bytes32, txHashToBytes s.2.txHash = .ok key.1 := by
  rcases List.mem_filterMap.mp h with ⟨p, hp, hstored⟩
  unfold Post.stored? at hstored
  split at hstored
  · rename_i receipt hreceipt
    split_ifs at hstored with hkey
    cases hstored
    rcases except_bind_eq_ok_iff.mp hreceipt with ⟨msg, -, hsent⟩
    rcases except_bind_eq_ok_iff.mp hsent with ⟨fromAddress, -, hsent⟩
    rcases except_bind_eq_ok_iff.mp hsent with ⟨txHash, -, hsent⟩
    cases hsent
    refine ⟨p, hp, rfl, rfl, ?_⟩
    cases hbytes : txHashToBytes txHash with
    | error err =>
        change (txHashToBytes txHash).toOption.isSome = true at hkey
        rw [hbytes] at hkey
        cases hkey
    | ok bytes => exact ⟨⟨bytes, txHashToBytes_length hbytes⟩, hbytes⟩
  · cases hstored

/-- **The transfers of a user are listed exactly when** none of them is of an ERC20 token,
    and none has the greatest key. -/
theorem transfers_listed_iff (h : Relies J D confirmations posts) (password : String) :
    ListsTransfers J D confirmations posts password ↔
      ∀ receipt ∈ ownTransfers D password (storedTransfers posts),
        receipt.token.blockchain ≠ .erc20 ∧ txHashToBytes receipt.txHash ≠ .ok lastKey.1 := by
  have hstored : ∀ r ∈ (storedTransfers posts).map Prod.snd, ∃ s ∈ storedTransfers posts, s.2 = r :=
    fun r hr => List.mem_map.mp hr
  have hposted : ∀ s ∈ storedTransfers posts, s.1 = password →
      s.2 ∈ ownTransfers D password (storedTransfers posts) := by
    intro s hs hpassword
    refine List.mem_filter.mpr ⟨List.mem_map_of_mem hs, ?_⟩
    rcases mem_storedTransfers hs with ⟨p, hp, hreq, hhash, -⟩
    rw [hhash, ← hpassword, hreq]
    exact fits_generated (h.bcrypt p hp)
  have hshows : ShowsAll J D confirmations password (runPosts J posts)
        (ownTransfers D password (storedTransfers posts)) ↔
      ∀ r ∈ (storedTransfers posts).map Prod.snd, fits D password r.passwordHash = true →
        r.token.blockchain ≠ .erc20 ∧ txHashToBytes r.txHash ≠ .ok lastKey.1 := by
    have hruns : (storedTransfers posts).map (fun s => StorageCall.putTransfer s.2) =
        ((storedTransfers posts).map Prod.snd).map .putTransfer := by
      rw [List.map_map]
      rfl
    rw [runPosts_eq, hruns]
    refine showsAll_iff ?_ ?_ ?_ ?_ ?_
    · intro r hr
      rcases hstored r hr with ⟨s, hs, rfl⟩
      rcases mem_storedTransfers hs with ⟨_, -, -, -, hkey⟩
      exact hkey
    · rw [List.map_map]
      exact h.fresh
    · intro r hr
      rcases hstored r hr with ⟨s, hs, rfl⟩
      exact h.json s hs
    · intro r hr
      rcases hstored r hr with ⟨s, hs, rfl⟩
      rcases mem_storedTransfers hs with ⟨p, -, -, hhash, -⟩
      rw [hhash]
      exact not_corrupt_encodeToString _
    · intro r hr
      rcases hstored r hr with ⟨s, hs, rfl⟩
      exact h.clients s hs
  constructor
  · intro hlists receipt hown
    rcases List.mem_filter.mp hown with ⟨hr, hfits⟩
    exact hshows.mp hlists.shown receipt hr hfits
  · intro hall
    refine ⟨hposted, hshows.mpr ?_⟩
    intro r hr hfits
    exact hall r (List.mem_filter.mpr ⟨hr, hfits⟩)

end Histories

/-! ### A transfer of an ERC20 token -/

/-- Alice sends wrapped Bitcoin. -/
def wbtcPost : Post where
  req := ⟨"WBTC", "0x9b9a3e7c6aD1a8b7B4b5E3f1F2b8bC0f51b3C0A2", "20000", "alice"⟩
  wallet := Builder.sampleWallet "mfkvQyDzw2kh6QgFMdRoPr2yBbgqMGNXdR"
    "0x52bc44d5378309ee2abf1539bf71de1b7d7be3b5"
  verifyBalance _ _ _ := .ok ()
  maps := .fresh
  sentMaps := .fresh
  write _ := .ok ()
  transfer _ _ _ _ := .ok "0x5c504ed432cb51138bcf09aa5e8a410dd4a1e204ef84bfed1be16dfba1b22060"
  generated := .ok (plainHash "alice")
  now := 1550000000

def wbtcReceipt : TransferReceipt where
  timestamp := 1550000000
  passwordHash := "JGFsaWNl"
  toAddress := "0x9b9a3e7c6aD1a8b7B4b5E3f1F2b8bC0f51b3C0A2"
  fromAddress := "0x52bc44d5378309ee2abf1539bf71de1b7d7be3b5"
  token := tokenWBTC
  amount := "20000"
  txCost := Finmap.singleton "ETH" "12000000000000000"
  txHash := "0x5c504ed432cb51138bcf09aa5e8a410dd4a1e204ef84bfed1be16dfba1b22060"

def wbtcText : String :=
  "\x7b\"confirmations\":0,\"timestamp\":1550000000,\"passwordHash\":\"JGFsaWNl\"," ++
  "\"to\":\"0x9b9a3e7c6aD1a8b7B4b5E3f1F2b8bC0f51b3C0A2\"," ++
  "\"from\":\"0x52bc44d5378309ee2abf1539bf71de1b7d7be3b5\"," ++
  "\"token\":\x7b\"name\":\"WBTC\",\"decimals\":8,\"blockchain\":\"erc20\"\x7d," ++
  "\"value\":\"20000\",\"txCost\":\x7b\"ETH\":\"12000000000000000\"\x7d," ++
  "\"txHash\":\"0x5c504ed432cb51138bcf09aa5e8a410dd4a1e204ef84bfed1be16dfba1b22060\"\x7d"

/-- The encoding of that receipt. -/
def wbtcCodecs : Codecs where
  blob := lastCodecs.blob
  receipt := lastCodecs.receipt
  transfer := {
    marshal := fun receipt =>
      if receipt = wbtcReceipt then .ok (stringBytes wbtcText)
      else .error (.errorf "not encoded here")
    unmarshal := fun data =>
      if data = stringBytes wbtcText then .ok wbtcReceipt
      else .error (.errorf "not encoded here") }

theorem wbtc_stored : storedTransfers [wbtcPost] = [("alice", wbtcReceipt)] := by
  decide +kernel

theorem wbtc_relies : Relies wbtcCodecs ownerConfig unconfirmed [wbtcPost] := by
  refine ⟨?_, ?_, ?_, ?_⟩
  · rw [wbtc_stored]
    intro s hs
    rw [List.mem_singleton.mp hs]
    exact ⟨stringBytes wbtcText, by simp [wbtcCodecs], by simp [wbtcCodecs]⟩
  · intro p hp hash hgenerated
    obtain rfl := List.mem_singleton.mp hp
    obtain rfl := Except.ok.inj hgenerated
    decide
  · rw [wbtc_stored]
    exact List.nodup_singleton _
  · intro s _
    exact ⟨0, rfl⟩

theorem transfers_listed_iff_wbtc :
    ListsTransfers wbtcCodecs ownerConfig unconfirmed [wbtcPost] "alice" ↔
      ∀ receipt ∈ ownTransfers ownerConfig "alice" (storedTransfers [wbtcPost]),
        receipt.token.blockchain ≠ .erc20 ∧ txHashToBytes receipt.txHash ≠ .ok lastKey.1 :=
  transfers_listed_iff wbtc_relies "alice"

/-- The transfer is stored, and Alice's listing fails. -/
theorem wbtc_not_listed :
    storedTransfers [wbtcPost] = [("alice", wbtcReceipt)] ∧
      Relies wbtcCodecs ownerConfig unconfirmed [wbtcPost] ∧
      (∀ answer, TransfersAnswer wbtcCodecs ownerConfig "alice" unconfirmed
          (runPosts wbtcCodecs [wbtcPost]) answer ↔ answer = .error (lookupFailed wbtcReceipt)) ∧
      ¬ ListsTransfers wbtcCodecs ownerConfig unconfirmed [wbtcPost] "alice" := by
  have hlist : transfers wbtcCodecs (runPosts wbtcCodecs [wbtcPost]) = ([wbtcReceipt], none) := by
    decide +kernel
  have hmap : getTransferMap ownerConfig unconfirmed "alice" (listed ([wbtcReceipt], none)) =
      .error (lookupFailed wbtcReceipt) := by
    decide +kernel
  have hanswers := transfersAnswer_error hlist hmap
  refine ⟨wbtc_stored, wbtc_relies, hanswers, ?_⟩
  intro h
  rcases h.shown _ ((hanswers _).mpr rfl) with ⟨shown, heq, -⟩
  cases heq

end Swapperd.Transfers
