/-
  Swapperd/RecordViews.lean
  =========================
  **What a user's queries say of the records of others** (`GetSwaps`, `GetSwap` and
  `GetTransfers` in `adapter/server/handler.go`).

  A stored record is a user's own when it has no password hash or one that fits the user's
  password.  A query is private when it answers as if the own records were all there is,
  and shows no hash:

  * `GetSwaps` and `GetTransfers` pass over what is not the user's, and fail on a record
    that they cannot read (`swaps_private_iff`, `transfers_private_iff`);
  * `GetSwap` does not look at passwords (`swap_private_iff`).
-/
import Swapperd.DaemonOwners
import Swapperd.ReceiptQueries
import Swapperd.Storage

namespace Swapperd.Statuses

open RetryTask GoLibrary Daemon Storage

/-! ### The handlers -/

/-- The handlers return the error of a listing. -/
def listed {α : Type} (listing : List α × Option GoError) : Except GoError (List α) :=
  match listing with
  | (records, none) => .ok records
  | (_, some err) => .error err

def swapNotFound : GoError := .errorf "swap receipt not found"

/-- `GetSwap` has no use for the password. -/
def getSwap (_password : String) (stored : Except GoError (List SwapReceipt)) (id : SwapID) :
    Except GoError SwapReceipt := do
  let receipts ← getSwapReceipts stored
  match receipts.lookup id with
  | none => .error swapNotFound
  | some receipt => .ok receipt

abbrev TransferReceiptMap := Store String TransferReceipt

/-- `Lookup` of the wallet, and the update that it returns: the confirmations are those
    that the client of the blockchain reports. -/
def lookup (confirmations : BlockchainName → String → Except GoError Int) (token : Token)
    (txHash : String) : Except GoError (TransferReceipt → TransferReceipt) :=
  match token.blockchain with
  | .bitcoin | .ethereum =>
      match confirmations token.blockchain txHash with
      | .error err => .error err
      | .ok n => .ok fun receipt => { receipt with confirmations := n }
  | .erc20 => .error (.errorf s!"unsupported blockchain: {token.blockchain.text}")

def lookupFailed (receipt : TransferReceipt) : GoError :=
  .errorf ("Failed to lookup tx with txHash (" ++ receipt.txHash ++ ") on " ++
    receipt.token.blockchain.text ++ " blockchain")

section Transfers

variable (D : Config) (confirmations : BlockchainName → String → Except GoError Int)
  (password : String)

def lookupTransfer (receipt : TransferReceipt) : Except GoError TransferReceipt :=
  match lookup confirmations receipt.token receipt.txHash with
  | .error _ => .error (lookupFailed receipt)
  | .ok update => .ok (update receipt)

/-- What the loop of `GetTransfers` makes of a transfer: an error, nothing, or an entry of
    its map. -/
def showTransfer (receipt : TransferReceipt) : Except GoError (Option TransferReceipt) :=
  if receipt.passwordHash = "" then (lookupTransfer confirmations receipt).map some
  else
    match decodeString receipt.passwordHash with
    | none => .error (base64Error receipt.passwordHash)
    | some hash =>
        if D.compareHashAndPassword hash password then
          (lookupTransfer confirmations receipt).map some
        else .ok none

def collectTransfers : List TransferReceipt → TransferReceiptMap →
    Except GoError TransferReceiptMap
  | [], receiptMap => .ok receiptMap
  | receipt :: transfers, receiptMap => do
      let shown ← showTransfer D confirmations password receipt
      match shown with
      | none => collectTransfers transfers receiptMap
      | some receipt => collectTransfers transfers (receiptMap.insert receipt.txHash receipt)

/-- `MarshalGetTransfersResponse`, for a visit of the map in this order. -/
def marshalGetTransfersResponse (receiptMap : TransferReceiptMap) (order : List String) :
    List TransferReceipt :=
  (order.filterMap receiptMap.lookup).map fun receipt => { receipt with passwordHash := "" }

/-- The map that `GetTransfers` makes. -/
def getTransferMap (stored : Except GoError (List TransferReceipt)) :
    Except GoError TransferReceiptMap := do
  let transfers ← stored
  collectTransfers D confirmations password transfers ∅

def getTransfers (stored : Except GoError (List TransferReceipt)) (order : List String) :
    Except GoError (List TransferReceipt) := do
  let receiptMap ← getTransferMap D confirmations password stored
  return marshalGetTransfersResponse receiptMap order

end Transfers

/-! ### Answers -/

/-- What a query may answer from a store. -/
abbrev Query (β : Type) := Db → Except GoError β → Prop

section Answers

variable (J : Codecs) (D : Config) (password : String)

def SwapsAnswer : Query (List SwapReceipt) := fun db answer =>
  ∃ order, (∀ receiptMap, getSwapReceipts (listed (receipts J db)) = .ok receiptMap →
      OrderOf receiptMap order) ∧
    getSwaps D password (listed (receipts J db)) order = answer

def SwapAnswer (id : SwapID) : Query SwapReceipt := fun db answer =>
  getSwap password (listed (receipts J db)) id = answer

def TransfersAnswer (confirmations : BlockchainName → String → Except GoError Int) :
    Query (List TransferReceipt) := fun db answer =>
  ∃ order, (∀ receiptMap,
      getTransferMap D confirmations password (listed (transfers J db)) = .ok receiptMap →
        OrderOf receiptMap order) ∧
    getTransfers D confirmations password (listed (transfers J db)) order = answer

end Answers

/-! ### Own records -/

/-- The hash of a record is that of a user with this password, or there is none. -/
def fits (D : Config) (password passwordHash : String) : Bool :=
  passwordHash = "" ||
    match decodeString passwordHash with
    | none => false
    | some hash => D.compareHashAndPassword hash password

/-- There is a hash, and it is not base64. -/
def Corrupt (passwordHash : String) : Prop :=
  passwordHash ≠ "" ∧ decodeString passwordHash = none

/-- A stored value is a record of the user. -/
def ownData {α : Type} (c : Codec α) (passwordHash : α → String) (D : Config) (password : String)
    (data : Bytes) : Bool :=
  match c.unmarshal data with
  | .error _ => false
  | .ok record => fits D password (passwordHash record)

/-- The query answers as from the user's own entries alone, and shows no hash. Then two
    stores with the same own entries answer alike. -/
structure Private {β : Type} (own : Bytes → Bool) (hashes : β → List String) (query : Query β)
    (db : Db) : Prop where
  own : ∀ answer, query db answer ↔ query (db.keep own) answer
  hashless : ∀ shown, query db (.ok shown) → ∀ hash ∈ hashes shown, hash = ""

theorem Private.same_answers {β : Type} {own : Bytes → Bool} {hashes : β → List String}
    {query : Query β} {db db' : Db} (h : Private own hashes query db)
    (h' : Private own hashes query db') (hown : db.keep own = db'.keep own)
    (answer : Except GoError β) : query db answer ↔ query db' answer := by
  rw [h.own, h'.own, hown]

section Own

variable {α : Type} {c : Codec α} {passwordHash : α → String} {D : Config} {password : String}

/-- The hash of an own record can be read. -/
theorem not_corrupt_of_fits {hash : String} (h : fits D password hash = true) :
    ¬ Corrupt hash := by
  rintro ⟨hne, hnone⟩
  unfold fits at h
  rw [hnone] at h
  exact hne (by simpa using h)

theorem unmarshalAll_filter_own (c : Codec α) (passwordHash : α → String) (D : Config)
    (password : String) (values : List Bytes) :
    ∃ own, unmarshalAll c (values.filter (ownData c passwordHash D password)) = (own, none) ∧
      (∀ record ∈ own, fits D password (passwordHash record) = true) ∧
      ∀ list, unmarshalAll c values = (list, none) →
        own = list.filter fun record => fits D password (passwordHash record) := by
  induction values with
  | nil => exact ⟨[], rfl, by simp, by simp [unmarshalAll]⟩
  | cons data values ih =>
      obtain ⟨own, hown, hfits, hfilter⟩ := ih
      cases hread : c.unmarshal data with
      | error err =>
          refine ⟨own, ?_, hfits, ?_⟩
          · rw [List.filter_cons_of_neg (by simp [ownData, hread]), hown]
          · intro list hlist
            rw [unmarshalAll, hread] at hlist
            cases hlist
      | ok record =>
          have hlist : ∀ list, unmarshalAll c (data :: values) = (list, none) →
              ∃ rest, list = record :: rest ∧ unmarshalAll c values = (rest, none) := by
            intro list hlist
            rw [unmarshalAll, hread] at hlist
            obtain ⟨hrecords, hnone⟩ := Prod.mk.inj hlist
            exact ⟨_, hrecords.symm, Prod.ext rfl hnone⟩
          by_cases hrecord : fits D password (passwordHash record) = true
          · refine ⟨record :: own, ?_, by simpa [hrecord] using hfits, ?_⟩
            · rw [List.filter_cons_of_pos (by simp [ownData, hread, hrecord]), unmarshalAll, hread,
                hown]
            · intro list hall
              obtain ⟨rest, rfl, hrest⟩ := hlist list hall
              rw [hfilter rest hrest, List.filter_cons, if_pos hrecord]
          · refine ⟨own, ?_, hfits, ?_⟩
            · rw [List.filter_cons_of_neg (by simp [ownData, hread, hrecord]), hown]
            · intro list hall
              obtain ⟨rest, rfl, hrest⟩ := hlist list hall
              rw [hfilter rest hrest, List.filter_cons, if_neg hrecord]

/-- A listing that fails has met a value that it could not read. -/
theorem unmarshalAll_error {values : List Bytes} {records : List α} {err : GoError}
    (h : unmarshalAll c values = (records, some err)) : ∃ data, c.unmarshal data = .error err := by
  induction values generalizing records with
  | nil => cases h
  | cons data values ih =>
      rw [unmarshalAll] at h
      cases hread : c.unmarshal data with
      | error err' =>
          rw [hread] at h
          cases h
          exact ⟨data, hread⟩
      | ok record =>
          rw [hread] at h
          exact ih (Prod.ext rfl (Prod.mk.inj h).2)

/-- What is listed of a store, and of its own entries. -/
theorem listed_own (c : Codec α) (passwordHash : α → String) (D : Config) (password : String)
    (db : Db) (table : Table) :
    (∃ list, listRecords c db table = (list, none) ∧
        listRecords c (db.keep (ownData c passwordHash D password)) table =
          (list.filter fun record => fits D password (passwordHash record), none)) ∨
      ∃ records err own data, listRecords c db table = (records, some err) ∧
        c.unmarshal data = .error err ∧
        listRecords c (db.keep (ownData c passwordHash D password)) table = (own, none) ∧
        ∀ record ∈ own, fits D password (passwordHash record) = true := by
  have hkeep : listRecords c (db.keep (ownData c passwordHash D password)) table =
      unmarshalAll c (((db.range table.start table.limit).map Prod.snd).filter
        (ownData c passwordHash D password)) := by
    unfold listRecords
    rw [OrderedStore.range_keep, List.filter_map]
    rfl
  obtain ⟨own, hown, hfits, hfilter⟩ := unmarshalAll_filter_own c passwordHash D password
    ((db.range table.start table.limit).map Prod.snd)
  rw [hkeep, hown]
  cases hlist : listRecords c db table with
  | mk records result =>
      cases result with
      | none => exact .inl ⟨records, rfl, by rw [hfilter records hlist]⟩
      | some err =>
          obtain ⟨data, hdata⟩ := unmarshalAll_error hlist
          exact .inr ⟨records, err, own, data, rfl, hdata, rfl, hfits⟩

end Own

/-! ### `GetSwap` -/

section Receipts

variable {J : Codecs} {D : Config} {password : String} {db : Db} {list : List SwapReceipt}

def ownReceipt (J : Codecs) (D : Config) (password : String) : Bytes → Bool :=
  ownData J.receipt SwapReceipt.passwordHash D password

theorem getSwap_ok (password : String) (list : List SwapReceipt) (id : SwapID) :
    getSwap password (.ok list) id =
      match latestReceipt list id with
      | none => .error swapNotFound
      | some receipt => .ok receipt := by
  rw [← lookup_foldl_putReceipt]
  rfl

/-- The receipt that is listed last is also the last of some that it is among. -/
theorem latestReceipt_filter {p : SwapReceipt → Bool} {id : SwapID} {receipt : SwapReceipt}
    (h : latestReceipt list id = some receipt) (hp : p receipt = true) :
    latestReceipt (list.filter p) id = some receipt := by
  unfold latestReceipt at h ⊢
  rw [List.filter_comm]
  obtain ⟨init, hinit⟩ := List.getLast?_eq_some_iff.mp h
  rw [hinit, List.filter_append, List.filter_cons_of_pos hp]
  simp

theorem latestReceipt_filter_none {p : SwapReceipt → Bool} {id : SwapID}
    (h : latestReceipt list id = none) : latestReceipt (list.filter p) id = none := by
  rw [latestReceipt_eq_none_iff] at h ⊢
  exact fun receipt hreceipt => h receipt (List.mem_filter.mp hreceipt).1

/-- The receipts that are listed for a query, of all and of the own entries. -/
theorem receipts_own (J : Codecs) (D : Config) (password : String) (db : Db) :
    (∃ list, receipts J db = (list, none) ∧
        receipts J (db.keep (ownReceipt J D password)) =
          (list.filter fun receipt => fits D password receipt.passwordHash, none)) ∨
      ∃ records err own data, receipts J db = (records, some err) ∧
        J.receipt.unmarshal data = .error err ∧
        receipts J (db.keep (ownReceipt J D password)) = (own, none) ∧
        ∀ receipt ∈ own, fits D password receipt.passwordHash = true :=
  listed_own J.receipt SwapReceipt.passwordHash D password db tableSwapReceipts

theorem swapAnswer_ok_iff {id : SwapID} {receipt : SwapReceipt}
    (hlist : receipts J db = (list, none)) :
    SwapAnswer J password id db (.ok receipt) ↔ latestReceipt list id = some receipt := by
  unfold SwapAnswer
  rw [hlist, listed, getSwap_ok]
  cases latestReceipt list id with
  | none => simp
  | some receipt => simp

theorem swapAnswer_error_iff {id : SwapID} {err : GoError}
    (hlist : receipts J db = (list, none)) :
    SwapAnswer J password id db (.error err) ↔
      latestReceipt list id = none ∧ err = swapNotFound := by
  unfold SwapAnswer
  rw [hlist, listed, getSwap_ok]
  cases latestReceipt list id with
  | none => simp [eq_comm]
  | some receipt => simp

/-- **`GetSwap` is private exactly when** all receipts can be read and that with the ID has
    no hash. -/
theorem swap_private_iff
    (herrors : ∀ data err, J.receipt.unmarshal data = .error err → err ≠ swapNotFound)
    (id : SwapID) :
    Private (ownReceipt J D password) (fun receipt => [receipt.passwordHash])
        (SwapAnswer J password id) db ↔
      ∃ list, receipts J db = (list, none) ∧
        ∀ receipt, latestReceipt list id = some receipt → receipt.passwordHash = "" := by
  rcases receipts_own J D password db with
    ⟨list, hlist, hown⟩ | ⟨records, err, own, data, hlist, hdata, hown, -⟩
  · constructor
    · intro h
      refine ⟨list, hlist, ?_⟩
      intro receipt hlatest
      exact h.hashless receipt ((swapAnswer_ok_iff hlist).mpr hlatest) _ (List.mem_singleton_self _)
    · rintro ⟨list', hlist', hnone⟩
      obtain rfl : list' = list := congrArg Prod.fst (hlist'.symm.trans hlist)
      -- the receipt with the ID is an own one, if there is one
      have hlatest : latestReceipt
          (list'.filter fun receipt => fits D password receipt.passwordHash) id =
            latestReceipt list' id := by
        cases hlatest : latestReceipt list' id with
        | none => exact latestReceipt_filter_none hlatest
        | some receipt =>
            exact latestReceipt_filter hlatest (by simp [fits, hnone receipt hlatest])
      constructor
      · intro answer
        cases answer with
        | error err => rw [swapAnswer_error_iff hlist, swapAnswer_error_iff hown, hlatest]
        | ok receipt => rw [swapAnswer_ok_iff hlist, swapAnswer_ok_iff hown, hlatest]
      · intro receipt hshown hash hhash
        obtain rfl := List.mem_singleton.mp hhash
        exact hnone receipt ((swapAnswer_ok_iff hlist).mp hshown)
  · constructor
    · intro h
      -- the listing fails, while that of the own entries does not
      have hfails : SwapAnswer J password id db (.error err) := by
        unfold SwapAnswer
        rw [hlist, listed]
        rfl
      rw [h.own, swapAnswer_error_iff hown] at hfails
      exact absurd hfails.2 (herrors data err hdata)
    · rintro ⟨list, hlist', -⟩
      cases hlist'.symm.trans hlist

/-! ### `GetSwaps` -/

def shownReceipt (D : Config) (password : String) (receipt : SwapReceipt) : Option SwapReceipt :=
  if fits D password receipt.passwordHash then some { receipt with passwordHash := "" } else none

theorem showReceipt_eq {receipt : SwapReceipt} (h : ¬ Corrupt receipt.passwordHash) :
    showReceipt D password receipt = .ok (shownReceipt D password receipt) := by
  unfold showReceipt shownReceipt fits
  by_cases hempty : receipt.passwordHash = ""
  · obtain ⟨⟩ := receipt
    dsimp only at hempty
    subst hempty
    rfl
  · rw [if_neg hempty]
    cases hhash : decodeString receipt.passwordHash with
    | none => exact absurd ⟨hempty, hhash⟩ h
    | some hash =>
        by_cases hfits : D.compareHashAndPassword hash password = true
        · simp [hempty, hfits]
        · simp [hempty, hfits]

theorem showReceipt_corrupt {receipt : SwapReceipt} (h : Corrupt receipt.passwordHash) :
    showReceipt D password receipt = .error (.errorf "corrupted password") := by
  unfold showReceipt
  rw [if_neg h.1, h.2]

/-- `GetSwaps` shows the receipts that fit, without their hashes. -/
theorem showReceipts_eq (h : ∀ receipt ∈ list, ¬ Corrupt receipt.passwordHash) :
    showReceipts D password list = .ok (list.filterMap (shownReceipt D password)) := by
  induction list with
  | nil => rfl
  | cons receipt list ih =>
      rw [showReceipts, showReceipt_eq (h receipt List.mem_cons_self),
        ih fun r hr => h r (List.mem_cons_of_mem _ hr), List.filterMap_cons]
      cases shownReceipt D password receipt <;> rfl

theorem not_corrupt_of_showReceipts {swaps : List SwapReceipt}
    (h : showReceipts D password list = .ok swaps) :
    ∀ receipt ∈ list, ¬ Corrupt receipt.passwordHash := by
  induction list generalizing swaps with
  | nil => simp
  | cons receipt list ih =>
      obtain ⟨shown, hshown, h⟩ := except_bind_eq_ok_iff.mp h
      obtain ⟨rest, hrest, -⟩ := except_bind_eq_ok_iff.mp h
      intro r hr hcorrupt
      rcases List.mem_cons.mp hr with rfl | hr
      · rw [showReceipt_corrupt hcorrupt] at hshown
        cases hshown
      · exact ih hrest r hr hcorrupt

/-- What may be answered from a map of receipts. -/
def MapAnswer (D : Config) (password : String) (receiptMap : Receipts)
    (answer : Except GoError (List SwapReceipt)) : Prop :=
  ∃ order, OrderOf receiptMap order ∧
    showReceipts D password (order.filterMap receiptMap.lookup) = answer

theorem exists_orderOf {K Req : Type} [DecidableEq K] (store : Store K Req) :
    ∃ order, OrderOf store order :=
  ⟨store.keys.toList, store.keys.nodup_toList, fun k => by simp [Finmap.mem_keys]⟩

section Maps

variable {m own : Receipts}

/-- The map has no corrupt hash, and `own` has those of its receipts that fit. -/
structure OwnOf (D : Config) (password : String) (own m : Receipts) : Prop where
  readable : ∀ id receipt, m.lookup id = some receipt → ¬ Corrupt receipt.passwordHash
  lookup : ∀ id, own.lookup id =
    (m.lookup id).filter fun receipt => fits D password receipt.passwordHash

/-- In any order, all that is shown of a map is in its own part. -/
theorem OwnOf.shows (h : OwnOf D password own m) (order : List SwapID) :
    showReceipts D password (order.filterMap m.lookup) =
      showReceipts D password (order.filterMap own.lookup) := by
  have hreadable : ∀ receipt ∈ order.filterMap m.lookup, ¬ Corrupt receipt.passwordHash := by
    intro receipt hreceipt
    obtain ⟨id, -, hlookup⟩ := List.mem_filterMap.mp hreceipt
    exact h.readable id receipt hlookup
  have hfits : ∀ receipt ∈ order.filterMap own.lookup, ¬ Corrupt receipt.passwordHash := by
    intro receipt hreceipt
    obtain ⟨id, -, hlookup⟩ := List.mem_filterMap.mp hreceipt
    rw [h.lookup] at hlookup
    exact h.readable id receipt (Option.eq_some_of_filter_eq_some hlookup)
  rw [showReceipts_eq hreadable, showReceipts_eq hfits, List.filterMap_filterMap,
    List.filterMap_filterMap]
  congr 2
  funext id
  rw [h.lookup]
  cases m.lookup id with
  | none => rfl
  | some receipt =>
      by_cases hown : fits D password receipt.passwordHash = true
      · simp [Option.filter, hown]
      · simp [Option.filter, hown, shownReceipt]

theorem OwnOf.sub (h : OwnOf D password own m) {id : SwapID} (hid : id ∈ own) : id ∈ m := by
  obtain ⟨receipt, hreceipt⟩ := Finmap.mem_iff.mp hid
  rw [h.lookup] at hreceipt
  exact Finmap.mem_of_lookup_eq_some (Option.eq_some_of_filter_eq_some hreceipt)

theorem OwnOf.answers_iff (h : OwnOf D password own m)
    (answer : Except GoError (List SwapReceipt)) :
    MapAnswer D password m answer ↔ MapAnswer D password own answer := by
  constructor
  · rintro ⟨order, ⟨hnodup, hvisits⟩, rfl⟩
    -- what is not in the own part is left out of the visit
    refine ⟨order.filter fun id => id ∈ own, ⟨hnodup.filter _, ?_⟩, ?_⟩
    · intro id
      simpa [hvisits] using h.sub
    · rw [h.shows, List.filterMap_filter]
      congr 2
      funext id
      by_cases hid : id ∈ own
      · simp [hid]
      · simp [hid, Finmap.lookup_eq_none.mpr hid]
  · rintro ⟨order, ⟨hnodup, hvisits⟩, rfl⟩
    -- or is visited behind it
    obtain ⟨all, hall, hvisitsAll⟩ := exists_orderOf m
    refine ⟨order ++ all.filter fun id => id ∉ own, ⟨?_, ?_⟩, ?_⟩
    · apply hnodup.append (hall.filter _)
      intro id hid hrest
      simp [hvisits] at hid hrest
      exact hrest.2 hid
    · intro id
      simp only [List.mem_append, hvisits, List.mem_filter, hvisitsAll, decide_eq_true_eq]
      constructor
      · rintro (hid | ⟨hid, -⟩)
        · exact h.sub hid
        · exact hid
      · intro hid
        by_cases hown : id ∈ own
        · exact .inl hown
        · exact .inr ⟨hid, hown⟩
    · have hnone : (all.filter fun id => id ∉ own).filterMap own.lookup = [] := by
        rw [List.filterMap_eq_nil_iff]
        intro id hid
        exact Finmap.lookup_eq_none.mpr (by simpa using (List.mem_filter.mp hid).2)
      rw [h.shows, List.filterMap_append, hnone, List.append_nil]

end Maps

/-- The answers when all receipts can be read are those of their map. -/
theorem swapsAnswer_iff (hlist : receipts J db = (list, none))
    (answer : Except GoError (List SwapReceipt)) :
    SwapsAnswer J D password db answer ↔
      MapAnswer D password (list.foldl putReceipt ∅) answer := by
  unfold SwapsAnswer MapAnswer
  rw [hlist]
  constructor
  · rintro ⟨order, hvisits, rfl⟩
    exact ⟨order, hvisits _ rfl, rfl⟩
  · rintro ⟨order, hvisits, rfl⟩
    refine ⟨order, ?_, rfl⟩
    rintro receiptMap hmap
    obtain rfl := Except.ok.inj hmap
    exact hvisits

/-- Shown receipts have no hash. -/
theorem MapAnswer.hashless {m : Receipts} {shown : List SwapReceipt}
    (h : MapAnswer D password m (.ok shown)) : ∀ receipt ∈ shown, receipt.passwordHash = "" := by
  obtain ⟨order, -, hshown⟩ := h
  rw [showReceipts_eq (not_corrupt_of_showReceipts hshown)] at hshown
  obtain rfl := Except.ok.inj hshown
  intro receipt hreceipt
  obtain ⟨receipt', -, hshows⟩ := List.mem_filterMap.mp hreceipt
  unfold shownReceipt at hshows
  split at hshows
  · obtain rfl := Option.some.inj hshows
    rfl
  · cases hshows

/-- Every receipt of a user is read, and no later receipt of another user has its ID. -/
def OwnLatest (D : Config) (password : String) (list : List SwapReceipt) : Prop :=
  ∀ id receipt, latestReceipt list id = some receipt → ¬ Corrupt receipt.passwordHash ∧
    ((∃ own ∈ list, own.id = id ∧ fits D password own.passwordHash = true) →
      fits D password receipt.passwordHash = true)

theorem OwnLatest.ownOf (h : OwnLatest D password list) :
    OwnOf D password
      ((list.filter fun receipt => fits D password receipt.passwordHash).foldl putReceipt ∅)
      (list.foldl putReceipt ∅) where
  readable id receipt hlookup := by
    rw [lookup_foldl_putReceipt] at hlookup
    exact (h id receipt hlookup).1
  lookup id := by
    rw [lookup_foldl_putReceipt, lookup_foldl_putReceipt]
    cases hlatest : latestReceipt list id with
    | none => exact latestReceipt_filter_none hlatest
    | some receipt =>
        by_cases hfits : fits D password receipt.passwordHash = true
        · rw [latestReceipt_filter hlatest hfits]
          simp [Option.filter, hfits]
        · -- then there is none of the user with this ID
          rw [show (some receipt).filter _ = none by simp [Option.filter, hfits],
            latestReceipt_eq_none_iff]
          intro own hown hid
          obtain ⟨hmem, hownFits⟩ := List.mem_filter.mp hown
          exact hfits ((h id receipt hlatest).2 ⟨own, hmem, hid, hownFits⟩)

theorem shownReceipt_eq_some_iff {receipt shown : SwapReceipt} :
    shownReceipt D password receipt = some shown ↔
      fits D password receipt.passwordHash = true ∧ { receipt with passwordHash := "" } = shown := by
  unfold shownReceipt
  split
  · rename_i hfits
    simp [hfits]
  · rename_i hfits
    simp [hfits]

/-- A receipt that is shown of a list is the latest with its ID. -/
theorem fits_of_shown {order : List SwapID} {shown : SwapReceipt}
    (h : shown ∈ (order.filterMap (list.foldl putReceipt ∅).lookup).filterMap
      (shownReceipt D password)) :
    ∃ receipt, latestReceipt list shown.id = some receipt ∧
      fits D password receipt.passwordHash = true := by
  obtain ⟨receipt, hreceipt, hshows⟩ := List.mem_filterMap.mp h
  obtain ⟨id, -, hlookup⟩ := List.mem_filterMap.mp hreceipt
  obtain ⟨hfits, rfl⟩ := shownReceipt_eq_some_iff.mp hshows
  rw [lookup_foldl_putReceipt] at hlookup
  obtain rfl := (latestReceipt_mem hlookup).2
  exact ⟨receipt, hlookup, hfits⟩

/-- A user whose own receipts are shown among all has the latest with their IDs. -/
theorem ownLatest_of_answers {own : Receipts}
    (hown : ∀ id, own.lookup id =
      latestReceipt (list.filter fun receipt => fits D password receipt.passwordHash) id)
    (h : ∀ shown, MapAnswer D password own (.ok shown) →
      MapAnswer D password (list.foldl putReceipt ∅) (.ok shown)) :
    OwnLatest D password list := by
  have hfits : ∀ id receipt, own.lookup id = some receipt →
      fits D password receipt.passwordHash = true ∧ receipt.id = id := by
    intro id receipt hlookup
    rw [hown] at hlookup
    obtain ⟨hmem, hid⟩ := latestReceipt_mem hlookup
    exact ⟨(List.mem_filter.mp hmem).2, hid⟩
  -- the own receipts can be shown, so that all can be read
  obtain ⟨order, hvisits⟩ := exists_orderOf own
  have hreadable : ∀ receipt ∈ order.filterMap own.lookup, ¬ Corrupt receipt.passwordHash := by
    intro receipt hreceipt
    obtain ⟨id, -, hlookup⟩ := List.mem_filterMap.mp hreceipt
    exact not_corrupt_of_fits (hfits id receipt hlookup).1
  obtain ⟨order', hvisits', hanswer⟩ := h _ ⟨order, hvisits, showReceipts_eq hreadable⟩
  have hread := not_corrupt_of_showReceipts hanswer
  rw [showReceipts_eq hread] at hanswer
  have hsame := Except.ok.inj hanswer
  intro id receipt hlatest
  constructor
  · apply hread
    rw [← lookup_foldl_putReceipt] at hlatest
    exact List.mem_filterMap.mpr
      ⟨id, (hvisits'.2 id).mpr (Finmap.mem_of_lookup_eq_some hlatest), hlatest⟩
  · rintro ⟨r, hr, hid, hfit⟩
    obtain ⟨mine, hmine⟩ : ∃ mine, own.lookup id = some mine := by
      rw [hown]
      apply Option.ne_none_iff_exists'.mp
      rw [Ne, latestReceipt_eq_none_iff]
      exact fun hnone => hnone r (List.mem_filter.mpr ⟨hr, hfit⟩) hid
    obtain ⟨hfitMine, hidMine⟩ := hfits id mine hmine
    have hshown : { mine with passwordHash := "" } ∈
        (order.filterMap own.lookup).filterMap (shownReceipt D password) :=
      List.mem_filterMap.mpr ⟨mine, List.mem_filterMap.mpr
        ⟨id, (hvisits.2 id).mpr (Finmap.mem_of_lookup_eq_some hmine), hmine⟩,
        shownReceipt_eq_some_iff.mpr ⟨hfitMine, rfl⟩⟩
    rw [← hsame] at hshown
    obtain ⟨other, hother, hfitOther⟩ := fits_of_shown hshown
    rw [show ({ mine with passwordHash := "" } : SwapReceipt).id = id from hidMine, hlatest]
      at hother
    rwa [Option.some.inj hother]

/-- **`GetSwaps` is private exactly when** all receipts can be read, no latest receipt with
    its ID has a corrupt hash, and those with the IDs of the user's receipts are the
    user's. -/
theorem swaps_private_iff :
    Private (ownReceipt J D password) (fun shown => shown.map SwapReceipt.passwordHash)
        (SwapsAnswer J D password) db ↔
      ∃ list, receipts J db = (list, none) ∧ OwnLatest D password list := by
  rcases receipts_own J D password db with
    ⟨list, hlist, hown⟩ | ⟨records, err, own, data, hlist, -, hown, hfits⟩
  · constructor
    · intro h
      refine ⟨list, hlist, ?_⟩
      apply ownLatest_of_answers fun id => lookup_foldl_putReceipt _ id
      intro shown hshown
      rw [← swapsAnswer_iff hown, ← h.own, swapsAnswer_iff hlist] at hshown
      exact hshown
    · rintro ⟨list', hlist', hlatest⟩
      obtain rfl : list' = list := congrArg Prod.fst (hlist'.symm.trans hlist)
      constructor
      · intro answer
        rw [swapsAnswer_iff hlist, swapsAnswer_iff hown]
        exact hlatest.ownOf.answers_iff answer
      · intro shown hshown hash hhash
        rw [swapsAnswer_iff hlist] at hshown
        obtain ⟨receipt, hreceipt, rfl⟩ := List.mem_map.mp hhash
        exact hshown.hashless receipt hreceipt
  · constructor
    · intro h
      -- the listing fails, while the own receipts can be shown
      have hanswer : SwapsAnswer J D password db (.error err) := by
        refine ⟨[], ?_, ?_⟩
        · intro receiptMap hmap
          rw [hlist] at hmap
          cases hmap
        · rw [hlist]
          rfl
      rw [h.own, swapsAnswer_iff hown] at hanswer
      obtain ⟨order, -, hfails⟩ := hanswer
      rw [showReceipts_eq] at hfails
      · cases hfails
      · intro receipt hreceipt
        obtain ⟨id, -, hlookup⟩ := List.mem_filterMap.mp hreceipt
        rw [lookup_foldl_putReceipt] at hlookup
        exact not_corrupt_of_fits (hfits receipt (latestReceipt_mem hlookup).1)
    · rintro ⟨list, hlist', -⟩
      cases hlist'.symm.trans hlist

end Receipts

/-! ### `GetTransfers` -/

section Transfers

variable {J : Codecs} {D : Config} {password : String} {db : Db}
  {confirmations : BlockchainName → String → Except GoError Int} {list : List TransferReceipt}
  {m : TransferReceiptMap}

def ownTransfer (J : Codecs) (D : Config) (password : String) : Bytes → Bool :=
  ownData J.transfer TransferReceipt.passwordHash D password

theorem showTransfer_corrupt {receipt : TransferReceipt} (h : Corrupt receipt.passwordHash) :
    showTransfer D confirmations password receipt =
      .error (base64Error receipt.passwordHash) := by
  unfold showTransfer
  rw [if_neg h.1, h.2]

theorem showTransfer_eq {receipt : TransferReceipt} (h : ¬ Corrupt receipt.passwordHash) :
    showTransfer D confirmations password receipt =
      if fits D password receipt.passwordHash then
        (lookupTransfer confirmations receipt).map some
      else .ok none := by
  unfold showTransfer fits
  by_cases hempty : receipt.passwordHash = ""
  · simp [hempty]
  · rw [if_neg hempty]
    cases hhash : decodeString receipt.passwordHash with
    | none => exact absurd ⟨hempty, hhash⟩ h
    | some hash => simp [hempty]

theorem lookupTransfer_error {receipt : TransferReceipt} {err : GoError}
    (h : lookupTransfer confirmations receipt = .error err) : err = lookupFailed receipt := by
  unfold lookupTransfer at h
  split at h
  · exact (Except.error.inj h).symm
  · cases h

theorem lookupFailed_ne (hash : String) (receipt : TransferReceipt) :
    base64Error hash ≠ lookupFailed receipt := by
  intro h
  have htext := congrArg (fun err => match err with
    | GoError.errorf text => text.toList.head?
    | _ => none) h
  simp [base64Error, lookupFailed] at htext

/-- Among own transfers, what goes wrong is a lookup. -/
theorem collectTransfers_own_error
    (hfits : ∀ receipt ∈ list, fits D password receipt.passwordHash = true) {err : GoError}
    (h : collectTransfers D confirmations password list m = .error err) :
    ∃ receipt, err = lookupFailed receipt := by
  induction list generalizing m with
  | nil => cases h
  | cons receipt list ih =>
      have hfit := hfits receipt List.mem_cons_self
      rw [collectTransfers, showTransfer_eq (not_corrupt_of_fits hfit), if_pos hfit] at h
      cases hlookup : lookupTransfer confirmations receipt with
      | error err' =>
          rw [hlookup] at h
          obtain rfl : err' = err := Except.error.inj h
          exact ⟨receipt, lookupTransfer_error hlookup⟩
      | ok shown =>
          rw [hlookup] at h
          exact ih (fun r hr => hfits r (List.mem_cons_of_mem _ hr)) h

/-- Before a transfer with a corrupt hash comes an own one whose lookup fails. -/
def LookupFirst (D : Config) (confirmations : BlockchainName → String → Except GoError Int)
    (password : String) (list : List TransferReceipt) : Prop :=
  ∀ before receipt after, list = before ++ receipt :: after → Corrupt receipt.passwordHash →
    ∃ own ∈ before, fits D password own.passwordHash = true ∧
      ∃ err, lookupTransfer confirmations own = .error err

theorem lookupFirst_cons_iff {receipt : TransferReceipt} :
    LookupFirst D confirmations password (receipt :: list) ↔
      ¬ Corrupt receipt.passwordHash ∧
        ((fits D password receipt.passwordHash = true ∧
            ∃ err, lookupTransfer confirmations receipt = .error err) ∨
          LookupFirst D confirmations password list) := by
  constructor
  · intro h
    constructor
    · intro hcorrupt
      obtain ⟨own, hown, -⟩ := h [] receipt list rfl hcorrupt
      cases hown
    · by_cases hfails : fits D password receipt.passwordHash = true ∧
          ∃ err, lookupTransfer confirmations receipt = .error err
      · exact .inl hfails
      · right
        rintro before other after rfl hcorrupt
        obtain ⟨own, hown, hlookup⟩ := h (receipt :: before) other after rfl hcorrupt
        rcases List.mem_cons.mp hown with rfl | hown
        · exact absurd hlookup hfails
        · exact ⟨own, hown, hlookup⟩
  · rintro ⟨hread, hor⟩ before other after heq hcorrupt
    cases before with
    | nil =>
        obtain ⟨rfl, -⟩ := List.cons.inj heq
        exact absurd hcorrupt hread
    | cons first before =>
        obtain ⟨rfl, htail⟩ := List.cons.inj heq
        rcases hor with hfails | hrest
        · exact ⟨receipt, List.mem_cons_self, hfails⟩
        · obtain ⟨own, hown, hlookup⟩ := hrest before other after htail hcorrupt
          exact ⟨own, List.mem_cons_of_mem _ hown, hlookup⟩

/-- What the transfers of others do to the map: nothing, or they make the query fail. -/
theorem collectTransfers_cases (D : Config)
    (confirmations : BlockchainName → String → Except GoError Int) (password : String)
    (list : List TransferReceipt) (m : TransferReceiptMap) :
    LookupFirst D confirmations password list ∧
        collectTransfers D confirmations password list m =
          collectTransfers D confirmations password
            (list.filter fun receipt => fits D password receipt.passwordHash) m ∨
      ¬ LookupFirst D confirmations password list ∧ ∃ hash,
        collectTransfers D confirmations password list m = .error (base64Error hash) := by
  induction list generalizing m with
  | nil =>
      refine .inl ⟨?_, rfl⟩
      intro before receipt after h
      cases before <;> cases h
  | cons receipt list ih =>
      rw [lookupFirst_cons_iff]
      by_cases hcorrupt : Corrupt receipt.passwordHash
      · right
        refine ⟨fun h => h.1 hcorrupt, receipt.passwordHash, ?_⟩
        rw [collectTransfers, showTransfer_corrupt hcorrupt]
        rfl
      · rw [collectTransfers, showTransfer_eq hcorrupt]
        by_cases hfits : fits D password receipt.passwordHash = true
        · rw [if_pos hfits, List.filter_cons_of_pos (by simpa using hfits), collectTransfers,
            showTransfer_eq hcorrupt, if_pos hfits]
          cases hlookup : lookupTransfer confirmations receipt with
          | error err => exact .inl ⟨⟨hcorrupt, .inl ⟨hfits, err, rfl⟩⟩, rfl⟩
          | ok shown =>
              rcases ih (m.insert shown.txHash shown) with ⟨hfirst, hsame⟩ | ⟨hnot, herr⟩
              · exact .inl ⟨⟨hcorrupt, .inr hfirst⟩, hsame⟩
              · refine .inr ⟨?_, herr⟩
                rintro ⟨-, ⟨-, err, herr'⟩ | hfirst⟩
                · cases herr'
                · exact hnot hfirst
        · rw [if_neg hfits, List.filter_cons_of_neg (by simpa using hfits)]
          rcases ih m with ⟨hfirst, hsame⟩ | ⟨hnot, herr⟩
          · exact .inl ⟨⟨hcorrupt, .inr hfirst⟩, hsame⟩
          · refine .inr ⟨?_, herr⟩
            rintro ⟨-, ⟨hfit, -⟩ | hfirst⟩
            · exact hfits hfit
            · exact hnot hfirst

theorem transfers_own (J : Codecs) (D : Config) (password : String) (db : Db) :
    (∃ list, transfers J db = (list, none) ∧
        transfers J (db.keep (ownTransfer J D password)) =
          (list.filter fun receipt => fits D password receipt.passwordHash, none)) ∨
      ∃ records err own data, transfers J db = (records, some err) ∧
        J.transfer.unmarshal data = .error err ∧
        transfers J (db.keep (ownTransfer J D password)) = (own, none) ∧
        ∀ receipt ∈ own, fits D password receipt.passwordHash = true :=
  listed_own J.transfer TransferReceipt.passwordHash D password db tableTransfer

/-- The answers from what becomes of the map. -/
theorem transfersAnswer_iff {listing : List TransferReceipt × Option GoError}
    (hlist : transfers J db = listing) {result : Except GoError TransferReceiptMap}
    (hresult : getTransferMap D confirmations password (listed listing) = result)
    (answer : Except GoError (List TransferReceipt)) :
    TransfersAnswer J D password confirmations db answer ↔
      ∃ order, (∀ receiptMap, result = .ok receiptMap → OrderOf receiptMap order) ∧
        (result >>= fun receiptMap => .ok (marshalGetTransfersResponse receiptMap order)) =
          answer := by
  unfold TransfersAnswer getTransfers
  rw [hlist, hresult]
  rfl

/-- A query that fails answers its error. -/
theorem transfersAnswer_error {listing : List TransferReceipt × Option GoError}
    (hlist : transfers J db = listing) {err : GoError}
    (hresult : getTransferMap D confirmations password (listed listing) = .error err)
    (answer : Except GoError (List TransferReceipt)) :
    TransfersAnswer J D password confirmations db answer ↔ answer = .error err := by
  rw [transfersAnswer_iff hlist hresult]
  constructor
  · rintro ⟨order, -, rfl⟩
    rfl
  · rintro rfl
    refine ⟨[], ?_, rfl⟩
    intro receiptMap h
    cases h

/-- Shown transfers have no hash. -/
theorem TransfersAnswer.hashless {shown : List TransferReceipt}
    (h : TransfersAnswer J D password confirmations db (.ok shown)) :
    ∀ hash ∈ shown.map TransferReceipt.passwordHash, hash = "" := by
  obtain ⟨order, -, hshown⟩ := h
  obtain ⟨receiptMap, -, hshown⟩ := except_bind_eq_ok_iff.mp hshown
  obtain rfl := Except.ok.inj hshown
  intro hash hhash
  obtain ⟨receipt, hreceipt, rfl⟩ := List.mem_map.mp hhash
  obtain ⟨receipt', -, rfl⟩ := List.mem_map.mp hreceipt
  rfl

/-- When the query fails on another's record, the own records do not answer that. -/
theorem not_private_of_error {listing : List TransferReceipt × Option GoError} {err : GoError}
    {own : List TransferReceipt} (hlist : transfers J db = listing)
    (hresult : getTransferMap D confirmations password (listed listing) = .error err)
    (hown : transfers J (db.keep (ownTransfer J D password)) = (own, none))
    (hfits : ∀ receipt ∈ own, fits D password receipt.passwordHash = true)
    (hne : ∀ receipt, err ≠ lookupFailed receipt) :
    ¬ Private (ownTransfer J D password) (fun shown => shown.map TransferReceipt.passwordHash)
      (TransfersAnswer J D password confirmations) db := by
  intro h
  have hanswer := (h.own _).mp ((transfersAnswer_error hlist hresult _).mpr rfl)
  rw [transfersAnswer_iff hown rfl] at hanswer
  obtain ⟨order, -, hanswer⟩ := hanswer
  cases hcollect : getTransferMap D confirmations password (listed (own, none)) with
  | error err' =>
      rw [hcollect] at hanswer
      obtain rfl : err' = err := Except.error.inj hanswer
      obtain ⟨receipt, hreceipt⟩ := collectTransfers_own_error hfits hcollect
      exact hne receipt hreceipt
  | ok receiptMap =>
      rw [hcollect] at hanswer
      cases hanswer

/-- **`GetTransfers` is private exactly when** all transfers can be read, and none has a
    corrupt hash, unless a lookup for the user fails before. -/
theorem transfers_private_iff
    (herrors : ∀ data err, J.transfer.unmarshal data = .error err →
      ∀ receipt, err ≠ lookupFailed receipt) :
    Private (ownTransfer J D password) (fun shown => shown.map TransferReceipt.passwordHash)
        (TransfersAnswer J D password confirmations) db ↔
      ∃ list, transfers J db = (list, none) ∧ LookupFirst D confirmations password list := by
  rcases transfers_own J D password db with
    ⟨list, hlist, hown⟩ | ⟨records, err, own, data, hlist, hdata, hown, hfits⟩
  · rcases collectTransfers_cases D confirmations password list ∅ with
      ⟨hfirst, hsame⟩ | ⟨hnot, hash, herr⟩
    · refine iff_of_true ⟨?_, fun shown => TransfersAnswer.hashless⟩ ⟨list, hlist, hfirst⟩
      intro answer
      rw [transfersAnswer_iff hlist hsame, transfersAnswer_iff hown rfl]
      rfl
    · apply iff_of_false
      · apply not_private_of_error hlist herr hown
        · intro receipt hreceipt
          exact (List.mem_filter.mp hreceipt).2
        · exact lookupFailed_ne hash
      · rintro ⟨list', hlist', hfirst⟩
        obtain rfl : list' = list := congrArg Prod.fst (hlist'.symm.trans hlist)
        exact hnot hfirst
  · apply iff_of_false
    · exact not_private_of_error hlist rfl hown hfits (herrors data err hdata)
    · rintro ⟨list, hlist', -⟩
      cases hlist'.symm.trans hlist

end Transfers

/-- **Queries are private exactly when** the records of others can be read and none of them
    has the user's ID or, for `GetSwap`, a hash. -/
theorem views_private_iff {J : Codecs}
    (hreceipts : ∀ data err, J.receipt.unmarshal data = .error err → err ≠ swapNotFound)
    (htransfers : ∀ data err, J.transfer.unmarshal data = .error err →
      ∀ receipt, err ≠ lookupFailed receipt)
    (D : Config) (confirmations : BlockchainName → String → Except GoError Int)
    (password : String) (db : Db) :
    (Private (ownReceipt J D password) (fun shown => shown.map SwapReceipt.passwordHash)
          (SwapsAnswer J D password) db ↔
        ∃ list, receipts J db = (list, none) ∧ OwnLatest D password list) ∧
      (∀ id, Private (ownReceipt J D password) (fun receipt => [receipt.passwordHash])
            (SwapAnswer J password id) db ↔
          ∃ list, receipts J db = (list, none) ∧
            ∀ receipt, latestReceipt list id = some receipt → receipt.passwordHash = "") ∧
      (Private (ownTransfer J D password) (fun shown => shown.map TransferReceipt.passwordHash)
            (TransfersAnswer J D password confirmations) db ↔
          ∃ list, transfers J db = (list, none) ∧
            LookupFirst D confirmations password list) :=
  ⟨swaps_private_iff, fun id => swap_private_iff hreceipts id, transfers_private_iff htransfers⟩

/-! ### Another user's receipt -/

def bobReceipt : SwapReceipt where
  id := "AAAAAAAAAAAAAAAAAAAAAAAAAAAAAAAAAAAAAAAAAAA="
  sendToken := "BTC"
  receiveToken := "ETH"
  sendAmount := "20000"
  receiveAmount := "5000000000000000"
  timestamp := 1550000000
  timeLock := 1550086400
  active := true
  passwordHash := encodeToString (plainHash "bob")

def bobText : String :=
  "\x7b\"id\":\"AAAAAAAAAAAAAAAAAAAAAAAAAAAAAAAAAAAAAAAAAAA=\",\"sendToken\":\"BTC\"," ++
  "\"receiveToken\":\"ETH\",\"sendAmount\":\"20000\",\"receiveAmount\":\"5000000000000000\"," ++
  "\"sendCost\":\x7b\x7d,\"receiveCost\":\x7b\x7d,\"timestamp\":1550000000," ++
  "\"timeLock\":1550086400,\"status\":0,\"delay\":false,\"active\":true," ++
  "\"passwordHash\":\"JGJvYg==\"\x7d"

/-- The encoding of that receipt; nothing else is stored. -/
def bobCodecs : Codecs where
  blob := ⟨fun _ => .error (.errorf "not encoded here"),
    fun _ => .error (.errorf "unexpected end of JSON input")⟩
  receipt := {
    marshal := fun receipt =>
      if receipt = bobReceipt then .ok (stringBytes bobText)
      else .error (.errorf "not encoded here")
    unmarshal := fun data =>
      if data = stringBytes bobText then .ok bobReceipt
      else .error (.errorf "unexpected end of JSON input") }
  transfer := ⟨fun _ => .error (.errorf "not encoded here"),
    fun _ => .error (.errorf "unexpected end of JSON input")⟩

def bobKey : Bytes := tableSwapReceipts.name ++ List.replicate 32 0

def bobStore : Db := OrderedStore.empty.put bobKey (stringBytes bobText)

/-- The store when the receipt has been cut off. -/
def corruptStore : Db := OrderedStore.empty.put bobKey []

def unconfirmed (_ : BlockchainName) (_ : String) : Except GoError Int := .ok 0

theorem bob_errors :
    (∀ data err, bobCodecs.receipt.unmarshal data = .error err → err ≠ swapNotFound) ∧
      ∀ data err, bobCodecs.transfer.unmarshal data = .error err →
        ∀ receipt, err ≠ lookupFailed receipt := by
  constructor
  · intro data err herr
    dsimp only [bobCodecs] at herr
    split at herr
    · cases herr
    · obtain rfl := Except.error.inj herr
      decide
  · intro data err herr receipt h
    obtain rfl := Except.error.inj herr
    have htext := congrArg (fun err => match err with
      | GoError.errorf text => text.toList.head?
      | _ => none) h
    simp [lookupFailed] at htext

theorem views_private_iff_bob :
    Private (ownReceipt bobCodecs ownerConfig "alice") (fun receipt => [receipt.passwordHash])
        (SwapAnswer bobCodecs "alice" bobReceipt.id) bobStore ↔
      ∃ list, receipts bobCodecs bobStore = (list, none) ∧
        ∀ receipt, latestReceipt list bobReceipt.id = some receipt →
          receipt.passwordHash = "" :=
  (views_private_iff bob_errors.1 bob_errors.2 ownerConfig unconfirmed "alice" bobStore).2.1
    bobReceipt.id

/-- Alice asks for Bob's receipt and gets it with its hash; when it is corrupt, she gets none
    of her own. -/
theorem bob_receipt_shown :
    Storage.putReceipt bobCodecs OrderedStore.empty bobReceipt = .ok bobStore ∧
      fits ownerConfig "alice" bobReceipt.passwordHash = false ∧
      getSwap "alice" (listed (receipts bobCodecs bobStore)) bobReceipt.id = .ok bobReceipt ∧
      ¬ Private (ownReceipt bobCodecs ownerConfig "alice") (fun receipt => [receipt.passwordHash])
        (SwapAnswer bobCodecs "alice" bobReceipt.id) bobStore ∧
      ¬ Private (ownReceipt bobCodecs ownerConfig "alice")
        (fun shown => shown.map SwapReceipt.passwordHash)
        (SwapsAnswer bobCodecs ownerConfig "alice") corruptStore := by
  have hshown : getSwap "alice" (listed (receipts bobCodecs bobStore)) bobReceipt.id =
      .ok bobReceipt := by decide +kernel
  have hkey : decodeID bobReceipt.id = .ok (List.replicate 32 0) := by decide +kernel
  have hput : Storage.putReceipt bobCodecs OrderedStore.empty bobReceipt = .ok bobStore := by
    unfold Storage.putReceipt putRecord
    rw [hkey]
    rfl
  refine ⟨hput, by decide +kernel, hshown, ?_, ?_⟩
  · intro h
    have hnone := h.hashless bobReceipt hshown _ List.mem_cons_self
    revert hnone
    decide +kernel
  · rw [swaps_private_iff]
    rintro ⟨list, hlist, -⟩
    have hfails : (receipts bobCodecs corruptStore).2 =
        some (.errorf "unexpected end of JSON input") := by decide +kernel
    rw [hlist] at hfails
    cases hfails

end Swapperd.Statuses
