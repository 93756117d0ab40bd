/-
  Swapperd/SwapWrites.lean
  ========================
  **The two writes of `PutSwap`** (`adapter/db/db.go`), either of which may fail.

  A swap goes to the table of pending swaps first and to the table of all swaps next.
  Only the pending table is read again.  When the second write fails, `PutSwap` fails
  although the swap is pending: a failing `PutSwap` leaves the listing and the records as
  they were exactly when it has not come that far, or has written what was there
  (`allOrNothing_iff`).
-/
import Swapperd.StorageListing

namespace Swapperd.Storage

open GoLibrary

/-- What the store answers to the writes of one `PutSwap`. A write that fails leaves the
    store as it was. -/
structure WriteReplies where
  pendingSwaps : Except GoError Unit
  swaps : Except GoError Unit

section

variable (J : Codecs) (db : Db) (replies : WriteReplies) (blob : SwapBlob)

/-- `PutSwap` on a store that may fail: what it returns, and the store it leaves. -/
def putSwapWrites : Except GoError Unit × Db :=
  let blob := blob.withPassword ""
  match J.blob.marshal blob with
  | .error err => (.error err, db)
  | .ok swapData =>
      match decodeID blob.id with
      | .error err => (.error err, db)
      | .ok id =>
          match replies.pendingSwaps with
          | .error err => (.error err, db)
          | .ok () =>
              let db := db.put (tablePendingSwaps.name ++ id) swapData
              match replies.swaps with
              | .error err => (.error err, db)
              | .ok () => (.ok (), db.put (tableSwaps.name ++ id) swapData)

/-- `PutSwap` comes to its second write, for this record at this key. -/
structure ReachesSwaps (id swapData : Bytes) : Prop where
  marshal : J.blob.marshal (blob.withPassword "") = .ok swapData
  key : decodeID blob.id = .ok id
  pendingSwaps : replies.pendingSwaps = .ok ()

/-- When `PutSwap` fails, pending swaps are listed and found as before. -/
def AllOrNothing : Prop :=
  ∀ err, (putSwapWrites J db replies blob).1 = .error err →
    pendingSwaps J (putSwapWrites J db replies blob).2 = pendingSwaps J db ∧
      ∀ swapID, pendingSwap J (putSwapWrites J db replies blob).2 swapID =
        pendingSwap J db swapID

end

section

variable {J : Codecs} {db : Db} {replies : WriteReplies} {blob : SwapBlob} {id swapData : Bytes}

/-- On a store that works, the writes are those of `putSwap`. -/
theorem putSwap_eq_writes (J : Codecs) (db : Db) (blob : SwapBlob) :
    putSwap J db blob =
      (putSwapWrites J db ⟨.ok (), .ok ()⟩ blob).1.map fun _ =>
        (putSwapWrites J db ⟨.ok (), .ok ()⟩ blob).2 := by
  unfold putSwapWrites putSwap
  dsimp only
  cases J.blob.marshal (blob.withPassword "") with
  | error err => rfl
  | ok data =>
      cases decodeID (blob.withPassword "").id with
      | error err => rfl
      | ok key => rfl

/-- What `PutSwap` returns once it comes to its second write. -/
theorem ReachesSwaps.writes (db : Db) (h : ReachesSwaps J replies blob id swapData) :
    putSwapWrites J db replies blob =
      match replies.swaps with
      | .error err => (.error err, db.put (tablePendingSwaps.name ++ id) swapData)
      | .ok () => (.ok (), (db.put (tablePendingSwaps.name ++ id) swapData).put
          (tableSwaps.name ++ id) swapData) := by
  unfold putSwapWrites
  simp only [h.marshal, SwapBlob.withPassword_id, h.key, h.pendingSwaps]

/-- Before that it fails, and writes nothing. -/
theorem writes_of_not_reaches (db : Db)
    (h : ∀ id swapData, ¬ ReachesSwaps J replies blob id swapData) :
    ∃ err, putSwapWrites J db replies blob = (.error err, db) := by
  unfold putSwapWrites
  dsimp only
  rw [SwapBlob.withPassword_id]
  cases hdata : J.blob.marshal (blob.withPassword "") with
  | error err => exact ⟨err, rfl⟩
  | ok data =>
      cases hkey : decodeID blob.id with
      | error err => exact ⟨err, rfl⟩
      | ok key =>
          cases hpending : replies.pendingSwaps with
          | error err => exact ⟨err, rfl⟩
          | ok u => exact absurd ⟨hdata, hkey, hpending⟩ (h key data)

/-! ### What is read after a write -/

section Records

variable {α : Type} {c : Codec α} {table : Table} {key data : Bytes} {record : α}

theorem getRecord_put (c : Codec α) (db : Db) (table : Table) (key data : Bytes) :
    getRecord c (db.put (table.name ++ key) data) table (.ok key) = c.unmarshal data := by
  have hfind : find (db.put (table.name ++ key) data) table key = .ok data := by
    apply find_ok
    rw [OrderedStore.get_put, if_pos rfl]
  change (find _ table key >>= c.unmarshal) = _
  rw [hfind]
  rfl

/-- A record with another key is read as before. -/
theorem getRecord_put_of_ne (c : Codec α) (db : Db) (table : Table) (data : Bytes) {other : Bytes}
    (hne : other ≠ key) :
    getRecord c (db.put (table.name ++ key) data) table (.ok other) =
      getRecord c db table (.ok other) := by
  have hfind : find (db.put (table.name ++ key) data) table other = find db table other := by
    unfold find
    rw [OrderedStore.get_put, if_neg]
    intro h
    exact hne (List.append_cancel_left h)
  change (find _ table other >>= c.unmarshal) = (find db table other >>= c.unmarshal)
  rw [hfind]

theorem unmarshalAll_congr {β : Type} {f g : β → Bytes} {l : List β}
    (h : ∀ b ∈ l, c.unmarshal (f b) = c.unmarshal (g b)) :
    unmarshalAll c (l.map f) = unmarshalAll c (l.map g) := by
  induction l with
  | nil => rfl
  | cons b l ih =>
      rw [List.map_cons, List.map_cons, unmarshalAll, unmarshalAll, h b List.mem_cons_self,
        ih fun b' hb' => h b' (List.mem_cons_of_mem _ hb')]

theorem getRecord_ok_iff :
    getRecord c db table (.ok key) = .ok record ↔
      ∃ data, db.get (table.name ++ key) = some data ∧ c.unmarshal data = .ok record := by
  change (find db table key >>= c.unmarshal) = .ok record ↔ _
  unfold find
  cases db.get (table.name ++ key) with
  | none =>
      constructor
      · intro h
        cases h
      · rintro ⟨data, hdata, -⟩
        cases hdata
  | some data =>
      constructor
      · intro h
        exact ⟨data, rfl, h⟩
      · rintro ⟨data', hdata, hread⟩
        cases hdata
        exact hread

/-- Writing a record that reads as the one that is there changes nothing that is read. -/
theorem reads_as_before (hget : getRecord c db table (.ok key) = .ok record)
    (hread : c.unmarshal data = .ok record) :
    listRecords c (db.put (table.name ++ key) data) table = listRecords c db table ∧
      ∀ k, getRecord c (db.put (table.name ++ key) data) table k = getRecord c db table k := by
  obtain ⟨old, hold, hreadOld⟩ := getRecord_ok_iff.mp hget
  constructor
  · unfold listRecords
    rw [OrderedStore.range_put_of_get hold, List.map_map]
    apply unmarshalAll_congr
    intro e he
    rw [Function.comp_apply]
    split
    · -- the entry at the key
      rename_i hkey
      have hsome := (OrderedStore.mem_range.mp he).1
      rw [hkey, hold] at hsome
      rw [hread, ← Option.some.inj hsome, hreadOld]
    · rfl
  · intro k
    cases k with
    | error err => rfl
    | ok other =>
        by_cases hkey : other = key
        · rw [hkey, getRecord_put, hget, hread]
        · exact getRecord_put_of_ne c db table data hkey

end Records

/-- **A failing `PutSwap` leaves pending swaps as they were exactly when** it does not
    come to its second write, or has written what was there. -/
theorem allOrNothing_iff (hreads : ∀ data, J.blob.marshal (blob.withPassword "") = .ok data →
      ∃ record, J.blob.unmarshal data = .ok record) :
    AllOrNothing J db replies blob ↔
      ∀ id swapData err, ReachesSwaps J replies blob id swapData → replies.swaps = .error err →
        pendingSwap J db blob.id = J.blob.unmarshal swapData := by
  constructor
  · intro h id swapData err hreaches herr
    have hwrites := hreaches.writes db
    rw [herr] at hwrites
    obtain ⟨-, hfind⟩ := h err (by rw [hwrites])
    rw [← hfind blob.id, hwrites]
    unfold pendingSwap
    rw [hreaches.key, getRecord_put]
  · intro h err hfails
    by_cases hreaches : ∃ id swapData, ReachesSwaps J replies blob id swapData
    · obtain ⟨id, swapData, hreaches⟩ := hreaches
      have hwrites := hreaches.writes db
      cases hswaps : replies.swaps with
      | ok u =>
          rw [hwrites, hswaps] at hfails
          cases hfails
      | error err' =>
          obtain ⟨record, hrecord⟩ := hreads swapData hreaches.marshal
          have hold := h id swapData err' hreaches hswaps
          unfold pendingSwap at hold
          rw [hreaches.key, hrecord] at hold
          rw [hwrites, hswaps]
          obtain ⟨hlist, hfind⟩ := reads_as_before hold hrecord
          exact ⟨hlist, fun swapID => hfind _⟩
    · obtain ⟨err', hwrites⟩ := writes_of_not_reaches db
        fun id swapData hr => hreaches ⟨id, swapData, hr⟩
      rw [hwrites]
      exact ⟨rfl, fun _ => rfl⟩

end

end Swapperd.Storage
