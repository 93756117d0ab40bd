/-
  Swapperd/SwapBodies.lean
  ========================
  **The JSON bodies of posted swaps and of their responses** (`adapter/server/http.go`,
  `handler.go`, `marshal.go`).

  `handlerJson` are the encodings that the handler signs.

  `encodesSigned_json` — these are such that a signed delay info is in the form in which
  it is stored and posted.
  `accepted_stored` — a swap that is accepted with this encoding can be stored, whatever
  body it was read from, and is read back.
  `response_read` — the `swap` of a response is, in any layout of it, the swap that was
  signed.
-/
import Swapperd.SignedDelayInfo
import Swapperd.StoredRecords
import Swapperd.DaemonOwners
import Swapperd.BitcoinAmounts
import Swapperd.SwapPosts

namespace Swapperd.Bodies

open GoLibrary Storage
open JsonText hiding isSpace
open Handler (Json)

/-! ### What the handler signs -/

inductive SignedField where
  | message
  | signature
deriving DecidableEq

namespace SignedField

/-- The tags of a signed delay info. -/
def tag : SignedField → Tag
  | message => ⟨"message", .raw, false⟩
  | signature => ⟨"signature", .string, false⟩

def get (delayInfo : List UInt8) (sig : String) : (i : SignedField) → i.tag.kind.Value
  | message => delayInfo
  | signature => sig

end SignedField

def signedSchema : Schema SignedField fun i => i.tag.kind.Value where
  fields := [.message, .signature]
  complete i := by cases i <;> decide
  name i := i.tag.name
  names_nodup := by decide
  omitempty i := i.tag.omitempty
  coder i := i.tag.kind.coder

def marshalSigned (message : List UInt8) (signature : String) : Except GoError Bytes :=
  (signedSchema.marshal (SignedField.get message signature)).elim
    (.error (.errorf "json: error calling MarshalJSON")) .ok

/-- A blob without a `delayInfo` is always written. -/
def marshalBlob (blob : SwapBlob) : Bytes :=
  (blobSchema.marshal (BlobField.get blob)).getD []

def handlerJson : Json where
  marshalBlob := marshalBlob
  marshalSigned := marshalSigned

section Signed

variable {message encoded : List UInt8} {signature : String}

theorem marshalSigned_eq_ok_iff : marshalSigned message signature = .ok encoded ↔
    ∃ text, rawCoder.marshal message = some text ∧
      encoded = objectText [("message", text), ("signature", encodeString signature)] := by
  have hfields : signedSchema.marshal (SignedField.get message signature) =
      ((rawCoder.marshal message).bind fun text =>
        some [("message", text), ("signature", encodeString signature)]).map objectText := rfl
  unfold marshalSigned
  rw [hfields, RecordSchema.elim_eq_ok_iff, Option.map_eq_some_iff]
  simp only [Option.bind_eq_some_iff, Option.some.injEq]
  constructor
  · rintro ⟨_, ⟨text, htext, rfl⟩, rfl⟩
    exact ⟨text, htext, rfl⟩
  · rintro ⟨text, htext, rfl⟩
    exact ⟨_, ⟨text, htext, rfl⟩, rfl⟩

theorem nullText_eq : stringBytes "null" = nullText := by decide +kernel

/-- An absent message is written as `null`; others have to be valid. -/
theorem rawCoder_marshal_eq_some_iff : rawCoder.marshal message = some encoded ↔
    IsRaw message ∧ encoded = Handler.rawMessage message := by
  unfold Handler.rawMessage IsRaw
  show (if message = [] then some nullText
    else if Valid message then some (marshalRaw message) else none) = some encoded ↔ _
  split_ifs with hnil hvalid
  · simp [hnil, eq_comm, nullText_eq]
  · simp [hvalid, eq_comm]
  · simp [hnil, hvalid]

/-- Base64 needs no escapes. -/
theorem encodeString_encodeToString (sig : List UInt8) :
    encodeString (encodeToString sig) =
      quote :: (stringBytes (encodeToString sig) ++ [quote]) := by
  have hchars : ('=' :: base64Alphabet).all
      (fun c => encodeChar c = String.utf8EncodeChar c) = true := by decide +kernel
  have hflat : (encodeGroups sig).flatMap encodeChar =
      (encodeGroups sig).flatMap String.utf8EncodeChar := by
    refine List.flatMap_congr fun c hc => ?_
    exact of_decide_eq_true (List.all_eq_true.mp hchars c (mem_encodeGroups c hc))
  unfold encodeToString
  rw [encodeString, String.toList_ofList, stringBytes_ofList, hflat]

theorem objectText_envelope (text sig : List UInt8) :
    objectText [("message", text), ("signature", encodeString (encodeToString sig))] =
      Handler.envelope text (encodeToString sig) := by
  have hopen : stringBytes "\x7b\"message\":" =
      openBrace :: (encodeString "message" ++ [colon]) := by decide +kernel
  have hmiddle : stringBytes ",\"signature\":\"" =
      comma :: (encodeString "signature" ++ [colon, quote]) := by decide +kernel
  have hclose : stringBytes "\"\x7d" = [quote, closeBrace] := by decide +kernel
  rw [Handler.envelope, hopen, hmiddle, hclose, encodeString_encodeToString]
  simp only [objectText, restText, List.cons_append, List.append_assoc, List.nil_append]

/-- The encodings of the daemon are such that the signature of a delay info can be relied
    on. -/
theorem encodesSigned_json : Handler.EncodesSigned handlerJson := by
  refine ⟨fun message sig encoded h => ?_⟩
  obtain ⟨text, htext, rfl⟩ := marshalSigned_eq_ok_iff.mp h
  obtain ⟨hraw, rfl⟩ := rawCoder_marshal_eq_some_iff.mp htext
  refine ⟨?_, objectText_envelope _ sig⟩
  rcases hraw with rfl | hvalid
  · rfl
  · exact hvalid.closed

end Signed

/-! ### What is accepted can be stored -/

section Accepted

variable {H : Hashes} {W : Wallet} {verifyBalance : VerifyBalance} {now : Int}
  {swapID : Bytes32} {request blob : SwapBlob}

theorem patchTerms_fit (hfit : FitBlob request) (h : Handler.patchTerms H now request = .ok blob) :
    FitBlob blob := by
  have hpatches := (Handler.patchTerms_patches h).1
  cases hrole : request.shouldInitiateFirst with
  | true =>
      have htime := (Handler.patchTerms_initiator h hrole).2
      refine ⟨?_, ?_, ?_⟩
      · rw [htime]
        exact Bitcoin.isInt64_int64 _
      · rw [hpatches]
        exact hfit.brokerFee
      · rw [hpatches]
        exact hfit.delayInfo
  | false =>
      rw [(Handler.patchTerms_responder h hrole).1]
      exact hfit

theorem patchDelayedSwap_fit (hfit : FitBlob request)
    (h : Handler.patchDelayedSwap H verifyBalance now swapID request = .ok blob) :
    FitBlob blob := by
  unfold Handler.patchDelayedSwap at h
  split at h
  · cases h
  · obtain ⟨_, -, h⟩ := except_bind_eq_ok_iff.mp h
    obtain ⟨_, -, h⟩ := except_bind_eq_ok_iff.mp h
    obtain ⟨_, -, h⟩ := except_bind_eq_ok_iff.mp h
    obtain ⟨_, -, h⟩ := except_bind_eq_ok_iff.mp h
    cases h
    exact ⟨Bitcoin.isInt64_int64 _, hfit.brokerFee, hfit.delayInfo⟩

/-- The signed delay info is an object. -/
theorem element_signed {message signed : List UInt8} {signature : String}
    (h : marshalSigned message signature = .ok signed) : Element signed := by
  obtain ⟨text, htext, rfl⟩ := marshalSigned_eq_ok_iff.mp h
  obtain ⟨hraw, rfl⟩ := rawCoder_marshal_eq_some_iff.mp htext
  have hmessage : Element (Handler.rawMessage message) := by
    unfold Handler.rawMessage
    split
    · exact ⟨by decide +kernel, by decide +kernel⟩
    · rename_i hne
      exact element_marshalRaw (hraw.resolve_left hne)
  refine element_objectText ?_
  simp only [List.forall_mem_cons]
  exact ⟨hmessage, element_encodeString signature, by simp⟩

theorem signDelayInfo_fit (hfit : FitBlob request)
    (h : Handler.signDelayInfo H W handlerJson request = .ok blob) : FitBlob blob := by
  unfold Handler.signDelayInfo at h
  split at h
  · cases h
  · split at h
    · cases h
    · rename_i signed hsigned
      cases h
      exact ⟨hfit.timeLock, hfit.brokerFee, .inr (element_signed hsigned).valid⟩

end Accepted

section Posted

variable {D : Daemon.Config} {verifyBalance : VerifyBalance} {now : Int} {swapID : Bytes32}
  {request blob : SwapBlob}

/-- The ID of an accepted swap is the base64 of 32 bytes. -/
theorem posted_id (h : Daemon.postSwapsHandler D verifyBalance now swapID request = .ok blob) :
    blob.id = encodeToString swapID.1 := by
  unfold Daemon.postSwapsHandler at h
  split at h
  · obtain ⟨patched, hpatched, hsigned⟩ := except_bind_eq_ok_iff.mp h
    rw [Handler.signDelayInfo_ok hsigned]
    exact (Handler.patchDelayedSwap_ok hpatched).2.1
  · exact (Handler.patchSwap_patches h).2

theorem posted_fit (hD : D.J = handlerJson) (hfit : FitBlob request)
    (h : Daemon.postSwapsHandler D verifyBalance now swapID request = .ok blob) :
    FitBlob blob := by
  unfold Daemon.postSwapsHandler at h
  split at h
  · rw [hD] at h
    obtain ⟨patched, hpatched, hsigned⟩ := except_bind_eq_ok_iff.mp h
    exact signDelayInfo_fit (patchDelayedSwap_fit hfit hpatched) hsigned
  · refine patchTerms_fit ?_ (Handler.patchSwap_ok h)
    exact ⟨hfit.timeLock, hfit.brokerFee, hfit.delayInfo⟩

/-- The delay info of an accepted swap is in the form of `json.Marshal` when it was signed, or
    when it was posted so. -/
theorem posted_form (hD : D.J = handlerJson)
    (hform : request.delay = false → marshalRaw request.delayInfo = request.delayInfo)
    (h : Daemon.postSwapsHandler D verifyBalance now swapID request = .ok blob) :
    marshalRaw blob.delayInfo = blob.delayInfo := by
  unfold Daemon.postSwapsHandler at h
  split at h
  · rw [hD] at h
    obtain ⟨sig, -, hclosed, hdelayInfo⟩ := Handler.posted_envelope encodesSigned_json h
    obtain ⟨hrawClosed, hrawClean⟩ := Handler.clean_rawMessage hclosed
    rw [hdelayInfo]
    exact (Handler.clean_envelope hrawClosed hrawClean (Handler.base64_literal sig)).marshalRaw
  · rename_i hdelay
    rw [(Handler.patchSwap_patches h).1]
    exact hform (Bool.eq_false_iff.mpr hdelay)

theorem getRecord_of_get {α : Type} {c : Codec α} {db : Db} {table : Table} {id : SwapID}
    {key : Bytes32} {data : Bytes} {record : α} (hid : id = encodeToString key.1)
    (hget : db.get (table.name ++ key.1) = some data) (hread : c.unmarshal data = .ok record) :
    getRecord c db table (decodeID id) = .ok record := by
  have hkey : decodeID id = .ok key.1 := by
    rw [hid, decodeID, decodeString_encodeToString]
  unfold getRecord
  refine except_bind_eq_ok_iff.mpr ⟨key.1, hkey, ?_⟩
  exact except_bind_eq_ok_iff.mpr ⟨data, find_ok hget, hread⟩

/-- What is put is read back, in the form of `json.Marshal`. -/
theorem putSwap_reads {key : Bytes32} (hid : blob.id = encodeToString key.1) (hfit : FitBlob blob)
    (db : Db) : ∃ db', putSwap jsonCodecs db blob = .ok db' ∧
      pendingSwap jsonCodecs db' blob.id = .ok (canonBlob (blob.withPassword "")) := by
  have hkey : decodeID (blob.withPassword "").id = .ok key.1 := by
    rw [show (blob.withPassword "").id = encodeToString key.1 from hid, decodeID,
      decodeString_encodeToString]
  obtain ⟨data, hmarshal, -, hread⟩ := blobRecord.reads (fit_blob_iff.mpr (hfit.withPassword ""))
  refine ⟨(db.put (tablePendingSwaps.name ++ key.1) data).put (tableSwaps.name ++ key.1) data,
    ?_, getRecord_of_get hid ?_ hread⟩
  · unfold putSwap
    refine except_bind_eq_ok_iff.mpr ⟨data, hmarshal, ?_⟩
    exact except_bind_eq_ok_iff.mpr ⟨key.1, hkey, rfl⟩
  · rw [get_put_other swaps_mem pending_mem (by decide), OrderedStore.get_put, if_pos rfl]

theorem putReceipt_reads {receipt : SwapReceipt} {key : Bytes32}
    (hid : receipt.id = encodeToString key.1) (hfit : FitReceipt receipt) (db : Db) :
    ∃ db', putReceipt jsonCodecs db receipt = .ok db' ∧
      Storage.receipt jsonCodecs db' receipt.id = .ok (canonReceipt receipt) := by
  have hkey : decodeID receipt.id = .ok key.1 := by
    rw [hid, decodeID, decodeString_encodeToString]
  obtain ⟨data, hmarshal, -, hread⟩ := receiptRecord.reads (fit_receipt_iff.mpr hfit)
  refine ⟨db.put (tableSwapReceipts.name ++ key.1) data, ?_, getRecord_of_get hid ?_ hread⟩
  · unfold putReceipt putRecord
    refine except_bind_eq_ok_iff.mpr ⟨data, hmarshal, ?_⟩
    exact except_bind_eq_ok_iff.mpr ⟨key.1, hkey, rfl⟩
  · rw [OrderedStore.get_put, if_pos rfl]

/-- **What is accepted can be stored.**  Of whatever body a swap is made, once it is accepted
    its blob and its receipt are written, and read back up to the form of `delayInfo`. -/
theorem accepted_stored (hD : D.J = handlerJson) {body : Bytes} {decoded : SwapBlob}
    (hbody : blobRecord.decode body = .ok decoded) {password : String}
    {hash : List UInt8} (haccepted : Daemon.postSwapsHandler D verifyBalance now swapID
      (Daemon.authorize password hash decoded) = .ok blob) {received : Int}
    (hreceived : IsInt64 received) (db : Db) :
    (∃ db', putSwap jsonCodecs db blob = .ok db' ∧
      pendingSwap jsonCodecs db' blob.id = .ok (canonBlob (blob.withPassword ""))) ∧
    ∃ db', putReceipt jsonCodecs db (newSwapReceipt received blob) = .ok db' ∧
      Storage.receipt jsonCodecs db' blob.id =
        .ok (canonReceipt (newSwapReceipt received blob)) := by
  obtain ⟨text, htext⟩ := blobRecord.unmarshal_of_decode hbody
  have hdecoded := fit_blob_iff.mp (blobRecord.fit_unmarshal htext)
  have hrequest : FitBlob (Daemon.authorize password hash decoded) :=
    ⟨hdecoded.timeLock, hdecoded.brokerFee, hdecoded.delayInfo⟩
  have hfit := posted_fit hD hrequest haccepted
  have hid := posted_id haccepted
  refine ⟨putSwap_reads hid hfit db, ?_⟩
  have hreceipt : FitReceipt (newSwapReceipt received blob) :=
    ⟨hreceived, hfit.timeLock, hfit.delayInfo⟩
  have hreads : (newSwapReceipt received blob).id = encodeToString swapID.1 := hid
  exact putReceipt_reads hreads hreceipt db

end Posted

/-- The body of an initiator, indented, and something after it. -/
def indentedBody : Bytes :=
  indent 0 (marshalBlob (sampleRequest.withPassword "")) ++ stringBytes "\nand so on"

def jsonConfig : Daemon.Config := { Daemon.sampleConfig with J := handlerJson }

def indentedBlob : SwapBlob :=
  (Daemon.postSwapsHandler jsonConfig (fun _ _ _ => .ok ()) 1550000000 sampleID
    (Daemon.authorize "alice" [] (sampleRequest.withPassword ""))).toOption.getD {}

theorem indentedBody_decodes :
    blobRecord.decode indentedBody = .ok (sampleRequest.withPassword "") := by
  decide +kernel

theorem indentedBlob_accepted :
    Daemon.postSwapsHandler jsonConfig (fun _ _ _ => .ok ()) 1550000000 sampleID
      (Daemon.authorize "alice" [] (sampleRequest.withPassword "")) = .ok indentedBlob := by
  decide +kernel

theorem accepted_stored_indented :
    (∃ db', putSwap jsonCodecs OrderedStore.empty indentedBlob = .ok db' ∧
      pendingSwap jsonCodecs db' indentedBlob.id =
        .ok (canonBlob (indentedBlob.withPassword ""))) ∧
    ∃ db', putReceipt jsonCodecs OrderedStore.empty (newSwapReceipt 1550000000 indentedBlob) =
        .ok db' ∧
      Storage.receipt jsonCodecs db' indentedBlob.id =
        .ok (canonReceipt (newSwapReceipt 1550000000 indentedBlob)) := by
  exact accepted_stored rfl indentedBody_decodes indentedBlob_accepted (by decide)
    OrderedStore.empty

/-! ### Responses -/

inductive ResponseField where
  | id
  | swap
  | signature
deriving DecidableEq

namespace ResponseField

open Handler (PostSwapResponse)

def all : List ResponseField := [id, swap, signature]

/-- The names in the tags of a `PostSwapResponse`. -/
def name : ResponseField → String
  | id => "id"
  | swap => "swap"
  | signature => "signature"

def omitempty : ResponseField → Bool
  | id => false
  | swap | signature => true

abbrev Value : ResponseField → Type
  | swap => (i : BlobField) → i.tag.kind.Value
  | id | signature => String

def coder : (i : ResponseField) → Coder i.Value
  | swap => blobSchema.toCoder
  | id | signature => stringCoder

def lawful : (i : ResponseField) → i.coder.Lawful i.omitempty
  | swap => Schema.lawful blobLaws _
  | id | signature => stringCoder_lawful _

def get (response : PostSwapResponse) : (i : ResponseField) → i.Value
  | id => response.id
  | swap => BlobField.get response.swap
  | signature => response.signature

end ResponseField

def responseSchema : Schema ResponseField ResponseField.Value where
  fields := ResponseField.all
  complete i := by cases i <;> decide
  name := ResponseField.name
  names_nodup := by decide
  omitempty := ResponseField.omitempty
  coder := ResponseField.coder

def responseLaws (i : ResponseField) :
    (responseSchema.coder i).Lawful (responseSchema.omitempty i) := i.lawful

/-- The text of a response, in any layout. -/
def IsAnswer (response : Handler.PostSwapResponse) (answer : Bytes) : Prop :=
  Valid answer ∧ responseSchema.marshal (ResponseField.get response) = some (compact answer)

section Response

variable {H : Hashes} {W : Wallet} {blob : SwapBlob} {response : Handler.PostSwapResponse}
  {post : Handler.PostSwapResponse → Handler.PostResult}

/-- An initiator's response is signed, in the encoding that it is signed in. -/
theorem buildSwapResponse_signed {J : Json}
    (h : Handler.buildSwapResponse H W J post blob = .ok response)
    (hrole : blob.shouldInitiateFirst = true) :
    (∃ sendTo receiveFrom, response.swap = Handler.responseBlob blob sendTo receiveFrom) ∧
      ∃ sig, Handler.sign H W blob.password (J.marshalBlob response.swap) = .ok sig ∧
        response.signature = encodeToString sig := by
  unfold Handler.buildSwapResponse at h
  obtain ⟨sendToken, -, h⟩ := except_bind_eq_ok_iff.mp h
  obtain ⟨receiveToken, -, h⟩ := except_bind_eq_ok_iff.mp h
  obtain ⟨sendTo, -, h⟩ := except_bind_eq_ok_iff.mp h
  obtain ⟨receiveFrom, -, h⟩ := except_bind_eq_ok_iff.mp h
  obtain ⟨sig, hsig, h⟩ := except_bind_eq_ok_iff.mp h
  simp only [Handler.postedResponse_initiator hrole] at h
  -- what the response URL answers decides whether there is a response, and not which
  split at h
  · obtain ⟨⟨statusCode, respBytes⟩, -, h⟩ := except_bind_eq_ok_iff.mp h
    dsimp only at h
    split at h
    · obtain ⟨_, -, h⟩ := except_bind_eq_ok_iff.mp h
      cases h
    · cases h
      exact ⟨⟨sendTo, receiveFrom, rfl⟩, sig, hsig, rfl⟩
  · cases h
    exact ⟨⟨sendTo, receiveFrom, rfl⟩, sig, hsig, rfl⟩

theorem fit_responseBlob (hfit : FitBlob blob) (sendTo receiveFrom : String) :
    FitBlob (Handler.responseBlob blob sendTo receiveFrom) :=
  ⟨hfit.timeLock, hfit.brokerFee, .inl rfl⟩

/-- The form of a blob is that of its `delayInfo`, which is nil only if it is not there. -/
theorem eq_of_canon {fields : (i : BlobField) → i.tag.kind.Value}
    (hfit : Schema.Fit blobLaws fields) (hdelayInfo : blob.delayInfo = [])
    (hcanon : Schema.canon blobLaws fields = Schema.canon blobLaws (BlobField.get blob)) :
    fields = BlobField.get blob := by
  refine funext fun i => ?_
  have hi := congrFun hcanon i
  cases i with
  | delayInfo =>
      have hnil : marshalRaw (fields .delayInfo) = [] := by
        have hraw : marshalRaw (fields .delayInfo) = marshalRaw blob.delayInfo := hi
        rw [hraw, hdelayInfo, marshalRaw_nil]
      have hraw : IsRaw (fields .delayInfo) := hfit .delayInfo
      rcases hraw with hempty | hvalid
      · exact hempty.trans hdelayInfo.symm
      · exact absurd hnil (valid_marshalRaw hvalid).ne_nil
  | _ => exact hi

/-- What was written of a blob without `delayInfo` is read as that blob, in any layout. -/
theorem unmarshal_layout {text : Bytes} (hvalid : Valid text) (hfit : FitBlob blob)
    (hdelayInfo : blob.delayInfo = [])
    (hmarshal : blobSchema.marshal (BlobField.get blob) = some (compact text)) :
    jsonCodecs.blob.unmarshal text = .ok blob := by
  have hfields : Schema.Fit blobLaws (BlobField.get blob) := fit_blob_iff.mpr hfit
  obtain ⟨data, hdata, -, hread⟩ := Schema.unmarshal_marshal blobLaws hfields
  obtain rfl : data = compact text := Option.some.inj (hdata.symm.trans hmarshal)
  have hself : Schema.canon blobLaws (BlobField.get blob) = BlobField.get blob := by
    have hblob : canonBlob blob = blob := by
      rw [canonBlob, hdelayInfo, marshalRaw_nil, ← hdelayInfo]
    exact (blobRecord.get_canon blob).symm.trans (congrArg BlobField.get hblob)
  have hzero : Schema.canon blobLaws blobSchema.zero = Schema.canon blobLaws blobSchema.zero := rfl
  have hlayout := Schema.unmarshal_compact blobLaws hvalid hzero
  rw [hread, hself, Option.map_some] at hlayout
  obtain ⟨fields, hread', hcanon⟩ := Option.map_eq_some_iff.mp hlayout.symm
  have hfit' := Schema.fit_unmarshal blobLaws (Schema.fit_zero blobLaws) hread'
  refine blobRecord.unmarshal_eq_ok_iff.mpr ⟨hvalid, hread'.trans (congrArg some ?_)⟩
  exact eq_of_canon hfit' hdelayInfo hcanon

/-- **What is read of a response is what was signed.**  Whatever layout the answer of an
    initiator has, its `swap` has the compact form that the signature is over, and a body
    with this `swap` is read as the swap of the response. -/
theorem response_read (hfit : FitBlob blob) (hrole : blob.shouldInitiateFirst = true)
    (h : Handler.buildSwapResponse H W handlerJson post blob = .ok response) {answer : Bytes}
    (hanswer : IsAnswer response answer) :
    ∃ ms swap sig, members answer = some ms ∧ ("swap", swap) ∈ ms ∧
      Handler.sign H W blob.password (compact swap) = .ok sig ∧
        response.signature = encodeToString sig ∧
          jsonCodecs.blob.unmarshal swap = .ok response.swap ∧
            blobRecord.decode swap = .ok response.swap := by
  obtain ⟨⟨sendTo, receiveFrom, hswap⟩, sig, hsig, hsignature⟩ := buildSwapResponse_signed h hrole
  have hfit' : FitBlob response.swap := hswap ▸ fit_responseBlob hfit sendTo receiveFrom
  have hresponse : Schema.Fit responseLaws (ResponseField.get response) := by
    intro i
    cases i with
    | swap => exact fit_blob_iff.mpr hfit'
    | id | signature => trivial
  -- the member of the swap, as it was written
  obtain ⟨written, hwritten, htext⟩ := Option.map_eq_some_iff.mp hanswer.2
  have helements : ∀ m ∈ written, Element m.2 := by
    obtain ⟨ms, hms, helements, -⟩ :=
      Schema.marshalFields_spec responseLaws hresponse responseSchema.nodup
    rwa [Option.some.inj (hms.symm.trans hwritten)] at helements
  obtain ⟨text, hmarshal, hmem⟩ :=
    Schema.mem_marshalFields hwritten (responseSchema.complete .swap) rfl
  have hblob : blobSchema.marshal (BlobField.get response.swap) = some text := hmarshal
  -- the same member, as it is in the answer
  obtain ⟨ms, hms, hlayout⟩ : ∃ ms, members answer = some ms ∧
      ms.map (fun m => (m.1, compact m.2)) = written := by
    have hcompact := members_compact hanswer.1
    rw [← htext, members_objectText helements] at hcompact
    obtain ⟨ms, hms, heq⟩ := Option.map_eq_some_iff.mp hcompact.symm
    exact ⟨ms, hms, heq⟩
  rw [← hlayout] at hmem
  obtain ⟨⟨key, swap⟩, hm, heq⟩ := List.mem_map.mp hmem
  obtain ⟨rfl, rfl⟩ := Prod.mk.inj heq
  have hread : jsonCodecs.blob.unmarshal swap = .ok response.swap := by
    refine unmarshal_layout (valid_of_mem_members hms _ hm) hfit' ?_ hblob
    rw [hswap]
    rfl
  refine ⟨ms, swap, sig, hms, hm, ?_, hsignature, hread, blobRecord.decode_of_unmarshal hread⟩
  have hbytes : handlerJson.marshalBlob response.swap = compact swap := by
    show (blobSchema.marshal _).getD [] = _
    rw [hblob, Option.getD_some]
  rw [← hbytes]
  exact hsig

end Response

/-- A wallet that signs. -/
def signingWallet : Wallet :=
  { initiatorWallet with ecdsaSigner := fun _ => .ok fun hash => .ok hash.1 }

def signedResponse : Handler.PostSwapResponse :=
  (Handler.buildSwapResponse zeroHashes signingWallet handlerJson (fun _ => .ok (200, .ok ""))
    sampleInitiator).toOption.getD {}

/-- The response, indented. -/
def indentedAnswer : Bytes :=
  indent 0 ((responseSchema.marshal (ResponseField.get signedResponse)).getD [])

theorem response_read_indented :
    ∃ ms swap sig, members indentedAnswer = some ms ∧ ("swap", swap) ∈ ms ∧
      Handler.sign zeroHashes signingWallet sampleInitiator.password (compact swap) = .ok sig ∧
        signedResponse.signature = encodeToString sig ∧
          jsonCodecs.blob.unmarshal swap = .ok signedResponse.swap ∧
            blobRecord.decode swap = .ok signedResponse.swap := by
  have hresponse : Handler.buildSwapResponse zeroHashes signingWallet handlerJson
      (fun _ => .ok (200, .ok "")) sampleInitiator = .ok signedResponse := by decide +kernel
  have hfit : FitBlob sampleInitiator :=
    ⟨by decide +kernel, by decide +kernel, .inl (by decide +kernel)⟩
  exact response_read hfit (by decide +kernel) hresponse ⟨by decide +kernel, by decide +kernel⟩

end Swapperd.Bodies
