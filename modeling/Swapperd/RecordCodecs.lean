/-
  Swapperd/RecordCodecs.lean
  ==========================
  **The records of the daemon as JSON** (`foundation/swap`, `core/wallet/transfer`).

  A record is a struct; the tables of tags are the source's.  `jsonCodecs` are the codecs
  that the storage has.

  `RecordSchema.reads` — a record that Go can hold is written, and read back up to the form
  of its `delayInfo`.
-/
import Swapperd.JsonRecords
import Swapperd.StorageListing

namespace Swapperd.Storage

open GoLibrary
open JsonText hiding isSpace

/-! ### Codecs from schemas -/

/-- The schema of a type of records, and what a record is made of. -/
structure RecordSchema (α : Type) where
  ι : Type
  [decEq : DecidableEq ι]
  V : ι → Type
  schema : Schema ι V
  laws : (i : ι) → (schema.coder i).Lawful (schema.omitempty i)
  get : α → (i : ι) → V i
  build : ((i : ι) → V i) → Option α
  canon : α → α
  build_get (record : α) : build (get record) = some record
  get_build {fields : (i : ι) → V i} {record : α} (h : build fields = some record) :
    get record = fields
  get_canon (record : α) : get (canon record) = Schema.canon laws (get record)

namespace RecordSchema

variable {α : Type} (R : RecordSchema α) {record : α} {data : Bytes}

instance : DecidableEq R.ι := R.decEq

def marshal (record : α) : Except GoError Bytes :=
  (R.schema.marshal (R.get record)).elim (.error (.errorf "json: error calling MarshalJSON")) .ok

/-- `json.Unmarshal`, which takes a text that is JSON as a whole. -/
def unmarshal (text : Bytes) : Except GoError α :=
  if Valid text then
    ((R.schema.unmarshal text R.schema.zero).bind R.build).elim
      (.error (.errorf "json: cannot unmarshal")) .ok
  else .error (.errorf "invalid character")

/-- `Decoder.Decode`, which leaves what comes after the first value. -/
def decode (text : Bytes) : Except GoError α :=
  (Scanner.start.readValue text).elim (.error (.errorf "invalid character")) R.unmarshal

def codec : Codec α := ⟨R.marshal, R.unmarshal⟩

/-- Every field has a value of its Go type. -/
def Fit (record : α) : Prop := Schema.Fit R.laws (R.get record)

theorem elim_eq_ok_iff {β : Type} {x : Option β} {err : GoError} {b : β} :
    x.elim (.error err) Except.ok = .ok b ↔ x = some b := by
  cases x with
  | none => simp
  | some a => simp

theorem unmarshal_eq_ok_iff : R.codec.unmarshal data = .ok record ↔
    Valid data ∧ R.schema.unmarshal data R.schema.zero = some (R.get record) := by
  show R.unmarshal data = .ok record ↔ _
  unfold unmarshal
  split_ifs with hvalid
  · rw [elim_eq_ok_iff, Option.bind_eq_some_iff]
    constructor
    · rintro ⟨fields, hfields, hbuild⟩
      rw [R.get_build hbuild]
      exact ⟨hvalid, hfields⟩
    · rintro ⟨-, h⟩
      exact ⟨_, h, R.build_get record⟩
  · simp [hvalid]

/-- What is decoded was unmarshalled of a text. -/
theorem unmarshal_of_decode (h : R.decode data = .ok record) :
    ∃ text, R.codec.unmarshal text = .ok record := by
  unfold decode at h
  cases hread : Scanner.start.readValue data with
  | none =>
      rw [hread] at h
      cases h
  | some text =>
      rw [hread] at h
      exact ⟨text, h⟩

/-- A text that is JSON as a whole is decoded as it is unmarshalled. -/
theorem decode_of_unmarshal (h : R.codec.unmarshal data = .ok record) :
    R.decode data = .ok record := by
  obtain ⟨hvalid, hfields⟩ := R.unmarshal_eq_ok_iff.mp h
  obtain ⟨text, spaces, hread, rfl, hspaces⟩ := readValue_of_valid hvalid
  have htext := valid_of_readValue hread
  rw [Schema.unmarshal_append_spaces htext hspaces] at hfields
  rw [decode, hread]
  exact R.unmarshal_eq_ok_iff.mpr ⟨htext, hfields⟩

theorem marshal_eq_ok_iff : R.codec.marshal record = .ok data ↔
    R.schema.marshal (R.get record) = some data := elim_eq_ok_iff

/-- What is read is what Go can hold. -/
theorem fit_unmarshal (h : R.codec.unmarshal data = .ok record) : R.Fit record :=
  Schema.fit_unmarshal R.laws (Schema.fit_zero R.laws) (R.unmarshal_eq_ok_iff.mp h).2

/-- What Go can hold is written, and read back up to its form. -/
theorem reads (h : R.Fit record) : ∃ data, R.codec.marshal record = .ok data ∧ Element data ∧
    R.codec.unmarshal data = .ok (R.canon record) := by
  obtain ⟨data, hmarshal, helement, hunmarshal⟩ := Schema.unmarshal_marshal R.laws h
  refine ⟨data, R.marshal_eq_ok_iff.mpr hmarshal, helement,
    R.unmarshal_eq_ok_iff.mpr ⟨helement.valid, ?_⟩⟩
  rw [R.get_canon]
  exact hunmarshal

theorem marshal_canon (h : R.Fit record) :
    R.codec.marshal (R.canon record) = R.codec.marshal record := by
  have heq : R.schema.marshal (R.get (R.canon record)) = R.schema.marshal (R.get record) := by
    rw [R.get_canon]
    exact Schema.marshal_canon R.laws h
  show R.marshal (R.canon record) = R.marshal record
  unfold marshal
  rw [heq]

/-- What was read is read as it was written. -/
theorem roundTrips_canon (h : R.Fit record) : R.codec.RoundTrips (R.canon record) := by
  obtain ⟨data, hmarshal, -, hunmarshal⟩ := R.reads h
  exact ⟨data, (R.marshal_canon h).trans hmarshal, hunmarshal⟩

end RecordSchema

/-! ### Swap blobs -/

inductive BlobField where
  | id
  | sendToken
  | receiveToken
  | sendFee
  | sendAmount
  | receiveFee
  | receiveAmount
  | minimumReceiveAmount
  | sendTo
  | receiveFrom
  | timeLock
  | secretHash
  | shouldInitiateFirst
  | delay
  | delayInfo
  | delayCallbackURL
  | brokerFee
  | brokerSendTokenAddr
  | brokerReceiveTokenAddr
  | withdrawAddress
  | responseURL
  | password
  | passwordHash
deriving DecidableEq

namespace BlobField

def all : List BlobField :=
  [id, sendToken, receiveToken, sendFee, sendAmount, receiveFee, receiveAmount,
    minimumReceiveAmount, sendTo, receiveFrom, timeLock, secretHash, shouldInitiateFirst, delay,
    delayInfo, delayCallbackURL, brokerFee, brokerSendTokenAddr, brokerReceiveTokenAddr,
    withdrawAddress, responseURL, password, passwordHash]

/-- The tags of a `SwapBlob`. -/
def tag : BlobField → Tag
  | id => ⟨"id", .string, true⟩
  | sendToken => ⟨"sendToken", .string, false⟩
  | receiveToken => ⟨"receiveToken", .string, false⟩
  | sendFee => ⟨"sendFee", .string, true⟩
  | sendAmount => ⟨"sendAmount", .string, false⟩
  | receiveFee => ⟨"receiveFee", .string, true⟩
  | receiveAmount => ⟨"receiveAmount", .string, false⟩
  | minimumReceiveAmount => ⟨"minimumReceiveAmount", .string, true⟩
  | sendTo => ⟨"sendTo", .string, false⟩
  | receiveFrom => ⟨"receiveFrom", .string, false⟩
  | timeLock => ⟨"timeLock", .int64, false⟩
  | secretHash => ⟨"secretHash", .string, false⟩
  | shouldInitiateFirst => ⟨"shouldInitiateFirst", .bool, false⟩
  | delay => ⟨"delay", .bool, true⟩
  | delayInfo => ⟨"delayInfo", .raw, true⟩
  | delayCallbackURL => ⟨"delayCallbackUrl", .string, true⟩
  | brokerFee => ⟨"brokerFee", .int64, true⟩
  | brokerSendTokenAddr => ⟨"brokerSendTokenAddr", .string, true⟩
  | brokerReceiveTokenAddr => ⟨"brokerReceiveTokenAddr", .string, true⟩
  | withdrawAddress => ⟨"withdrawAddress", .string, true⟩
  | responseURL => ⟨"responseURL", .string, true⟩
  | password => ⟨"password", .string, true⟩
  | passwordHash => ⟨"passwordHash", .string, true⟩

/-- The value of a field. -/
def get (blob : SwapBlob) : (i : BlobField) → i.tag.kind.Value
  | id => blob.id
  | sendToken => blob.sendToken
  | receiveToken => blob.receiveToken
  | sendFee => blob.sendFee
  | sendAmount => blob.sendAmount
  | receiveFee => blob.receiveFee
  | receiveAmount => blob.receiveAmount
  | minimumReceiveAmount => blob.minimumReceiveAmount
  | sendTo => blob.sendTo
  | receiveFrom => blob.receiveFrom
  | timeLock => blob.timeLock
  | secretHash => blob.secretHash
  | shouldInitiateFirst => blob.shouldInitiateFirst
  | delay => blob.delay
  | delayInfo => blob.delayInfo
  | delayCallbackURL => blob.delayCallbackURL
  | brokerFee => blob.brokerFee
  | brokerSendTokenAddr => blob.brokerSendTokenAddr
  | brokerReceiveTokenAddr => blob.brokerReceiveTokenAddr
  | withdrawAddress => blob.withdrawAddress
  | responseURL => blob.responseURL
  | password => blob.password
  | passwordHash => blob.passwordHash

/-- The blob with these values. -/
def build (fields : (i : BlobField) → i.tag.kind.Value) : SwapBlob where
  id := fields id
  sendToken := fields sendToken
  receiveToken := fields receiveToken
  sendFee := fields sendFee
  sendAmount := fields sendAmount
  receiveFee := fields receiveFee
  receiveAmount := fields receiveAmount
  minimumReceiveAmount := fields minimumReceiveAmount
  sendTo := fields sendTo
  receiveFrom := fields receiveFrom
  timeLock := fields timeLock
  secretHash := fields secretHash
  shouldInitiateFirst := fields shouldInitiateFirst
  delay := fields delay
  delayInfo := fields delayInfo
  delayCallbackURL := fields delayCallbackURL
  brokerFee := fields brokerFee
  brokerSendTokenAddr := fields brokerSendTokenAddr
  brokerReceiveTokenAddr := fields brokerReceiveTokenAddr
  withdrawAddress := fields withdrawAddress
  responseURL := fields responseURL
  password := fields password
  passwordHash := fields passwordHash

end BlobField

def blobSchema : Schema BlobField fun i => i.tag.kind.Value where
  fields := BlobField.all
  complete i := by cases i <;> decide
  name i := i.tag.name
  names_nodup := by decide
  omitempty i := i.tag.omitempty
  coder i := i.tag.kind.coder

def blobLaws (i : BlobField) : (blobSchema.coder i).Lawful (blobSchema.omitempty i) :=
  i.tag.kind.lawful i.tag.omitempty (by cases i <;> decide)

/-- The blob as it is read from what is written of it. -/
def canonBlob (blob : SwapBlob) : SwapBlob := { blob with delayInfo := marshalRaw blob.delayInfo }

def blobRecord : RecordSchema SwapBlob where
  ι := BlobField
  V i := i.tag.kind.Value
  schema := blobSchema
  laws := blobLaws
  get := BlobField.get
  build fields := some (BlobField.build fields)
  canon := canonBlob
  build_get _ := rfl
  get_build h := by
    cases h
    exact funext fun i => by cases i <;> rfl
  get_canon _ := funext fun i => by cases i <;> rfl

/-! ### Swap receipts -/

inductive ReceiptField where
  | id
  | sendToken
  | receiveToken
  | sendAmount
  | receiveAmount
  | sendCost
  | receiveCost
  | timestamp
  | timeLock
  | status
  | delay
  | delayInfo
  | active
  | passwordHash
deriving DecidableEq

/-- The statuses in the order of their numbers. -/
def statuses : List Status :=
  [.inactive, .initiated, .audited, .auditPending, .auditFailed, .redeemed, .auditedSecret,
    .refunded, .refundFailed, .cancelled, .expired]

def statusCode (status : Status) : Int := statuses.idxOf status

/-- The status of a number, which Go does not ask for. -/
def statusOf (code : Int) : Option Status := if code < 0 then none else statuses[code.toNat]?

theorem statusOf_statusCode (status : Status) : statusOf (statusCode status) = some status := by
  cases status <;> rfl

theorem statusCode_statusOf {code : Int} {status : Status} (h : statusOf code = some status) :
    statusCode status = code := by
  unfold statusOf at h
  split_ifs at h with hneg
  obtain ⟨hlt, hstatus⟩ := List.getElem?_eq_some_iff.mp h
  have hindex : statuses.idxOf status = code.toNat := by
    rw [← hstatus]
    exact List.Nodup.idxOf_getElem (by decide) _ hlt
  rw [statusCode, hindex]
  omega

theorem isInt64_statusCode (status : Status) : IsInt64 (statusCode status) := by
  cases status <;> decide

namespace ReceiptField

def all : List ReceiptField :=
  [id, sendToken, receiveToken, sendAmount, receiveAmount, sendCost, receiveCost, timestamp,
    timeLock, status, delay, delayInfo, active, passwordHash]

/-- The tags of a `SwapReceipt`. -/
def tag : ReceiptField → Tag
  | id => ⟨"id", .string, false⟩
  | sendToken => ⟨"sendToken", .string, false⟩
  | receiveToken => ⟨"receiveToken", .string, false⟩
  | sendAmount => ⟨"sendAmount", .string, false⟩
  | receiveAmount => ⟨"receiveAmount", .string, false⟩
  | sendCost => ⟨"sendCost", .stringMap, false⟩
  | receiveCost => ⟨"receiveCost", .stringMap, false⟩
  | timestamp => ⟨"timestamp", .int64, false⟩
  | timeLock => ⟨"timeLock", .int64, false⟩
  | status => ⟨"status", .int64, false⟩
  | delay => ⟨"delay", .bool, false⟩
  | delayInfo => ⟨"delayInfo", .raw, true⟩
  | active => ⟨"active", .bool, false⟩
  | passwordHash => ⟨"passwordHash", .string, true⟩

def get (receipt : SwapReceipt) : (i : ReceiptField) → i.tag.kind.Value
  | id => receipt.id
  | sendToken => receipt.sendToken
  | receiveToken => receipt.receiveToken
  | sendAmount => receipt.sendAmount
  | receiveAmount => receipt.receiveAmount
  | sendCost => receipt.sendCost
  | receiveCost => receipt.receiveCost
  | timestamp => receipt.timestamp
  | timeLock => receipt.timeLock
  | status => statusCode receipt.status
  | delay => receipt.delay
  | delayInfo => receipt.delayInfo
  | active => receipt.active
  | passwordHash => receipt.passwordHash

/-- The receipt with these values, if there is such a status. -/
def build (fields : (i : ReceiptField) → i.tag.kind.Value) : Option SwapReceipt :=
  (statusOf (fields status)).map fun code => {
    id := fields id
    sendToken := fields sendToken
    receiveToken := fields receiveToken
    sendAmount := fields sendAmount
    receiveAmount := fields receiveAmount
    sendCost := fields sendCost
    receiveCost := fields receiveCost
    timestamp := fields timestamp
    timeLock := fields timeLock
    status := code
    delay := fields delay
    delayInfo := fields delayInfo
    active := fields active
    passwordHash := fields passwordHash }

end ReceiptField

def receiptSchema : Schema ReceiptField fun i => i.tag.kind.Value where
  fields := ReceiptField.all
  complete i := by cases i <;> decide
  name i := i.tag.name
  names_nodup := by decide
  omitempty i := i.tag.omitempty
  coder i := i.tag.kind.coder

def receiptLaws (i : ReceiptField) : (receiptSchema.coder i).Lawful (receiptSchema.omitempty i) :=
  i.tag.kind.lawful i.tag.omitempty (by cases i <;> decide)

def canonReceipt (receipt : SwapReceipt) : SwapReceipt :=
  { receipt with delayInfo := marshalRaw receipt.delayInfo }

def receiptRecord : RecordSchema SwapReceipt where
  ι := ReceiptField
  V i := i.tag.kind.Value
  schema := receiptSchema
  laws := receiptLaws
  get := ReceiptField.get
  build := ReceiptField.build
  canon := canonReceipt
  build_get receipt :=
    Option.map_eq_some_iff.mpr ⟨receipt.status, statusOf_statusCode receipt.status, rfl⟩
  get_build h := by
    obtain ⟨status, hstatus, rfl⟩ := Option.map_eq_some_iff.mp h
    refine funext fun i => ?_
    cases i with
    | status => exact statusCode_statusOf hstatus
    | _ => rfl
  get_canon _ := funext fun i => by cases i <;> rfl

/-! ### Transfer receipts -/

inductive TokenField where
  | name
  | decimals
  | blockchain
deriving DecidableEq

/-- The chain of a name; Go takes any name. -/
def chainOf (text : String) : Option BlockchainName :=
  [.bitcoin, .ethereum, .erc20].find? fun chain => chain.text = text

theorem chainOf_eq_some_iff {text : String} {chain : BlockchainName} :
    chainOf text = some chain ↔ chain.text = text := by
  constructor
  · intro h
    simpa using List.find?_some h
  · rintro rfl
    cases chain <;> rfl

namespace TokenField

/-- The tags of a `Token`. -/
def tag : TokenField → Tag
  | name => ⟨"name", .string, false⟩
  | decimals => ⟨"decimals", .int64, false⟩
  | blockchain => ⟨"blockchain", .string, false⟩

def get (token : Token) : (i : TokenField) → i.tag.kind.Value
  | name => token.name
  | decimals => (token.decimals : Int)
  | blockchain => token.blockchain.text

end TokenField

/-- The token with these values, if it is on one of the chains. -/
def tokenOf (name : String) (decimals : Int) (blockchain : String) : Option Token :=
  if decimals < 0 then none
  else (chainOf blockchain).map fun chain => ⟨name, decimals.toNat, chain⟩

theorem tokenOf_eq_some_iff {name blockchain : String} {decimals : Int} {token : Token} :
    tokenOf name decimals blockchain = some token ↔
      token.name = name ∧ (token.decimals : Int) = decimals ∧
        token.blockchain.text = blockchain := by
  unfold tokenOf
  constructor
  · intro h
    split_ifs at h with hneg
    obtain ⟨chain, hchain, rfl⟩ := Option.map_eq_some_iff.mp h
    exact ⟨rfl, Int.toNat_of_nonneg (Int.not_lt.mp hneg), chainOf_eq_some_iff.mp hchain⟩
  · rintro ⟨rfl, rfl, rfl⟩
    have hchain : chainOf (token.blockchain.text) = some token.blockchain :=
      chainOf_eq_some_iff.mpr rfl
    rw [if_neg (by omega), hchain]
    rfl

def tokenSchema : Schema TokenField fun i => i.tag.kind.Value where
  fields := [.name, .decimals, .blockchain]
  complete i := by cases i <;> decide
  name i := i.tag.name
  names_nodup := by decide
  omitempty i := i.tag.omitempty
  coder i := i.tag.kind.coder

def tokenLaws (i : TokenField) : (tokenSchema.coder i).Lawful (tokenSchema.omitempty i) :=
  i.tag.kind.lawful i.tag.omitempty (by cases i <;> decide)

inductive TransferField where
  | confirmations
  | timestamp
  | passwordHash
  | toAddress
  | fromAddress
  | token
  | amount
  | txCost
  | txHash
deriving DecidableEq

namespace TransferField

def all : List TransferField :=
  [confirmations, timestamp, passwordHash, toAddress, fromAddress, token, amount, txCost, txHash]

/-- The names in the tags of a `TransferReceipt`; the fields of its `TokenDetails` are
    fields of its own. -/
def name : TransferField → String
  | confirmations => "confirmations"
  | timestamp => "timestamp"
  | passwordHash => "passwordHash"
  | toAddress => "to"
  | fromAddress => "from"
  | token => "token"
  | amount => "value"
  | txCost => "txCost"
  | txHash => "txHash"

def omitempty (i : TransferField) : Bool := i = passwordHash

abbrev Value : TransferField → Type
  | token => (i : TokenField) → i.tag.kind.Value
  | confirmations | timestamp => Int
  | txCost => StringMap
  | passwordHash | toAddress | fromAddress | amount | txHash => String

def coder : (i : TransferField) → Coder i.Value
  | token => tokenSchema.toCoder
  | confirmations | timestamp => intCoder
  | txCost => mapCoder
  | passwordHash | toAddress | fromAddress | amount | txHash => stringCoder

def lawful : (i : TransferField) → i.coder.Lawful i.omitempty
  | token => Schema.lawful tokenLaws _
  | confirmations | timestamp => intCoder_lawful _
  | txCost => mapCoder_lawful _
  | passwordHash | toAddress | fromAddress | amount | txHash => stringCoder_lawful _

def get (transfer : TransferReceipt) : (i : TransferField) → i.Value
  | confirmations => transfer.confirmations
  | timestamp => transfer.timestamp
  | passwordHash => transfer.passwordHash
  | toAddress => transfer.toAddress
  | fromAddress => transfer.fromAddress
  | token => TokenField.get transfer.token
  | amount => transfer.amount
  | txCost => transfer.txCost
  | txHash => transfer.txHash

def build (fields : (i : TransferField) → i.Value) : Option TransferReceipt :=
  (tokenOf (fields token .name) (fields token .decimals) (fields token .blockchain)).map
    fun details => {
      confirmations := fields confirmations
      timestamp := fields timestamp
      passwordHash := fields passwordHash
      toAddress := fields toAddress
      fromAddress := fields fromAddress
      token := details
      amount := fields amount
      txCost := fields txCost
      txHash := fields txHash }

end TransferField

def transferSchema : Schema TransferField TransferField.Value where
  fields := TransferField.all
  complete i := by cases i <;> decide
  name := TransferField.name
  names_nodup := by decide
  omitempty := TransferField.omitempty
  coder := TransferField.coder

def transferRecord : RecordSchema TransferReceipt where
  ι := TransferField
  V := TransferField.Value
  schema := transferSchema
  laws := TransferField.lawful
  get := TransferField.get
  build := TransferField.build
  canon := id
  build_get _ := Option.map_eq_some_iff.mpr ⟨_, tokenOf_eq_some_iff.mpr ⟨rfl, rfl, rfl⟩, rfl⟩
  get_build h := by
    obtain ⟨token, htoken, rfl⟩ := Option.map_eq_some_iff.mp h
    obtain ⟨hname, hdecimals, hchain⟩ := tokenOf_eq_some_iff.mp htoken
    refine funext fun i => ?_
    cases i with
    | token =>
        refine funext fun j => ?_
        cases j with
        | name => exact hname
        | decimals => exact hdecimals
        | blockchain => exact hchain
    | _ => rfl
  get_canon _ := funext fun i => by
    cases i with
    | token => exact funext fun j => by cases j <;> rfl
    | _ => rfl

/-! ### The codecs of the storage -/

def jsonCodecs : Codecs where
  blob := blobRecord.codec
  receipt := receiptRecord.codec
  transfer := transferRecord.codec

/-- What an absent or valid raw message is. -/
def IsRaw (message : Bytes) : Prop := message = [] ∨ Valid message

/-- A blob that Go can hold, with a `delayInfo` that `json.Marshal` accepts. -/
structure FitBlob (blob : SwapBlob) : Prop where
  timeLock : IsInt64 blob.timeLock
  brokerFee : IsInt64 blob.brokerFee
  delayInfo : IsRaw blob.delayInfo

theorem fit_blob_iff {blob : SwapBlob} : blobRecord.Fit blob ↔ FitBlob blob := by
  constructor
  · intro h
    exact ⟨h .timeLock, h .brokerFee, h .delayInfo⟩
  · intro h i
    cases i with
    | timeLock => exact h.timeLock
    | brokerFee => exact h.brokerFee
    | delayInfo => exact h.delayInfo
    | _ => trivial

structure FitReceipt (receipt : SwapReceipt) : Prop where
  timestamp : IsInt64 receipt.timestamp
  timeLock : IsInt64 receipt.timeLock
  delayInfo : IsRaw receipt.delayInfo

theorem fit_receipt_iff {receipt : SwapReceipt} :
    receiptRecord.Fit receipt ↔ FitReceipt receipt := by
  constructor
  · intro h
    exact ⟨h .timestamp, h .timeLock, h .delayInfo⟩
  · intro h i
    cases i with
    | timestamp => exact h.timestamp
    | timeLock => exact h.timeLock
    | delayInfo => exact h.delayInfo
    | status => exact isInt64_statusCode receipt.status
    | _ => trivial

structure FitTransfer (transfer : TransferReceipt) : Prop where
  confirmations : IsInt64 transfer.confirmations
  timestamp : IsInt64 transfer.timestamp
  decimals : IsInt64 transfer.token.decimals

theorem fit_transfer_iff {transfer : TransferReceipt} :
    transferRecord.Fit transfer ↔ FitTransfer transfer := by
  constructor
  · intro h
    exact ⟨h .confirmations, h .timestamp, h .token .decimals⟩
  · intro h i
    cases i with
    | confirmations => exact h.confirmations
    | timestamp => exact h.timestamp
    | token =>
        intro j
        cases j with
        | decimals => exact h.decimals
        | _ => trivial
    | _ => trivial

end Swapperd.Storage
