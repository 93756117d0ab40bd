/-
  Swapperd/HttpServer.lean
  ========================
  **One response for each request** (`adapter/server/http.go`).

  The handler of a route is a program: it calls methods of the `Handler`, which may answer,
  fail or panic, and writes to the `http.ResponseWriter`.  A handler that answers
  (`Answers`) asks the `Handler` first and then writes one status line and one body, or
  panics before it has written, and then `recoveryHandler` writes them.  The handler of the
  balances is the only one that does not: it goes on after it has refused a token.

  Left out: the log lines, and the user name, which no handler reads.
-/
import Swapperd.SwapHandler
import Swapperd.Storage
import Swapperd.CallProgram

namespace Swapperd.Server

open CallProgram GoLibrary
open Handler (PostSwapResponse)
open Storage (Bytes)

/-! ### Requests and responses -/

structure Request where
  /-- The password of `r.BasicAuth()`, if there is one. -/
  basicAuth : Option String
  /-- `mux.Vars(r)`; a variable that the route does not have is empty. -/
  vars : String → String
  /-- `r.FormValue("id")`. -/
  id : String
  /-- What reading the body ends in. -/
  body : Except String Bytes

structure GetInfoResponse where
  version : String
  bootloaded : Bool
  supportedTokens : List Token

structure Balance where
  address : String
  decimals : Int
  amount : String

structure PostTransfersRequest where
  token : String
  toAddress : String
  amount : String
  password : String

/-- The message is a JSON value, or a Go string, which may hold any bytes. -/
structure GetSignatureResponse where
  message : Bytes
  signature : String

/-- The values that are written as JSON. -/
inductive Response where
  | info (resp : GetInfoResponse)
  | swap (receipt : SwapReceipt)
  | swaps (receipts : List SwapReceipt)
  | redeemSwap (id : SwapID)
  | patchedSwap (resp : PostSwapResponse)
  | balances (resp : Finmap fun _ : TokenName => Balance)
  | balance (resp : Balance)
  | addresses (resp : Finmap fun _ : TokenName => String)
  | transfers (receipts : List Storage.TransferReceipt)
  | signatureJSON (resp : GetSignatureResponse)
  | signatureString (resp : GetSignatureResponse)

/-- What the handlers use of the libraries. An error is given by its text. -/
structure Library where
  decodeSwapRequest : Except String Bytes → Except String SwapBlob
  decodeTransfersRequest : Except String Bytes → Except String PostTransfersRequest
  /-- `bcrypt.GenerateFromPassword` at its default cost. -/
  generateFromPassword : String → Except String Bytes
  marshalIndent : Response → (lead indent : String) → Except String Bytes

/-! ### Actions -/

/-- A call of a `Handler` method. The token of a balance is none for `Token{}`. -/
inductive HandlerCall where
  | getID (password idType : String)
  | getInfo (password : String)
  | getSwap (password : String) (id : SwapID)
  | getSwaps (password : String)
  | getBalances (password : String)
  | getBalance (password : String) (token : Option Token)
  | getAddresses (password : String)
  | getAddress (password : String) (token : Token)
  | getTransfers (password : String)
  | getJSONSignature (password : String) (message : Bytes)
  | getBase64Signature (password : String) (message : Bytes)
  | getHexSignature (password : String) (message : Bytes)
  | postTransfers (req : PostTransfersRequest)
  | postSwaps (req : SwapBlob)
  | postDelayedSwaps (req : SwapBlob)

/-- What a method returns. -/
def HandlerCall.Answer : HandlerCall → Type
  | getID .. => Except String String
  | getInfo .. => GetInfoResponse
  | getSwap .. => Except String SwapReceipt
  | getSwaps .. => Except String (List SwapReceipt)
  | getBalances .. => Except String (Finmap fun _ : TokenName => Balance)
  | getBalance .. => Except String Balance
  | getAddresses .. => Except String (Finmap fun _ : TokenName => String)
  | getAddress .. => Except String String
  | getTransfers .. => Except String (List Storage.TransferReceipt)
  | getJSONSignature .. | getBase64Signature .. | getHexSignature .. =>
      Except String GetSignatureResponse
  | postTransfers .. | postDelayedSwaps .. => Except String Unit
  | postSwaps .. => Except String PostSwapResponse

inductive Action where
  | handler (c : HandlerCall)
  | writeHeader (statusCode : Nat)
  | write (body : Bytes)

/-- A method returns, or panics with a value. -/
def Action.Reply : Action → Type
  | handler c => Except String c.Answer
  | writeHeader _ | write _ => Unit

/-- Serving a request, up to a panic. -/
abbrev Serving := ExceptT String (Program Action Action.Reply)

def call (c : HandlerCall) : Serving c.Answer :=
  ExceptT.mk (Program.perform (Action.handler c))

def writeResponse (statusCode : Nat) (resp : Bytes) : Program Action Action.Reply Unit := do
  Program.perform (Action.writeHeader statusCode)
  Program.perform (Action.write resp)

def errorBody (err : String) : Bytes := stringBytes ("\x7b \"error\": \"" ++ err ++ "\" \x7d")

def writeError (statusCode : Nat) (err : String) : Program Action Action.Reply Unit :=
  writeResponse statusCode (errorBody err)

/-- `recoveryHandler`: a panic is answered with its value. -/
def recoveryHandler (h : Serving Unit) : Program Action Action.Reply Unit := do
  match ← h.run with
  | .ok () => return ()
  | .error r => writeError 500 r

/-! ### Handlers -/

section Handlers

variable (L : Library) (r : Request)

/-- The first check of every handler. -/
def authenticated (serve : String → Serving Unit) : Serving Unit :=
  match r.basicAuth with
  | none => writeError 401 "authentication required"
  | some password => serve password

/-- The last step of most handlers. -/
def writeJSON (statusCode : Nat) (resp : Response) (failure : String) (lead : String := "\t")
    (indent : String := "") : Serving Unit :=
  match L.marshalIndent resp lead indent with
  | .error err => writeError 500 (failure ++ ": " ++ err)
  | .ok respBytes => writeResponse statusCode respBytes

def getInfoHandler : Serving Unit :=
  authenticated r fun password => do
    let resp ← call (.getInfo password)
    writeJSON L 200 (.info resp) "cannot encode info response"

/-- No route has this handler. -/
def getSwapHandler : Serving Unit :=
  authenticated r fun password => do
    if r.id = "" then
      writeError 400 "requires a swap id"
    else
      match ← call (.getSwap password r.id) with
      | .error err => writeError 400 ("cannot get swap with id (" ++ r.id ++ "): " ++ err)
      | .ok resp => writeJSON L 200 (.swap resp) "cannot encode get swap response"

def getSwapsHandler : Serving Unit :=
  authenticated r fun password => do
    match ← call (.getSwaps password) with
    | .error err => writeError 400 ("cannot get swaps: " ++ err)
    | .ok resp => writeJSON L 200 (.swaps resp) "cannot encode swaps response"

def postSwapsHandler : Serving Unit :=
  authenticated r fun password => do
    match L.decodeSwapRequest r.body with
    | .error err => writeError 400 ("cannot decode swap request: " ++ err)
    | .ok swapReq =>
        match L.generateFromPassword password with
        | .error err => writeError 400 ("cannot decode swap request: " ++ err)
        | .ok passwordHashBytes =>
            let swapReq := { swapReq with
              password := password, passwordHash := encodeToString passwordHashBytes }
            if swapReq.delay then
              match ← call (.postDelayedSwaps swapReq) with
              | .error err => writeError 400 err
              | .ok () => writeResponse 201 []
            else
              match ← call (.postSwaps swapReq) with
              | .error err => writeError 400 err
              | .ok patchedSwap =>
                  if patchedSwap.signature = "" then
                    writeJSON L 201 (.redeemSwap patchedSwap.id) "cannot encode swap response"
                  else
                    writeJSON L 201 (.patchedSwap patchedSwap) "cannot encode swap response"

def postTransfersHandler : Serving Unit :=
  authenticated r fun password => do
    match L.decodeTransfersRequest r.body with
    | .error err => writeError 400 ("cannot decode transfers request: " ++ err)
    | .ok transferReq =>
        match ← call (.postTransfers { transferReq with password := password }) with
        | .error err => writeError 400 ("cannot decode transfers request: " ++ err)
        | .ok () => writeResponse 201 []

/-- What `getBalancesHandler` does with the token that it has read. -/
def writeBalance (password tokenName : String) (token : Option Token) : Serving Unit := do
  match ← call (.getBalance password token) with
  | .error _ => writeError 400 ("unable to retrieve balance for token: " ++ tokenName)
  | .ok balance => writeJSON L 200 (.balance balance) "cannot encode balances response" "" "\t"

def getBalancesHandler : Serving Unit :=
  authenticated r fun password => do
    let tokenName := r.vars "token"
    if tokenName = "" then
      match ← call (.getBalances password) with
      | .error err => writeError 500 ("cannot retrieve balances: " ++ err)
      | .ok balances => writeJSON L 200 (.balances balances) "cannot encode balances response"
    else
      match patchToken tokenName with
      | .error _ =>
          -- there is no `return` here
          writeError 400 ("invalid token name: " ++ tokenName)
          writeBalance L password tokenName none
      | .ok token => writeBalance L password tokenName (some token)

def getTransfersHandler : Serving Unit :=
  authenticated r fun password => do
    match ← call (.getTransfers password) with
    | .error err => writeError 500 ("cannot get transfers: " ++ err)
    | .ok transfers => writeJSON L 200 (.transfers transfers) "cannot encode balances response"

def getAddressesHandler : Serving Unit :=
  authenticated r fun password => do
    let tokenName := r.vars "token"
    if tokenName = "" then
      match ← call (.getAddresses password) with
      | .error err => writeError 500 ("cannot get addresses: " ++ err)
      | .ok addresses => writeJSON L 200 (.addresses addresses) "cannot encode balances response"
    else
      match patchToken tokenName with
      | .error _ => writeError 400 ("invalid token name: " ++ tokenName)
      | .ok token =>
          match ← call (.getAddress password token) with
          | .error _ => writeError 400 ("unable to retrieve address for token: " ++ tokenName)
          | .ok address => writeResponse 200 (stringBytes address)

def getIDHandler : Serving Unit :=
  authenticated r fun password => do
    match ← call (.getID password (r.vars "type")) with
    | .error err => writeError 500 ("cannot get id: " ++ err)
    | .ok resp => writeResponse 200 (stringBytes resp)

/-- The end of each case of `postSignatureHandler`. -/
def writeSignature (response : GetSignatureResponse → Response) :
    Except String GetSignatureResponse → Serving Unit
  | .error err => writeError 500 ("failed to sign the message: " ++ err)
  | .ok resp => writeJSON L 201 (response resp) "cannot encode signature response"

def postSignatureHandler : Serving Unit :=
  authenticated r fun password => do
    match r.body with
    | .error err => writeError 400 err
    | .ok msg =>
        match r.vars "type" with
        | "json" => writeSignature L .signatureJSON (← call (.getJSONSignature password msg))
        | "base64" => writeSignature L .signatureString (← call (.getBase64Signature password msg))
        | "hex" => writeSignature L .signatureString (← call (.getHexSignature password msg))
        | type => writeError 400 ("unknown message type: " ++ type)

end Handlers

/-! ### Routes -/

inductive Route where
  | postSwaps
  | getSwaps
  | getSwap
  | postTransfers
  | getTransfers
  | getBalances
  | getAddresses
  | getInfo
  | getID
  | postSignature
deriving DecidableEq

def Route.handler (L : Library) (r : Request) : Route → Serving Unit
  | postSwaps => postSwapsHandler L r
  | getSwaps => getSwapsHandler L r
  | getSwap => getSwapHandler L r
  | postTransfers => postTransfersHandler L r
  | getTransfers => getTransfersHandler L r
  | getBalances => getBalancesHandler L r
  | getAddresses => getAddressesHandler L r
  | getInfo => getInfoHandler L r
  | getID => getIDHandler r
  | postSignature => postSignatureHandler L r

def serve (L : Library) (route : Route) (r : Request) : Program Action Action.Reply Unit :=
  recoveryHandler (route.handler L r)

/-! ### Responses -/

def statusLines (actions : List Action) : List Nat :=
  actions.filterMap fun
    | .writeHeader statusCode => some statusCode
    | _ => none

def bodies (actions : List Action) : List Bytes :=
  actions.filterMap fun
    | .write resp => some resp
    | _ => none

/-- One status line, one body, and no call of a `Handler` method after an error. -/
structure RespondsOnce (actions : List Action) : Prop where
  statusLine : ∃ statusCode, statusLines actions = [statusCode]
  body : ∃ resp, bodies actions = [resp]
  quiet : actions.Pairwise fun first later => ∀ statusCode c,
    first = .writeHeader statusCode → 400 ≤ statusCode → later ≠ .handler c

/-- Calls of the `Handler`, and then a response. -/
def Responded (actions : List Action) : Prop :=
  ∃ calls statusCode resp,
    actions = List.map Action.handler calls ++ [.writeHeader statusCode, .write resp]

theorem statusLines_calls (calls : List HandlerCall) (actions : List Action) :
    statusLines (calls.map Action.handler ++ actions) = statusLines actions := by
  induction calls with
  | nil => rfl
  | cons c calls ih => exact ih

theorem bodies_calls (calls : List HandlerCall) (actions : List Action) :
    bodies (calls.map Action.handler ++ actions) = bodies actions := by
  induction calls with
  | nil => rfl
  | cons c calls ih => exact ih

theorem Responded.respondsOnce {actions : List Action} (h : Responded actions) :
    RespondsOnce actions := by
  rcases h with ⟨calls, statusCode, resp, rfl⟩
  refine ⟨⟨statusCode, statusLines_calls calls _⟩, ⟨resp, bodies_calls calls _⟩, ?_⟩
  refine List.pairwise_append.mpr ⟨?_, by simp, by simp⟩
  exact List.pairwise_map.mpr (List.pairwise_of_forall fun _ _ => by simp)

/-! ### Handlers that answer -/

/-- A program that asks the `Handler` and then responds, or panics before. -/
inductive Answers : Program Action Action.Reply (Except String Unit) → Prop where
  | panics (r : String) : Answers (.pure (.error r))
  | responds (statusCode : Nat) (resp : Bytes) :
      Answers (.call (.writeHeader statusCode) fun _ => .call (.write resp) fun _ => .pure (.ok ()))
  | asks {c : HandlerCall}
      {k : Except String c.Answer → Program Action Action.Reply (Except String Unit)}
      (h : ∀ reply, Answers (k reply)) : Answers (.call (.handler c) k)

section Runs

variable {events : List (Event Action Action.Reply Unit Unit)}

theorem exec_writeResponse {statusCode : Nat} {resp : Bytes}
    (h : Exec unconstrained (writeResponse statusCode resp) () events () ()) :
    events.map Event.op = [.writeHeader statusCode, .write resp] := by
  rcases exec_perform_bind_iff.mp h with ⟨_, _, _, rest, rfl, -, hrest⟩
  rcases exec_call_iff.mp hrest with ⟨_, _, _, last, rfl, -, hlast⟩
  rw [(exec_pure_iff.mp hlast).1]
  rfl

/-- A handler that answers responds, whatever the `Handler` methods do. -/
theorem Answers.responded {p : Serving Unit} (h : Answers p)
    (hexec : Exec unconstrained (recoveryHandler p) () events () ()) :
    Responded (events.map Event.op) := by
  induction h generalizing events with
  | panics r => exact ⟨[], 500, errorBody r, exec_writeResponse hexec⟩
  | responds statusCode resp => exact ⟨[], statusCode, resp, exec_writeResponse hexec⟩
  | asks hk ih =>
      rename_i c k
      rcases exec_call_iff.mp hexec with ⟨_, reply, _, rest, rfl, -, hrest⟩
      rcases ih reply hrest with ⟨calls, statusCode, resp, heq⟩
      refine ⟨c :: calls, statusCode, resp, ?_⟩
      rw [List.map_cons, heq]
      rfl

end Runs

section Handlers

variable {L : Library} {r : Request}

theorem answers_writeResponse (statusCode : Nat) (resp : Bytes) :
    Answers (writeResponse statusCode resp : Serving Unit) :=
  .responds statusCode resp

theorem answers_writeError (statusCode : Nat) (err : String) :
    Answers (writeError statusCode err : Serving Unit) :=
  answers_writeResponse statusCode (errorBody err)

theorem answers_call_bind {c : HandlerCall} {k : c.Answer → Serving Unit}
    (h : ∀ answer, Answers (k answer)) : Answers (call c >>= k : Serving Unit) := by
  refine .asks fun reply => ?_
  cases reply with
  | error r => exact .panics r
  | ok answer => exact h answer

theorem answers_authenticated {serve : String → Serving Unit}
    (h : ∀ password, r.basicAuth = some password → Answers (serve password)) :
    Answers (authenticated r serve) := by
  unfold authenticated
  split
  · exact answers_writeError ..
  · rename_i password hpassword
    exact h password hpassword

theorem answers_writeJSON (statusCode : Nat) (resp : Response) (failure lead indent : String) :
    Answers (writeJSON L statusCode resp failure lead indent) := by
  unfold writeJSON
  split
  · exact answers_writeError ..
  · exact answers_writeResponse ..

theorem answers_getInfoHandler : Answers (getInfoHandler L r) :=
  answers_authenticated fun _ _ => answers_call_bind fun _ => answers_writeJSON ..

theorem answers_getSwapHandler : Answers (getSwapHandler L r) := by
  refine answers_authenticated fun password _ => ?_
  split
  · exact answers_writeError ..
  · refine answers_call_bind fun answer => ?_
    split
    · exact answers_writeError ..
    · exact answers_writeJSON ..

theorem answers_getSwapsHandler : Answers (getSwapsHandler L r) := by
  refine answers_authenticated fun password _ => answers_call_bind fun answer => ?_
  split
  · exact answers_writeError ..
  · exact answers_writeJSON ..

theorem answers_postSwapsHandler : Answers (postSwapsHandler L r) := by
  refine answers_authenticated fun password _ => ?_
  split
  · exact answers_writeError ..
  · split
    · exact answers_writeError ..
    · dsimp only
      split
      · refine answers_call_bind fun answer => ?_
        split
        · exact answers_writeError ..
        · exact answers_writeResponse ..
      · refine answers_call_bind fun answer => ?_
        split
        · exact answers_writeError ..
        · split
          · exact answers_writeJSON ..
          · exact answers_writeJSON ..

theorem answers_postTransfersHandler : Answers (postTransfersHandler L r) := by
  refine answers_authenticated fun password _ => ?_
  split
  · exact answers_writeError ..
  · refine answers_call_bind fun answer => ?_
    split
    · exact answers_writeError ..
    · exact answers_writeResponse ..

theorem answers_writeBalance (password tokenName : String) (token : Option Token) :
    Answers (writeBalance L password tokenName token) := by
  refine answers_call_bind fun answer => ?_
  split
  · exact answers_writeError ..
  · exact answers_writeJSON ..

theorem answers_getTransfersHandler : Answers (getTransfersHandler L r) := by
  refine answers_authenticated fun password _ => answers_call_bind fun answer => ?_
  split
  · exact answers_writeError ..
  · exact answers_writeJSON ..

theorem answers_getAddressesHandler : Answers (getAddressesHandler L r) := by
  refine answers_authenticated fun password _ => ?_
  dsimp only
  split
  · refine answers_call_bind fun answer => ?_
    split
    · exact answers_writeError ..
    · exact answers_writeJSON ..
  · split
    · exact answers_writeError ..
    · refine answers_call_bind fun answer => ?_
      split
      · exact answers_writeError ..
      · exact answers_writeResponse ..

theorem answers_getIDHandler : Answers (getIDHandler r) := by
  refine answers_authenticated fun password _ => answers_call_bind fun answer => ?_
  split
  · exact answers_writeError ..
  · exact answers_writeResponse ..

theorem answers_writeSignature (response : GetSignatureResponse → Response)
    (answer : Except String GetSignatureResponse) : Answers (writeSignature L response answer) := by
  cases answer with
  | error err => exact answers_writeError ..
  | ok resp => exact answers_writeJSON ..

theorem answers_postSignatureHandler : Answers (postSignatureHandler L r) := by
  refine answers_authenticated fun password _ => ?_
  split
  · exact answers_writeError ..
  · split
    · exact answers_call_bind fun answer => answers_writeSignature .signatureJSON answer
    · exact answers_call_bind fun answer => answers_writeSignature .signatureString answer
    · exact answers_call_bind fun answer => answers_writeSignature .signatureString answer
    · exact answers_writeError ..

/-! ### The refused token -/

/-- An authenticated request for the balance of a token that does not exist. -/
def FallsThrough (route : Route) (r : Request) : Prop :=
  route = .getBalances ∧ r.basicAuth.isSome ∧ r.vars "token" ≠ "" ∧
    ∃ err, patchToken (r.vars "token") = .error err

theorem answers_getBalancesHandler (h : ¬ FallsThrough .getBalances r) :
    Answers (getBalancesHandler L r) := by
  refine answers_authenticated fun password hpassword => ?_
  dsimp only
  split
  · refine answers_call_bind fun answer => ?_
    split
    · exact answers_writeError ..
    · exact answers_writeJSON ..
  · rename_i hname
    split
    · rename_i err hpatch
      exact absurd ⟨rfl, by rw [hpassword]; rfl, hname, err, hpatch⟩ h
    · exact answers_writeBalance ..

theorem answers_handler {route : Route} (h : ¬ FallsThrough route r) :
    Answers (route.handler L r) := by
  cases route with
  | postSwaps => exact answers_postSwapsHandler (L := L)
  | getSwaps => exact answers_getSwapsHandler (L := L)
  | getSwap => exact answers_getSwapHandler (L := L)
  | postTransfers => exact answers_postTransfersHandler (L := L)
  | getTransfers => exact answers_getTransfersHandler (L := L)
  | getBalances => exact answers_getBalancesHandler (L := L) (r := r) h
  | getAddresses => exact answers_getAddressesHandler (L := L)
  | getInfo => exact answers_getInfoHandler (L := L)
  | getID => exact answers_getIDHandler (r := r)
  | postSignature => exact answers_postSignatureHandler (L := L)

/-- The refusal is written, and serving goes on. -/
theorem serve_fallsThrough {password : String} (hpassword : r.basicAuth = some password)
    (hname : r.vars "token" ≠ "") {err : GoError} (hpatch : patchToken (r.vars "token") = .error err) :
    serve L .getBalances r =
      writeError 400 ("invalid token name: " ++ r.vars "token") >>= fun _ =>
        recoveryHandler (writeBalance L password (r.vars "token") none) := by
  unfold serve Route.handler getBalancesHandler authenticated
  rw [hpassword]
  dsimp only
  rw [if_neg hname, hpatch]
  rfl

/-- The refusal is followed by a call, and by a second response. -/
theorem fallsThrough_actions {events : List (Event Action Action.Reply Unit Unit)} {route : Route}
    (h : FallsThrough route r) (hexec : Exec unconstrained (serve L route r) () events () ()) :
    ∃ actions, Responded actions ∧ events.map Event.op =
      .writeHeader 400 :: .write (errorBody ("invalid token name: " ++ r.vars "token")) ::
        actions := by
  rcases h with ⟨rfl, hauth, hname, err, hpatch⟩
  rcases Option.isSome_iff_exists.mp hauth with ⟨password, hpassword⟩
  rw [serve_fallsThrough hpassword hname hpatch] at hexec
  rcases exec_bind_iff.mp hexec with ⟨_, _, first, second, rfl, hfirst, hsecond⟩
  refine ⟨second.map Event.op, (answers_writeBalance ..).responded hsecond, ?_⟩
  rw [List.map_append, exec_writeResponse hfirst]
  rfl

end Handlers

/-- **Every request gets exactly one response, but for the balance of a token that does not
    exist**, whatever the `Handler` methods do. -/
theorem respondsOnce_iff {L : Library} {route : Route} {r : Request}
    {events : List (Event Action Action.Reply Unit Unit)}
    (hexec : Exec unconstrained (serve L route r) () events () ()) :
    RespondsOnce (events.map Event.op) ↔ ¬ FallsThrough route r := by
  constructor
  · intro hresponds hfalls
    rcases fallsThrough_actions hfalls hexec with ⟨actions, ⟨calls, status, resp, rfl⟩, heq⟩
    rcases hresponds.statusLine with ⟨statusCode, hstatus⟩
    rw [heq] at hstatus
    have hlines : statusLines (calls.map Action.handler ++ [.writeHeader status, .write resp]) =
        [status] := statusLines_calls calls _
    have htwo : [400, status] = [statusCode] := by
      rw [← hstatus, ← hlines]
      rfl
    cases htwo
  · intro h
    exact ((answers_handler h).responded hexec).respondsOnce

/-- `GET /balances/doge`. -/
def dogeRequest : Request where
  basicAuth := some "alice"
  vars := fun var => if var = "token" then "doge" else ""
  id := ""
  body := .ok []

def dogeLibrary : Library where
  decodeSwapRequest _ := .error "EOF"
  decodeTransfersRequest _ := .error "EOF"
  generateFromPassword _ := .error "not hashed here"
  marshalIndent _ _ _ := .error "not encoded here"

/-- Two responses are written, and the balance of no token is asked for between them. -/
def dogeEvents : List (Event Action Action.Reply Unit Unit) :=
  [⟨.writeHeader 400, (), (), (), ()⟩,
    ⟨.write (errorBody "invalid token name: doge"), (), (), (), ()⟩,
    ⟨.handler (.getBalance "alice" none), (), (), .ok (.error "unsupported blockchain: "), ()⟩,
    ⟨.writeHeader 400, (), (), (), ()⟩,
    ⟨.write (errorBody "unable to retrieve balance for token: doge"), (), (), (), ()⟩]

theorem dogeRequest_served :
    Exec unconstrained (serve dogeLibrary .getBalances dogeRequest) () dogeEvents () () := by
  have hpatch : patchToken (dogeRequest.vars "token") = .error (errUnsupportedToken "doge") := by
    decide +kernel
  have hauth : dogeRequest.basicAuth = some "alice" := rfl
  rw [serve_fallsThrough hauth (by decide) hpatch]
  refine .call trivial (.call trivial (.call trivial ?_))
  exact .call trivial (.call trivial (.pure _ _))

theorem respondsOnce_iff_doge :
    RespondsOnce (dogeEvents.map Event.op) ↔ ¬ FallsThrough .getBalances dogeRequest :=
  respondsOnce_iff dogeRequest_served

/-- Some request gets two responses. -/
theorem doge_answered_twice :
    ¬ ∀ L route r events, Exec unconstrained (serve L route r) () events () () →
      RespondsOnce (events.map Event.op) := by
  intro h
  rcases (h _ _ _ _ dogeRequest_served).statusLine with ⟨statusCode, hstatus⟩
  have htwo : [400, 400] = [statusCode] := hstatus
  cases htwo

end Swapperd.Server
