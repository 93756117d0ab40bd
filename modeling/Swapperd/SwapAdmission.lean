/-
  Swapperd/SwapAdmission.lean
  ===========================
  **Which accepted swaps can be built** (`adapter/wallet/address.go` beside the builder).

  Admission and the builder check different fields.  The builder also reads the amount to
  receive and the broker addresses, and the script of a Bitcoin leg has room for
  pay-to-pubkey-hash addresses only, where `VerifyAddress` accepts whatever can be decoded
  (`builds_iff`).
-/
import Swapperd.SwapHandler
import Swapperd.BitcoinScript

namespace Swapperd.Admission

open GoLibrary Handler Builder Bitcoin

/-! ### Address checks -/

def verifyEthereumAddress (address : String) : Except GoError Unit :=
  if address = "" then .error (.errorf "Empty ethereum address")
  else
    let address := trimHexPrefix (toLower address)
    match hexDecodeString address with
    | none => .error (.errorf s!"Invalid ethereum address: {address}")
    | some addrBytes =>
        if addrBytes.length ≠ 20 then .error (.errorf s!"Invalid ethereum address: {address}")
        else .ok ()

/-- The Bitcoin network that the wallet is configured for. -/
structure Config where
  networkName : String
  mainNet : Network
  testNet3 : Network

/-- The network of the wallet's accounts. -/
def Config.network (c : Config) : Network :=
  if c.networkName = "mainnet" then c.mainNet else c.testNet3

/-- `DecodeAddress` without its result. -/
def Config.decodes (c : Config) (net : Network) (address : String) : Except GoError Unit :=
  match net.decodeAddress address with
  | .error _ => .error (.errorf s!"Invalid {c.networkName} bitcoin address: {address}")
  | .ok _ => .ok ()

def Config.verifyBitcoinAddress (c : Config) (address : String) : Except GoError Unit :=
  if address = "" then .error (.errorf "Empty bitcoin address")
  else
    match c.networkName with
    | "mainnet" => c.decodes c.mainNet address
    | "testnet" => c.decodes c.testNet3 address
    | _ => .ok ()

def Config.verifyAddress (c : Config) (chain : BlockchainName) (address : String) :
    Except GoError Unit :=
  match chain with
  | .ethereum | .erc20 => verifyEthereumAddress address
  | .bitcoin => c.verifyBitcoinAddress address

/-- A wallet of this configuration. Its keys are derived outside. -/
def Config.wallet (c : Config)
    (getAddress : (password : String) → BlockchainName → Except GoError String)
    (ecdsaSigner : (password : String) → Except GoError (Bytes32 → Except GoError (List UInt8))) :
    Wallet where
  getAddress := getAddress
  verifyAddress := c.verifyAddress
  ecdsaSigner := ecdsaSigner

/-! ### What the builder needs -/

/-- The two legs can be built, and the script of each leg on Bitcoin. -/
def Builds (net : Network) (W : Wallet) (blob : SwapBlob) : Prop :=
  ∃ native foreign, buildComplementarySwaps W blob = .ok (native, foreign) ∧
    ∀ swap, swap = native ∨ swap = foreign → swap.token.blockchain = .bitcoin →
      ∃ script, buildInitiateScript net swap = .ok script

/-- An address that the script has room for. -/
def IsPubKeyHash (net : Network) (address : String) : Prop :=
  ∃ hash160, net.decodeAddress address = .ok (.pubKeyHash hash160)

/-- What the builder needs of a request beyond what admission checks. -/
structure Buildable (c : Config) (request : SwapBlob) : Prop where
  receiveAmount : ∃ value, setString request.receiveAmount = some value
  brokerSendTokenAddr : ∀ token, patchToken request.sendToken = .ok token →
    request.brokerFee ≠ 0 → c.verifyAddress token.blockchain request.brokerSendTokenAddr = .ok ()
  brokerReceiveTokenAddr : ∀ token, patchToken request.receiveToken = .ok token →
    request.brokerFee ≠ 0 →
      c.verifyAddress token.blockchain request.brokerReceiveTokenAddr = .ok ()
  sendTo : ∀ token, patchToken request.sendToken = .ok token → token.blockchain = .bitcoin →
    IsPubKeyHash c.network request.sendTo
  receiveFrom : ∀ token, patchToken request.receiveToken = .ok token →
    token.blockchain = .bitcoin → IsPubKeyHash c.network request.receiveFrom

/-- Keys and addresses can be derived, the wallet's own Bitcoin address is a
    pay-to-pubkey-hash one, and a script with two such hashes can be assembled. -/
structure Derives (net : Network) (W : Wallet) (password : String) : Prop where
  getAddress : ∀ chain, ∃ address, W.getAddress password chain = .ok address
  bitcoinAddress : ∀ address, W.getAddress password .bitcoin = .ok address →
    IsPubKeyHash net address
  hash160 : ∀ address hash160, net.decodeAddress address = .ok (.pubKeyHash hash160) →
    hash160.length = 20
  script : ∀ pkhMe pkhThem locktime (secretHash : Bytes32), pkhMe.length = 20 →
    pkhThem.length = 20 →
      ∃ script, newInitiateScript net pkhMe pkhThem locktime secretHash.1 = .ok script
  addressScriptHash : ∀ script, ∃ address, net.addressScriptHash script = .ok address

/-! ### Legs and scripts -/

section Legs

variable {W : Wallet} {net : Network} {blob : SwapBlob}

theorem brokerFee_ok_iff {side : String} {token : Token} {value : Int} {brokerAddress : String} :
    (∃ fee, brokerFee W blob side token value brokerAddress = .ok fee) ↔
      (blob.brokerFee ≠ 0 → W.verifyAddress token.blockchain brokerAddress = .ok ()) := by
  unfold brokerFee
  by_cases hfee : blob.brokerFee ≠ 0
  · rw [if_pos hfee]
    cases W.verifyAddress token.blockchain brokerAddress with
    | error err => simp [hfee]
    | ok => simp
  · rw [if_neg hfee]
    exact ⟨fun _ h => absurd h hfee, fun _ => ⟨0, rfl⟩⟩

/-- A leg can be built when its amount is decimal and its broker's address is valid. -/
theorem buildSwap_ok_iff (side fee : String) {tokenName : TokenName}
    {amount brokerAddress : String} {token : Token} {secretHash : Bytes32}
    (htoken : patchToken tokenName = .ok token)
    (hhash : unmarshalSecretHash blob.secretHash = .ok secretHash) :
    (∃ swap, buildSwap W blob side tokenName amount fee brokerAddress = .ok swap) ↔
      (∃ value, setString amount = some value) ∧
        (blob.brokerFee ≠ 0 → W.verifyAddress token.blockchain brokerAddress = .ok ()) := by
  unfold buildSwap
  rw [exists_bind_eq_ok_iff]
  constructor
  · rintro ⟨token', htoken', h⟩
    obtain rfl : token' = token := Except.ok.inj (htoken'.symm.trans htoken)
    cases hvalue : setString amount with
    | none => simp [hvalue] at h
    | some value =>
        rw [hvalue, exists_bind_eq_ok_iff] at h
        obtain ⟨share, hshare, -⟩ := h
        exact ⟨⟨value, rfl⟩, brokerFee_ok_iff.mp ⟨share, hshare⟩⟩
  · rintro ⟨⟨value, hvalue⟩, hbroker⟩
    obtain ⟨share, hshare⟩ := brokerFee_ok_iff.mpr hbroker
    refine ⟨token, htoken, ?_⟩
    rw [hvalue, exists_bind_eq_ok_iff]
    refine ⟨share, hshare, ?_⟩
    exact exists_bind_eq_ok_iff.mpr ⟨secretHash, hhash, _, rfl⟩

/-- A script can be built when both addresses are pay-to-pubkey-hash ones. -/
theorem buildInitiateScript_ok_iff {swap : Swap} {password : String}
    (hderives : Derives net W password) :
    (∃ script, buildInitiateScript net swap = .ok script) ↔
      IsPubKeyHash net swap.fundingAddress ∧ IsPubKeyHash net swap.spendingAddress := by
  have hpkh : ∀ address pkh, addressToPubKeyHash net address = .ok pkh ↔
      net.decodeAddress address = .ok (.pubKeyHash pkh) := by
    intro address pkh
    unfold addressToPubKeyHash
    cases net.decodeAddress address with
    | error err => simp
    | ok decoded => cases decoded <;> simp
  unfold buildInitiateScript
  rw [exists_bind_eq_ok_iff]
  constructor
  · rintro ⟨funding, hfunding, h⟩
    obtain ⟨spending, hspending, -⟩ := exists_bind_eq_ok_iff.mp h
    exact ⟨⟨funding, (hpkh _ _).mp (mapError_eq_ok_iff.mp hfunding)⟩,
      ⟨spending, (hpkh _ _).mp (mapError_eq_ok_iff.mp hspending)⟩⟩
  · rintro ⟨⟨funding, hfunding⟩, ⟨spending, hspending⟩⟩
    obtain ⟨script, hscript⟩ := hderives.script funding spending swap.timeLock swap.secretHash
      (hderives.hash160 _ _ hfunding) (hderives.hash160 _ _ hspending)
    obtain ⟨address, haddress⟩ := hderives.addressScriptHash script
    refine ⟨funding, mapError_eq_ok_iff.mpr ((hpkh _ _).mpr hfunding), ?_⟩
    refine exists_bind_eq_ok_iff.mpr
      ⟨spending, mapError_eq_ok_iff.mpr ((hpkh _ _).mpr hspending), ?_⟩
    refine exists_bind_eq_ok_iff.mpr ⟨script, mapError_eq_ok_iff.mpr hscript, ?_⟩
    exact exists_bind_eq_ok_iff.mpr ⟨address, mapError_eq_ok_iff.mpr haddress, _, rfl⟩

/-- The legs of a blob whose tokens and secret hash can be read. -/
theorem buildComplementarySwaps_ok_iff {send receive : Token} {secretHash : Bytes32}
    (hderives : Derives net W blob.password)
    (hsend : patchToken blob.sendToken = .ok send)
    (hreceive : patchToken blob.receiveToken = .ok receive)
    (hhash : unmarshalSecretHash blob.secretHash = .ok secretHash) :
    (∃ swaps, buildComplementarySwaps W blob = .ok swaps) ↔
      ((∃ value, setString blob.sendAmount = some value) ∧
        (blob.brokerFee ≠ 0 →
          W.verifyAddress send.blockchain blob.brokerSendTokenAddr = .ok ())) ∧
      (∃ value, setString blob.receiveAmount = some value) ∧
        (blob.brokerFee ≠ 0 →
          W.verifyAddress receive.blockchain blob.brokerReceiveTokenAddr = .ok ()) := by
  have haddresses : ∃ addresses, calculateAddresses W blob = .ok addresses := by
    obtain ⟨sendAddress, hsendAddress⟩ := hderives.getAddress send.blockchain
    obtain ⟨receiveAddress, hreceiveAddress⟩ := hderives.getAddress receive.blockchain
    unfold calculateAddresses
    refine exists_bind_eq_ok_iff.mpr ⟨send, hsend, ?_⟩
    refine exists_bind_eq_ok_iff.mpr ⟨sendAddress, hsendAddress, ?_⟩
    refine exists_bind_eq_ok_iff.mpr ⟨receive, hreceive, ?_⟩
    exact exists_bind_eq_ok_iff.mpr ⟨receiveAddress, hreceiveAddress, _, rfl⟩
  rw [← buildSwap_ok_iff "send" blob.sendFee hsend hhash,
    ← buildSwap_ok_iff "receive" blob.receiveFee hreceive hhash]
  unfold buildComplementarySwaps buildNativeSwap buildForeignSwap
  constructor
  · intro h
    obtain ⟨_, -, h⟩ := exists_bind_eq_ok_iff.mp h
    obtain ⟨_, hnative, h⟩ := exists_bind_eq_ok_iff.mp h
    obtain ⟨_, hforeign, -⟩ := exists_bind_eq_ok_iff.mp h
    obtain ⟨native, hnative, -⟩ := except_bind_eq_ok_iff.mp hnative
    obtain ⟨foreign, hforeign, -⟩ := except_bind_eq_ok_iff.mp hforeign
    exact ⟨⟨native, hnative⟩, foreign, hforeign⟩
  · rintro ⟨⟨native, hnative⟩, foreign, hforeign⟩
    obtain ⟨addresses, haddresses⟩ := haddresses
    refine exists_bind_eq_ok_iff.mpr ⟨addresses, haddresses, ?_⟩
    refine exists_bind_eq_ok_iff.mpr ⟨_, except_bind_eq_ok_iff.mpr ⟨native, hnative, rfl⟩, ?_⟩
    exact exists_bind_eq_ok_iff.mpr
      ⟨_, except_bind_eq_ok_iff.mpr ⟨foreign, hforeign, rfl⟩, _, rfl⟩

end Legs

/-! ### Accepted requests -/

section Requests

variable {H : Hashes} {W : Wallet} {verifyBalance : VerifyBalance} {now : Int}
  {swapID : Bytes32} {c : Config} {request blob : SwapBlob}

/-- The secret hash of an accepted swap can be read. -/
theorem patchTerms_unmarshal (h : patchTerms H now request = .ok blob) :
    ∃ hash, unmarshalSecretHash blob.secretHash = .ok hash := by
  have hread : ∀ (text : String) (hash : Bytes32), decodeString text = some hash.1 →
      unmarshalSecretHash text = .ok hash := by
    intro text hash htext
    unfold unmarshalSecretHash
    rw [htext]
    exact dif_pos hash.2
  unfold patchTerms at h
  split at h
  · cases h
    exact ⟨_, hread _ _ (decodeString_encodeToString _)⟩
  · split at h
    · cases h
    · rename_i bytes hbytes
      split at h
      · cases h
      · rename_i hlength
        split at h
        · cases h
        · cases h
          exact ⟨⟨bytes, not_not.mp hlength⟩, hread _ _ hbytes⟩

/-- Admission changes nothing that the condition is about. -/
theorem buildable_patches (h : Patches request blob) : Buildable c blob ↔ Buildable c request := by
  unfold Patches at h
  rw [h]
  exact ⟨fun b => ⟨b.1, b.2, b.3, b.4, b.5⟩, fun b => ⟨b.1, b.2, b.3, b.4, b.5⟩⟩

theorem builds_iff_buildable {send receive : Token} {value : Int} {secretHash : Bytes32}
    (hverify : W.verifyAddress = c.verifyAddress)
    (hderives : Derives c.network W blob.password)
    (hsend : patchToken blob.sendToken = .ok send)
    (hreceive : patchToken blob.receiveToken = .ok receive)
    (hamount : setString blob.sendAmount = some value)
    (hhash : unmarshalSecretHash blob.secretHash = .ok secretHash) :
    Builds c.network W blob ↔ Buildable c blob := by
  have hlegs := buildComplementarySwaps_ok_iff hderives hsend hreceive hhash
  have htokens : ∀ {name : TokenName} {token token' : Token}, patchToken name = .ok token →
      patchToken name = .ok token' → token' = token :=
    fun h h' => Except.ok.inj (h'.symm.trans h)
  -- the wallet's own address is on the other side of each script
  have hown : ∀ {chain : BlockchainName} {address : String}, chain = .bitcoin →
      W.getAddress blob.password chain = .ok address → IsPubKeyHash c.network address := by
    intro chain address hchain haddress
    subst hchain
    exact hderives.bitcoinAddress address haddress
  constructor
  · rintro ⟨native, foreign, hbuild, hscripts⟩
    have hswaps := buildComplementarySwaps_ok hbuild
    obtain ⟨⟨-, hbrokerSend⟩, hreceiveAmount, hbrokerReceive⟩ := hlegs.mp ⟨_, hbuild⟩
    refine ⟨hreceiveAmount, ?_, ?_, ?_, ?_⟩
    · intro token htoken
      rw [htokens hsend htoken, ← hverify]
      exact hbrokerSend
    · intro token htoken
      rw [htokens hreceive htoken, ← hverify]
      exact hbrokerReceive
    · intro token htoken hchain
      rw [← htokens htoken hswaps.native_leg.token] at hchain
      have hspending := (buildInitiateScript_ok_iff hderives).mp
        (hscripts native (.inl rfl) hchain)
      rw [hswaps.native_spending] at hspending
      exact hspending.2
    · intro token htoken hchain
      rw [← htokens htoken hswaps.foreign_leg.token] at hchain
      have hfunding := (buildInitiateScript_ok_iff hderives).mp
        (hscripts foreign (.inr rfl) hchain)
      rw [hswaps.foreign_funding] at hfunding
      exact hfunding.1
  · intro hbuildable
    have hbrokerSend := hbuildable.brokerSendTokenAddr send hsend
    have hbrokerReceive := hbuildable.brokerReceiveTokenAddr receive hreceive
    rw [← hverify] at hbrokerSend hbrokerReceive
    obtain ⟨⟨native, foreign⟩, hbuild⟩ := hlegs.mpr
      ⟨⟨⟨value, hamount⟩, hbrokerSend⟩, hbuildable.receiveAmount, hbrokerReceive⟩
    have hswaps := buildComplementarySwaps_ok hbuild
    refine ⟨native, foreign, hbuild, ?_⟩
    rintro swap (rfl | rfl) hchain
    · apply (buildInitiateScript_ok_iff hderives).mpr
      rw [hswaps.native_spending]
      exact ⟨hown hchain hswaps.native_funding,
        hbuildable.sendTo _ hswaps.native_leg.token hchain⟩
    · apply (buildInitiateScript_ok_iff hderives).mpr
      rw [hswaps.foreign_funding]
      exact ⟨hbuildable.receiveFrom _ hswaps.foreign_leg.token hchain,
        hown hchain hswaps.foreign_spending⟩

/-- **An accepted swap can be built exactly when the amount to receive is decimal, the
    broker addresses that are used are valid, and the counterparty's Bitcoin addresses are
    pay-to-pubkey-hash ones**: admission checks none of it. -/
theorem builds_iff
    {getAddress : (password : String) → BlockchainName → Except GoError String}
    {ecdsaSigner : (password : String) → Except GoError (Bytes32 → Except GoError (List UInt8))}
    (hderives : Derives c.network (c.wallet getAddress ecdsaSigner) request.password)
    (h : patchSwap H (c.wallet getAddress ecdsaSigner) verifyBalance now swapID request =
      .ok blob) :
    Builds c.network (c.wallet getAddress ecdsaSigner) blob ↔ Buildable c request := by
  have hpatches := (patchSwap_patches h).1
  rw [← buildable_patches hpatches]
  obtain ⟨⟨send, receive, hadmits⟩, hterms⟩ := patchSwap_ok_iff.mp h
  obtain ⟨secretHash, hhash⟩ := patchTerms_unmarshal hterms
  have hamount : ∃ value, setString request.sendAmount = some value := by
    have hchecked := hadmits.sendAmount
    unfold verifySendAmount at hchecked
    cases hvalue : setString request.sendAmount with
    | none => simp [hvalue] at hchecked
    | some value => exact ⟨value, rfl⟩
  obtain ⟨value, hvalue⟩ := hamount
  have hsend := hadmits.sendToken
  have hreceive := hadmits.receiveToken
  unfold Patches at hpatches
  have hpassword : blob.password = request.password := by rw [hpatches]
  have hsendToken : blob.sendToken = request.sendToken := by rw [hpatches]
  have hreceiveToken : blob.receiveToken = request.receiveToken := by rw [hpatches]
  have hsendAmount : blob.sendAmount = request.sendAmount := by rw [hpatches]
  rw [← hpassword] at hderives
  exact builds_iff_buildable rfl hderives (hsendToken ▸ hsend) (hreceiveToken ▸ hreceive)
    (hsendAmount ▸ hvalue) hhash

end Requests

/-! ### A request on the test network -/

def opcodeByte : Opcode → UInt8
  | .opIf => 0x63
  | .opSize => 0x82
  | .opEqualVerify => 0x88
  | .opSha256 => 0xa8
  | .opDup => 0x76
  | .opHash160 => 0xa9
  | .opElse => 0x67
  | .opCheckLockTimeVerify => 0xb1
  | .opDrop => 0x75
  | .opEndIf => 0x68
  | .opCheckSig => 0xac

/-- Short data is pushed after its length; a timelock takes four bytes. -/
def itemBytes : ScriptItem → List UInt8
  | .op code => [opcodeByte code]
  | .data bytes => UInt8.ofNat bytes.length :: bytes
  | .int64 value => 4 :: (List.range 4).map fun i => UInt8.ofNat (value.toNat / 256 ^ i)

/-- The addresses of a wallet and of its counterparty, and a script address. -/
def ownAddress : String := "mfcHP2WMCVLsVZA8yrovmhMgxNFW9r98xw"
def theirAddress : String := "mhSSwwKCGrdmF5ZWyyGTnmLer8d9TSPcgu"
def scriptAddress : String := "2MuAieAegdC2EkvQt4daZ1RUXM1XKpy1trn"

def byteRange (first : Nat) : List UInt8 := (List.range 20).map fun i => UInt8.ofNat (first + i)

def testNet3 : Network where
  name := "testnet3"
  decodeAddress address :=
    if address = ownAddress then .ok (.pubKeyHash (byteRange 1))
    else if address = theirAddress then .ok (.pubKeyHash (byteRange 21))
    else if address = scriptAddress then .ok (.other scriptAddress)
    else .error (.errorf "decoded address is of unknown format")
  script items := .ok (items.flatMap itemBytes)
  addressScriptHash _ := .ok "2N7QzDQsSL8F1WCcFg4mro5Q8tTGbTWupCi"
  payToAddrScript _ := .ok []

def testConfig : Config where
  networkName := "testnet"
  mainNet := testNet3
  testNet3 := testNet3

def testWallet : Wallet := testConfig.wallet
  (fun _ chain => .ok (if chain = .bitcoin then ownAddress
    else "0x52bc44d5378309ee2abf1539bf71de1b7d7be3b5"))
  (fun _ => .ok fun _ => .ok [])

theorem testWallet_derives (password : String) :
    Derives testConfig.network testWallet password := by
  have hnet : testConfig.network = testNet3 := if_neg (by decide)
  rw [hnet]
  refine ⟨fun chain => ⟨_, rfl⟩, ?_, ?_, ?_, fun _ => ⟨_, rfl⟩⟩
  · intro address haddress
    cases haddress
    exact ⟨byteRange 1, rfl⟩
  · intro address hash160 h
    unfold testNet3 at h
    dsimp only at h
    split at h
    · cases h
      rfl
    · split at h
      · cases h
        rfl
      · split at h <;> cases h
  · intro pkhMe pkhThem locktime secretHash _ _
    exact ⟨_, rfl⟩

/-- A responder's request that sends Bitcoin to `sendTo`. -/
def testRequest (sendTo : String) : SwapBlob := { sampleBlob with sendTo := sendTo }

theorem testRequest_accepted :
    patchSwap zeroHashes testWallet (fun _ _ _ => .ok ()) 1549900000 sampleHash
        (testRequest theirAddress) = .ok (testRequest theirAddress) ∧
      patchSwap zeroHashes testWallet (fun _ _ _ => .ok ()) 1549900000 sampleHash
        (testRequest scriptAddress) = .ok (testRequest scriptAddress) := by
  decide +kernel

theorem builds_iff_testRequest :
    Builds testConfig.network testWallet (testRequest theirAddress) ↔
      Buildable testConfig (testRequest theirAddress) :=
  builds_iff (testWallet_derives _) testRequest_accepted.1

/-- A script address is accepted, and its swap cannot be built. -/
theorem scriptAddress_not_built :
    patchSwap zeroHashes testWallet (fun _ _ _ => .ok ()) 1549900000 sampleHash
        (testRequest scriptAddress) = .ok (testRequest scriptAddress) ∧
      ¬ Builds testConfig.network testWallet (testRequest scriptAddress) := by
  refine ⟨testRequest_accepted.2, ?_⟩
  rintro ⟨native, foreign, hbuild, hscripts⟩
  have hswaps := buildComplementarySwaps_ok hbuild
  have hbtc : native.token = tokenBTC :=
    Except.ok.inj (hswaps.native_leg.token.symm.trans (by decide +kernel))
  have hspending := (buildInitiateScript_ok_iff (testWallet_derives "")).mp
    (hscripts native (.inl rfl) (by rw [hbtc]; rfl))
  rw [hswaps.native_spending] at hspending
  obtain ⟨hash160, hdecode⟩ := hspending.2
  have hother : testConfig.network.decodeAddress scriptAddress = .ok (.other scriptAddress) := by
    decide +kernel
  cases hother.symm.trans hdecode

end Swapperd.Admission
