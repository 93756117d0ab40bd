/-
  Swapperd/BitcoinSpends.lean
  ===========================
  **How the Bitcoin HTLC of a swap can be spent** (`adapter/binder/btc`: `script.go`, and
  the signature scripts of `Redeem` and `Refund`).

  `htlc_admits_two_spends` — the bytes of `newInitiateScript` accept two kinds of stacks,
  and the signature scripts of `newRedeemScript` and `newRefundScript` supply them.
-/
import Swapperd.ScriptBuilder
import Swapperd.SwapContracts

namespace Swapperd.Bitcoin

open GoLibrary ScriptMachine
open Chain (Tx)

/-- The hash of a public key. -/
abbrev KeyHash := { bytes : Bytes // bytes.length = 20 }

theorem pushData_keyHash (hash : KeyHash) : pushData hash.1 = hash.1 :=
  pushData_of_length (by rw [hash.2]; decide)

theorem pushData_bytes32 (bytes : Bytes32) : pushData bytes.1 = bytes.1 :=
  pushData_of_length (by rw [bytes.2]; decide)

/-! ### The script -/

/-- The script of the HTLC. The last two instructions of a key lock are shared by the
    branches. -/
def htlcScript (pkhMe pkhThem : KeyHash) (locktime : Int) (secretHash : Bytes32) :
    List Instruction :=
  conditional
    (sizeLock 32 ++ hashLock secretHash.1 ++ [.dup, .hash160, .push pkhThem.1])
    (timeLock locktime ++ [.dup, .hash160, .push pkhMe.1]) ++
  List.map .op [.equalVerify, .checkSig]

/-- The items that `newInitiateScript` adds are that script, and none is too long. -/
theorem newInitiateScript_items (pkhMe pkhThem : KeyHash) (locktime : Int)
    (secretHash : Bytes32) :
    ∃ items, instructions items = htlcScript pkhMe pkhThem locktime secretHash ∧
      (∀ item ∈ items, ∀ bytes, item = .data bytes → bytes.length ≤ 520) ∧
        ∀ net : Network,
          newInitiateScript net pkhMe.1 pkhThem.1 locktime secretHash.1 = net.script items := by
  refine ⟨_, ?_, ?_, fun net => rfl⟩
  · have hnumber : scriptNum 32 = [32] := by simp [scriptNum]
    have hsize : pushData [32] = [32] := by decide
    simp [instructions, htlcScript, ScriptItem.instruction, Opcode.instruction,
      pushData_keyHash, pushData_bytes32, conditional, sizeLock, hashLock, timeLock, hnumber,
      hsize]
  · rintro item hitem bytes rfl
    have hbytes : bytes = [32] ∨ bytes = secretHash.1 ∨ bytes = pkhThem.1 ∨ bytes = pkhMe.1 := by
      simpa using hitem
    rcases hbytes with rfl | rfl | rfl | rfl
    · decide
    · rw [secretHash.2]
      decide
    · rw [pkhThem.2]
      decide
    · rw [pkhMe.2]
      decide

theorem newInitiateScript_ok {net : Network} (hnet : net.Canonical) {pkhMe pkhThem : KeyHash}
    {locktime : Int} {secretHash : Bytes32} {script : Bytes}
    (h : newInitiateScript net pkhMe.1 pkhThem.1 locktime secretHash.1 = .ok script) :
    script = assemble (htlcScript pkhMe pkhThem locktime secretHash) ∧
      ∀ i ∈ htlcScript pkhMe pkhThem locktime secretHash, i.Short := by
  obtain ⟨items, hitems, -, hnew⟩ := newInitiateScript_items pkhMe pkhThem locktime secretHash
  rw [hnew] at h
  exact hnet.script_ok h hitems

theorem length_htlcScript_le {pkhMe pkhThem : KeyHash} {locktime : Int} {secretHash : Bytes32}
    (hlocktime : (scriptNum locktime).length ≤ 5) :
    (assemble (htlcScript pkhMe pkhThem locktime secretHash)).length ≤ 200 := by
  have hnumber : scriptNum 32 = [32] := by simp [scriptNum]
  have hsize := length_encodePush_le [32]
  have hhash := length_encodePush_le secretHash.1
  have hme := length_encodePush_le pkhMe.1
  have hthem := length_encodePush_le pkhThem.1
  have htime := length_encodePush_le (scriptNum locktime)
  rw [secretHash.2] at hhash
  rw [pkhMe.2] at hme
  rw [pkhThem.2] at hthem
  simp [htlcScript, conditional, sizeLock, hashLock, timeLock, assemble, Instruction.encode,
    hnumber] at hsize ⊢
  omega

/-- A lock time of at most five bytes gives a script. -/
theorem exists_newInitiateScript {net : Network} (hnet : net.Canonical)
    (pkhMe pkhThem : KeyHash) {locktime : Int} (secretHash : Bytes32)
    (hlocktime : (scriptNum locktime).length ≤ 5) :
    ∃ script, newInitiateScript net pkhMe.1 pkhThem.1 locktime secretHash.1 = .ok script := by
  obtain ⟨items, hitems, helements, hnew⟩ :=
    newInitiateScript_items pkhMe pkhThem locktime secretHash
  rw [hnew]
  refine ⟨_, (hnet.script_iff _ _).mpr ⟨⟨helements, ?_⟩, rfl⟩⟩
  rw [hitems]
  exact (length_htlcScript_le hlocktime).trans (by decide)

/-! ### Spends -/

/-- A stack that reveals the secret to the counterparty's key. -/
def Redeems (ctx : Context) (pkhThem : KeyHash) (secretHash : Bytes32) (rest s : Stack) : Prop :=
  ∃ flag secret pubKey sig, s = flag :: secret :: pubKey :: sig :: rest ∧ truth flag = true ∧
    secret.length = 32 ∧ ctx.sha256 secret = secretHash.1 ∧ ctx.hash160 pubKey = pkhThem.1 ∧
      ctx.checkSig sig pubKey = some true

/-- A stack that takes the value back to the funder's key after the lock time. -/
def Refunds (ctx : Context) (pkhMe : KeyHash) (locktime : Int) (rest s : Stack) : Prop :=
  ∃ flag pubKey sig, s = flag :: pubKey :: sig :: rest ∧ truth flag = false ∧
    ctx.SatisfiesLockTime locktime ∧ ctx.hash160 pubKey = pkhMe.1 ∧
      ctx.checkSig sig pubKey = some true

def newRedeemScript (net : Network) (initiateScript sig pubkey : Bytes) (secret : Bytes32) :
    Except GoError Bytes :=
  net.script [.data sig, .data pubkey, .data secret.1, .int64 1, .data initiateScript]

def newRefundScript (net : Network) (initiateScript sig pubkey : Bytes) :
    Except GoError Bytes :=
  net.script [.data sig, .data pubkey, .int64 0, .data initiateScript]

/-- The signature script that `SendTransaction` makes for a transaction. -/
def signatureScript (net : Network) (initiateScript : Bytes) (tx : Tx) (sig pubkey : Bytes) :
    Except GoError Bytes :=
  net.script ([.data sig, .data pubkey] ++ tx.scriptItems ++ [.data initiateScript])

variable {ctx : Context} {cleanStack : Bool} {pkhMe pkhThem : KeyHash} {locktime : Int}
  {secretHash : Bytes32} {s : Stack}

theorem redeemBranch_iff {t : Stack} :
    runOps ctx (sizeLock 32 ++ hashLock secretHash.1 ++ keyLock pkhThem.1) s = some t ↔
      ∃ secret pubKey sig rest valid, s = secret :: pubKey :: sig :: rest ∧
        secret.length = 32 ∧ ctx.sha256 secret = secretHash.1 ∧
          ctx.hash160 pubKey = pkhThem.1 ∧ ctx.checkSig sig pubKey = some valid ∧
            t = boolBytes valid :: rest := by
  simp only [runOps_append_iff, runOps_sizeLock_iff, runOps_hashLock_iff, runOps_keyLock_iff]
  constructor
  · rintro ⟨_, ⟨_, ⟨rfl, top, s', htop, hlength⟩, secret, rfl, hhash⟩, pubKey, sig, rest, valid,
      rfl, hkey, hsig, rfl⟩
    obtain ⟨rfl, -⟩ := List.cons.inj htop
    exact ⟨secret, pubKey, sig, rest, valid, rfl, hlength, hhash, hkey, hsig, rfl⟩
  · rintro ⟨secret, pubKey, sig, rest, valid, rfl, hlength, hhash, hkey, hsig, rfl⟩
    exact ⟨_, ⟨_, ⟨rfl, secret, _, rfl, hlength⟩, secret, rfl, hhash⟩, pubKey, sig, rest, valid,
      rfl, hkey, hsig, rfl⟩

theorem refundBranch_iff {t : Stack} :
    runOps ctx (timeLock locktime ++ keyLock pkhMe.1) s = some t ↔
      ∃ pubKey sig rest valid, s = pubKey :: sig :: rest ∧
        ((scriptNum locktime).length ≤ 5 ∧ ctx.SatisfiesLockTime locktime) ∧
          ctx.hash160 pubKey = pkhMe.1 ∧ ctx.checkSig sig pubKey = some valid ∧
            t = boolBytes valid :: rest := by
  simp only [runOps_append_iff, runOps_timeLock_iff, runOps_keyLock_iff]
  constructor
  · rintro ⟨_, ⟨rfl, hlock⟩, pubKey, sig, rest, valid, rfl, hkey, hsig, rfl⟩
    exact ⟨pubKey, sig, rest, valid, rfl, hlock, hkey, hsig, rfl⟩
  · rintro ⟨pubKey, sig, rest, valid, rfl, hlock, hkey, hsig, rfl⟩
    exact ⟨_, ⟨rfl, hlock⟩, pubKey, sig, rest, valid, rfl, hkey, hsig, rfl⟩

theorem Redeems.flag {flag : Bytes} {rest : Stack}
    (h : Redeems ctx pkhThem secretHash rest (flag :: s)) : truth flag = true := by
  obtain ⟨flag', secret, pubKey, sig, hs, hflag, -⟩ := h
  obtain ⟨rfl, -⟩ := List.cons.inj hs
  exact hflag

theorem Refunds.flag {flag : Bytes} {rest : Stack}
    (h : Refunds ctx pkhMe locktime rest (flag :: s)) : truth flag = false := by
  obtain ⟨flag', pubKey, sig, hs, hflag, -⟩ := h
  obtain ⟨rfl, -⟩ := List.cons.inj hs
  exact hflag

/-- A true flag selects the branch of the counterparty. -/
theorem redeemBranch_accepts_iff {flag : Bytes} (hflag : truth flag = true) {rest : Stack} :
    (∃ top, runOps ctx (sizeLock 32 ++ hashLock secretHash.1 ++ keyLock pkhThem.1) s =
        some (top :: rest) ∧ truth top = true) ↔
      Redeems ctx pkhThem secretHash rest (flag :: s) := by
  simp only [redeemBranch_iff]
  constructor
  · rintro ⟨top, ⟨secret, pubKey, sig, rest', valid, rfl, hlength, hhash, hkey, hsig, ht⟩, htop⟩
    obtain ⟨rfl, rfl⟩ := List.cons.inj ht
    rw [truth_boolBytes] at htop
    subst htop
    exact ⟨flag, secret, pubKey, sig, rfl, hflag, hlength, hhash, hkey, hsig⟩
  · rintro ⟨_, secret, pubKey, sig, hs, -, hlength, hhash, hkey, hsig⟩
    obtain ⟨-, rfl⟩ := List.cons.inj hs
    exact ⟨boolBytes true, ⟨secret, pubKey, sig, rest, true, rfl, hlength, hhash, hkey, hsig,
      rfl⟩, truth_boolBytes true⟩

/-- A false flag selects the branch of the funder. -/
theorem refundBranch_accepts_iff {flag : Bytes} (hflag : truth flag = false) {rest : Stack} :
    (∃ top, runOps ctx (timeLock locktime ++ keyLock pkhMe.1) s = some (top :: rest) ∧
        truth top = true) ↔
      (scriptNum locktime).length ≤ 5 ∧ Refunds ctx pkhMe locktime rest (flag :: s) := by
  simp only [refundBranch_iff]
  constructor
  · rintro ⟨top, ⟨pubKey, sig, rest', valid, rfl, ⟨hlength, hlock⟩, hkey, hsig, ht⟩, htop⟩
    obtain ⟨rfl, rfl⟩ := List.cons.inj ht
    rw [truth_boolBytes] at htop
    subst htop
    exact ⟨hlength, flag, pubKey, sig, rfl, hflag, hlock, hkey, hsig⟩
  · rintro ⟨hlength, _, pubKey, sig, hs, -, hlock, hkey, hsig⟩
    obtain ⟨-, rfl⟩ := List.cons.inj hs
    exact ⟨boolBytes true, ⟨pubKey, sig, rest, true, rfl, ⟨hlength, hlock⟩, hkey, hsig, rfl⟩,
      truth_boolBytes true⟩

/-- The stacks that the script accepts. -/
theorem accepts_htlcScript_iff :
    Accepts ctx cleanStack (htlcScript pkhMe pkhThem locktime secretHash) s ↔
      ∃ rest, (cleanStack = true → rest = []) ∧
        (Redeems ctx pkhThem secretHash rest s ∨
          (scriptNum locktime).length ≤ 5 ∧ Refunds ctx pkhMe locktime rest s) := by
  unfold htlcScript
  cases s with
  | nil =>
      constructor
      · exact fun h => absurd h not_accepts_conditional_nil
      · rintro ⟨rest, -, ⟨flag, secret, pubKey, sig, hs, -⟩ | ⟨-, flag, pubKey, sig, hs, -⟩⟩
        · cases hs
        · cases hs
  | cons flag s =>
      -- the shared tail completes the key lock of the branch that is taken
      have htail : ∀ {first : List Op} {key : Bytes},
          first ++ [.dup, .hash160, .push key] ++ [.equalVerify, .checkSig] =
            first ++ keyLock key := by simp [keyLock]
      rw [accepts_conditional_iff, exists_comm]
      apply exists_congr
      intro rest
      cases hflag : truth flag with
      | true =>
          have hrefunds : ¬ Refunds ctx pkhMe locktime rest (flag :: s) := by
            intro h
            exact absurd (hflag.symm.trans h.flag) (by decide)
          rw [if_pos rfl, htail, ← redeemBranch_accepts_iff hflag]
          simp only [hrefunds, and_false, or_false, ← and_assoc, exists_and_right]
          exact and_comm
      | false =>
          have hredeems : ¬ Redeems ctx pkhThem secretHash rest (flag :: s) := by
            intro h
            exact absurd (hflag.symm.trans h.flag) (by decide)
          rw [if_neg (by decide), htail, ← refundBranch_accepts_iff hflag]
          simp only [hredeems, false_or, ← and_assoc, exists_and_right]
          exact and_comm

/-! ### What `Redeem` and `Refund` supply -/

theorem accepts_redeem_iff {secret : Bytes32} {sig pubKey : Bytes} :
    Accepts ctx cleanStack (htlcScript pkhMe pkhThem locktime secretHash)
        [[1], secret.1, pubKey, sig] ↔
      ctx.sha256 secret.1 = secretHash.1 ∧ ctx.hash160 pubKey = pkhThem.1 ∧
        ctx.checkSig sig pubKey = some true := by
  rw [accepts_htlcScript_iff]
  constructor
  · rintro ⟨rest, -, ⟨flag, secret', pubKey', sig', hs, -, -, hhash, hkey, hsig⟩ |
      ⟨-, flag, pubKey', sig', hs, hflag, -⟩⟩
    · obtain ⟨rfl, rfl, rfl, rfl, rfl⟩ : [1] = flag ∧ secret.1 = secret' ∧ pubKey = pubKey' ∧
        sig = sig' ∧ [] = rest := by simpa using hs
      exact ⟨hhash, hkey, hsig⟩
    · obtain ⟨rfl, -⟩ := List.cons.inj hs
      exact absurd hflag (by decide)
  · rintro ⟨hhash, hkey, hsig⟩
    exact ⟨[], fun _ => rfl, .inl ⟨[1], secret.1, pubKey, sig, rfl, by decide, secret.2, hhash,
      hkey, hsig⟩⟩

theorem accepts_refund_iff {sig pubKey : Bytes} :
    Accepts ctx cleanStack (htlcScript pkhMe pkhThem locktime secretHash) [[], pubKey, sig] ↔
      ((scriptNum locktime).length ≤ 5 ∧ ctx.SatisfiesLockTime locktime) ∧
        ctx.hash160 pubKey = pkhMe.1 ∧ ctx.checkSig sig pubKey = some true := by
  rw [accepts_htlcScript_iff]
  constructor
  · rintro ⟨rest, -, ⟨flag, secret, pubKey', sig', hs, hflag, -⟩ |
      ⟨hlength, flag, pubKey', sig', hs, -, hlock, hkey, hsig⟩⟩
    · obtain ⟨rfl, -⟩ := List.cons.inj hs
      exact absurd hflag (by decide)
    · obtain ⟨rfl, rfl, rfl, rfl⟩ : [] = flag ∧ pubKey = pubKey' ∧ sig = sig' ∧ [] = rest := by
        simpa using hs
      exact ⟨⟨hlength, hlock⟩, hkey, hsig⟩
  · rintro ⟨⟨hlength, hlock⟩, hkey, hsig⟩
    exact ⟨[], fun _ => rfl, .inr ⟨hlength, [], pubKey, sig, rfl, by decide, hlock, hkey, hsig⟩⟩

/-- The items on top of the signature and the public key: the secret and a true flag. -/
theorem redeemItems_pushes (secret : Bytes32) :
    instructions [.data secret.1, .int64 1] =
      [secret.1, [1]].map fun push => .op (.push push) := by
  have hone : scriptNum 1 = [1] := by simp [scriptNum]
  simp [instructions, ScriptItem.instruction, pushData_bytes32, hone]

/-- A false flag. -/
theorem refundItems_pushes :
    instructions [.int64 0] = [[]].map fun push => .op (.push push) := by
  have hzero : scriptNum 0 = [] := by simp [scriptNum]
  simp [instructions, ScriptItem.instruction, hzero]

section Bytes

variable {net : Network} (hnet : net.Canonical) {script sigScript sig pubKey : Bytes}
  (hscript : newInitiateScript net pkhMe.1 pkhThem.1 locktime secretHash.1 = .ok script)
include hnet hscript

theorem acceptsBytes_iff :
    AcceptsBytes ctx cleanStack script s ↔
      Accepts ctx cleanStack (htlcScript pkhMe pkhThem locktime secretHash) s := by
  obtain ⟨rfl, hshort⟩ := newInitiateScript_ok hnet hscript
  exact acceptsBytes_assemble_iff hshort

/-- The script is pushed as it is. -/
theorem pushData_script : pushData script = script := by
  obtain ⟨rfl, -⟩ := newInitiateScript_ok hnet hscript
  apply pushData_of_length
  simp [htlcScript, conditional, assemble, Instruction.encode]

/-- A signature script that pushes some items and the script unlocks its output with these
    items, the last one on top. -/
theorem unlocks_iff {items : List ScriptItem} {pushes : List Bytes}
    (hitems : instructions items = (pushes ++ [script]).map fun push => .op (.push push))
    (h : net.script items = .ok sigScript) :
    Unlocks ctx cleanStack (ctx.hash160 script) sigScript ↔
      Accepts ctx cleanStack (htlcScript pkhMe pkhThem locktime secretHash) pushes.reverse := by
  obtain ⟨rfl, hshort⟩ := hnet.script_ok h hitems
  rw [unlocks_pushes_iff, acceptsBytes_iff hnet hscript]
  intro push hpush
  exact hshort _ (List.mem_map_of_mem hpush)

/-- What a signature script pushes on top of the signature and the public key. -/
theorem sigScript_items {top : List ScriptItem} {pushes : List Bytes}
    (htop : instructions top = pushes.map fun push => .op (.push push)) :
    instructions (.data sig :: .data pubKey :: (top ++ [.data script])) =
      ([pushData sig, pushData pubKey] ++ pushes ++ [script]).map
        fun push => .op (.push push) := by
  unfold instructions at htop ⊢
  simp [htop, ScriptItem.instruction, pushData_script hnet hscript]

/-- Short signatures and keys give a signature script. -/
theorem exists_sigScript {top : List ScriptItem} {pushes : List Bytes}
    (htop : instructions top = pushes.map fun push => .op (.push push))
    (helements : ∀ item ∈ top, ∀ bytes, item = .data bytes → bytes.length ≤ 520)
    (hpushes : (pushes.map fun push => push.length + 5).sum ≤ 1000)
    (hlocktime : (scriptNum locktime).length ≤ 5)
    (hsig : sig.length ≤ 520) (hpubKey : pubKey.length ≤ 520) :
    ∃ sigScript, net.script (.data sig :: .data pubKey :: (top ++ [.data script])) =
      .ok sigScript := by
  have hlength : script.length ≤ 200 := by
    obtain ⟨rfl, -⟩ := newInitiateScript_ok hnet hscript
    exact length_htlcScript_le hlocktime
  have hsigLength := length_pushData_le sig
  have hpubKeyLength := length_pushData_le pubKey
  refine ⟨_, (hnet.script_iff _ _).mpr
    ⟨Fits.of_pushes ?_ (sigScript_items hnet hscript htop) ?_, rfl⟩⟩
  · intro item hitem bytes hbytes
    subst hbytes
    have hmem : bytes = sig ∨ bytes = pubKey ∨ .data bytes ∈ top ∨ bytes = script := by
      simpa using hitem
    rcases hmem with rfl | rfl | htop | rfl
    · exact hsig
    · exact hpubKey
    · exact helements _ htop _ rfl
    · exact hlength.trans (by decide)
  · simp only [List.map_append, List.sum_append, List.map_cons, List.map_nil, List.sum_cons,
      List.sum_nil]
    omega

theorem newRedeemScript_unlocks_iff {secret : Bytes32}
    (h : newRedeemScript net script sig pubKey secret = .ok sigScript) :
    Unlocks ctx cleanStack (ctx.hash160 script) sigScript ↔
      ctx.sha256 secret.1 = secretHash.1 ∧ ctx.hash160 (pushData pubKey) = pkhThem.1 ∧
        ctx.checkSig (pushData sig) (pushData pubKey) = some true := by
  rw [unlocks_iff hnet hscript (sigScript_items hnet hscript (redeemItems_pushes secret)) h]
  exact accepts_redeem_iff

theorem newRefundScript_unlocks_iff
    (h : newRefundScript net script sig pubKey = .ok sigScript) :
    Unlocks ctx cleanStack (ctx.hash160 script) sigScript ↔
      ((scriptNum locktime).length ≤ 5 ∧ ctx.SatisfiesLockTime locktime) ∧
        ctx.hash160 (pushData pubKey) = pkhMe.1 ∧
          ctx.checkSig (pushData sig) (pushData pubKey) = some true := by
  rw [unlocks_iff hnet hscript (sigScript_items hnet hscript refundItems_pushes) h]
  exact accepts_refund_iff

theorem exists_newRedeemScript (hlocktime : (scriptNum locktime).length ≤ 5)
    (hsig : sig.length ≤ 520) (hpubKey : pubKey.length ≤ 520) (secret : Bytes32) :
    ∃ sigScript, newRedeemScript net script sig pubKey secret = .ok sigScript := by
  refine exists_sigScript hnet hscript (redeemItems_pushes secret) ?_ ?_ hlocktime hsig hpubKey
  · rintro item hitem bytes rfl
    obtain rfl : bytes = secret.1 := by simpa using hitem
    rw [secret.2]
    decide
  · simp [secret.2]

theorem exists_newRefundScript (hlocktime : (scriptNum locktime).length ≤ 5)
    (hsig : sig.length ≤ 520) (hpubKey : pubKey.length ≤ 520) :
    ∃ sigScript, newRefundScript net script sig pubKey = .ok sigScript := by
  refine exists_sigScript hnet hscript refundItems_pushes ?_ (by simp) hlocktime hsig hpubKey
  rintro item hitem bytes rfl
  exact absurd hitem (by simp)

end Bytes

/-- The two spends of a script, and no other; and the signature scripts that make them. -/
structure AdmitsTwoSpends (net : Network) (ctx : Context) (cleanStack : Bool)
    (pkhMe pkhThem : KeyHash) (locktime : Int) (secretHash : Bytes32) (script : Bytes) :
    Prop where
  accepted : ∀ s, AcceptsBytes ctx cleanStack script s ↔
    ∃ rest, (cleanStack = true → rest = []) ∧
      (Redeems ctx pkhThem secretHash rest s ∨ Refunds ctx pkhMe locktime rest s)
  redeem : ∀ secret sig pubKey, sig.length ≤ 520 → pubKey.length ≤ 520 →
    ∃ sigScript, newRedeemScript net script sig pubKey secret = .ok sigScript ∧
      (Unlocks ctx cleanStack (ctx.hash160 script) sigScript ↔
        ctx.sha256 secret.1 = secretHash.1 ∧ ctx.hash160 (pushData pubKey) = pkhThem.1 ∧
          ctx.checkSig (pushData sig) (pushData pubKey) = some true)
  refund : ∀ sig pubKey, sig.length ≤ 520 → pubKey.length ≤ 520 →
    ∃ sigScript, newRefundScript net script sig pubKey = .ok sigScript ∧
      (Unlocks ctx cleanStack (ctx.hash160 script) sigScript ↔
        ctx.SatisfiesLockTime locktime ∧ ctx.hash160 (pushData pubKey) = pkhMe.1 ∧
          ctx.checkSig (pushData sig) (pushData pubKey) = some true)
  sent : ∀ outs secret lockTime sig pubKey,
    signatureScript net script (.btcRedeem outs secret) sig pubKey =
        newRedeemScript net script sig pubKey secret ∧
      signatureScript net script (.btcRefund outs lockTime) sig pubKey =
        newRefundScript net script sig pubKey

/-- **The script admits exactly the two intended spends**, in every context. Items below
    the spend are refused where a clean stack is asked for. -/
theorem htlc_admits_two_spends {net : Network} (hnet : net.Canonical) (ctx : Context)
    (cleanStack : Bool) (pkhMe pkhThem : KeyHash) (secretHash : Bytes32) (hpos : 0 < locktime)
    (hlocktime : locktime < 2 ^ 32) :
    ∃ script, newInitiateScript net pkhMe.1 pkhThem.1 locktime secretHash.1 = .ok script ∧
      AdmitsTwoSpends net ctx cleanStack pkhMe pkhThem locktime secretHash script := by
  have hlength : (scriptNum locktime).length ≤ 5 := length_scriptNum_le (k := 4) (by omega)
  obtain ⟨script, hscript⟩ := exists_newInitiateScript hnet pkhMe pkhThem secretHash hlength
  refine ⟨script, hscript, ?_⟩
  constructor
  · intro s
    simp only [acceptsBytes_iff hnet hscript, accepts_htlcScript_iff, hlength, true_and]
  · intro secret sig pubKey hsig hpubKey
    obtain ⟨sigScript, h⟩ :=
      exists_newRedeemScript hnet hscript hlength hsig hpubKey secret
    exact ⟨sigScript, h, newRedeemScript_unlocks_iff hnet hscript h⟩
  · intro sig pubKey hsig hpubKey
    obtain ⟨sigScript, h⟩ := exists_newRefundScript hnet hscript hlength hsig hpubKey
    refine ⟨sigScript, h, ?_⟩
    rw [newRefundScript_unlocks_iff hnet hscript h]
    simp only [hlength, true_and]
  · exact fun outs secret lockTime sig pubKey => ⟨rfl, rfl⟩

/-- A context to run examples in: every signature is valid. -/
def signedContext (lockTime sequence : Nat) : Context where
  sha256 bytes := (zeroHashes.sha256 bytes).1
  hash160 _ := List.replicate 20 0
  checkSig _ _ := some true
  lockTime := lockTime
  sequence := sequence

def zeroKeyHash : KeyHash := ⟨List.replicate 20 0, List.length_replicate⟩

/-- A network with the script builder. -/
def builderNet : Network where
  name := "testnet3"
  decodeAddress _ := .error (.errorf "decoded address is of unknown format")
  script := buildScript
  addressScriptHash _ := .ok "2N7QzDQsSL8F1WCcFg4mro5Q8tTGbTWupCi"
  payToAddrScript _ := .ok []

theorem builderNet_canonical : builderNet.Canonical where
  script_iff := buildScript_iff
  hash160 := by
    intro address hash160 h
    cases h

theorem htlc_admits_two_spends_2019 :
    ∃ script, newInitiateScript builderNet zeroKeyHash.1 zeroKeyHash.1 1550000000
        (zeroHashes.sha256 []).1 = .ok script ∧
      AdmitsTwoSpends builderNet (signedContext 1550000000 0) true zeroKeyHash zeroKeyHash
        1550000000 (zeroHashes.sha256 []) script :=
  htlc_admits_two_spends builderNet_canonical (signedContext 1550000000 0) true zeroKeyHash
    zeroKeyHash (zeroHashes.sha256 []) (by decide) (by decide)

end Swapperd.Bitcoin
