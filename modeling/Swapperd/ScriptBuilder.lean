/-
  Swapperd/ScriptBuilder.lean
  ===========================
  **The script builder** of `txscript`, which the scripts of `script.go` are made with.

  What is added to a builder becomes instructions of a script machine, and these the bytes
  of a script.  Data is pushed canonically: all byte strings as they are, but a single zero
  byte as the empty string.
-/
import Swapperd.ScriptBytes
import Swapperd.BitcoinScript

namespace Swapperd.Bitcoin

open GoLibrary ScriptMachine

def Opcode.instruction : Opcode → Instruction
  | .opIf => .branchIf
  | .opElse => .branchElse
  | .opEndIf => .branchEnd
  | .opSize => .op .size
  | .opEqualVerify => .op .equalVerify
  | .opSha256 => .op .sha256
  | .opDup => .op .dup
  | .opHash160 => .op .hash160
  | .opCheckLockTimeVerify => .op .checkLockTimeVerify
  | .opDrop => .op .drop
  | .opCheckSig => .op .checkSig

/-- What `AddData` leaves on the stack. -/
def pushData (bytes : Bytes) : Bytes := if bytes = [0] then [] else bytes

def ScriptItem.instruction : ScriptItem → Instruction
  | .op code => code.instruction
  | .data bytes => .op (.push (pushData bytes))
  | .int64 value => .op (.push (scriptNum value))

theorem pushData_of_length {bytes : Bytes} (h : bytes.length ≠ 1) : pushData bytes = bytes := by
  unfold pushData
  rw [if_neg]
  rintro rfl
  exact h rfl

theorem length_pushData_le (bytes : Bytes) : (pushData bytes).length ≤ bytes.length := by
  unfold pushData
  split <;> simp

/-- The script of the items. -/
def instructions (items : List ScriptItem) : List Instruction :=
  items.map ScriptItem.instruction

/-- No element and no script is longer than the network takes. -/
structure Fits (items : List ScriptItem) : Prop where
  elements : ∀ item ∈ items, ∀ bytes, item = .data bytes → bytes.length ≤ 520
  script : (assemble (instructions items)).length ≤ 10000

def ScriptItem.fits : ScriptItem → Bool
  | .data bytes => bytes.length ≤ 520
  | _ => true

theorem fits_iff {items : List ScriptItem} :
    (items.all ScriptItem.fits && (assemble (instructions items)).length ≤ 10000) = true ↔
      Fits items := by
  rw [Bool.and_eq_true, List.all_eq_true, decide_eq_true_eq]
  constructor
  · rintro ⟨helements, hscript⟩
    refine ⟨?_, hscript⟩
    rintro item hitem bytes rfl
    simpa [ScriptItem.fits] using helements _ hitem
  · rintro ⟨helements, hscript⟩
    refine ⟨fun item hitem => ?_, hscript⟩
    cases item with
    | data bytes => simpa [ScriptItem.fits] using helements _ hitem bytes rfl
    | op | int64 => rfl

instance (items : List ScriptItem) : Decidable (Fits items) :=
  decidable_of_iff _ fits_iff

/-- `Script`, after all items were added. -/
def buildScript (items : List ScriptItem) : Except GoError Bytes :=
  if Fits items then .ok (assemble (instructions items))
  else .error (.errorf "script is not canonical")

/-- A network with this builder, on which the hash of a public key has 20 bytes. -/
structure Network.Canonical (net : Network) : Prop where
  script_iff : ∀ items bytes, net.script items = .ok bytes ↔
    Fits items ∧ bytes = assemble (instructions items)
  hash160 : ∀ address hash160, net.decodeAddress address = .ok (.pubKeyHash hash160) →
    hash160.length = 20

theorem buildScript_iff (items : List ScriptItem) (bytes : Bytes) :
    buildScript items = .ok bytes ↔ Fits items ∧ bytes = assemble (instructions items) := by
  unfold buildScript
  split
  · rename_i hfits
    simp [hfits, eq_comm]
  · rename_i hfits
    simp [hfits]

/-- Items whose pushes are short enough fit. -/
theorem Fits.of_pushes {items : List ScriptItem} {pushes : List Bytes}
    (helements : ∀ item ∈ items, ∀ bytes, item = .data bytes → bytes.length ≤ 520)
    (hitems : instructions items = pushes.map fun push => .op (.push push))
    (hlength : (pushes.map fun push => push.length + 5).sum ≤ 10000) : Fits items := by
  refine ⟨helements, ?_⟩
  rw [hitems]
  exact (length_assemble_pushes_le pushes).trans hlength

/-- A script that was built is the bytes of its items, and is read back as they are. -/
theorem Network.Canonical.script_ok {net : Network} (hnet : net.Canonical)
    {items : List ScriptItem} {bytes : Bytes} {script : List Instruction}
    (h : net.script items = .ok bytes) (hitems : instructions items = script) :
    bytes = assemble script ∧ ∀ i ∈ script, i.Short := by
  obtain ⟨hfits, rfl⟩ := (hnet.script_iff _ _).mp h
  rw [← hitems]
  exact ⟨rfl, short_of_length (hfits.script.trans_lt (by decide))⟩

end Swapperd.Bitcoin
