/-
  Swapperd/ScriptBytes.lean
  =========================
  **Scripts as bytes**, as blocks carry them.

  An opcode is one byte.  Data is pushed by the shortest opcode there is: the empty string
  and the numbers -1 and 1 to 16 have opcodes of their own, other data of up to 75 bytes
  follows its length, longer data a length of one, two or four bytes.

  `parse_assemble` — what is assembled this way is read back as it was.
-/
import Swapperd.ScriptMachine

namespace ScriptMachine

/-! ### Lengths -/

def littleEndian : (width n : Nat) → Bytes
  | 0, _ => []
  | width + 1, n => UInt8.ofNat (n % 256) :: littleEndian width (n / 256)

def readLittleEndian : Bytes → Nat
  | [] => 0
  | byte :: bytes => byte.toNat + 256 * readLittleEndian bytes

@[simp] theorem length_littleEndian (width n : Nat) : (littleEndian width n).length = width := by
  induction width generalizing n with
  | zero => rfl
  | succ width ih => simp [littleEndian, ih]

theorem readLittleEndian_littleEndian {width n : Nat} (h : n < 256 ^ width) :
    readLittleEndian (littleEndian width n) = n := by
  induction width generalizing n with
  | zero =>
      have hzero : n = 0 := by simpa using h
      exact hzero.symm
  | succ width ih =>
      have hrest : n / 256 < 256 ^ width := by
        rw [pow_succ] at h
        omega
      have hbyte : (UInt8.ofNat (n % 256)).toNat = n % 256 :=
        UInt8.toNat_ofNat_of_lt (Nat.mod_lt n (by decide))
      rw [littleEndian, readLittleEndian, ih hrest, hbyte]
      omega

/-! ### Encoding -/

def Op.code : Op → UInt8
  | .push _ => 0x00
  | .drop => 0x75
  | .dup => 0x76
  | .size => 0x82
  | .equalVerify => 0x88
  | .sha256 => 0xa8
  | .hash160 => 0xa9
  | .checkSig => 0xac
  | .checkLockTimeVerify => 0xb1

/-- The instruction that is a byte, if it pushes nothing. -/
def Instruction.ofCode (code : UInt8) : Option Instruction :=
  if code = 0x63 then some .branchIf
  else if code = 0x67 then some .branchElse
  else if code = 0x68 then some .branchEnd
  else if code = 0x75 then some (.op .drop)
  else if code = 0x76 then some (.op .dup)
  else if code = 0x82 then some (.op .size)
  else if code = 0x88 then some (.op .equalVerify)
  else if code = 0xa8 then some (.op .sha256)
  else if code = 0xa9 then some (.op .hash160)
  else if code = 0xac then some (.op .checkSig)
  else if code = 0xb1 then some (.op .checkLockTimeVerify)
  else none

/-- The data that an opcode stands for by itself. -/
def smallPush (code : UInt8) : Option Bytes :=
  if code = 0x00 then some []
  else if code = 0x4f then some [0x81]
  else if 0x51 ≤ code ∧ code ≤ 0x60 then some [code - 0x50]
  else none

/-- The opcode that stands for data. -/
def smallCode : Bytes → Option UInt8
  | [] => some 0x00
  | [byte] =>
      if byte = 0x81 then some 0x4f
      else if 1 ≤ byte ∧ byte ≤ 16 then some (byte + 0x50)
      else none
  | _ => none

/-- The opcode before a length, and the bytes it takes. -/
def lengthBytes (n : Nat) : Bytes :=
  if n < 76 then [UInt8.ofNat n]
  else if n < 256 then 0x4c :: littleEndian 1 n
  else if n < 65536 then 0x4d :: littleEndian 2 n
  else 0x4e :: littleEndian 4 n

def encodePush (bytes : Bytes) : Bytes :=
  match smallCode bytes with
  | some code => [code]
  | none => lengthBytes bytes.length ++ bytes

def Instruction.encode : Instruction → Bytes
  | .op (.push bytes) => encodePush bytes
  | .op o => [o.code]
  | .branchIf => [0x63]
  | .branchElse => [0x67]
  | .branchEnd => [0x68]

def assemble (script : List Instruction) : Bytes := script.flatMap Instruction.encode

/-! ### Parsing -/

/-- So many bytes as data, and what is left. -/
def takePush (n : Nat) (rest : Bytes) : Option (Instruction × Bytes) :=
  if n ≤ rest.length then some (.op (.push (rest.take n)), rest.drop n) else none

/-- Data after a length of so many bytes. -/
def takeLengthPush (width : Nat) (rest : Bytes) : Option (Instruction × Bytes) :=
  if width ≤ rest.length then
    takePush (readLittleEndian (rest.take width)) (rest.drop width)
  else none

def parseOne : Bytes → Option (Instruction × Bytes)
  | [] => none
  | code :: rest =>
      match smallPush code with
      | some bytes => some (.op (.push bytes), rest)
      | none =>
          if code < 0x4c then takePush code.toNat rest
          else if code = 0x4c then takeLengthPush 1 rest
          else if code = 0x4d then takeLengthPush 2 rest
          else if code = 0x4e then takeLengthPush 4 rest
          else (Instruction.ofCode code).map fun i => (i, rest)

/-- Every instruction takes a byte at least. -/
def parseUpTo : (fuel : Nat) → Bytes → Option (List Instruction)
  | _, [] => some []
  | 0, _ => none
  | fuel + 1, bytes => do
      let (i, rest) ← parseOne bytes
      return i :: (← parseUpTo fuel rest)

def parse (bytes : Bytes) : Option (List Instruction) := parseUpTo bytes.length bytes

/-! ### What is assembled is read back -/

theorem takePush_append (bytes rest : Bytes) :
    takePush bytes.length (bytes ++ rest) = some (.op (.push bytes), rest) := by
  unfold takePush
  rw [if_pos (by simp), List.take_left, List.drop_left]

theorem takeLengthPush_append {width : Nat} {bytes : Bytes} (h : bytes.length < 256 ^ width)
    (rest : Bytes) :
    takeLengthPush width (littleEndian width bytes.length ++ (bytes ++ rest)) =
      some (.op (.push bytes), rest) := by
  have hwidth := length_littleEndian width bytes.length
  unfold takeLengthPush
  rw [if_pos (by simp), List.take_left' hwidth, List.drop_left' hwidth,
    readLittleEndian_littleEndian h, takePush_append]

theorem smallPush_number {byte : UInt8} (h : 1 ≤ byte ∧ byte ≤ 16) :
    smallPush (byte + 0x50) = some [byte] := by
  have hall : ∀ n : Fin 17, 0 < n.1 →
      smallPush (UInt8.ofNat n.1 + 0x50) = some [UInt8.ofNat n.1] := by decide
  have hlow : 1 ≤ byte.toNat := h.1
  have hhigh : byte.toNat ≤ 16 := h.2
  simpa using hall ⟨byte.toNat, by omega⟩ hlow

/-- An opcode of its own is read as the data it stands for. -/
theorem smallPush_of_smallCode {bytes : Bytes} {code : UInt8} (h : smallCode bytes = some code) :
    smallPush code = some bytes := by
  unfold smallCode at h
  split at h
  · cases h
    rfl
  · split_ifs at h with hminus hnumber
    · cases h
      rw [hminus]
      rfl
    · cases h
      exact smallPush_number hnumber
  · cases h

theorem parseOne_length (rest : Bytes) :
    parseOne (0x4c :: rest) = takeLengthPush 1 rest ∧
      parseOne (0x4d :: rest) = takeLengthPush 2 rest ∧
        parseOne (0x4e :: rest) = takeLengthPush 4 rest := by
  have hsmall : smallPush 0x4c = none ∧ smallPush 0x4d = none ∧ smallPush 0x4e = none := by
    decide
  obtain ⟨h1, h2, h4⟩ := hsmall
  simp [parseOne, h1, h2, h4]

theorem parseOne_push (bytes rest : Bytes) (h : bytes.length < 256 ^ 4) :
    parseOne (encodePush bytes ++ rest) = some (.op (.push bytes), rest) := by
  unfold encodePush
  cases hcode : smallCode bytes with
  | some code =>
      show parseOne (code :: rest) = _
      rw [parseOne, smallPush_of_smallCode hcode]
  | none =>
      dsimp only
      rw [List.append_assoc]
      unfold lengthBytes
      split_ifs with hdirect hone htwo
      · have hpos : bytes ≠ [] := by
          rintro rfl
          cases hcode
        have hlength : 0 < bytes.length := List.length_pos_of_ne_nil hpos
        have hnat : (UInt8.ofNat bytes.length).toNat = bytes.length :=
          UInt8.toNat_ofNat_of_lt (hdirect.trans (by decide))
        have hsmall : smallPush (UInt8.ofNat bytes.length) = none := by
          have hall : ∀ n : Fin 76, 0 < n.1 → smallPush (UInt8.ofNat n.1) = none := by decide
          exact hall ⟨bytes.length, hdirect⟩ hlength
        have hlt : UInt8.ofNat bytes.length < 0x4c := by
          rw [UInt8.lt_iff_toNat_lt, hnat]
          exact hdirect
        show parseOne (UInt8.ofNat bytes.length :: (bytes ++ rest)) = _
        rw [parseOne, hsmall]
        dsimp only
        rw [if_pos hlt, hnat, takePush_append]
      · rw [List.cons_append, (parseOne_length _).1]
        exact takeLengthPush_append (by omega) rest
      · rw [List.cons_append, (parseOne_length _).2.1]
        exact takeLengthPush_append (by omega) rest
      · rw [List.cons_append, (parseOne_length _).2.2]
        exact takeLengthPush_append h rest

/-- The instruction pushes no more than a length can tell. -/
def Instruction.Short : Instruction → Prop
  | .op (.push bytes) => bytes.length < 256 ^ 4
  | _ => True

theorem parseOne_encode (i : Instruction) (h : i.Short) (rest : Bytes) :
    parseOne (i.encode ++ rest) = some (i, rest) := by
  cases i with
  | op o =>
      cases o with
      | push bytes => exact parseOne_push bytes rest h
      | _ => rfl
  | _ => rfl

theorem encode_ne_nil (i : Instruction) : i.encode ≠ [] := by
  cases i with
  | op o =>
      cases o with
      | push bytes =>
          show encodePush bytes ≠ []
          unfold encodePush lengthBytes
          split
          · simp
          · split_ifs <;> simp
      | _ => simp [Instruction.encode]
  | _ => simp [Instruction.encode]

theorem length_le_encodePush (bytes : Bytes) : bytes.length ≤ (encodePush bytes).length := by
  unfold encodePush
  cases hcode : smallCode bytes with
  | some code =>
      unfold smallCode at hcode
      split at hcode
      · simp
      · simp
      · cases hcode
  | none => simp

/-- A push takes five bytes at most besides its data. -/
theorem length_encodePush_le (bytes : Bytes) : (encodePush bytes).length ≤ bytes.length + 5 := by
  unfold encodePush lengthBytes
  split
  · simp
  · split_ifs <;> simp <;> omega

theorem length_assemble_pushes_le (pushes : List Bytes) :
    (assemble (pushes.map fun push => .op (.push push))).length ≤
      (pushes.map fun push => push.length + 5).sum := by
  induction pushes with
  | nil => exact le_refl 0
  | cons push pushes ih =>
      have hpush := length_encodePush_le push
      rw [List.map_cons, List.map_cons, List.sum_cons, assemble, List.flatMap_cons,
        List.length_append]
      exact Nat.add_le_add hpush ih

/-- What is pushed is no longer than the script. -/
theorem short_of_length {script : List Instruction} (h : (assemble script).length < 256 ^ 4) :
    ∀ i ∈ script, i.Short := by
  intro i hi
  have hencode : i.encode.length ≤ (assemble script).length :=
    (List.sublist_flatten_of_mem (List.mem_map_of_mem hi)).length_le
  cases i with
  | op o =>
      cases o with
      | push bytes => exact ((length_le_encodePush bytes).trans hencode).trans_lt h
      | _ => trivial
  | _ => trivial

theorem parseUpTo_assemble {script : List Instruction} (h : ∀ i ∈ script, i.Short) {fuel : Nat}
    (hfuel : script.length ≤ fuel) : parseUpTo fuel (assemble script) = some script := by
  induction script generalizing fuel with
  | nil => cases fuel <;> rfl
  | cons i script ih =>
      obtain ⟨hi, hscript⟩ := List.forall_mem_cons.mp h
      obtain ⟨fuel, rfl⟩ := Nat.exists_eq_add_of_le' (Nat.one_le_of_lt hfuel)
      have hne : assemble (i :: script) ≠ [] := by
        simp [assemble, encode_ne_nil]
      have hone : parseOne (assemble (i :: script)) = some (i, assemble script) := by
        rw [assemble, List.flatMap_cons]
        exact parseOne_encode i hi _
      obtain ⟨byte, bytes, hbytes⟩ := List.exists_cons_of_ne_nil hne
      rw [hbytes] at hone ⊢
      rw [parseUpTo.eq_3 _ _ (by simp), hone]
      show (parseUpTo fuel (assemble script)).bind _ = _
      rw [ih hscript (by simpa using hfuel)]
      rfl

/-- **What is assembled is read back.** -/
theorem parse_assemble {script : List Instruction} (h : ∀ i ∈ script, i.Short) :
    parse (assemble script) = some script := by
  apply parseUpTo_assemble h
  have hlength : ∀ i ∈ script, 1 ≤ i.encode.length := fun i _ =>
    List.length_pos_of_ne_nil (encode_ne_nil i)
  clear h
  induction script with
  | nil => simp
  | cons i script ih =>
      obtain ⟨hi, hscript⟩ := List.forall_mem_cons.mp hlength
      have hrest := ih hscript
      simp only [assemble, List.flatMap_cons, List.length_append, List.length_cons] at hrest ⊢
      omega

/-! ### Running bytes -/

def runBytes (ctx : Context) (bytes : Bytes) (s : Stack) : Option Stack :=
  (parse bytes).bind fun script => (run ctx script { stack := s }).bind fun m =>
    if m.conditions = [] then some m.stack else none

/-- Bytes accept a stack that the script they are accepts. -/
def AcceptsBytes (ctx : Context) (cleanStack : Bool) (bytes : Bytes) (s : Stack) : Prop :=
  ∃ script, parse bytes = some script ∧ Accepts ctx cleanStack script s

/-- A signature script spends the output of a script hash: it leaves a script with that hash
    on the stack, which accepts what is below it. -/
def Unlocks (ctx : Context) (cleanStack : Bool) (scriptHash sigScript : Bytes) : Prop :=
  ∃ bytes s, runBytes ctx sigScript [] = some (bytes :: s) ∧ ctx.hash160 bytes = scriptHash ∧
    AcceptsBytes ctx cleanStack bytes s

theorem acceptsBytes_assemble_iff {ctx : Context} {cleanStack : Bool}
    {script : List Instruction} {s : Stack} (h : ∀ i ∈ script, i.Short) :
    AcceptsBytes ctx cleanStack (assemble script) s ↔ Accepts ctx cleanStack script s := by
  unfold AcceptsBytes
  simp [parse_assemble h]

/-- A signature script that pushes its items, the last one the script. -/
theorem unlocks_pushes_iff {ctx : Context} {cleanStack : Bool} {items : List Bytes}
    {bytes : Bytes} (h : ∀ item ∈ items ++ [bytes], item.length < 256 ^ 4) :
    Unlocks ctx cleanStack (ctx.hash160 bytes)
        (assemble ((items ++ [bytes]).map fun item => .op (.push item))) ↔
      AcceptsBytes ctx cleanStack bytes items.reverse := by
  have hshort : ∀ i ∈ (items ++ [bytes]).map fun item => Instruction.op (.push item),
      i.Short := by
    intro i hi
    obtain ⟨item, hitem, rfl⟩ := List.mem_map.mp hi
    exact h item hitem
  have hpushes : ∀ (items : List Bytes) (s : Stack),
      runOps ctx (items.map .push) s = some (items.reverse ++ s) := by
    intro items
    induction items with
    | nil => exact fun s => rfl
    | cons item items ih =>
        intro s
        rw [List.map_cons, runOps_cons]
        show runOps ctx (items.map .push) (item :: s) = _
        rw [ih, List.reverse_cons, List.append_assoc]
        rfl
  have hrun : runBytes ctx (assemble ((items ++ [bytes]).map fun item => .op (.push item))) [] =
      some (bytes :: items.reverse) := by
    unfold runBytes
    rw [parse_assemble hshort, Option.bind_some]
    have hmap : ((items ++ [bytes]).map fun item => Instruction.op (.push item)) =
        ((items ++ [bytes]).map Op.push).map .op := by simp
    rw [hmap, run_ops rfl, hpushes, List.append_nil, List.reverse_append]
    rfl
  unfold Unlocks
  rw [hrun]
  constructor
  · rintro ⟨_, _, heq, -, haccepts⟩
    cases heq
    exact haccepts
  · intro haccepts
    exact ⟨_, _, rfl, rfl, haccepts⟩

end ScriptMachine
