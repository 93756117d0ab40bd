/-
  Swapperd/ScriptMachine.lean
  ===========================
  **A machine for Bitcoin scripts.**

  A script works on a stack of byte strings, top first, beside a list of open conditions:
  an instruction is executed when all of them hold and skipped otherwise.  The hash
  functions, the check of a signature and the lock time of the spending transaction are
  the machine's context.  Opcodes have their consensus semantics; the limits on the sizes
  of scripts and stacks are left out.

  Straight code is characterised by the stacks it accepts, one lemma an opcode, and a
  conditional by the branch it takes (`run_conditional`).
-/
import Mathlib.Data.Nat.Digits.Lemmas

namespace ScriptMachine

abbrev Bytes := List UInt8

abbrev Stack := List Bytes

/-! ### Numbers and truth -/

/-- An integer as little-endian bytes of its absolute value, with the sign in the highest
    bit of the last byte. -/
def scriptNum (n : Int) : Bytes :=
  let digits := Nat.digits 256 n.natAbs
  match digits.getLast? with
  | none => []
  | some top =>
      if 128 ≤ top then (digits ++ [if n < 0 then 128 else 0]).map UInt8.ofNat
      else (digits.dropLast ++ [if n < 0 then top + 128 else top]).map UInt8.ofNat

def scriptNumValue (bytes : Bytes) : Int :=
  let digits := bytes.map UInt8.toNat
  match digits.getLast? with
  | none => 0
  | some top =>
      if 128 ≤ top then -((Nat.ofDigits 256 (digits.dropLast ++ [top - 128]) : Nat) : Int)
      else (Nat.ofDigits 256 digits : Nat)

/-- A number of at most `maxLength` bytes. -/
def readScriptNum (maxLength : Nat) (bytes : Bytes) : Option Int :=
  if bytes.length ≤ maxLength then some (scriptNumValue bytes) else none

/-- Everything but zero is true; a zero may have its sign bit set. -/
def truth (bytes : Bytes) : Bool :=
  bytes.dropLast.any (· ≠ 0) || bytes.getLast?.any fun last => last ≠ 0 && last ≠ 0x80

theorem map_toNat_ofNat {digits : List Nat} (h : ∀ d ∈ digits, d < 256) :
    (digits.map UInt8.ofNat).map UInt8.toNat = digits := by
  rw [List.map_map]
  refine (List.map_congr_left ?_).trans digits.map_id
  intro d hd
  exact UInt8.toNat_ofNat_of_lt (h d hd)

/-- The value of the bytes of digits that end in `top`. -/
theorem scriptNumValue_concat {low : List Nat} {top : Nat} (hlow : ∀ d ∈ low, d < 256)
    (htop : top < 256) :
    scriptNumValue ((low ++ [top]).map UInt8.ofNat) =
      if 128 ≤ top then -((Nat.ofDigits 256 (low ++ [top - 128]) : Nat) : Int)
      else (Nat.ofDigits 256 (low ++ [top]) : Nat) := by
  have hdigits : ∀ d ∈ low ++ [top], d < 256 := by
    intro d hd
    rcases List.mem_append.mp hd with hd | hd
    · exact hlow d hd
    · rwa [List.mem_singleton.mp hd]
  unfold scriptNumValue
  rw [map_toNat_ofNat hdigits]
  simp

theorem scriptNumValue_scriptNum (n : Int) : scriptNumValue (scriptNum n) = n := by
  have hvalue : Nat.ofDigits 256 (Nat.digits 256 n.natAbs) = n.natAbs :=
    Nat.ofDigits_digits 256 n.natAbs
  have hdigits : ∀ d ∈ Nat.digits 256 n.natAbs, d < 256 :=
    fun d hd => Nat.digits_lt_base (by decide) hd
  unfold scriptNum
  generalize Nat.digits 256 n.natAbs = digits at hvalue hdigits
  dsimp only
  cases htop : digits.getLast? with
  | none =>
      rw [List.getLast?_eq_none_iff.mp htop] at hvalue
      have hzero : n = 0 := Int.natAbs_eq_zero.mp hvalue.symm
      rw [hzero]
      rfl
  | some top =>
      obtain ⟨low, rfl⟩ := List.getLast?_eq_some_iff.mp htop
      have hlow : ∀ d ∈ low, d < 256 := fun d hd => hdigits d (List.mem_append_left _ hd)
      have htop256 : top < 256 := hdigits top (by simp)
      dsimp only
      by_cases hbig : 128 ≤ top
      · -- the sign takes a byte of its own
        rw [if_pos hbig, scriptNumValue_concat hdigits (by split <;> omega)]
        by_cases hneg : n < 0
        · simp only [if_pos hneg, le_refl, if_true, Nat.sub_self, Nat.ofDigits_append_zero]
          omega
        · simp only [if_neg hneg, Nat.ofDigits_append_zero]
          simp
          omega
      · rw [if_neg hbig, List.dropLast_concat]
        rw [scriptNumValue_concat hlow (by split <;> omega)]
        by_cases hneg : n < 0
        · rw [if_pos hneg, if_pos (by omega), Nat.add_sub_cancel]
          omega
        · rw [if_neg hneg, if_neg hbig]
          omega

theorem scriptNum_inj {m n : Int} : scriptNum m = scriptNum n ↔ m = n := by
  constructor
  · intro h
    rw [← scriptNumValue_scriptNum m, h, scriptNumValue_scriptNum]
  · exact congrArg scriptNum

theorem length_scriptNum_le {n : Int} {k : Nat} (h : n.natAbs < 256 ^ k) :
    (scriptNum n).length ≤ k + 1 := by
  have hlength : (Nat.digits 256 n.natAbs).length ≤ k :=
    (Nat.digits_length_le_iff (by decide) n.natAbs).mpr h
  unfold scriptNum
  dsimp only
  split
  · simp
  · split
    · simpa using hlength
    · simp
      omega

theorem readScriptNum_scriptNum_iff {maxLength : Nat} {m n : Int} :
    readScriptNum maxLength (scriptNum m) = some n ↔ (scriptNum m).length ≤ maxLength ∧ m = n := by
  unfold readScriptNum
  split <;> simp_all [scriptNumValue_scriptNum]

/-! ### The machine -/

/-- Instructions that only look at the stack. -/
inductive Op where
  | push (bytes : Bytes)
  | size
  | equalVerify
  | sha256
  | hash160
  | dup
  | drop
  | checkLockTimeVerify
  | checkSig
deriving DecidableEq

inductive Instruction where
  | op (op : Op)
  | branchIf
  | branchElse
  | branchEnd
deriving DecidableEq

/-- What a script is executed in. `checkSig` answers nothing for a signature or key that is
    malformed. -/
structure Context where
  sha256 : Bytes → Bytes
  hash160 : Bytes → Bytes
  checkSig : (sig pubKey : Bytes) → Option Bool
  lockTime : Nat
  sequence : Nat

/-- Lock times below are block heights, the others are times. -/
def lockTimeThreshold : Int := 500000000

/-- The spending transaction is locked until `n` at least. -/
def Context.SatisfiesLockTime (ctx : Context) (n : Int) : Prop :=
  0 ≤ n ∧ (n < lockTimeThreshold ↔ (ctx.lockTime : Int) < lockTimeThreshold) ∧
    n ≤ ctx.lockTime ∧ ctx.sequence ≠ 0xFFFFFFFF

instance instDecidableSatisfiesLockTime (ctx : Context) (n : Int) :
    Decidable (ctx.SatisfiesLockTime n) :=
  inferInstanceAs (Decidable (_ ∧ _))

def boolBytes (b : Bool) : Bytes := if b then [1] else []

@[simp] theorem truth_boolBytes (b : Bool) : truth (boolBytes b) = b := by
  cases b <;> rfl

def execute (ctx : Context) : Op → Stack → Option Stack
  | .push bytes, s => some (bytes :: s)
  | .size, top :: s => some (scriptNum top.length :: top :: s)
  | .equalVerify, a :: b :: s => if a = b then some s else none
  | .sha256, top :: s => some (ctx.sha256 top :: s)
  | .hash160, top :: s => some (ctx.hash160 top :: s)
  | .dup, top :: s => some (top :: top :: s)
  | .drop, _ :: s => some s
  | .checkLockTimeVerify, top :: s => do
      let n ← readScriptNum 5 top
      if ctx.SatisfiesLockTime n then some (top :: s) else none
  | .checkSig, pubKey :: sig :: s => do
      let valid ← ctx.checkSig sig pubKey
      return boolBytes valid :: s
  | _, _ => none

structure Machine where
  stack : Stack
  conditions : List Bool := []

def Machine.executing (m : Machine) : Bool := m.conditions.all id

def step (ctx : Context) (m : Machine) : Instruction → Option Machine
  | .op o =>
      if m.executing then do return { m with stack := ← execute ctx o m.stack } else some m
  | .branchIf =>
      if m.executing then
        match m.stack with
        | [] => none
        | top :: s => some ⟨s, truth top :: m.conditions⟩
      else some { m with conditions := false :: m.conditions }
  | .branchElse =>
      match m.conditions with
      | [] => none
      | condition :: outer => some { m with conditions := (!condition) :: outer }
  | .branchEnd =>
      match m.conditions with
      | [] => none
      | _ :: outer => some { m with conditions := outer }

def run (ctx : Context) (script : List Instruction) (m : Machine) : Option Machine :=
  script.foldlM (step ctx) m

/-- A script succeeds when it leaves a true item on top, which a clean stack holds alone. -/
def Accepts (ctx : Context) (cleanStack : Bool) (script : List Instruction) (s : Stack) : Prop :=
  ∃ top rest, run ctx script { stack := s } = some { stack := top :: rest } ∧
    truth top = true ∧ (cleanStack = true → rest = [])

/-! ### Straight code -/

def runOps (ctx : Context) (ops : List Op) (s : Stack) : Option Stack :=
  ops.foldlM (fun s o => execute ctx o s) s

variable {ctx : Context} {s t : Stack}

theorem run_append (first second : List Instruction) (m : Machine) :
    run ctx (first ++ second) m = (run ctx first m).bind (run ctx second) :=
  List.foldlM_append

theorem runOps_append (first second : List Op) (s : Stack) :
    runOps ctx (first ++ second) s = (runOps ctx first s).bind (runOps ctx second) :=
  List.foldlM_append

theorem run_cons (i : Instruction) (script : List Instruction) (m : Machine) :
    run ctx (i :: script) m = (step ctx m i).bind (run ctx script) :=
  List.foldlM_cons

theorem runOps_cons (o : Op) (ops : List Op) (s : Stack) :
    runOps ctx (o :: ops) s = (execute ctx o s).bind (runOps ctx ops) :=
  List.foldlM_cons

/-- Where all conditions hold, straight code works on the stack. -/
theorem run_ops {conditions : List Bool} (h : conditions.all id = true) (ops : List Op)
    (s : Stack) :
    run ctx (ops.map .op) ⟨s, conditions⟩ = (runOps ctx ops s).map (⟨·, conditions⟩) := by
  induction ops generalizing s with
  | nil => rfl
  | cons o ops ih =>
      rw [List.map_cons, run_cons, runOps_cons]
      have hstep : step ctx ⟨s, conditions⟩ (.op o) =
          (execute ctx o s).map (⟨·, conditions⟩) := by
        rw [step, Machine.executing, if_pos h]
        cases execute ctx o s <;> rfl
      rw [hstep]
      cases execute ctx o s with
      | none => rfl
      | some s' => exact ih s'

/-- Where a condition fails, straight code is skipped. -/
theorem run_skipped {conditions : List Bool} (h : conditions.all id = false) (ops : List Op)
    (s : Stack) : run ctx (ops.map .op) ⟨s, conditions⟩ = some ⟨s, conditions⟩ := by
  induction ops with
  | nil => rfl
  | cons o ops ih =>
      rw [List.map_cons, run_cons]
      have hstep : step ctx ⟨s, conditions⟩ (.op o) = some ⟨s, conditions⟩ := by
        rw [step, Machine.executing, if_neg (by rw [h]; decide)]
      rw [hstep]
      exact ih

/-! ### Conditionals -/

def conditional (yes no : List Op) : List Instruction :=
  .branchIf :: (yes.map .op ++ .branchElse :: (no.map .op ++ [.branchEnd]))

theorem run_conditional_nil (yes no : List Op) :
    run ctx (conditional yes no) { stack := [] } = none := rfl

/-- A conditional takes its condition from the stack and runs one of its branches. -/
theorem run_conditional (yes no : List Op) (top : Bytes) (s : Stack) :
    run ctx (conditional yes no) { stack := top :: s } =
      (runOps ctx (if truth top then yes else no) s).map ({ stack := · }) := by
  unfold conditional
  rw [run_cons]
  have hif : step ctx { stack := top :: s } .branchIf = some ⟨s, [truth top]⟩ := rfl
  rw [hif, Option.bind_some, run_append]
  cases htop : truth top with
  | true =>
      rw [run_ops rfl, if_pos rfl]
      cases runOps ctx yes s with
      | none => rfl
      | some s' =>
          have helse : step ctx ⟨s', [true]⟩ .branchElse = some ⟨s', [false]⟩ := rfl
          rw [Option.map_some, Option.bind_some, run_cons, helse, Option.bind_some, run_append,
            run_skipped rfl]
          rfl
  | false =>
      rw [run_skipped rfl]
      have helse : step ctx ⟨s, [false]⟩ .branchElse = some ⟨s, [true]⟩ := rfl
      rw [Option.bind_some, run_cons, helse, Option.bind_some, run_append, run_ops rfl,
        if_neg (by decide)]
      cases runOps ctx no s with
      | none => rfl
      | some s' => rfl

section Acceptance

variable {cleanStack : Bool} {yes no ops : List Op}

theorem not_accepts_conditional_nil :
    ¬ Accepts ctx cleanStack (conditional yes no ++ ops.map .op) [] := by
  rintro ⟨top, rest, hrun, -⟩
  rw [run_append, run_conditional_nil] at hrun
  cases hrun

/-- A conditional followed by straight code is as good as the branch that is taken,
    followed by that code. -/
theorem accepts_conditional_iff {flag : Bytes} :
    Accepts ctx cleanStack (conditional yes no ++ ops.map .op) (flag :: s) ↔
      ∃ top rest, runOps ctx ((if truth flag then yes else no) ++ ops) s = some (top :: rest) ∧
        truth top = true ∧ (cleanStack = true → rest = []) := by
  unfold Accepts
  rw [run_append, run_conditional, runOps_append]
  cases runOps ctx (if truth flag then yes else no) s with
  | none => simp
  | some s' =>
      rw [Option.map_some, Option.bind_some, Option.bind_some, run_ops rfl]
      cases hops : runOps ctx ops s' with
      | none => simp
      | some t => simp

end Acceptance

/-! ### What straight code accepts -/

theorem runOps_nil_iff : runOps ctx [] s = some t ↔ s = t := by
  unfold runOps
  simp

theorem runOps_cons_iff {o : Op} {ops : List Op} :
    runOps ctx (o :: ops) s = some t ↔
      ∃ s', execute ctx o s = some s' ∧ runOps ctx ops s' = some t := by
  rw [runOps_cons, Option.bind_eq_some_iff]

theorem runOps_append_iff {first second : List Op} :
    runOps ctx (first ++ second) s = some t ↔
      ∃ s', runOps ctx first s = some s' ∧ runOps ctx second s' = some t := by
  rw [runOps_append, Option.bind_eq_some_iff]

theorem execute_push_iff {bytes : Bytes} :
    execute ctx (.push bytes) s = some t ↔ t = bytes :: s := by
  show some (bytes :: s) = some t ↔ _
  rw [Option.some_inj, eq_comm]

/-- An instruction that needs no more than the top item. -/
theorem execute_top_iff {o : Op} {f : Bytes → Stack → Stack} (hnil : execute ctx o [] = none)
    (hcons : ∀ top s', execute ctx o (top :: s') = some (f top s')) :
    execute ctx o s = some t ↔ ∃ top s', s = top :: s' ∧ t = f top s' := by
  cases s with
  | nil => simp [hnil]
  | cons top s' => simp [hcons, eq_comm]

theorem execute_size_iff :
    execute ctx .size s = some t ↔
      ∃ top s', s = top :: s' ∧ t = scriptNum top.length :: top :: s' :=
  execute_top_iff rfl fun _ _ => rfl

theorem execute_equalVerify_iff :
    execute ctx .equalVerify s = some t ↔ ∃ a, s = a :: a :: t := by
  match s with
  | [] => simp [execute]
  | [_] => simp [execute]
  | a :: b :: s' =>
      by_cases hab : a = b
      · simp [execute, hab]
      · simp only [execute, if_neg hab, List.cons.injEq]
        constructor
        · intro h
          cases h
        · rintro ⟨c, rfl, rfl, -⟩
          exact absurd rfl hab

theorem execute_sha256_iff :
    execute ctx .sha256 s = some t ↔ ∃ top s', s = top :: s' ∧ t = ctx.sha256 top :: s' :=
  execute_top_iff rfl fun _ _ => rfl

theorem execute_hash160_iff :
    execute ctx .hash160 s = some t ↔ ∃ top s', s = top :: s' ∧ t = ctx.hash160 top :: s' :=
  execute_top_iff rfl fun _ _ => rfl

theorem execute_dup_iff :
    execute ctx .dup s = some t ↔ ∃ top s', s = top :: s' ∧ t = top :: top :: s' :=
  execute_top_iff rfl fun _ _ => rfl

theorem execute_drop_iff : execute ctx .drop s = some t ↔ ∃ top, s = top :: t := by
  have htop : execute ctx .drop s = some t ↔ ∃ top s', s = top :: s' ∧ t = s' :=
    execute_top_iff rfl fun _ _ => rfl
  rw [htop]
  simp

theorem execute_checkLockTimeVerify_iff :
    execute ctx .checkLockTimeVerify s = some t ↔
      ∃ top s' n, s = top :: s' ∧ t = s ∧ readScriptNum 5 top = some n ∧
        ctx.SatisfiesLockTime n := by
  cases s with
  | nil => simp [execute]
  | cons top s' =>
      cases hread : readScriptNum 5 top with
      | none => simp [execute, hread]
      | some n =>
          by_cases hn : ctx.SatisfiesLockTime n
          · simp [execute, hread, hn, eq_comm]
          · simp [execute, hread, hn]

theorem execute_checkSig_iff :
    execute ctx .checkSig s = some t ↔
      ∃ pubKey sig s' valid, s = pubKey :: sig :: s' ∧ ctx.checkSig sig pubKey = some valid ∧
        t = boolBytes valid :: s' := by
  match s with
  | [] => simp [execute]
  | [_] => simp [execute]
  | pubKey :: sig :: s' =>
      cases hsig : ctx.checkSig sig pubKey with
      | none => simp [execute, hsig]
      | some valid => cases valid <;> simp [execute, hsig, eq_comm]

/-! ### Locks

The usual blocks of a script, by the stacks that pass them. -/

/-- The top item has a size. -/
def sizeLock (n : Nat) : List Op := [.size, .push (scriptNum n), .equalVerify]

/-- The top item is a preimage. -/
def hashLock (hash : Bytes) : List Op := [.sha256, .push hash, .equalVerify]

/-- The transaction is locked until `n`. -/
def timeLock (n : Int) : List Op := [.push (scriptNum n), .checkLockTimeVerify, .drop]

/-- A key with a given hash has signed. -/
def keyLock (keyHash : Bytes) : List Op :=
  [.dup, .hash160, .push keyHash, .equalVerify, .checkSig]

theorem runOps_sizeLock_iff {n : Nat} :
    runOps ctx (sizeLock n) s = some t ↔ s = t ∧ ∃ top s', s = top :: s' ∧ top.length = n := by
  simp only [sizeLock, runOps_cons_iff, runOps_nil_iff, execute_size_iff, execute_push_iff,
    execute_equalVerify_iff]
  constructor
  · rintro ⟨_, ⟨top, s', rfl, rfl⟩, _, rfl, _, ⟨a, ha⟩, rfl⟩
    obtain ⟨rfl, hsize, rfl⟩ : scriptNum n = a ∧ scriptNum top.length = a ∧ top :: s' = _ := by
      simpa using ha
    have hlength : (top.length : Int) = n := scriptNum_inj.mp hsize
    exact ⟨rfl, top, s', rfl, by omega⟩
  · rintro ⟨rfl, top, s', rfl, rfl⟩
    exact ⟨_, ⟨top, s', rfl, rfl⟩, _, rfl, _, ⟨_, rfl⟩, rfl⟩

theorem runOps_hashLock_iff {hash : Bytes} :
    runOps ctx (hashLock hash) s = some t ↔ ∃ preimage, s = preimage :: t ∧
      ctx.sha256 preimage = hash := by
  simp only [hashLock, runOps_cons_iff, runOps_nil_iff, execute_sha256_iff, execute_push_iff,
    execute_equalVerify_iff]
  constructor
  · rintro ⟨_, ⟨preimage, s', rfl, rfl⟩, _, rfl, _, ⟨a, ha⟩, rfl⟩
    obtain ⟨rfl, hhash, rfl⟩ : hash = a ∧ ctx.sha256 preimage = a ∧ s' = _ := by
      simpa using ha
    exact ⟨preimage, rfl, hhash⟩
  · rintro ⟨preimage, rfl, rfl⟩
    exact ⟨_, ⟨preimage, t, rfl, rfl⟩, _, rfl, _, ⟨_, rfl⟩, rfl⟩

theorem runOps_timeLock_iff {n : Int} :
    runOps ctx (timeLock n) s = some t ↔
      s = t ∧ (scriptNum n).length ≤ 5 ∧ ctx.SatisfiesLockTime n := by
  simp only [timeLock, runOps_cons_iff, runOps_nil_iff, execute_push_iff,
    execute_checkLockTimeVerify_iff, execute_drop_iff]
  constructor
  · rintro ⟨_, rfl, _, ⟨top, s', m, htop, rfl, hread, hm⟩, _, ⟨a, ha⟩, rfl⟩
    obtain ⟨rfl, rfl⟩ := List.cons.inj htop
    obtain ⟨hlength, rfl⟩ := readScriptNum_scriptNum_iff.mp hread
    exact ⟨(List.cons.inj ha).2, hlength, hm⟩
  · rintro ⟨rfl, hlength, hn⟩
    exact ⟨_, rfl, _, ⟨_, s, n, rfl, rfl, readScriptNum_scriptNum_iff.mpr ⟨hlength, rfl⟩, hn⟩,
      _, ⟨_, rfl⟩, rfl⟩

theorem runOps_keyLock_iff {keyHash : Bytes} :
    runOps ctx (keyLock keyHash) s = some t ↔ ∃ pubKey sig s' valid,
      s = pubKey :: sig :: s' ∧ ctx.hash160 pubKey = keyHash ∧
        ctx.checkSig sig pubKey = some valid ∧ t = boolBytes valid :: s' := by
  simp only [keyLock, runOps_cons_iff, runOps_nil_iff, execute_dup_iff, execute_hash160_iff,
    execute_push_iff, execute_equalVerify_iff, execute_checkSig_iff]
  constructor
  · rintro ⟨_, ⟨key, s₁, rfl, rfl⟩, _, ⟨top, s₂, htop, rfl⟩, _, rfl, _, ⟨a, ha⟩, _,
      ⟨pubKey, sig, s', valid, rfl, hsig, rfl⟩, rfl⟩
    obtain ⟨rfl, rfl⟩ := List.cons.inj htop
    obtain ⟨rfl, hhash, rfl, rfl⟩ :
        keyHash = a ∧ ctx.hash160 key = a ∧ key = pubKey ∧ s₁ = sig :: s' := by
      simpa using ha
    exact ⟨key, sig, s', valid, rfl, hhash, hsig, rfl⟩
  · rintro ⟨pubKey, sig, s', valid, rfl, rfl, hsig, rfl⟩
    exact ⟨_, ⟨pubKey, _, rfl, rfl⟩, _, ⟨pubKey, _, rfl, rfl⟩, _, rfl, _, ⟨_, rfl⟩, _,
      ⟨pubKey, sig, s', valid, rfl, hsig, rfl⟩, rfl⟩

end ScriptMachine
