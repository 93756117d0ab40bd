/-
  Swapperd/GoLibrary.lean
  =======================
  **The parts of Go's standard library that the model computes with.**

  Strings are Lean strings, byte slices are lists of `UInt8`, `*big.Int` is `Int`.
  Values of type `int64` are integers too; the arithmetic the source does on them
  goes through `int64`, which wraps as the machine does.
-/
import Mathlib.Algebra.Ring.Int.Defs

namespace GoLibrary

/-! ### Errors -/

theorem except_bind_eq_ok_iff {E α β : Type} {x : Except E α} {f : α → Except E β} {b : β} :
    (x >>= f) = .ok b ↔ ∃ a, x = .ok a ∧ f a = .ok b := by
  constructor
  · intro h
    cases x with
    | error e => cases h
    | ok a => exact ⟨a, rfl, h⟩
  · rintro ⟨a, rfl, h⟩
    exact h

theorem exists_bind_eq_ok_iff {E α β : Type} {x : Except E α} {f : α → Except E β} :
    (∃ b, (x >>= f) = .ok b) ↔ ∃ a, x = .ok a ∧ ∃ b, f a = .ok b := by
  constructor
  · rintro ⟨b, h⟩
    obtain ⟨a, ha, hb⟩ := except_bind_eq_ok_iff.mp h
    exact ⟨a, ha, b, hb⟩
  · rintro ⟨a, ha, b, hb⟩
    exact ⟨b, except_bind_eq_ok_iff.mpr ⟨a, ha, hb⟩⟩

theorem mapError_eq_ok_iff {E E' α : Type} {x : Except E α} {f : E → E'} {a : α} :
    x.mapError f = .ok a ↔ x = .ok a := by
  cases x <;> simp [Except.mapError]

theorem eq_ok_getD_of_isOk {E α : Type} {x : Except E α} (a : α) (h : x.isOk = true) :
    x = .ok (x.toOption.getD a) := by
  cases x with
  | error e => cases h
  | ok a' => rfl

/-! ### Machine integers -/

/-- The `int64` with the same low 64 bits as `x` (Go's `int64(x)`, and `Int64` of a
    `big.Int`). -/
def int64 (x : Int) : Int := (x + 2 ^ 63) % 2 ^ 64 - 2 ^ 63

/-- An integer that an `int64` can hold. -/
def IsInt64 (x : Int) : Prop := -2 ^ 63 ≤ x ∧ x < 2 ^ 63

instance (x : Int) : Decidable (IsInt64 x) := inferInstanceAs (Decidable (_ ∧ _))

theorem int64_of_isInt64 {x : Int} (h : IsInt64 x) : int64 x = x := by
  obtain ⟨hlow, hhigh⟩ := h
  unfold int64
  omega

/-- `int64` changes no integer modulo `2 ^ 64`. -/
theorem int64_emod (x : Int) : int64 x % 2 ^ 64 = x % 2 ^ 64 := by
  unfold int64
  omega

/-! ### Strings -/

/-- `[]byte(s)`. -/
def stringBytes (s : String) : List UInt8 := s.toUTF8.data.toList

theorem stringBytes_ofList (chars : List Char) :
    stringBytes (String.ofList chars) = chars.flatMap String.utf8EncodeChar := by
  unfold stringBytes
  simp [List.utf8Encode]

theorem stringBytes_inj {s t : String} : stringBytes s = stringBytes t ↔ s = t := by
  unfold stringBytes
  rw [Array.toList_inj, ← ByteArray.ext_iff]
  exact String.toByteArray_inj

/-- `unicode.IsSpace`. -/
def isSpace (c : Char) : Bool :=
  let n := c.toNat
  (9 ≤ n && n ≤ 13) || n == 0x20 || n == 0x85 || n == 0xA0 || n == 0x1680 ||
    (0x2000 ≤ n && n ≤ 0x200A) || n == 0x2028 || n == 0x2029 || n == 0x202F ||
    n == 0x205F || n == 0x3000

/-- A range of letters, every `stride`-th of which has its lower case `delta` further. -/
structure CaseRange where
  lo : Nat
  hi : Nat
  stride : Nat
  delta : Int

/-- `unicode.CaseRanges` (Unicode 9.0), what it says of lower case outside ASCII. -/
def caseRanges : List CaseRange :=
  [⟨0xC0, 0xD6, 1, 32⟩, ⟨0xD8, 0xDE, 1, 32⟩, ⟨0x100, 0x12E, 2, 1⟩, ⟨0x130, 0x130, 1, -199⟩,
    ⟨0x132, 0x136, 2, 1⟩, ⟨0x139, 0x147, 2, 1⟩, ⟨0x14A, 0x176, 2, 1⟩, ⟨0x178, 0x178, 1, -121⟩,
    ⟨0x179, 0x17D, 2, 1⟩, ⟨0x181, 0x181, 1, 210⟩, ⟨0x182, 0x184, 2, 1⟩, ⟨0x186, 0x186, 1, 206⟩,
    ⟨0x187, 0x187, 1, 1⟩, ⟨0x189, 0x18A, 1, 205⟩, ⟨0x18B, 0x18B, 1, 1⟩, ⟨0x18E, 0x18E, 1, 79⟩,
    ⟨0x18F, 0x18F, 1, 202⟩, ⟨0x190, 0x190, 1, 203⟩, ⟨0x191, 0x191, 1, 1⟩, ⟨0x193, 0x193, 1, 205⟩,
    ⟨0x194, 0x194, 1, 207⟩, ⟨0x196, 0x196, 1, 211⟩, ⟨0x197, 0x197, 1, 209⟩, ⟨0x198, 0x198, 1, 1⟩,
    ⟨0x19C, 0x19C, 1, 211⟩, ⟨0x19D, 0x19D, 1, 213⟩, ⟨0x19F, 0x19F, 1, 214⟩, ⟨0x1A0, 0x1A4, 2, 1⟩,
    ⟨0x1A6, 0x1A6, 1, 218⟩, ⟨0x1A7, 0x1A7, 1, 1⟩, ⟨0x1A9, 0x1A9, 1, 218⟩, ⟨0x1AC, 0x1AC, 1, 1⟩,
    ⟨0x1AE, 0x1AE, 1, 218⟩, ⟨0x1AF, 0x1AF, 1, 1⟩, ⟨0x1B1, 0x1B2, 1, 217⟩, ⟨0x1B3, 0x1B5, 2, 1⟩,
    ⟨0x1B7, 0x1B7, 1, 219⟩, ⟨0x1B8, 0x1B8, 1, 1⟩, ⟨0x1BC, 0x1BC, 1, 1⟩, ⟨0x1C4, 0x1C4, 1, 2⟩,
    ⟨0x1C5, 0x1C5, 1, 1⟩, ⟨0x1C7, 0x1C7, 1, 2⟩, ⟨0x1C8, 0x1C8, 1, 1⟩, ⟨0x1CA, 0x1CA, 1, 2⟩,
    ⟨0x1CB, 0x1DB, 2, 1⟩, ⟨0x1DE, 0x1EE, 2, 1⟩, ⟨0x1F1, 0x1F1, 1, 2⟩, ⟨0x1F2, 0x1F4, 2, 1⟩,
    ⟨0x1F6, 0x1F6, 1, -97⟩, ⟨0x1F7, 0x1F7, 1, -56⟩, ⟨0x1F8, 0x21E, 2, 1⟩, ⟨0x220, 0x220, 1, -130⟩,
    ⟨0x222, 0x232, 2, 1⟩, ⟨0x23A, 0x23A, 1, 10795⟩, ⟨0x23B, 0x23B, 1, 1⟩, ⟨0x23D, 0x23D, 1, -163⟩,
    ⟨0x23E, 0x23E, 1, 10792⟩, ⟨0x241, 0x241, 1, 1⟩, ⟨0x243, 0x243, 1, -195⟩, ⟨0x244, 0x244, 1, 69⟩,
    ⟨0x245, 0x245, 1, 71⟩, ⟨0x246, 0x24E, 2, 1⟩, ⟨0x370, 0x372, 2, 1⟩, ⟨0x376, 0x376, 1, 1⟩,
    ⟨0x37F, 0x37F, 1, 116⟩, ⟨0x386, 0x386, 1, 38⟩, ⟨0x388, 0x38A, 1, 37⟩, ⟨0x38C, 0x38C, 1, 64⟩,
    ⟨0x38E, 0x38F, 1, 63⟩, ⟨0x391, 0x3A1, 1, 32⟩, ⟨0x3A3, 0x3AB, 1, 32⟩, ⟨0x3CF, 0x3CF, 1, 8⟩,
    ⟨0x3D8, 0x3EE, 2, 1⟩, ⟨0x3F4, 0x3F4, 1, -60⟩, ⟨0x3F7, 0x3F7, 1, 1⟩, ⟨0x3F9, 0x3F9, 1, -7⟩,
    ⟨0x3FA, 0x3FA, 1, 1⟩, ⟨0x3FD, 0x3FF, 1, -130⟩, ⟨0x400, 0x40F, 1, 80⟩, ⟨0x410, 0x42F, 1, 32⟩,
    ⟨0x460, 0x480, 2, 1⟩, ⟨0x48A, 0x4BE, 2, 1⟩, ⟨0x4C0, 0x4C0, 1, 15⟩, ⟨0x4C1, 0x4CD, 2, 1⟩,
    ⟨0x4D0, 0x52E, 2, 1⟩, ⟨0x531, 0x556, 1, 48⟩, ⟨0x10A0, 0x10C5, 1, 7264⟩,
    ⟨0x10C7, 0x10C7, 1, 7264⟩, ⟨0x10CD, 0x10CD, 1, 7264⟩, ⟨0x13A0, 0x13EF, 1, 38864⟩,
    ⟨0x13F0, 0x13F5, 1, 8⟩, ⟨0x1E00, 0x1E94, 2, 1⟩, ⟨0x1E9E, 0x1E9E, 1, -7615⟩,
    ⟨0x1EA0, 0x1EFE, 2, 1⟩, ⟨0x1F08, 0x1F0F, 1, -8⟩, ⟨0x1F18, 0x1F1D, 1, -8⟩,
    ⟨0x1F28, 0x1F2F, 1, -8⟩, ⟨0x1F38, 0x1F3F, 1, -8⟩, ⟨0x1F48, 0x1F4D, 1, -8⟩,
    ⟨0x1F59, 0x1F59, 1, -8⟩, ⟨0x1F5B, 0x1F5B, 1, -8⟩, ⟨0x1F5D, 0x1F5D, 1, -8⟩,
    ⟨0x1F5F, 0x1F5F, 1, -8⟩, ⟨0x1F68, 0x1F6F, 1, -8⟩, ⟨0x1F88, 0x1F8F, 1, -8⟩,
    ⟨0x1F98, 0x1F9F, 1, -8⟩, ⟨0x1FA8, 0x1FAF, 1, -8⟩, ⟨0x1FB8, 0x1FB9, 1, -8⟩,
    ⟨0x1FBA, 0x1FBB, 1, -74⟩, ⟨0x1FBC, 0x1FBC, 1, -9⟩, ⟨0x1FC8, 0x1FCB, 1, -86⟩,
    ⟨0x1FCC, 0x1FCC, 1, -9⟩, ⟨0x1FD8, 0x1FD9, 1, -8⟩, ⟨0x1FDA, 0x1FDB, 1, -100⟩,
    ⟨0x1FE8, 0x1FE9, 1, -8⟩, ⟨0x1FEA, 0x1FEB, 1, -112⟩, ⟨0x1FEC, 0x1FEC, 1, -7⟩,
    ⟨0x1FF8, 0x1FF9, 1, -128⟩, ⟨0x1FFA, 0x1FFB, 1, -126⟩, ⟨0x1FFC, 0x1FFC, 1, -9⟩,
    ⟨0x2126, 0x2126, 1, -7517⟩, ⟨0x212A, 0x212A, 1, -8383⟩, ⟨0x212B, 0x212B, 1, -8262⟩,
    ⟨0x2132, 0x2132, 1, 28⟩, ⟨0x2160, 0x216F, 1, 16⟩, ⟨0x2183, 0x2183, 1, 1⟩,
    ⟨0x24B6, 0x24CF, 1, 26⟩, ⟨0x2C00, 0x2C2E, 1, 48⟩, ⟨0x2C60, 0x2C60, 1, 1⟩,
    ⟨0x2C62, 0x2C62, 1, -10743⟩, ⟨0x2C63, 0x2C63, 1, -3814⟩, ⟨0x2C64, 0x2C64, 1, -10727⟩,
    ⟨0x2C67, 0x2C6B, 2, 1⟩, ⟨0x2C6D, 0x2C6D, 1, -10780⟩, ⟨0x2C6E, 0x2C6E, 1, -10749⟩,
    ⟨0x2C6F, 0x2C6F, 1, -10783⟩, ⟨0x2C70, 0x2C70, 1, -10782⟩, ⟨0x2C72, 0x2C72, 1, 1⟩,
    ⟨0x2C75, 0x2C75, 1, 1⟩, ⟨0x2C7E, 0x2C7F, 1, -10815⟩, ⟨0x2C80, 0x2CE2, 2, 1⟩,
    ⟨0x2CEB, 0x2CED, 2, 1⟩, ⟨0x2CF2, 0x2CF2, 1, 1⟩, ⟨0xA640, 0xA66C, 2, 1⟩, ⟨0xA680, 0xA69A, 2, 1⟩,
    ⟨0xA722, 0xA72E, 2, 1⟩, ⟨0xA732, 0xA76E, 2, 1⟩, ⟨0xA779, 0xA77B, 2, 1⟩,
    ⟨0xA77D, 0xA77D, 1, -35332⟩, ⟨0xA77E, 0xA786, 2, 1⟩, ⟨0xA78B, 0xA78B, 1, 1⟩,
    ⟨0xA78D, 0xA78D, 1, -42280⟩, ⟨0xA790, 0xA792, 2, 1⟩, ⟨0xA796, 0xA7A8, 2, 1⟩,
    ⟨0xA7AA, 0xA7AA, 1, -42308⟩, ⟨0xA7AB, 0xA7AB, 1, -42319⟩, ⟨0xA7AC, 0xA7AC, 1, -42315⟩,
    ⟨0xA7AD, 0xA7AD, 1, -42305⟩, ⟨0xA7AE, 0xA7AE, 1, -42308⟩, ⟨0xA7B0, 0xA7B0, 1, -42258⟩,
    ⟨0xA7B1, 0xA7B1, 1, -42282⟩, ⟨0xA7B2, 0xA7B2, 1, -42261⟩, ⟨0xA7B3, 0xA7B3, 1, 928⟩,
    ⟨0xA7B4, 0xA7B6, 2, 1⟩, ⟨0xFF21, 0xFF3A, 1, 32⟩, ⟨0x10400, 0x10427, 1, 40⟩,
    ⟨0x104B0, 0x104D3, 1, 40⟩, ⟨0x10C80, 0x10CB2, 1, 64⟩, ⟨0x118A0, 0x118BF, 1, 32⟩,
    ⟨0x1E900, 0x1E921, 1, 34⟩]

def CaseRange.Contains (range : CaseRange) (n : Nat) : Prop :=
  range.lo ≤ n ∧ n ≤ range.hi ∧ (n - range.lo) % range.stride = 0

instance (range : CaseRange) (n : Nat) : Decidable (range.Contains n) :=
  inferInstanceAs (Decidable (_ ∧ _ ∧ _))

/-- `unicode.ToLower`. -/
def lowerChar (c : Char) : Char :=
  if c.toNat < 128 then c.toLower
  else
    match caseRanges.find? fun range => range.Contains c.toNat with
    | some range => Char.ofNat ((c.toNat : Int) + range.delta).toNat
    | none => c

/-- `strings.ToLower`. -/
def toLower (s : String) : String := String.ofList (s.toList.map lowerChar)

/-- `strings.TrimSpace`. -/
def trimSpace (s : String) : String :=
  String.ofList ((s.toList.dropWhile isSpace).reverse.dropWhile isSpace).reverse

/-! ### Decimal integers -/

def digitValue (c : Char) : Option Nat :=
  if '0' ≤ c ∧ c ≤ '9' then some (c.toNat - '0'.toNat) else none

/-- The value of a non-empty digit string, read after the value `acc`. -/
def digitsValue : Nat → List Char → Option Nat
  | acc, [] => some acc
  | acc, c :: cs => do digitsValue (10 * acc + (← digitValue c)) cs

/-- `new(big.Int).SetString(s, 10)`: an optional sign and at least one digit. -/
def setString (s : String) : Option Int :=
  match s.toList with
  | [] => none
  | '+' :: cs => if cs = [] then none else (digitsValue 0 cs).map Int.ofNat
  | '-' :: cs => if cs = [] then none else (digitsValue 0 cs).map fun n => -Int.ofNat n
  | cs => (digitsValue 0 cs).map Int.ofNat

theorem digitsValue_eq {cs : List Char} (h : ∀ c ∈ cs, c.isDigit = true) (acc : Nat) :
    digitsValue acc cs = some (Nat.ofDigitChars 10 cs acc) := by
  induction cs generalizing acc with
  | nil => simp [digitsValue]
  | cons c cs ih =>
      have hdigit : digitValue c = some (c.toNat - '0'.toNat) := by
        have hc := h c List.mem_cons_self
        simp only [Char.isDigit, Bool.and_eq_true, decide_eq_true_eq] at hc
        exact if_pos hc
      rw [digitsValue, hdigit, Nat.ofDigitChars_cons]
      exact ih (fun c hc => h c (List.mem_cons_of_mem _ hc)) _

theorem digitsValue_toDigits (n : Nat) : digitsValue 0 (Nat.toDigits 10 n) = some n := by
  rw [digitsValue_eq fun c hc => Nat.isDigit_of_mem_toDigits (by decide) (by decide) hc,
    Nat.ofDigitChars_ten_toDigits]

/-- A number is read as it was printed (`big.Int.String`). -/
theorem setString_toString (n : Int) : setString (toString n) = some n := by
  cases n with
  | ofNat m =>
      have htext : (toString (Int.ofNat m)).toList = Nat.toDigits 10 m := Nat.toList_repr
      unfold setString
      rw [htext]
      split
      · rename_i hnil
        exact absurd hnil Nat.toDigits_ne_nil
      · rename_i hsign
        have hdigit := Nat.isDigit_of_mem_toDigits (b := 10) (n := m) (c := '+') (by decide)
          (by decide) (by rw [hsign]; exact List.mem_cons_self)
        exact absurd hdigit (by decide)
      · rename_i hsign
        have hdigit := Nat.isDigit_of_mem_toDigits (b := 10) (n := m) (c := '-') (by decide)
          (by decide) (by rw [hsign]; exact List.mem_cons_self)
        exact absurd hdigit (by decide)
      · rw [digitsValue_toDigits]
        rfl
  | negSucc m =>
      have htext : (toString (Int.negSucc m)).toList = '-' :: Nat.toDigits 10 (m + 1) := by
        show ("-" ++ Nat.repr (m + 1)).toList = _
        rw [String.toList_append, Nat.toList_repr]
        rfl
      unfold setString
      rw [htext]
      simp only [Nat.toDigits_ne_nil, if_false, digitsValue_toDigits]
      rfl

/-- Every integer has a decimal text. -/
theorem exists_setString (n : Int) : ∃ s, setString s = some n :=
  ⟨toString n, setString_toString n⟩

example : setString "-0120" = some (-120) := by decide

/-! ### Base64

`base64.StdEncoding`: the standard alphabet with padding.  The decoder skips line
breaks and, as it is not the strict one, ignores the unused bits of the last
character. -/

def base64Alphabet : List Char :=
  "ABCDEFGHIJKLMNOPQRSTUVWXYZabcdefghijklmnopqrstuvwxyz0123456789+/".toList

def base64Char (n : Nat) : Char := base64Alphabet.getD n '='

def base64Value (c : Char) : Option Nat :=
  let i := base64Alphabet.idxOf c
  if i < 64 then some i else none

/-- The bytes of a group of three, from its value as a 24-bit number. -/
def bytesOfGroup (n : Nat) : List UInt8 :=
  [UInt8.ofNat (n / 65536), UInt8.ofNat (n / 256), UInt8.ofNat n]

def encodeGroups : List UInt8 → List Char
  | a :: b :: c :: rest =>
      let n := a.toNat * 65536 + b.toNat * 256 + c.toNat
      base64Char (n / 262144) :: base64Char (n / 4096 % 64) ::
        base64Char (n / 64 % 64) :: base64Char (n % 64) :: encodeGroups rest
  | [a, b] =>
      let n := a.toNat * 65536 + b.toNat * 256
      [base64Char (n / 262144), base64Char (n / 4096 % 64), base64Char (n / 64 % 64), '=']
  | [a] =>
      let n := a.toNat * 65536
      [base64Char (n / 262144), base64Char (n / 4096 % 64), '=', '=']
  | [] => []

/-- `base64.StdEncoding.EncodeToString`. -/
def encodeToString (bytes : List UInt8) : String := String.ofList (encodeGroups bytes)

def decodeGroups : List Char → Option (List UInt8)
  | [] => some []
  | [a, b, '=', '='] => do
      let n := (← base64Value a) * 262144 + (← base64Value b) * 4096
      return (bytesOfGroup n).take 1
  | [a, b, c, '='] => do
      let n := (← base64Value a) * 262144 + (← base64Value b) * 4096 +
        (← base64Value c) * 64
      return (bytesOfGroup n).take 2
  | a :: b :: c :: d :: rest => do
      let n := (← base64Value a) * 262144 + (← base64Value b) * 4096 +
        (← base64Value c) * 64 + (← base64Value d)
      return bytesOfGroup n ++ (← decodeGroups rest)
  | _ => none

/-- `base64.StdEncoding.DecodeString`; `none` stands for a non-nil error. -/
def decodeString (s : String) : Option (List UInt8) :=
  decodeGroups (s.toList.filter fun c => c != '\r' && c != '\n')

/-- The byte that a `CorruptInputError` names, after `j` digits of a group of four. -/
def corruptOffset (si j : Nat) : List UInt8 → Nat
  | [] => si - j
  | c :: rest =>
      if (base64Value (Char.ofNat c.toNat)).isSome then corruptOffset (si + 1) ((j + 1) % 4) rest
      else if c ≠ 0x3D ∨ j < 2 then si
      else if j = 3 then si + 1
      else
        -- the second byte of padding
        match rest with
        | [] => si + 1
        | d :: _ => if d = 0x3D then si + 2 else si

theorem base64Value_base64Char {n : Nat} (h : n < 64) : base64Value (base64Char n) = some n := by
  have hall : ∀ i : Fin 64, base64Value (base64Char i) = some i.1 := by decide +kernel
  exact hall ⟨n, h⟩

/-- No digit is padding. -/
theorem base64Char_ne {n : Nat} (h : n < 64) : base64Char n ≠ '=' := by
  have hall : ∀ i : Fin 64, base64Char i ≠ '=' := by decide +kernel
  exact hall ⟨n, h⟩

theorem base64Char_mem (n : Nat) : base64Char n ∈ '=' :: base64Alphabet := by
  unfold base64Char
  rw [List.getD_eq_getElem?_getD]
  cases hdigit : base64Alphabet[n]? with
  | none => exact List.mem_cons_self
  | some c => exact List.mem_cons_of_mem _ (List.mem_of_getElem? hdigit)

theorem bytesOfGroup_eq {a b c : UInt8} {n : Nat}
    (h : n = a.toNat * 65536 + b.toNat * 256 + c.toNat) : bytesOfGroup n = [a, b, c] := by
  have hb := b.toNat_lt
  have hc := c.toNat_lt
  have hbyte : ∀ {m : Nat} (byte : UInt8), m % 256 = byte.toNat → UInt8.ofNat m = byte := by
    intro m byte hm
    apply UInt8.toNat_inj.mp
    rw [UInt8.toNat_ofNat', ← hm]
  have ha := a.toNat_lt
  unfold bytesOfGroup
  rw [hbyte a (by omega), hbyte b (by omega), hbyte c (by omega)]

theorem group_digits (n : Nat) :
    n / 262144 * 262144 + n / 4096 % 64 * 4096 + n / 64 % 64 * 64 + n % 64 = n := by
  have h₁ : n / 4096 / 64 = n / 262144 := by rw [Nat.div_div_eq_div_mul]
  have h₂ : n / 64 / 64 = n / 4096 := by rw [Nat.div_div_eq_div_mul]
  omega

theorem decodeGroups_cons {a b c d : Char} {rest : List Char} (hd : d ≠ '=') :
    decodeGroups (a :: b :: c :: d :: rest) = (do
      let n := (← base64Value a) * 262144 + (← base64Value b) * 4096 +
        (← base64Value c) * 64 + (← base64Value d)
      return bytesOfGroup n ++ (← decodeGroups rest)) := by
  rw [decodeGroups]
  · grind
  · grind

theorem decodeGroups_encodeGroups (bytes : List UInt8) :
    decodeGroups (encodeGroups bytes) = some bytes := by
  induction bytes using encodeGroups.induct with
  | case1 a b c rest ih =>
      have ha := a.toNat_lt
      have hb := b.toNat_lt
      have hc := c.toNat_lt
      rw [encodeGroups]
      generalize hn : a.toNat * 65536 + b.toNat * 256 + c.toNat = n
      rw [decodeGroups_cons (base64Char_ne (by omega)), base64Value_base64Char (by omega),
        base64Value_base64Char (by omega), base64Value_base64Char (by omega),
        base64Value_base64Char (by omega), ih]
      simp only [Option.bind_eq_bind, Option.bind_some, Option.pure_def]
      rw [group_digits, bytesOfGroup_eq hn.symm]
      rfl
  | case2 a b =>
      have ha := a.toNat_lt
      have hb := b.toNat_lt
      rw [encodeGroups]
      generalize hn : a.toNat * 65536 + b.toNat * 256 = n
      rw [decodeGroups]
      · rw [base64Value_base64Char (by omega),
        base64Value_base64Char (by omega), base64Value_base64Char (by omega)]
        simp only [Option.bind_eq_bind, Option.bind_some, Option.pure_def]
        have hlow : n % 64 = 0 := by omega
        have hgroup := group_digits n
        rw [hlow, Nat.add_zero] at hgroup
        rw [hgroup, bytesOfGroup_eq (a := a) (b := b) (c := 0) (by simpa using hn.symm)]
        rfl
      · exact base64Char_ne (by omega)
  | case3 a =>
      have ha := a.toNat_lt
      rw [encodeGroups]
      generalize hn : a.toNat * 65536 = n
      rw [decodeGroups, base64Value_base64Char (by omega),
        base64Value_base64Char (by omega)]
      simp only [Option.bind_eq_bind, Option.bind_some, Option.pure_def]
      have hlow : n % 64 = 0 := by omega
      have hmid : n / 64 % 64 = 0 := by omega
      have hgroup := group_digits n
      simp only [hlow, hmid, Nat.add_zero, Nat.zero_mul] at hgroup
      rw [hgroup, bytesOfGroup_eq (a := a) (b := 0) (c := 0) (by simpa using hn.symm)]
      rfl
  | case4 => rfl

/-- The encoder writes digits and padding. -/
theorem mem_encodeGroups {bytes : List UInt8} :
    ∀ c ∈ encodeGroups bytes, c ∈ '=' :: base64Alphabet := by
  induction bytes using encodeGroups.induct with
  | case1 a b c rest ih =>
      rw [encodeGroups]
      simp only [List.forall_mem_cons]
      exact ⟨base64Char_mem _, base64Char_mem _, base64Char_mem _, base64Char_mem _, ih⟩
  | case2 a b =>
      rw [encodeGroups]
      simp only [List.forall_mem_cons]
      exact ⟨base64Char_mem _, base64Char_mem _, base64Char_mem _, List.mem_cons_self, by simp⟩
  | case3 a =>
      rw [encodeGroups]
      simp only [List.forall_mem_cons]
      exact ⟨base64Char_mem _, base64Char_mem _, List.mem_cons_self, List.mem_cons_self, by simp⟩
  | case4 => simp [encodeGroups]

theorem mem_stringBytes_encodeToString {bytes : List UInt8} {b : UInt8}
    (h : b ∈ stringBytes (encodeToString bytes)) :
    ∃ c ∈ '=' :: base64Alphabet, b ∈ String.utf8EncodeChar c := by
  unfold encodeToString at h
  rw [stringBytes_ofList] at h
  obtain ⟨c, hc, hb⟩ := List.mem_flatMap.mp h
  exact ⟨c, mem_encodeGroups c hc, hb⟩

theorem decodeString_encodeToString (bytes : List UInt8) :
    decodeString (encodeToString bytes) = some bytes := by
  unfold decodeString encodeToString
  rw [String.toList_ofList, List.filter_eq_self.mpr]
  · exact decodeGroups_encodeGroups bytes
  · intro c hc
    have hall : ('=' :: base64Alphabet).all (fun c => c != '\r' && c != '\n') = true := by decide
    exact List.all_eq_true.mp hall c (mem_encodeGroups c hc)

/-! ### Hexadecimal -/

def hexDigit (c : Char) : Option Nat :=
  if '0' ≤ c ∧ c ≤ '9' then some (c.toNat - '0'.toNat)
  else if 'a' ≤ c ∧ c ≤ 'f' then some (c.toNat - 'a'.toNat + 10)
  else if 'A' ≤ c ∧ c ≤ 'F' then some (c.toNat - 'A'.toNat + 10)
  else none

def hexBytes : List Char → Option (List UInt8)
  | [] => some []
  | [_] => none
  | a :: b :: rest => do
      return UInt8.ofNat ((← hexDigit a) * 16 + (← hexDigit b)) :: (← hexBytes rest)

/-- `hex.DecodeString`; `none` stands for a non-nil error. -/
def hexDecodeString (s : String) : Option (List UInt8) := hexBytes s.toList

/-- A byte in the format `%#U`. -/
def formatByte (c : UInt8) : String :=
  let digit (n : Nat) : Char := (Nat.digitChar n).toUpper
  let code := "U+00" ++ String.ofList [digit (c.toNat / 16), digit (c.toNat % 16)]
  if 0x20 ≤ c ∧ c ≤ 0x7E ∨ 0xA1 ≤ c ∧ c ≠ 0xAD then
    code ++ " '" ++ String.ofList [Char.ofNat c.toNat] ++ "'"
  else code

/-- `s` without a leading "0x", when something follows it. -/
def trimHexPrefix (s : String) : String :=
  match s.toList with
  | '0' :: 'x' :: c :: rest => String.ofList (c :: rest)
  | _ => s

example : hexDecodeString (trimHexPrefix "0x0aFf") = some [10, 255] := by decide

end GoLibrary
