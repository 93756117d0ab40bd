/-
  Swapperd/JsonStrings.lean
  =========================
  **Strings and integers as Go's `encoding/json` writes and reads them.**

  A string is written with its quotes, backslashes and control characters escaped, and
  with what HTML and JavaScript give a meaning to.  It is read with every escape that JSON
  has, surrogate pairs included; bytes that are not UTF-8 are read as U+FFFD.

  `unquote_encodeString`, `decodeInt_encodeInt` — what is written is read back.
  `valid_encodeString`, `valid_encodeInt` — what is written is JSON, in the form in which
  a raw message would be.
-/
import Swapperd.GoLibrary
import Swapperd.JsonRaw

namespace JsonText

open Scanner
open GoLibrary (stringBytes setString IsInt64)

/-! ### Strings -/

/-- A hexadecimal digit, in lower case. -/
def hexByte (n : Nat) : UInt8 := UInt8.ofNat (if n < 10 then 0x30 + n else 0x57 + n)

def hexValue (c : UInt8) : Option Nat :=
  if isDigit c then some (c.toNat - 0x30)
  else if 0x61 ≤ c ∧ c ≤ 0x66 then some (c.toNat - 0x57)
  else if 0x41 ≤ c ∧ c ≤ 0x46 then some (c.toNat - 0x37)
  else none

/-- What a character is written as: `\u2028` and `\u2029` end a line in JavaScript. -/
def encodeChar (c : Char) : List UInt8 :=
  if c = '\\' ∨ c = '"' then [backslash, UInt8.ofNat c.toNat]
  else if c = '\n' then [backslash, 0x6E]
  else if c = '\r' then [backslash, 0x72]
  else if c = '\t' then [backslash, 0x74]
  else if c.toNat < 0x20 ∨ c = '<' ∨ c = '>' ∨ c = '&' then
    [backslash, 0x75, 0x30, 0x30, hexByte (c.toNat / 16), hexByte (c.toNat % 16)]
  else if c = '\u2028' ∨ c = '\u2029' then
    [backslash, 0x75, 0x32, 0x30, 0x32, hexByte (c.toNat % 16)]
  else String.utf8EncodeChar c

def encodeString (s : String) : List UInt8 := quote :: (s.toList.flatMap encodeChar ++ [quote])

/-- `getu4` -/
def getu4 : List UInt8 → Option Nat
  | 0x5C :: 0x75 :: a :: b :: c :: d :: _ => do
      return 0x1000 * (← hexValue a) + 0x100 * (← hexValue b) + 0x10 * (← hexValue c) +
        (← hexValue d)
  | _ => none

/-- `utf16.DecodeRune`, where it does not fail. -/
def surrogatePair (high low : Nat) : Option Char :=
  if 0xD800 ≤ high ∧ high < 0xDC00 ∧ 0xDC00 ≤ low ∧ low < 0xE000 then
    some (Char.ofNat (0x10000 + 0x400 * (high - 0xD800) + (low - 0xDC00)))
  else none

/-- `utf8.DecodeRune`: a rune and the number of its bytes. -/
def decodeRune (text : List UInt8) : Char × Nat :=
  match text.toByteArray.utf8DecodeChar? 0 with
  | some c => (c, c.utf8Size)
  | none => ('\uFFFD', 1)

/-- What a `\u` escape stands for, and the number of bytes that were read. -/
def unicodeEscape (text : List UInt8) : Option (Char × Nat) := do
  let rr ← getu4 text
  if 0xD800 ≤ rr ∧ rr < 0xE000 then
    match (getu4 (text.drop 6)).bind (surrogatePair rr) with
    | some c => return (c, 12)
    | none => return ('\uFFFD', 6)
  else return (Char.ofNat rr, 6)

/-- What the byte after a backslash stands for, if it is not `u`. -/
def simpleEscape (c : UInt8) : Option Char :=
  if c = quote ∨ c = backslash ∨ c = 0x2F ∨ c = 0x27 then some (Char.ofNat c.toNat)
  else if c = 0x62 then some '\x08'
  else if c = 0x66 then some '\x0C'
  else if c = 0x6E then some '\n'
  else if c = 0x72 then some '\r'
  else if c = 0x74 then some '\t'
  else none

/-- The first character of what is between the quotes, and the number of its bytes. -/
def nextChar (text : List UInt8) : Option (Char × Nat) :=
  match text with
  | [] => none
  | c :: rest =>
      if c = backslash then
        if rest.head? = some 0x75 then unicodeEscape text
        else (rest.head?.bind simpleEscape).map fun char => (char, 2)
      else if c = quote ∨ c < 0x20 then none
      else if c < 0x80 then some (Char.ofNat c.toNat, 1)
      else some (decodeRune text)

/-- At most `fuel` characters. -/
def unquoteFrom : Nat → List UInt8 → Option (List Char)
  | _, [] => some []
  | 0, _ :: _ => none
  | fuel + 1, c :: rest => do
      let (char, size) ← nextChar (c :: rest)
      return char :: (← unquoteFrom fuel ((c :: rest).drop size))

/-- `unquoteBytes`: a character has one byte at least. -/
def unquote (text : List UInt8) : Option String :=
  if text.head? = some quote ∧ text.tail.getLast? = some quote then
    (unquoteFrom text.length text.tail.dropLast).map String.ofList
  else none

/-! ### Characters -/

theorem hexValue_hexByte {n : Nat} (h : n < 16) : hexValue (hexByte n) = some n := by
  have hall : ∀ n : Fin 16, hexValue (hexByte n) = some n.val := by decide
  exact hall ⟨n, h⟩

theorem isHex_hexByte {n : Nat} (h : n < 16) : isHex (hexByte n) = true := by
  have hall : ∀ n : Fin 16, isHex (hexByte n) = true := by decide
  exact hall ⟨n, h⟩

/-- The ways in which a character is written. -/
inductive Written (c : Char) : List UInt8 → Prop where
  | escape (e : UInt8) (h : simpleEscape e = some c) (he : isEscape e = true) :
      Written c [backslash, e]
  | unicode (x y z w : Nat) (hx : x < 16) (hy : y < 16) (hz : z < 16) (hw : w < 16)
      (h : c.toNat = 0x1000 * x + 0x100 * y + 0x10 * z + w) (hc : c.toNat < 0xD800) :
      Written c [backslash, 0x75, hexByte x, hexByte y, hexByte z, hexByte w]
  | plain (h : c ≠ '\\' ∧ c ≠ '"' ∧ 0x20 ≤ c.toNat) (hmarked : c ≠ '<' ∧ c ≠ '>' ∧ c ≠ '&')
      (hseparator : c ≠ '\u2028' ∧ c ≠ '\u2029') : Written c (String.utf8EncodeChar c)

theorem written_encodeChar (c : Char) : Written c (encodeChar c) := by
  unfold encodeChar
  split_ifs with hquote hn hr ht hcontrol hseparator
  · rcases hquote with rfl | rfl
    · exact .escape backslash (by decide) (by decide)
    · exact .escape quote (by decide) (by decide)
  · exact hn ▸ .escape 0x6E (by decide) (by decide)
  · exact hr ▸ .escape 0x72 (by decide) (by decide)
  · exact ht ▸ .escape 0x74 (by decide) (by decide)
  · have hlt : c.toNat < 0x40 := by
      rcases hcontrol with h | rfl | rfl | rfl
      · omega
      · decide
      · decide
      · decide
    exact .unicode 0 0 (c.toNat / 16) (c.toNat % 16) (by decide) (by decide) (by omega) (by omega)
      (by omega) (by omega)
  · have heq : c.toNat = 0x2028 ∨ c.toNat = 0x2029 := by
      rcases hseparator with rfl | rfl
      · exact .inl rfl
      · exact .inr rfl
    exact .unicode 2 0 2 (c.toNat % 16) (by decide) (by decide) (by decide) (by omega) (by omega)
      (by omega)
  · push Not at hquote hcontrol hseparator
    exact .plain ⟨hquote.1, hquote.2, hcontrol.1⟩ hcontrol.2 hseparator

theorem utf8EncodeChar_ascii {c : Char} (h : c.toNat < 0x80) :
    String.utf8EncodeChar c = [UInt8.ofNat c.toNat] := by
  have hle : c.val.toNat ≤ 0x7F := by
    have hval : c.toNat = c.val.toNat := rfl
    omega
  exact if_pos hle

/-- A character outside ASCII has no byte in it. -/
theorem le_of_mem_utf8EncodeChar {c : Char} (h : 0x80 ≤ c.toNat) :
    ∀ b ∈ String.utf8EncodeChar c, 0x80 ≤ b := by
  have hval : c.toNat = c.val.toNat := rfl
  have hbyte : ∀ n : Nat, 0x80 ≤ n → n < 0x100 → (0x80 : UInt8) ≤ UInt8.ofNat n := by
    intro n hlow hhigh
    rw [UInt8.le_iff_toNat_le, UInt8.toNat_ofNat', Nat.mod_eq_of_lt hhigh]
    exact hlow
  intro b hb
  unfold String.utf8EncodeChar at hb
  dsimp only at hb
  rw [if_neg (by omega)] at hb
  split_ifs at hb <;> simp only [List.mem_cons, List.not_mem_nil, or_false] at hb
  · rcases hb with rfl | rfl <;> exact hbyte _ (by omega) (by omega)
  · rcases hb with rfl | rfl | rfl <;> exact hbyte _ (by omega) (by omega)
  · rcases hb with rfl | rfl | rfl | rfl <;> exact hbyte _ (by omega) (by omega)

/-- A byte that stands for itself in a string. -/
def IsInner (b : UInt8) : Prop := b ≠ quote ∧ b ≠ backslash ∧ ¬ b < 0x20

theorem toNat_ofNat_ascii {c : Char} (h : c.toNat < 0x80) :
    (UInt8.ofNat c.toNat).toNat = c.toNat := by
  rw [UInt8.toNat_ofNat', Nat.mod_eq_of_lt (by omega)]

theorem isInner_of_mem_utf8EncodeChar {c : Char} (h : c ≠ '\\' ∧ c ≠ '"' ∧ 0x20 ≤ c.toNat) :
    ∀ b ∈ String.utf8EncodeChar c, IsInner b := by
  intro b hb
  by_cases hascii : c.toNat < 0x80
  · have hnat := toNat_ofNat_ascii hascii
    rw [utf8EncodeChar_ascii hascii, List.mem_singleton] at hb
    subst hb
    have hne : ∀ d : Char, c ≠ d → (UInt8.ofNat c.toNat).toNat ≠ d.toNat := by
      intro d hcd heq
      exact hcd (Char.toNat_inj.mp (hnat.symm.trans heq))
    refine ⟨fun heq => hne '"' h.2.1 ?_, fun heq => hne '\\' h.1 ?_, ?_⟩
    · rw [heq]
      rfl
    · rw [heq]
      rfl
    · rw [UInt8.lt_iff_toNat_lt, hnat]
      exact Nat.not_lt.mpr h.2.2
  · have hhigh := le_of_mem_utf8EncodeChar (Nat.not_lt.mp hascii) b hb
    unfold IsInner
    grind [quote, backslash]

theorem decodeRune_utf8EncodeChar (c : Char) (rest : List UInt8) :
    decodeRune (String.utf8EncodeChar c ++ rest) = (c, (String.utf8EncodeChar c).length) := by
  unfold decodeRune
  rw [List.toByteArray_append, ByteArray.utf8DecodeChar?_utf8EncodeChar_append,
    String.length_utf8EncodeChar]

theorem getu4_hexBytes {x y z w : Nat} (hx : x < 16) (hy : y < 16) (hz : z < 16) (hw : w < 16)
    (rest : List UInt8) :
    getu4 (backslash :: 0x75 :: hexByte x :: hexByte y :: hexByte z :: hexByte w :: rest) =
      some (0x1000 * x + 0x100 * y + 0x10 * z + w) := by
  simp only [backslash, getu4, hexValue_hexByte hx, hexValue_hexByte hy, hexValue_hexByte hz,
    hexValue_hexByte hw]
  rfl

theorem Written.ne_nil {c : Char} {text : List UInt8} (h : Written c text) : text ≠ [] := by
  cases h with
  | plain => exact String.utf8EncodeChar_ne_nil
  | _ => exact List.cons_ne_nil _ _

/-- A character is read as it was written. -/
theorem Written.nextChar {c : Char} {text : List UInt8} (h : Written c text)
    (rest : List UInt8) : nextChar (text ++ rest) = some (c, text.length) := by
  cases h with
  | escape e hsimple he =>
      have hne : e ≠ 0x75 := by
        rintro rfl
        cases he
      simp [JsonText.nextChar, hne, hsimple]
  | unicode x y z w hx hy hz hw hc hlt =>
      have hescape : unicodeEscape
          (backslash :: 0x75 :: hexByte x :: hexByte y :: hexByte z :: hexByte w :: rest) =
            some (c, 6) := by
        have hnone : ¬ (0xD800 ≤ c.toNat ∧ c.toNat < 0xE000) := by omega
        simp only [unicodeEscape, getu4_hexBytes hx hy hz hw, ← hc, Option.bind_eq_bind,
          Option.bind_some, if_neg hnone, Char.ofNat_toNat]
        rfl
      exact hescape
  | plain h hmarked hseparator =>
      have hinner := isInner_of_mem_utf8EncodeChar h
      by_cases hascii : c.toNat < 0x80
      · have hnat := toNat_ofNat_ascii hascii
        have hlt : UInt8.ofNat c.toNat < 0x80 := by
          rw [UInt8.lt_iff_toNat_lt, hnat]
          exact hascii
        rw [utf8EncodeChar_ascii hascii] at hinner ⊢
        obtain ⟨hquote, hbackslash, hlow⟩ := hinner _ List.mem_cons_self
        simp [JsonText.nextChar, hquote, hbackslash, hlow, hlt, hnat]
      · obtain ⟨b, tail, hcons⟩ :=
          List.exists_cons_of_ne_nil (String.utf8EncodeChar_ne_nil (c := c))
        have hhigh := le_of_mem_utf8EncodeChar (Nat.not_lt.mp hascii)
        have hrune := decodeRune_utf8EncodeChar c rest
        rw [hcons] at hrune hinner hhigh ⊢
        obtain ⟨hquote, hbackslash, hlow⟩ := hinner b List.mem_cons_self
        have hlt : ¬ b < 0x80 := UInt8.not_lt.mpr (hhigh b List.mem_cons_self)
        rw [List.cons_append] at hrune ⊢
        simp [JsonText.nextChar, hquote, hbackslash, hlow, hlt, hrune]

/-! ### Strings are read back -/

theorem unquoteFrom_flatMap (chars : List Char) {fuel : Nat} (h : chars.length ≤ fuel) :
    unquoteFrom fuel (chars.flatMap encodeChar) = some chars := by
  induction chars generalizing fuel with
  | nil => cases fuel <;> rfl
  | cons c rest ih =>
      obtain ⟨n, rfl⟩ : ∃ n, fuel = n + 1 := ⟨fuel - 1, by simp at h; omega⟩
      have hnext := (written_encodeChar c).nextChar (rest.flatMap encodeChar)
      have hrest := @ih n (by simpa using h)
      rw [List.flatMap_cons]
      match hcons : encodeChar c ++ rest.flatMap encodeChar with
      | [] => simp [hcons, JsonText.nextChar] at hnext
      | b :: tail =>
          rw [hcons] at hnext
          rw [unquoteFrom, hnext, ← hcons]
          simp [hrest]

theorem length_le_flatMap (chars : List Char) :
    chars.length ≤ (chars.flatMap encodeChar).length := by
  induction chars with
  | nil => exact Nat.le_refl 0
  | cons c rest ih =>
      have hpos := List.length_pos_of_ne_nil (written_encodeChar c).ne_nil
      simp only [List.flatMap_cons, List.length_append, List.length_cons]
      omega

/-- A string is read as it was written. -/
theorem unquote_encodeString (s : String) : unquote (encodeString s) = some s := by
  have hfuel : s.toList.length ≤ (encodeString s).length := by
    have hle := length_le_flatMap s.toList
    simp only [encodeString, List.length_cons, List.length_append]
    omega
  have hbody : (encodeString s).tail.dropLast = s.toList.flatMap encodeChar := by
    simp [encodeString]
  unfold unquote
  rw [if_pos (by simp [encodeString]), hbody, unquoteFrom_flatMap _ hfuel]
  simp

/-! ### Strings are JSON -/

section Inside

variable {stack : List ParseState} {c : Char} {text : List UInt8}

/-- The text stays in the string that it begins in. -/
structure Inside (text : List UInt8) : Prop where
  run : ∀ stack, Scanner.run ⟨.inString, stack⟩ text = some ⟨.inString, stack⟩
  tight : TightFrom .inside text

theorem Inside.lex (h : Inside text) : lexFrom .inside text = .inside :=
  (run_lex (h.run [])).symm

theorem Inside.append {x y : List UInt8} (hx : Inside x) (hy : Inside y) : Inside (x ++ y) where
  run stack := by
    rw [run_append, hx.run]
    exact hy.run stack
  tight := tightFrom_append.mpr ⟨hx.tight, hx.lex.symm ▸ hy.tight⟩

theorem inside_nil : Inside [] := ⟨fun _ => rfl, trivial⟩

theorem inside_of_inner (h : ∀ b ∈ text, IsInner b) : Inside text := by
  induction text with
  | nil => exact inside_nil
  | cons b rest ih =>
      obtain ⟨⟨hquote, hbackslash, hlow⟩, hrest⟩ := List.forall_mem_cons.mp h
      have hb : Inside [b] := by
        refine ⟨fun stack => ?_, ⟨rfl, trivial⟩⟩
        simp [next, hquote, hbackslash, hlow]
      exact hb.append (ih hrest)

theorem isInner_hexByte {n : Nat} (h : n < 16) : IsInner (hexByte n) := by
  have hhex := isHex_hexByte h
  refine ⟨?_, ?_, ?_⟩ <;> intro hb <;> grind [isHex, isDigit, quote, backslash]

theorem run_inStringEscU {n : Nat} (h : n < 16) (left : Nat) (stack : List ParseState) :
    (Scanner.mk (.inStringEscU left) stack).next (hexByte n) =
      some ⟨match left with | 0 => .inString | n + 1 => .inStringEscU n, stack⟩ :=
  if_pos (isHex_hexByte h)

theorem Written.inside (h : Written c text) : Inside text := by
  cases h with
  | escape e hsimple he =>
      refine ⟨fun stack => ?_, ⟨rfl, rfl, trivial⟩⟩
      have hesc : (Scanner.mk .inStringEsc stack).next e = some ⟨.inString, stack⟩ := if_pos he
      have hfirst : (Scanner.mk .inString stack).next backslash = some ⟨.inStringEsc, stack⟩ := rfl
      simp [hfirst, hesc]
  | unicode x y z w hx hy hz hw hc hlt =>
      refine ⟨fun stack => ?_, ⟨rfl, rfl, ?_⟩⟩
      · have hfirst : (Scanner.mk .inString stack).next backslash =
            some ⟨.inStringEsc, stack⟩ := rfl
        have hu : (Scanner.mk .inStringEsc stack).next 0x75 = some ⟨.inStringEscU 3, stack⟩ := rfl
        simp [hfirst, hu, run_inStringEscU hx, run_inStringEscU hy, run_inStringEscU hz,
          run_inStringEscU hw]
      · refine (inside_of_inner ?_).tight
        simp [isInner_hexByte hx, isInner_hexByte hy, isInner_hexByte hz, isInner_hexByte hw]
  | plain h hmarked hseparator => exact inside_of_inner (isInner_of_mem_utf8EncodeChar h)

theorem inside_flatMap (chars : List Char) : Inside (chars.flatMap encodeChar) := by
  induction chars with
  | nil => exact inside_nil
  | cons c rest ih => exact (written_encodeChar c).inside.append ih

end Inside

theorem next_quote (stack : List ParseState) :
    (Scanner.mk .beginString stack).next quote = some ⟨.inString, stack⟩ ∧
      (Scanner.mk .inString stack).next quote = some ⟨.endValue, stack⟩ := ⟨rfl, rfl⟩

/-- A key is read to its end. -/
theorem run_key (s : String) (stack : List ParseState) :
    Scanner.run ⟨.beginString, stack⟩ (encodeString s) = some ⟨.endValue, stack⟩ := by
  rw [encodeString, run_cons, (next_quote stack).1, Option.bind_some, run_append,
    (inside_flatMap s.toList).run, Option.bind_some, run_cons, (next_quote stack).2]
  rfl

theorem valid_encodeString (s : String) : Valid (encodeString s) := by
  have hrun : Scanner.start.run (encodeString s) = some ⟨.endValue, []⟩ := run_key s []
  exact valid_iff.mpr ⟨_, hrun, rfl, rfl⟩

theorem tight_encodeString (s : String) : Tight (encodeString s) := by
  have hbody := inside_flatMap s.toList
  refine ⟨rfl, ?_⟩
  rw [show Lex.outside.next quote = .inside from rfl, tightFrom_append]
  exact ⟨hbody.tight, hbody.lex.symm ▸ ⟨rfl, trivial⟩⟩

/-! ### Integers -/

/-- `strconv.AppendInt` -/
def encodeInt (n : Int) : List UInt8 := stringBytes (toString n)

/-- `strconv.ParseInt`, in base ten and for 64 bits. -/
def decodeInt (text : List UInt8) : Option Int :=
  (setString (String.ofList (text.map fun b => Char.ofNat b.toNat))).filter fun n => IsInt64 n

/-- The bytes of ASCII characters. -/
def asciiBytes (chars : List Char) : List UInt8 := chars.map fun c => UInt8.ofNat c.toNat

theorem flatMap_ascii {chars : List Char} (h : ∀ c ∈ chars, c.toNat < 0x80) :
    chars.flatMap String.utf8EncodeChar = asciiBytes chars := by
  induction chars with
  | nil => rfl
  | cons c rest ih =>
      obtain ⟨hc, hrest⟩ := List.forall_mem_cons.mp h
      rw [List.flatMap_cons, utf8EncodeChar_ascii hc, ih hrest]
      rfl

theorem map_asciiBytes {chars : List Char} (h : ∀ c ∈ chars, c.toNat < 0x80) :
    (asciiBytes chars).map (fun b => Char.ofNat b.toNat) = chars := by
  rw [asciiBytes, List.map_map, List.map_congr_left (g := id), List.map_id]
  intro c hc
  simp [toNat_ofNat_ascii (h c hc)]

/-- An integer is written as its digits, after a sign if it is negative. -/
theorem toList_toString (n : Int) : ∃ m : Nat, (toString n).toList = Nat.toDigits 10 m ∨
    (toString n).toList = '-' :: Nat.toDigits 10 m := by
  cases n with
  | ofNat m => exact ⟨m, .inl Nat.toList_repr⟩
  | negSucc m =>
      refine ⟨m + 1, .inr ?_⟩
      have htext : toString (Int.negSucc m) = "-" ++ Nat.repr (m + 1) := rfl
      rw [htext, String.toList_append, Nat.toList_repr]
      rfl

theorem toNat_digit {m : Nat} {c : Char} (h : c ∈ Nat.toDigits 10 m) :
    0x30 ≤ c.toNat ∧ c.toNat ≤ 0x39 := by
  have hdigit := Nat.isDigit_of_mem_toDigits (by decide) (by decide) h
  simp only [Char.isDigit, Bool.and_eq_true, decide_eq_true_eq] at hdigit
  exact hdigit

theorem ascii_toString (n : Int) : ∀ c ∈ (toString n).toList, c.toNat < 0x80 := by
  have hdigits : ∀ (m : Nat), ∀ c ∈ Nat.toDigits 10 m, c.toNat < 0x80 := fun m c hc =>
    Nat.lt_of_le_of_lt (toNat_digit hc).2 (by decide)
  obtain ⟨m, hm | hm⟩ := toList_toString n <;> rw [hm]
  · exact hdigits m
  · exact List.forall_mem_cons.mpr ⟨by decide, hdigits m⟩

theorem encodeInt_eq (n : Int) : encodeInt n = asciiBytes (toString n).toList := by
  rw [← flatMap_ascii (ascii_toString n), ← GoLibrary.stringBytes_ofList, String.ofList_toList]
  rfl

/-- An integer is read as it was written. -/
theorem decodeInt_encodeInt {n : Int} (h : IsInt64 n) : decodeInt (encodeInt n) = some n := by
  rw [decodeInt, encodeInt_eq, map_asciiBytes (ascii_toString n), String.ofList_toList,
    GoLibrary.setString_toString]
  simp [h]

theorem isInt64_decodeInt {text : List UInt8} {n : Int} (h : decodeInt text = some n) :
    IsInt64 n := by
  have hfilter := (Option.filter_eq_some_iff.mp h).2
  simpa using hfilter

/-! ### Integers are JSON -/

theorem isDigit_digitChar {n : Nat} (h : n < 10) :
    isDigit (UInt8.ofNat n.digitChar.toNat) = true := by
  have hall : ∀ n : Fin 10, isDigit (UInt8.ofNat n.val.digitChar.toNat) = true := by decide
  exact hall ⟨n, h⟩

theorem digitChar_ne_zero {n : Nat} (hpos : 0 < n) (h : n < 10) :
    UInt8.ofNat n.digitChar.toNat ≠ 0x30 := by
  have hall : ∀ n : Fin 10, 0 < n.val → UInt8.ofNat n.val.digitChar.toNat ≠ 0x30 := by decide
  exact hall ⟨n, h⟩ hpos

/-- The scanner is where a number may begin. -/
structure AtNumber (sc : Scanner) : Prop where
  zero : sc.next 0x30 = some ⟨.zero, sc.parseState⟩
  digit : ∀ b, isDigit b = true → b ≠ 0x30 → sc.next b = some ⟨.one, sc.parseState⟩

theorem atNumber_start : AtNumber Scanner.start where
  zero := by decide
  digit b hb hzero := by
    have hfirst := firstByte_digit hb hzero
    have hspace := (isDigit_lex hb).2
    simp [Scanner.start, next, stateBeginValue, hspace, hfirst]

theorem atNumber_neg (stack : List ParseState) : AtNumber ⟨.neg, stack⟩ where
  zero := rfl
  digit b hb hzero := by simp [next, hb, hzero]

/-- The digits of a number that is not zero. -/
theorem run_digits {sc : Scanner} (hsc : AtNumber sc) {m : Nat} (hpos : 0 < m) :
    sc.run (asciiBytes (Nat.toDigits 10 m)) = some ⟨.one, sc.parseState⟩ := by
  induction m using Nat.strong_induction_on with
  | _ m ih =>
      by_cases hlt : m < 10
      · rw [Nat.toDigits_of_lt_base hlt]
        simp [asciiBytes, hsc.digit _ (isDigit_digitChar hlt) (digitChar_ne_zero hpos hlt)]
      · have hdigit := isDigit_digitChar (Nat.mod_lt m (by decide : 0 < 10))
        have hone : (Scanner.mk .one sc.parseState).next (UInt8.ofNat (m % 10).digitChar.toNat) =
            some ⟨.one, sc.parseState⟩ := if_pos hdigit
        have hdiv := ih (m / 10) (by omega) (by omega)
        have happend : asciiBytes (Nat.toDigits 10 m) = asciiBytes (Nat.toDigits 10 (m / 10)) ++
            [UInt8.ofNat (m % 10).digitChar.toNat] := by
          rw [Nat.toDigits_of_base_le (by decide) (by omega), asciiBytes, List.map_append]
          rfl
        rw [happend, run_append, hdiv]
        simp [hone]

theorem run_number {sc : Scanner} (hsc : AtNumber sc) (m : Nat) :
    ∃ rule, rule.nest.ends = true ∧
      sc.run (asciiBytes (Nat.toDigits 10 m)) = some ⟨rule, sc.parseState⟩ := by
  rcases Nat.eq_zero_or_pos m with rfl | hpos
  · refine ⟨.zero, rfl, ?_⟩
    rw [Nat.toDigits_zero]
    simp [asciiBytes, hsc.zero]
  · exact ⟨.one, rfl, run_digits hsc hpos⟩

theorem valid_encodeInt (n : Int) : Valid (encodeInt n) := by
  rw [encodeInt_eq, valid_iff]
  obtain ⟨m, hm | hm⟩ := toList_toString n <;> rw [hm]
  · obtain ⟨rule, hrule, hrun⟩ := run_number atNumber_start m
    exact ⟨_, hrun, rfl, hrule⟩
  · obtain ⟨rule, hrule, hrun⟩ := run_number (atNumber_neg []) m
    exact ⟨_, hrun, rfl, hrule⟩

theorem tight_of_outside {text : List UInt8} (h : ∀ b ∈ text, b ≠ quote ∧ isSpace b = false) :
    Tight text := by
  induction text with
  | nil => trivial
  | cons b rest ih =>
      obtain ⟨⟨hquote, hspace⟩, hrest⟩ := List.forall_mem_cons.mp h
      refine ⟨by simp [Lex.skips, hspace], ?_⟩
      rw [show Lex.outside.next b = .outside from if_neg hquote]
      exact ih hrest

theorem tight_encodeInt (n : Int) : Tight (encodeInt n) := by
  rw [encodeInt_eq]
  have hdigits : ∀ m : Nat, ∀ b ∈ asciiBytes (Nat.toDigits 10 m),
      b ≠ quote ∧ isSpace b = false := by
    intro m b hb
    obtain ⟨c, hc, rfl⟩ := List.mem_map.mp hb
    obtain ⟨hlow, hhigh⟩ := toNat_digit hc
    refine isDigit_lex ?_
    simp only [isDigit, Bool.and_eq_true, decide_eq_true_eq, UInt8.le_iff_toNat_le,
      toNat_ofNat_ascii (Nat.lt_of_le_of_lt hhigh (by decide))]
    exact ⟨hlow, hhigh⟩
  obtain ⟨m, hm | hm⟩ := toList_toString n <;> rw [hm]
  · exact tight_of_outside (hdigits m)
  · exact tight_of_outside (List.forall_mem_cons.mpr ⟨by decide, hdigits m⟩)

end JsonText
