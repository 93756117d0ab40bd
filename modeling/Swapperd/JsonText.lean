/-
  Swapperd/JsonText.lean
  ======================
  **JSON texts as bytes, and what Go's `encoding/json` does to a text it is given.**

  A raw message is not decoded.  `marshalRaw` drops the white space between its tokens
  and escapes the characters that HTML gives a meaning to; `indent` writes it over
  several lines.  All of them read a text byte by byte, and all that they know of a byte
  is whether it stands in a string.

  `compact_indent` — white space is all that an indented text differs in.
  `marshalRaw_eq_iff` — a text that `marshalRaw` does not change has no white space
  between its tokens and nothing to escape.
-/
import Mathlib.Data.List.Basic

namespace JsonText

/-! ### Strings in a text -/

/-- Where a byte stands: between the strings of a text, in a string, or after a backslash
    in a string. -/
inductive Lex where
  | outside
  | inside
  | escaped
deriving DecidableEq

def quote : UInt8 := 0x22
def backslash : UInt8 := 0x5C

def Lex.next : Lex → UInt8 → Lex
  | .outside, c => if c = quote then .inside else .outside
  | .inside, c => if c = quote then .outside else if c = backslash then .escaped else .inside
  | .escaped, _ => .inside

def lexFrom (lex : Lex) (text : List UInt8) : Lex := text.foldl Lex.next lex

/-- Every string of the text is closed. -/
def Closed (text : List UInt8) : Prop := lexFrom .outside text = .outside

instance (text : List UInt8) : Decidable (Closed text) := inferInstanceAs (Decidable (_ = _))

@[simp] theorem lexFrom_nil (lex : Lex) : lexFrom lex [] = lex := rfl

@[simp] theorem lexFrom_cons (lex : Lex) (c : UInt8) (rest : List UInt8) :
    lexFrom lex (c :: rest) = lexFrom (lex.next c) rest := rfl

theorem lexFrom_append (lex : Lex) (x y : List UInt8) :
    lexFrom lex (x ++ y) = lexFrom (lexFrom lex x) y := List.foldl_append

/-! ### White space -/

def isSpace (c : UInt8) : Bool := c = 0x20 || c = 0x09 || c = 0x0D || c = 0x0A

/-- A byte that compaction drops. -/
def Lex.skips (lex : Lex) (c : UInt8) : Bool := lex = .outside && isSpace c

def compactFrom : Lex → List UInt8 → List UInt8
  | _, [] => []
  | lex, c :: rest =>
      if lex.skips c then compactFrom lex rest else c :: compactFrom (lex.next c) rest

/-- The text without the white space between its tokens. -/
def compact (text : List UInt8) : List UInt8 := compactFrom .outside text

/-- There is no white space between the tokens. -/
def TightFrom : Lex → List UInt8 → Prop
  | _, [] => True
  | lex, c :: rest => lex.skips c = false ∧ TightFrom (lex.next c) rest

def Tight (text : List UInt8) : Prop := TightFrom .outside text

theorem skips_outside {c : UInt8} : Lex.outside.skips c = true ↔ isSpace c = true := by
  simp [Lex.skips]

theorem compactFrom_of_skips {lex : Lex} {c : UInt8} (h : lex.skips c = true)
    (rest : List UInt8) : compactFrom lex (c :: rest) = compactFrom lex rest := if_pos h

theorem compactFrom_of_not_skips {lex : Lex} {c : UInt8} (h : lex.skips c = false)
    (rest : List UInt8) :
    compactFrom lex (c :: rest) = c :: compactFrom (lex.next c) rest := by
  rw [compactFrom, h]
  rfl

theorem next_of_skips {lex : Lex} {c : UInt8} (h : lex.skips c = true) : lex.next c = lex := by
  have houtside : lex = .outside := by
    unfold Lex.skips at h
    simpa using (Bool.and_eq_true_iff.mp h).1
  subst houtside
  have hquote : c ≠ quote := by
    rintro rfl
    exact absurd h (by decide)
  exact if_neg hquote

theorem tightFrom_append {lex : Lex} {x y : List UInt8} :
    TightFrom lex (x ++ y) ↔ TightFrom lex x ∧ TightFrom (lexFrom lex x) y := by
  induction x generalizing lex with
  | nil => simp [TightFrom]
  | cons c rest ih =>
      simp only [List.cons_append, TightFrom, ih, lexFrom_cons]
      exact and_assoc.symm

theorem compactFrom_of_tightFrom {lex : Lex} {text : List UInt8} (h : TightFrom lex text) :
    compactFrom lex text = text := by
  induction text generalizing lex with
  | nil => rfl
  | cons c rest ih =>
      obtain ⟨hc, hrest⟩ := h
      rw [compactFrom_of_not_skips hc, ih hrest]

theorem tightFrom_compactFrom (lex : Lex) (text : List UInt8) :
    TightFrom lex (compactFrom lex text) := by
  induction text generalizing lex with
  | nil => trivial
  | cons c rest ih =>
      rw [compactFrom]
      split
      · exact ih lex
      · rename_i hskips
        exact ⟨by simpa using hskips, ih (lex.next c)⟩

theorem compactFrom_eq_iff {lex : Lex} {text : List UInt8} :
    compactFrom lex text = text ↔ TightFrom lex text := by
  refine ⟨fun h => ?_, compactFrom_of_tightFrom⟩
  rw [← h]
  exact tightFrom_compactFrom lex text

instance (lex : Lex) (text : List UInt8) : Decidable (TightFrom lex text) :=
  decidable_of_iff _ compactFrom_eq_iff

instance (text : List UInt8) : Decidable (Tight text) := inferInstanceAs (Decidable (TightFrom _ _))

/-- Compaction leaves every string closed that was. -/
theorem lexFrom_compactFrom (lex : Lex) (text : List UInt8) :
    lexFrom lex (compactFrom lex text) = lexFrom lex text := by
  induction text generalizing lex with
  | nil => rfl
  | cons c rest ih =>
      rw [compactFrom, lexFrom_cons]
      split
      · rename_i hskips
        rw [ih, next_of_skips hskips]
      · rw [lexFrom_cons, ih]

theorem compactFrom_spaces {spaces : List UInt8} (h : ∀ c ∈ spaces, isSpace c = true)
    (text : List UInt8) : compactFrom .outside (spaces ++ text) = compactFrom .outside text := by
  induction spaces with
  | nil => rfl
  | cons c rest ih =>
      obtain ⟨hc, hrest⟩ := List.forall_mem_cons.mp h
      rw [List.cons_append, compactFrom_of_skips (skips_outside.mpr hc)]
      exact ih hrest

/-! ### Escapes -/

/-- `\u003c`, `\u003e` and `\u0026` for `<`, `>` and `&`. -/
def escapeByte (c : UInt8) : List UInt8 :=
  if c = 0x3C then [0x5C, 0x75, 0x30, 0x30, 0x33, 0x63]
  else if c = 0x3E then [0x5C, 0x75, 0x30, 0x30, 0x33, 0x65]
  else if c = 0x26 then [0x5C, 0x75, 0x30, 0x30, 0x32, 0x36]
  else [c]

/-- `json.HTMLEscape`.  The sequences of three bytes are the separators U+2028 and
    U+2029. -/
def htmlEscape : List UInt8 → List UInt8
  | 0xE2 :: 0x80 :: 0xA8 :: rest => [0x5C, 0x75, 0x32, 0x30, 0x32, 0x38] ++ htmlEscape rest
  | 0xE2 :: 0x80 :: 0xA9 :: rest => [0x5C, 0x75, 0x32, 0x30, 0x32, 0x39] ++ htmlEscape rest
  | c :: rest => escapeByte c ++ htmlEscape rest
  | [] => []

/-- A byte that stands for itself. -/
def Unmarked (c : UInt8) : Prop := c ≠ 0x3C ∧ c ≠ 0x3E ∧ c ≠ 0x26

instance (c : UInt8) : Decidable (Unmarked c) := inferInstanceAs (Decidable (_ ∧ _))

/-- A byte that stands for itself and is in no separator. -/
def isInert (c : UInt8) : Bool := Unmarked c && c ≠ 0xE2

/-- There is nothing to escape. -/
def Plain : List UInt8 → Prop
  | 0xE2 :: 0x80 :: 0xA8 :: _ => False
  | 0xE2 :: 0x80 :: 0xA9 :: _ => False
  | c :: rest => Unmarked c ∧ Plain rest
  | [] => True

theorem htmlEscape_A8 (rest : List UInt8) :
    htmlEscape (0xE2 :: 0x80 :: 0xA8 :: rest) =
      [0x5C, 0x75, 0x32, 0x30, 0x32, 0x38] ++ htmlEscape rest := rfl

theorem htmlEscape_A9 (rest : List UInt8) :
    htmlEscape (0xE2 :: 0x80 :: 0xA9 :: rest) =
      [0x5C, 0x75, 0x32, 0x30, 0x32, 0x39] ++ htmlEscape rest := rfl

/-- No separator begins with the byte. -/
def NoSeparator (c : UInt8) (rest : List UInt8) : Prop :=
  (∀ tail, c = 0xE2 → rest = 0x80 :: 0xA8 :: tail → False) ∧
    ∀ tail, c = 0xE2 → rest = 0x80 :: 0xA9 :: tail → False

/-- **Induction over a text**, separator by separator and byte by byte. -/
theorem separators_induction {P : List UInt8 → Prop} (nil : P [])
    (separatorA8 : ∀ rest, P rest → P (0xE2 :: 0x80 :: 0xA8 :: rest))
    (separatorA9 : ∀ rest, P rest → P (0xE2 :: 0x80 :: 0xA9 :: rest))
    (cons : ∀ c rest, NoSeparator c rest → P rest → P (c :: rest)) (text : List UInt8) :
    P text := by
  induction text using htmlEscape.induct with
  | case1 rest ih => exact separatorA8 rest ih
  | case2 rest ih => exact separatorA9 rest ih
  | case3 c rest hA8 hA9 ih => exact cons c rest ⟨hA8, hA9⟩ ih
  | case4 => exact nil

theorem htmlEscape_cons {c : UInt8} {rest : List UInt8} (h : NoSeparator c rest) :
    htmlEscape (c :: rest) = escapeByte c ++ htmlEscape rest :=
  htmlEscape.eq_3 c rest h.1 h.2

theorem plain_cons {c : UInt8} {rest : List UInt8} (h : NoSeparator c rest) :
    Plain (c :: rest) ↔ Unmarked c ∧ Plain rest := by
  rw [Plain.eq_3 c rest h.1 h.2]

theorem escapeByte_of_unmarked {c : UInt8} (h : Unmarked c) : escapeByte c = [c] := by
  obtain ⟨hlt, hgt, hamp⟩ := h
  unfold escapeByte
  rw [if_neg hlt, if_neg hgt, if_neg hamp]

/-- What is written for a marked byte begins with a backslash. -/
theorem escapeByte_of_marked {c : UInt8} (h : ¬ Unmarked c) :
    c ≠ backslash ∧ ∃ rest, escapeByte c = backslash :: rest ∧
      (backslash :: rest).all isInert = true := by
  have hmarked : c = 0x3C ∨ c = 0x3E ∨ c = 0x26 := by
    unfold Unmarked at h
    tauto
  rcases hmarked with rfl | rfl | rfl
  · exact ⟨by decide, _, rfl, by decide⟩
  · exact ⟨by decide, _, rfl, by decide⟩
  · exact ⟨by decide, _, rfl, by decide⟩

theorem htmlEscape_eq_iff {text : List UInt8} : htmlEscape text = text ↔ Plain text := by
  induction text using separators_induction with
  | nil => exact iff_of_true rfl trivial
  | separatorA8 rest _ => exact iff_of_false (by simp [htmlEscape_A8]) id
  | separatorA9 rest _ => exact iff_of_false (by simp [htmlEscape_A9]) id
  | cons c rest hnone ih =>
      rw [htmlEscape_cons hnone, plain_cons hnone]
      by_cases hc : Unmarked c
      · simp [escapeByte_of_unmarked hc, hc, ih]
      · obtain ⟨hne, tail, htail, -⟩ := escapeByte_of_marked hc
        simp [htail, hc, hne.symm]

instance (text : List UInt8) : Decidable (Plain text) := decidable_of_iff _ htmlEscape_eq_iff

theorem plain_append_of_inert {x y : List UInt8} (hx : x.all isInert = true) :
    Plain (x ++ y) ↔ Plain y := by
  induction x with
  | nil => rfl
  | cons c rest ih =>
      rw [List.all_cons, Bool.and_eq_true] at hx
      obtain ⟨hinert, hrest⟩ := hx
      obtain ⟨hc, hne⟩ : Unmarked c ∧ c ≠ 0xE2 := by simpa [isInert] using hinert
      have hnone : NoSeparator c (rest ++ y) :=
        ⟨fun _ heq => absurd heq hne, fun _ heq => absurd heq hne⟩
      rw [List.cons_append, plain_cons hnone, ih hrest]
      exact and_iff_right hc

theorem append_eq_cons_cons {x y rest : List UInt8} {a b : UInt8}
    (h : x ++ y = a :: b :: rest) (hhead : ∀ c ∈ y.head?, c < 0x80) (ha : 0x80 ≤ a)
    (hb : 0x80 ≤ b) : ∃ tail, x = a :: b :: tail := by
  match x with
  | [] =>
      subst h
      exact absurd (hhead a rfl) (UInt8.not_lt.mpr ha)
  | [c] =>
      obtain ⟨-, rfl⟩ := List.cons.inj h
      exact absurd (hhead b rfl) (UInt8.not_lt.mpr hb)
  | c :: d :: tail =>
      simp only [List.cons_append, List.cons.injEq] at h
      obtain ⟨rfl, rfl, -⟩ := h
      exact ⟨tail, rfl⟩

/-- A separator does not end in a text that begins with an ASCII character. -/
theorem Plain.append {x y : List UInt8} (hx : Plain x) (hy : Plain y)
    (hhead : ∀ c ∈ y.head?, c < 0x80) : Plain (x ++ y) := by
  induction x using separators_induction with
  | nil => exact hy
  | separatorA8 rest _ => exact hx.elim
  | separatorA9 rest _ => exact hx.elim
  | cons c rest hsep ih =>
      rw [plain_cons hsep] at hx
      have hnone : NoSeparator c (rest ++ y) := by
        constructor
        · intro tail hc heq
          obtain ⟨tail, htail⟩ := append_eq_cons_cons heq hhead (by decide) (by decide)
          exact hsep.1 tail hc htail
        · intro tail hc heq
          obtain ⟨tail, htail⟩ := append_eq_cons_cons heq hhead (by decide) (by decide)
          exact hsep.2 tail hc htail
      rw [List.cons_append, plain_cons hnone]
      exact ⟨hx.1, ih hx.2⟩

/-- A byte other than a backslash was not written by an escape. -/
theorem htmlEscape_eq_cons {text rest : List UInt8} {b : UInt8} (hb : b ≠ backslash)
    (h : htmlEscape text = b :: rest) : ∃ tail, text = b :: tail ∧ htmlEscape tail = rest := by
  cases text using separators_induction with
  | nil => cases h
  | separatorA8 tail _ =>
      rw [htmlEscape_A8] at h
      exact absurd (List.cons.inj h).1.symm hb
  | separatorA9 tail _ =>
      rw [htmlEscape_A9] at h
      exact absurd (List.cons.inj h).1.symm hb
  | cons c tail hnone _ =>
      rw [htmlEscape_cons hnone] at h
      by_cases hc : Unmarked c
      · rw [escapeByte_of_unmarked hc] at h
        obtain ⟨rfl, rfl⟩ := List.cons.inj h
        exact ⟨tail, rfl, rfl⟩
      · obtain ⟨-, escaped, hescaped, -⟩ := escapeByte_of_marked hc
        rw [hescaped] at h
        exact absurd (List.cons.inj h).1.symm hb

theorem plain_htmlEscape (text : List UInt8) : Plain (htmlEscape text) := by
  induction text using separators_induction with
  | nil => trivial
  | separatorA8 rest ih =>
      rw [htmlEscape_A8]
      exact (plain_append_of_inert (by decide)).mpr ih
  | separatorA9 rest ih =>
      rw [htmlEscape_A9]
      exact (plain_append_of_inert (by decide)).mpr ih
  | cons c rest hsep ih =>
      rw [htmlEscape_cons hsep]
      by_cases hc : Unmarked c
      · have hnone : NoSeparator c (htmlEscape rest) := by
          constructor
          · intro tail hE2 heq
            obtain ⟨x, rfl, hx⟩ := htmlEscape_eq_cons (by decide) heq
            obtain ⟨y, rfl, -⟩ := htmlEscape_eq_cons (by decide) hx
            exact hsep.1 y hE2 rfl
          · intro tail hE2 heq
            obtain ⟨x, rfl, hx⟩ := htmlEscape_eq_cons (by decide) heq
            obtain ⟨y, rfl, -⟩ := htmlEscape_eq_cons (by decide) hx
            exact hsep.2 y hE2 rfl
        rw [escapeByte_of_unmarked hc, List.singleton_append, plain_cons hnone]
        exact ⟨hc, ih⟩
      · obtain ⟨-, escaped, hescaped, hinert⟩ := escapeByte_of_marked hc
        rw [hescaped]
        exact (plain_append_of_inert hinert).mpr ih

theorem lexFrom_escapeByte (lex : Lex) (c : UInt8) : lexFrom lex (escapeByte c) = lex.next c := by
  unfold escapeByte
  split_ifs with hlt hgt hamp
  · subst hlt
    cases lex <;> decide
  · subst hgt
    cases lex <;> decide
  · subst hamp
    cases lex <;> decide
  · rfl

/-- Escapes leave every string closed that was. -/
theorem lexFrom_htmlEscape (lex : Lex) (text : List UInt8) :
    lexFrom lex (htmlEscape text) = lexFrom lex text := by
  induction text using separators_induction generalizing lex with
  | nil => rfl
  | separatorA8 rest ih =>
      rw [htmlEscape_A8, lexFrom_append, ih]
      cases lex <;> rfl
  | separatorA9 rest ih =>
      rw [htmlEscape_A9, lexFrom_append, ih]
      cases lex <;> rfl
  | cons c rest hnone ih =>
      rw [htmlEscape_cons hnone, lexFrom_append, ih, lexFrom_escapeByte, lexFrom_cons]

theorem tightFrom_escapeByte {lex : Lex} {c : UInt8} (h : lex.skips c = false) :
    TightFrom lex (escapeByte c) := by
  unfold escapeByte
  split_ifs
  · cases lex <;> decide
  · cases lex <;> decide
  · cases lex <;> decide
  · exact ⟨h, trivial⟩

theorem tightFrom_htmlEscape {lex : Lex} {text : List UInt8} (h : TightFrom lex text) :
    TightFrom lex (htmlEscape text) := by
  induction text using separators_induction generalizing lex with
  | nil => trivial
  | separatorA8 rest ih =>
      obtain ⟨-, -, -, hrest⟩ := h
      rw [htmlEscape_A8, tightFrom_append]
      refine ⟨by cases lex <;> decide, ih ?_⟩
      cases lex <;> exact hrest
  | separatorA9 rest ih =>
      obtain ⟨-, -, -, hrest⟩ := h
      rw [htmlEscape_A9, tightFrom_append]
      refine ⟨by cases lex <;> decide, ih ?_⟩
      cases lex <;> exact hrest
  | cons c rest hnone ih =>
      rw [htmlEscape_cons hnone, tightFrom_append, lexFrom_escapeByte]
      exact ⟨tightFrom_escapeByte h.1, ih h.2⟩

/-! ### Raw messages -/

/-- What `json.Marshal` writes for a `json.RawMessage`. -/
def marshalRaw (text : List UInt8) : List UInt8 := htmlEscape (compact text)

/-- A text that is written as it is. -/
structure Clean (text : List UInt8) : Prop where
  tight : Tight text
  plain : Plain text

instance (text : List UInt8) : Decidable (Clean text) :=
  decidable_of_iff (Tight text ∧ Plain text) ⟨fun h => ⟨h.1, h.2⟩, fun h => ⟨h.1, h.2⟩⟩

theorem clean_marshalRaw (text : List UInt8) : Clean (marshalRaw text) :=
  ⟨tightFrom_htmlEscape (tightFrom_compactFrom .outside text), plain_htmlEscape _⟩

theorem Clean.marshalRaw {text : List UInt8} (h : Clean text) : marshalRaw text = text := by
  have hcompact : compact text = text := compactFrom_of_tightFrom h.tight
  rw [JsonText.marshalRaw, hcompact]
  exact htmlEscape_eq_iff.mpr h.plain

/-- What is written as it is has no white space between its tokens and nothing to
    escape. -/
theorem marshalRaw_eq_iff {text : List UInt8} : marshalRaw text = text ↔ Clean text := by
  refine ⟨fun h => ?_, Clean.marshalRaw⟩
  rw [← h]
  exact clean_marshalRaw text

theorem closed_marshalRaw {text : List UInt8} : Closed (marshalRaw text) ↔ Closed text := by
  unfold Closed marshalRaw compact
  rw [lexFrom_htmlEscape, lexFrom_compactFrom]

/-! ### Indentation -/

def openBrace : UInt8 := 0x7B
def closeBrace : UInt8 := 0x7D
def openBracket : UInt8 := 0x5B
def closeBracket : UInt8 := 0x5D
def comma : UInt8 := 0x2C
def colon : UInt8 := 0x3A

/-- A line break and two spaces for each level of nesting. -/
def newline (depth : Nat) : List UInt8 := 0x0A :: List.replicate (2 * depth) 0x20

/-- The depth of the text, and whether the last token opened an object or an array that
    nothing was written of yet. -/
structure Layout where
  depth : Nat
  needIndent : Bool := false

/-- The line break before the first item of an object or array, and the depth there. -/
def Layout.enter (layout : Layout) : List UInt8 × Nat :=
  if layout.needIndent then (newline (layout.depth + 1), layout.depth + 1)
  else ([], layout.depth)

/-- The line break before the end of an object or array: an empty one stays on its line. -/
def Layout.leave (layout : Layout) : List UInt8 × Nat :=
  if layout.needIndent then ([], layout.depth)
  else (newline (layout.depth - 1), layout.depth - 1)

/-- What `json.Indent` writes before and after a byte outside strings, and the layout of
    what comes next. -/
def Layout.write (layout : Layout) (c : UInt8) : List UInt8 × List UInt8 × Layout :=
  if c = closeBrace ∨ c = closeBracket then (layout.leave.1, [], ⟨layout.leave.2, false⟩)
  else if c = openBrace ∨ c = openBracket then (layout.enter.1, [], ⟨layout.enter.2, true⟩)
  else if c = comma then (layout.enter.1, newline layout.enter.2, ⟨layout.enter.2, false⟩)
  else if c = colon then (layout.enter.1, [0x20], ⟨layout.enter.2, false⟩)
  else (layout.enter.1, [], ⟨layout.enter.2, false⟩)

def indentFrom : Lex → Layout → List UInt8 → List UInt8
  | _, _, [] => []
  | .outside, layout, c :: rest =>
      if isSpace c then indentFrom .outside layout rest
      else
        let (before, after, layout) := layout.write c
        before ++ c :: after ++ indentFrom (Lex.next .outside c) layout rest
  | lex, layout, c :: rest => c :: indentFrom (lex.next c) layout rest

/-- What `json.MarshalIndent` makes of the value of a field, `depth` levels down. -/
def indent (depth : Nat) (text : List UInt8) : List UInt8 := indentFrom .outside ⟨depth, false⟩ text

theorem isSpace_newline (depth : Nat) : ∀ c ∈ newline depth, isSpace c = true := by
  intro c hc
  rcases List.mem_cons.mp hc with rfl | hc
  · rfl
  · rw [(List.mem_replicate.mp hc).2]
    rfl

theorem isSpace_enter (layout : Layout) : ∀ c ∈ layout.enter.1, isSpace c = true := by
  unfold Layout.enter
  split
  · exact isSpace_newline _
  · simp

theorem isSpace_leave (layout : Layout) : ∀ c ∈ layout.leave.1, isSpace c = true := by
  unfold Layout.leave
  split
  · simp
  · exact isSpace_newline _

/-- Only white space is written around a byte, and none after a quote. -/
theorem Layout.write_spaces (layout : Layout) (c : UInt8) :
    (∀ d ∈ (layout.write c).1, isSpace d = true) ∧
      (∀ d ∈ (layout.write c).2.1, isSpace d = true) ∧
      ((layout.write c).2.1 ≠ [] → c ≠ quote) := by
  unfold Layout.write
  split_ifs with hclose hopen hcomma hcolon
  · exact ⟨isSpace_leave layout, by simp, by simp⟩
  · exact ⟨isSpace_enter layout, by simp, by simp⟩
  · refine ⟨isSpace_enter layout, isSpace_newline _, fun _ => ?_⟩
    rw [hcomma]
    decide
  · refine ⟨isSpace_enter layout, by simp [isSpace], fun _ => ?_⟩
    rw [hcolon]
    decide
  · exact ⟨isSpace_enter layout, by simp, by simp⟩

theorem indentFrom_of_ne {lex : Lex} (h : lex ≠ .outside) (layout : Layout) (c : UInt8)
    (rest : List UInt8) :
    indentFrom lex layout (c :: rest) = c :: indentFrom (lex.next c) layout rest := by
  cases lex with
  | outside => exact absurd rfl h
  | inside => rfl
  | escaped => rfl

theorem compactFrom_indentFrom (lex : Lex) (layout : Layout) (text : List UInt8) :
    compactFrom lex (indentFrom lex layout text) = compactFrom lex text := by
  induction text generalizing lex layout with
  | nil => cases lex <;> rfl
  | cons c rest ih =>
      by_cases houtside : lex = .outside
      · subst houtside
        by_cases hspace : isSpace c = true
        · rw [indentFrom, if_pos hspace, ih, compactFrom_of_skips (skips_outside.mpr hspace)]
        · have hskips : Lex.outside.skips c = false := by simpa [Lex.skips] using hspace
          obtain ⟨hbefore, hafter, hquote⟩ := layout.write_spaces c
          rw [indentFrom, if_neg hspace]
          dsimp only
          rw [List.append_assoc, compactFrom_spaces hbefore, List.cons_append,
            compactFrom_of_not_skips hskips, compactFrom_of_not_skips hskips]
          -- what is written after the byte is dropped again, as the byte opens no string
          by_cases hnil : (layout.write c).2.1 = []
          · rw [hnil, List.nil_append, ih]
          · have hnext : Lex.outside.next c = .outside := if_neg (hquote hnil)
            rw [hnext, compactFrom_spaces hafter, ih]
      · have hskips : lex.skips c = false := by simp [Lex.skips, houtside]
        rw [indentFrom_of_ne houtside, compactFrom_of_not_skips hskips,
          compactFrom_of_not_skips hskips, ih]

theorem compact_indent (depth : Nat) (text : List UInt8) :
    compact (indent depth text) = compact text :=
  compactFrom_indentFrom .outside ⟨depth, false⟩ text

end JsonText
