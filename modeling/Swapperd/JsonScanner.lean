/-
  Swapperd/JsonScanner.lean
  =========================
  **The scanner of Go's `encoding/json`**: which byte texts are JSON.

  The scanner reads a text byte by byte.  It keeps the rule for the next byte and, for each
  object and array that is open, what it has to end with.  `Valid` texts are those that it
  accepts.

  `valid_iff` — a text is valid when a value is over where it ends and nothing is open.
  `readValue_of_valid` — the first value of such a text is all of it but white space.
  `next_nest`, `next_unnest` — a value is read in an object or array as it is on its own.
-/
import Swapperd.JsonText
import Mathlib.Data.Option.Basic

namespace JsonText

/-! ### The scanner -/

/-- What an open object or array is to end with: after a key, after the value of a key, or
    after an element. -/
inductive ParseState where
  | objectKey
  | objectValue
  | arrayValue
deriving DecidableEq

/-- What was read of `true`, `false` or `null`. -/
inductive Literal where
  | t
  | tr
  | tru
  | f
  | fa
  | fal
  | fals
  | n
  | nu
  | nul
deriving DecidableEq

/-- The letter that comes next, and what was read then, if that is not all. -/
def Literal.expects : Literal → UInt8 × Option Literal
  | .t => (0x72, some .tr)
  | .tr => (0x75, some .tru)
  | .tru => (0x65, none)
  | .f => (0x61, some .fa)
  | .fa => (0x6C, some .fal)
  | .fal => (0x73, some .fals)
  | .fals => (0x65, none)
  | .n => (0x75, some .nu)
  | .nu => (0x6C, some .nul)
  | .nul => (0x6C, none)

/-- The rule for the next byte. `inStringEscU` has the number of hexadecimal digits that
    follow it. -/
inductive Rule where
  | beginValueOrEmpty
  | beginValue
  | beginStringOrEmpty
  | beginString
  | endValue
  | endTop
  | inString
  | inStringEsc
  | inStringEscU (left : Nat)
  | neg
  | one
  | zero
  | dot
  | dot0
  | exp
  | expSign
  | exp0
  | literal (l : Literal)
deriving DecidableEq

structure Scanner where
  rule : Rule
  parseState : List ParseState
deriving DecidableEq

def Scanner.start : Scanner := ⟨.beginValue, []⟩

def isDigit (c : UInt8) : Bool := 0x30 ≤ c && c ≤ 0x39

def isHex (c : UInt8) : Bool :=
  isDigit c || (0x61 ≤ c && c ≤ 0x66) || (0x41 ≤ c && c ≤ 0x46)

/-- The bytes that may follow a backslash, but for `u`. -/
def isEscape (c : UInt8) : Bool :=
  c = 0x62 || c = 0x66 || c = 0x6E || c = 0x72 || c = 0x74 || c = backslash || c = 0x2F ||
    c = quote

namespace Scanner

/-- An object or array is closed. -/
def popParseState (rest : List ParseState) : Scanner :=
  ⟨if rest = [] then .endTop else .endValue, rest⟩

/-- What may come after a value in an object or array, white space apart. -/
def afterValue (top : ParseState) (rest : List ParseState) (c : UInt8) : Option Scanner :=
  match top with
  | .objectKey => if c = colon then some ⟨.beginValue, .objectValue :: rest⟩ else none
  | .objectValue =>
      if c = comma then some ⟨.beginString, .objectKey :: rest⟩
      else if c = closeBrace then some (popParseState rest)
      else none
  | .arrayValue =>
      if c = comma then some ⟨.beginValue, .arrayValue :: rest⟩
      else if c = closeBracket then some (popParseState rest)
      else none

def stateEndValue (stack : List ParseState) (c : UInt8) : Option Scanner :=
  match stack with
  | [] => if isSpace c then some ⟨.endTop, []⟩ else none
  | top :: rest =>
      if isSpace c then some ⟨.endValue, top :: rest⟩ else afterValue top rest c

/-- The rule after the first byte of a value, and what is open then. -/
def firstByte (c : UInt8) : Option (Rule × List ParseState) :=
  if c = openBrace then some (.beginStringOrEmpty, [.objectKey])
  else if c = openBracket then some (.beginValueOrEmpty, [.arrayValue])
  else if c = quote then some (.inString, [])
  else if c = 0x2D then some (.neg, [])
  else if c = 0x30 then some (.zero, [])
  else if c = 0x74 then some (.literal .t, [])
  else if c = 0x66 then some (.literal .f, [])
  else if c = 0x6E then some (.literal .n, [])
  else if isDigit c then some (.one, [])
  else none

def stateBeginValue (stack : List ParseState) (c : UInt8) : Option Scanner :=
  if isSpace c then some ⟨.beginValue, stack⟩
  else (firstByte c).map fun first => ⟨first.1, first.2 ++ stack⟩

def stateBeginString (stack : List ParseState) (c : UInt8) : Option Scanner :=
  if isSpace c then some ⟨.beginString, stack⟩
  else if c = quote then some ⟨.inString, stack⟩
  else none

/-- The end of an object without keys. -/
def closeEmpty (stack : List ParseState) (c : UInt8) : Option Scanner :=
  match stack with
  | [] => none
  | _ :: rest => stateEndValue (.objectValue :: rest) c

/-- After a leading zero, or the digits of an integer. -/
def state0 (stack : List ParseState) (c : UInt8) : Option Scanner :=
  if c = 0x2E then some ⟨.dot, stack⟩
  else if c = 0x65 ∨ c = 0x45 then some ⟨.exp, stack⟩
  else stateEndValue stack c

def stateESign (stack : List ParseState) (c : UInt8) : Option Scanner :=
  if isDigit c then some ⟨.exp0, stack⟩ else none

/-- The scanner after the next byte, if that may come next. -/
def next (sc : Scanner) (c : UInt8) : Option Scanner :=
  match sc.rule with
  | .beginValueOrEmpty =>
      if isSpace c then some sc
      else if c = closeBracket then stateEndValue sc.parseState c
      else stateBeginValue sc.parseState c
  | .beginValue => stateBeginValue sc.parseState c
  | .beginStringOrEmpty =>
      if isSpace c then some sc
      else if c = closeBrace then closeEmpty sc.parseState c
      else stateBeginString sc.parseState c
  | .beginString => stateBeginString sc.parseState c
  | .endValue => stateEndValue sc.parseState c
  | .endTop => if isSpace c then some sc else none
  | .inString =>
      if c = quote then some ⟨.endValue, sc.parseState⟩
      else if c = backslash then some ⟨.inStringEsc, sc.parseState⟩
      else if c < 0x20 then none
      else some sc
  | .inStringEsc =>
      if isEscape c then some ⟨.inString, sc.parseState⟩
      else if c = 0x75 then some ⟨.inStringEscU 3, sc.parseState⟩
      else none
  | .inStringEscU left =>
      if isHex c then
        some ⟨match left with | 0 => .inString | n + 1 => .inStringEscU n, sc.parseState⟩
      else none
  | .neg =>
      if c = 0x30 then some ⟨.zero, sc.parseState⟩
      else if isDigit c then some ⟨.one, sc.parseState⟩
      else none
  | .one => if isDigit c then some sc else state0 sc.parseState c
  | .zero => state0 sc.parseState c
  | .dot => if isDigit c then some ⟨.dot0, sc.parseState⟩ else none
  | .dot0 =>
      if isDigit c then some sc
      else if c = 0x65 ∨ c = 0x45 then some ⟨.exp, sc.parseState⟩
      else stateEndValue sc.parseState c
  | .exp =>
      if c = 0x2B ∨ c = 0x2D then some ⟨.expSign, sc.parseState⟩ else stateESign sc.parseState c
  | .expSign => stateESign sc.parseState c
  | .exp0 => if isDigit c then some sc else stateEndValue sc.parseState c
  | .literal l =>
      if c = l.expects.1 then some ⟨l.expects.2.elim .endValue .literal, sc.parseState⟩ else none

def run (sc : Scanner) (text : List UInt8) : Option Scanner := text.foldlM next sc

/-- The bytes that no value begins with. -/
theorem firstByte_eq_none {c : UInt8}
    (hopen : c ≠ openBrace ∧ c ≠ openBracket ∧ c ≠ quote ∧ c ≠ 0x2D)
    (hliteral : c ≠ 0x74 ∧ c ≠ 0x66 ∧ c ≠ 0x6E) (hdigit : isDigit c = false) :
    firstByte c = none := by
  have hzero : c ≠ 0x30 := by
    rintro rfl
    cases hdigit
  simp [firstByte, hopen, hliteral, hdigit, hzero]

theorem firstByte_digit {c : UInt8} (hdigit : isDigit c = true) (hzero : c ≠ 0x30) :
    firstByte c = some (.one, []) := by
  have hne : ∀ b : UInt8, isDigit b = false → c ≠ b := by
    rintro b hb rfl
    exact absurd hdigit (by simp [hb])
  simp [firstByte, hdigit, hzero, hne openBrace rfl, hne openBracket rfl, hne quote rfl,
    hne 0x2D rfl, hne 0x74 rfl, hne 0x66 rfl, hne 0x6E rfl]

/-- The text may end here: it would be complete with a space after it. -/
def eof (sc : Scanner) : Bool :=
  sc.rule = .endTop || (sc.next 0x20).any fun sc' => sc'.rule = .endTop

@[simp] theorem run_nil (sc : Scanner) : sc.run [] = some sc := rfl

@[simp] theorem run_cons (sc : Scanner) (c : UInt8) (text : List UInt8) :
    sc.run (c :: text) = (sc.next c).bind fun sc' => sc'.run text := rfl

theorem run_append (sc : Scanner) (x y : List UInt8) :
    sc.run (x ++ y) = (sc.run x).bind fun sc' => sc'.run y := List.foldlM_append

end Scanner

/-- `checkValid` -/
def checkValid (text : List UInt8) : Bool := (Scanner.start.run text).any Scanner.eof

/-- `Decoder.readValue`: the first value of a text.  A value is over before the first byte
    that it does not go on with, whatever follows. -/
def Scanner.readValue : Scanner → List UInt8 → Option (List UInt8)
  | sc, [] => if sc.eof then some [] else none
  | sc, c :: rest =>
      if sc.eof && (sc.next c).all fun sc' => sc'.rule = .endTop then some []
      else (sc.next c).bind fun sc' => (sc'.readValue rest).map (c :: ·)

/-- The text is JSON. -/
def Valid (text : List UInt8) : Prop := checkValid text = true

instance (text : List UInt8) : Decidable (Valid text) := inferInstanceAs (Decidable (_ = _))

/-! ### Strings in what is scanned -/

open Scanner

def Rule.lex : Rule → Lex
  | .inString | .inStringEscU _ => .inside
  | .inStringEsc => .escaped
  | _ => .outside

section Steps

variable {stack : List ParseState} {c : UInt8} {sc sc' : Scanner}

/-- What may come after a value. -/
inductive AfterValue : List ParseState → UInt8 → Scanner → Prop where
  | endTop {c : UInt8} (h : isSpace c = true) : AfterValue [] c ⟨.endTop, []⟩
  | space {c : UInt8} {stack : List ParseState} (h : isSpace c = true) (hstack : stack ≠ []) :
      AfterValue stack c ⟨.endValue, stack⟩
  | key {rest : List ParseState} :
      AfterValue (.objectKey :: rest) colon ⟨.beginValue, .objectValue :: rest⟩
  | value {rest : List ParseState} :
      AfterValue (.objectValue :: rest) comma ⟨.beginString, .objectKey :: rest⟩
  | object {rest : List ParseState} :
      AfterValue (.objectValue :: rest) closeBrace (popParseState rest)
  | element {rest : List ParseState} :
      AfterValue (.arrayValue :: rest) comma ⟨.beginValue, .arrayValue :: rest⟩
  | array {rest : List ParseState} :
      AfterValue (.arrayValue :: rest) closeBracket (popParseState rest)

theorem afterValue_of_endValue (h : stateEndValue stack c = some sc) : AfterValue stack c sc := by
  cases stack with
  | nil =>
      rw [stateEndValue] at h
      split_ifs at h with hspace
      cases h
      exact .endTop hspace
  | cons top rest =>
      rw [stateEndValue] at h
      split_ifs at h with hspace
      · cases h
        exact .space hspace (List.cons_ne_nil _ _)
      · cases top with
        | objectKey =>
            rw [afterValue] at h
            split_ifs at h with hcolon
            cases h
            exact hcolon ▸ .key
        | objectValue =>
            rw [afterValue] at h
            split_ifs at h with hcomma hclose
            · cases h
              exact hcomma ▸ .value
            · cases h
              exact hclose ▸ .object
        | arrayValue =>
            rw [afterValue] at h
            split_ifs at h with hcomma hclose
            · cases h
              exact hcomma ▸ .element
            · cases h
              exact hclose ▸ .array

theorem stateEndValue_eq_some_iff : stateEndValue stack c = some sc ↔ AfterValue stack c sc := by
  refine ⟨afterValue_of_endValue, fun h => ?_⟩
  cases h with
  | endTop h => exact if_pos h
  | space h hstack =>
      cases stack with
      | nil => exact absurd rfl hstack
      | cons top rest => exact if_pos h
  | _ => rfl

theorem ne_quote_of_isSpace (h : isSpace c = true) : c ≠ quote := by
  rintro rfl
  exact absurd h (by decide)

theorem popParseState_lex (rest : List ParseState) : (popParseState rest).rule.lex = .outside := by
  unfold popParseState
  split <;> rfl

theorem endValue_lex (h : stateEndValue stack c = some sc) :
    sc.rule.lex = Lex.outside.next c := by
  cases afterValue_of_endValue h with
  | endTop hspace => exact (if_neg (ne_quote_of_isSpace hspace)).symm
  | space hspace => exact (if_neg (ne_quote_of_isSpace hspace)).symm
  | object => exact popParseState_lex _
  | array => exact popParseState_lex _
  | _ => rfl

theorem isDigit_lex (h : isDigit c = true) : c ≠ quote ∧ isSpace c = false := by
  grind [isDigit, isSpace, quote]

theorem firstByte_lex {first : Rule × List ParseState} (h : firstByte c = some first) :
    first.1.lex = Lex.outside.next c ∧ first.1 ≠ .endTop ∧ isSpace c = false := by
  unfold firstByte at h
  split_ifs at h
  all_goals cases h
  all_goals first
    | subst c; decide
    | exact ⟨(if_neg (isDigit_lex ‹_›).1).symm, by decide, (isDigit_lex ‹_›).2⟩

theorem beginValue_lex (h : stateBeginValue stack c = some sc) :
    sc.rule.lex = Lex.outside.next c := by
  unfold stateBeginValue at h
  split_ifs at h with hspace
  · cases h
    exact (if_neg (ne_quote_of_isSpace hspace)).symm
  · obtain ⟨first, hfirst, rfl⟩ := Option.map_eq_some_iff.mp h
    exact (firstByte_lex hfirst).1

theorem beginString_lex (h : stateBeginString stack c = some sc) :
    sc.rule.lex = Lex.outside.next c := by
  unfold stateBeginString at h
  grind [Rule.lex, Lex.next, isSpace, quote]

theorem closeEmpty_lex (h : closeEmpty stack c = some sc) : sc.rule.lex = Lex.outside.next c := by
  cases stack with
  | nil => cases h
  | cons top rest =>
      have hend : stateEndValue (.objectValue :: rest) c = some sc := h
      exact endValue_lex hend

theorem state0_lex (h : state0 stack c = some sc) : sc.rule.lex = Lex.outside.next c := by
  unfold state0 at h
  grind [endValue_lex, Rule.lex, Lex.next, quote]

theorem stateESign_lex (h : stateESign stack c = some sc) : sc.rule.lex = Lex.outside.next c := by
  unfold stateESign at h
  grind [Rule.lex, Lex.next, quote, isDigit]

/-- The scanner knows which bytes stand in strings. -/
theorem next_lex (h : sc.next c = some sc') : sc'.rule.lex = sc.rule.lex.next c := by
  obtain ⟨rule, stack⟩ := sc
  cases rule with
  | literal l =>
      simp only [next] at h
      cases l <;> grind [Literal.expects, Rule.lex, Lex.next, quote]
  | inStringEscU left =>
      simp only [next] at h
      cases left <;> grind [Rule.lex, Lex.next, quote, isHex, isDigit, backslash]
  | _ =>
      simp only [next] at h
      grind [endValue_lex, beginValue_lex, beginString_lex, closeEmpty_lex, state0_lex,
        stateESign_lex, Rule.lex, Lex.next, isSpace, quote, backslash, isDigit, isEscape,
        closeBrace, closeBracket]

end Steps

theorem run_lex {sc sc' : Scanner} {text : List UInt8} (h : sc.run text = some sc') :
    sc'.rule.lex = lexFrom sc.rule.lex text := by
  induction text generalizing sc with
  | nil =>
      cases h
      rfl
  | cons c rest ih =>
      obtain ⟨sc₁, hnext, hrest⟩ := Option.bind_eq_some_iff.mp h
      rw [lexFrom_cons, ← next_lex hnext]
      exact ih hrest

/-! ### The end of a value -/

def Rule.nest : Rule → Rule
  | .endTop => .endValue
  | rule => rule

/-- A value may be over. -/
def Rule.ends : Rule → Bool
  | .endValue | .one | .zero | .dot0 | .exp0 => true
  | _ => false

/-- A byte that a number may go on with. -/
def isNumeric (c : UInt8) : Bool := isDigit c || c = 0x2E || c = 0x65 || c = 0x45

/-- A value is over, and nothing is open. -/
def Scanner.Over (sc : Scanner) : Prop := sc.parseState = [] ∧ sc.rule.nest.ends = true

/-- Nothing is open at the end of the text, and something is where it may turn out to be
    empty. -/
def Scanner.Sound (sc : Scanner) : Prop :=
  match sc.rule with
  | .endTop => sc.parseState = []
  | .beginValueOrEmpty | .beginStringOrEmpty => sc.parseState ≠ []
  | _ => True

section Ends

variable {stack : List ParseState} {c : UInt8} {sc sc' : Scanner}

theorem next_of_ends (h : sc.rule.ends = true) (hc : isNumeric c = false) :
    sc.next c = stateEndValue sc.parseState c := by
  obtain ⟨rule, stack⟩ := sc
  simp only [isNumeric, Bool.or_eq_false_iff, decide_eq_false_iff_not] at hc
  cases rule with
  | endValue => rfl
  | one => simp [next, state0, hc]
  | zero => simp [next, state0, hc]
  | dot0 => simp [next, hc]
  | exp0 => simp [next, hc]
  | _ => cases h

theorem popParseState_sound (rest : List ParseState) : (popParseState rest).Sound := by
  unfold popParseState
  split
  · rename_i hrest
    exact hrest
  · trivial

theorem endValue_sound (h : stateEndValue stack c = some sc) : sc.Sound := by
  cases afterValue_of_endValue h with
  | endTop => rfl
  | object => exact popParseState_sound _
  | array => exact popParseState_sound _
  | _ => trivial

theorem firstByte_sound {first : Rule × List ParseState} (h : firstByte c = some first) :
    (Scanner.mk first.1 (first.2 ++ stack)).Sound := by
  unfold firstByte at h
  split_ifs at h <;> cases h <;> simp [Scanner.Sound]

theorem beginValue_sound (h : stateBeginValue stack c = some sc) : sc.Sound := by
  unfold stateBeginValue at h
  split_ifs at h
  · cases h
    trivial
  · obtain ⟨first, hfirst, rfl⟩ := Option.map_eq_some_iff.mp h
    exact firstByte_sound hfirst

theorem beginString_sound (h : stateBeginString stack c = some sc) : sc.Sound := by
  unfold stateBeginString at h
  split_ifs at h <;> cases h <;> trivial

theorem closeEmpty_sound (h : closeEmpty stack c = some sc) : sc.Sound := by
  cases stack with
  | nil => cases h
  | cons top rest =>
      have hend : stateEndValue (.objectValue :: rest) c = some sc := h
      exact endValue_sound hend

theorem state0_sound (h : state0 stack c = some sc) : sc.Sound := by
  unfold state0 at h
  grind [endValue_sound, Scanner.Sound]

theorem stateESign_sound (h : stateESign stack c = some sc) : sc.Sound := by
  unfold stateESign at h
  grind [Scanner.Sound]

theorem next_sound (hsc : sc.Sound) (h : sc.next c = some sc') : sc'.Sound := by
  obtain ⟨rule, stack⟩ := sc
  cases rule with
  | literal l =>
      simp only [next] at h
      cases l <;> grind [Literal.expects, Scanner.Sound]
  | inStringEscU left =>
      simp only [next] at h
      cases left <;> grind [Scanner.Sound]
  | _ =>
      simp only [next] at h
      grind [endValue_sound, beginValue_sound, beginString_sound, closeEmpty_sound, state0_sound,
        stateESign_sound, Scanner.Sound]

theorem run_sound {text : List UInt8} (hsc : sc.Sound) (h : sc.run text = some sc') :
    sc'.Sound := by
  induction text generalizing sc with
  | nil => exact Option.some.inj h ▸ hsc
  | cons c rest ih =>
      obtain ⟨sc₁, hnext, hrest⟩ := Option.bind_eq_some_iff.mp h
      exact ih (next_sound hsc hnext) hrest

theorem start_sound : Scanner.start.Sound := trivial

theorem stateEndValue_space (hspace : isSpace c = true) :
    stateEndValue stack c = some ⟨if stack = [] then .endTop else .endValue, stack⟩ := by
  cases stack with
  | nil => exact if_pos hspace
  | cons top rest => exact if_pos hspace

theorem eof_iff (hsc : sc.Sound) : sc.eof = true ↔ sc.Over := by
  obtain ⟨rule, stack⟩ := sc
  by_cases hends : rule.ends = true
  · have hnext : (Scanner.mk rule stack).next 0x20 = stateEndValue stack 0x20 :=
      next_of_ends hends (by decide)
    have hnest : rule.nest.ends = true := by
      cases rule with
      | endTop => cases hends
      | _ => exact hends
    have htop : rule ≠ .endTop := by
      rintro rfl
      cases hends
    simp only [eof, hnext, stateEndValue_space (show isSpace 0x20 = true by decide), Over, hnest]
    cases stack <;> simp [htop]
  · cases rule with
    | endTop =>
        have hstack : stack = [] := hsc
        simp [eof, Over, Rule.nest, Rule.ends, hstack]
    | literal l => cases l <;> simp [eof, Over, Rule.nest, Rule.ends, next, Literal.expects]
    | endValue | one | zero | dot0 | exp0 => exact absurd rfl hends
    | _ =>
        simp [eof, Over, Rule.nest, Rule.ends, next, stateBeginValue, stateBeginString, stateESign,
          isSpace, isDigit, isHex, isEscape, quote, backslash]

end Ends

/-- A text is JSON when a value is over at its end, and nothing is open. -/
theorem valid_iff {text : List UInt8} :
    Valid text ↔ ∃ sc, Scanner.start.run text = some sc ∧ sc.Over := by
  unfold Valid checkValid
  rw [Option.any_eq_true_iff_get]
  constructor
  · rintro ⟨hsome, heof⟩
    have hrun := (Option.some_get hsome).symm
    exact ⟨_, hrun, (eof_iff (run_sound start_sound hrun)).mp heof⟩
  · rintro ⟨sc, hrun, hover⟩
    refine ⟨by rw [hrun]; rfl, ?_⟩
    simp only [hrun, Option.get_some]
    exact (eof_iff (run_sound start_sound hrun)).mpr hover

/-! ### The first value -/

section First

variable {c : UInt8} {sc sc' : Scanner} {text value : List UInt8}

theorem eof_of_readValue (h : sc.readValue text = some value) :
    (sc.run value).any Scanner.eof = true := by
  induction text generalizing sc value with
  | nil =>
      rw [readValue] at h
      split_ifs at h with heof
      cases h
      exact heof
  | cons c rest ih =>
      rw [readValue] at h
      split_ifs at h with hstop
      · cases h
        exact (Bool.and_eq_true_iff.mp hstop).1
      · obtain ⟨sc', hnext, hmap⟩ := Option.bind_eq_some_iff.mp h
        obtain ⟨value', hread, rfl⟩ := Option.map_eq_some_iff.mp hmap
        rw [run_cons, hnext]
        exact ih hread

/-- What is read as the first value is one. -/
theorem valid_of_readValue (h : Scanner.start.readValue text = some value) : Valid value :=
  eof_of_readValue h

/-- A value that is over is left for white space only. -/
theorem isSpace_of_endTop (hover : sc.Over) (h : sc.next c = some sc')
    (htop : sc'.rule = .endTop) : isSpace c = true ∧ sc' = ⟨.endTop, []⟩ := by
  obtain ⟨rule, stack⟩ := sc
  obtain ⟨rfl, hends⟩ := hover
  cases rule with
  | endTop | endValue | one | zero | dot0 | exp0 =>
      simp only [next, state0, stateEndValue] at h
      split_ifs at h <;> cases h <;> first | exact ⟨by assumption, rfl⟩ | cases htop
  | _ => cases hends

/-- Only white space is read at the end of a text. -/
theorem isSpace_of_run (h : (Scanner.mk .endTop []).run text = some sc) :
    ∀ c ∈ text, isSpace c = true := by
  induction text with
  | nil => simp
  | cons c rest ih =>
      obtain ⟨sc', hnext, hrest⟩ := Option.bind_eq_some_iff.mp h
      have hspace : isSpace c = true := by
        by_contra hspace
        cases (if_neg hspace).symm.trans hnext
      obtain rfl := Option.some.inj ((if_pos hspace).symm.trans hnext)
      simpa using ⟨hspace, ih hrest⟩

theorem readValue_of_run (hsound : sc.Sound) (h : sc.run text = some sc') (hover : sc'.Over) :
    ∃ value spaces, sc.readValue text = some value ∧ text = value ++ spaces ∧
      ∀ c ∈ spaces, isSpace c = true := by
  induction text generalizing sc with
  | nil =>
      cases h
      exact ⟨[], [], if_pos ((eof_iff hsound).mpr hover), rfl, by simp⟩
  | cons c rest ih =>
      obtain ⟨sc₁, hnext, hrest⟩ := Option.bind_eq_some_iff.mp h
      rw [readValue, hnext]
      split_ifs with hstop
      · obtain ⟨heof, htop⟩ : sc.eof = true ∧ sc₁.rule = .endTop := by simpa using hstop
        obtain ⟨hspace, rfl⟩ := isSpace_of_endTop ((eof_iff hsound).mp heof) hnext htop
        exact ⟨[], c :: rest, rfl, rfl, by simpa using ⟨hspace, isSpace_of_run hrest⟩⟩
      · obtain ⟨value, spaces, hread, rfl, hspaces⟩ := ih (next_sound hsound hnext) hrest
        refine ⟨c :: value, spaces, ?_, rfl, hspaces⟩
        rw [Option.bind_some, hread]
        rfl

/-- The first value of a text that is JSON is all of it but white space. -/
theorem readValue_of_valid (h : Valid text) :
    ∃ value spaces, Scanner.start.readValue text = some value ∧ text = value ++ spaces ∧
      ∀ c ∈ spaces, isSpace c = true := by
  obtain ⟨sc, hrun, hover⟩ := valid_iff.mp h
  exact readValue_of_run start_sound hrun hover

end First

/-! ### Values in objects and arrays -/

/-- The scanner in an object or array, `base` being what is open around it. -/
def Scanner.nest (base : List ParseState) (sc : Scanner) : Scanner :=
  ⟨sc.rule.nest, sc.parseState ++ base⟩

section Nest

variable {base stack : List ParseState} {c : UInt8} {sc sc' : Scanner}

theorem popParseState_nest (hbase : base ≠ []) (rest : List ParseState) :
    (popParseState rest).nest base = popParseState (rest ++ base) := by
  unfold popParseState Scanner.nest
  rw [if_neg (List.append_ne_nil_of_right_ne_nil rest hbase)]
  split <;> rfl

theorem endValue_nest (hbase : base ≠ []) (h : stateEndValue stack c = some sc) :
    stateEndValue (stack ++ base) c = some (sc.nest base) := by
  rw [stateEndValue_eq_some_iff]
  cases afterValue_of_endValue h with
  | endTop hspace => exact .space hspace hbase
  | space hspace => exact .space hspace (List.append_ne_nil_of_right_ne_nil _ hbase)
  | key => exact .key
  | value => exact .value
  | object => exact popParseState_nest hbase _ ▸ .object
  | element => exact .element
  | array => exact popParseState_nest hbase _ ▸ .array

theorem nest_of_ne {rule : Rule} (h : rule ≠ .endTop) : rule.nest = rule := by
  cases rule with
  | endTop => exact absurd rfl h
  | _ => rfl

theorem beginValue_nest (h : stateBeginValue stack c = some sc) :
    stateBeginValue (stack ++ base) c = some (sc.nest base) := by
  unfold stateBeginValue at h ⊢
  split_ifs at h ⊢
  · cases h
    rfl
  · obtain ⟨first, hfirst, rfl⟩ := Option.map_eq_some_iff.mp h
    rw [hfirst, Scanner.nest, nest_of_ne (firstByte_lex hfirst).2.1, List.append_assoc]
    rfl

theorem beginString_nest (h : stateBeginString stack c = some sc) :
    stateBeginString (stack ++ base) c = some (sc.nest base) := by
  unfold stateBeginString at h ⊢
  split_ifs at h ⊢ <;> cases h <;> rfl

theorem closeEmpty_nest (hbase : base ≠ []) (h : closeEmpty stack c = some sc) :
    closeEmpty (stack ++ base) c = some (sc.nest base) := by
  cases stack with
  | nil => cases h
  | cons top rest =>
      have hend : stateEndValue (.objectValue :: rest) c = some sc := h
      exact endValue_nest hbase hend

theorem state0_nest (hbase : base ≠ []) (h : state0 stack c = some sc) :
    state0 (stack ++ base) c = some (sc.nest base) := by
  unfold state0 at h ⊢
  split_ifs at h ⊢
  · cases h
    rfl
  · cases h
    rfl
  · exact endValue_nest hbase h

theorem stateESign_nest (h : stateESign stack c = some sc) :
    stateESign (stack ++ base) c = some (sc.nest base) := by
  unfold stateESign at h ⊢
  split_ifs at h ⊢
  cases h
  rfl

/-- What may come next may come next in an object or array. -/
theorem next_nest (hbase : base ≠ []) (h : sc.next c = some sc') :
    (sc.nest base).next c = some (sc'.nest base) := by
  obtain ⟨rule, stack⟩ := sc
  cases rule with
  | beginValue => exact beginValue_nest h
  | beginString => exact beginString_nest h
  | endValue => exact endValue_nest hbase h
  | zero => exact state0_nest hbase h
  | expSign => exact stateESign_nest h
  | beginValueOrEmpty =>
      simp only [next, Scanner.nest, Rule.nest] at h ⊢
      split_ifs at h ⊢
      · cases h
        rfl
      · exact endValue_nest hbase h
      · exact beginValue_nest h
  | beginStringOrEmpty =>
      simp only [next, Scanner.nest, Rule.nest] at h ⊢
      split_ifs at h ⊢
      · cases h
        rfl
      · exact closeEmpty_nest hbase h
      · exact beginString_nest h
  | endTop =>
      simp only [next, Scanner.nest, Rule.nest] at h ⊢
      split_ifs at h with hspace
      cases h
      exact stateEndValue_eq_some_iff.mpr
        (.space hspace (List.append_ne_nil_of_right_ne_nil _ hbase))
  | one =>
      simp only [next, Scanner.nest, Rule.nest] at h ⊢
      split_ifs at h ⊢
      · cases h
        rfl
      · exact state0_nest hbase h
  | dot0 =>
      simp only [next, Scanner.nest, Rule.nest] at h ⊢
      split_ifs at h ⊢
      · cases h
        rfl
      · cases h
        rfl
      · exact endValue_nest hbase h
  | exp0 =>
      simp only [next, Scanner.nest, Rule.nest] at h ⊢
      split_ifs at h ⊢
      · cases h
        rfl
      · exact endValue_nest hbase h
  | exp =>
      simp only [next, Scanner.nest, Rule.nest] at h ⊢
      split_ifs at h ⊢
      · cases h
        rfl
      · exact stateESign_nest h
  | inStringEscU left =>
      simp only [next, Scanner.nest, Rule.nest] at h ⊢
      split_ifs at h ⊢
      cases h
      cases left <;> rfl
  | literal l =>
      simp only [next, Scanner.nest, Rule.nest] at h ⊢
      split_ifs at h ⊢
      cases h
      cases l <;> rfl
  | _ =>
      simp only [next, Scanner.nest, Rule.nest] at h ⊢
      split_ifs at h ⊢ <;> cases h <;> rfl

/-- A byte that no value goes on with, once it may be over. -/
def isBreak (c : UInt8) : Bool :=
  isSpace c || c = colon || c = comma || c = closeBrace || c = closeBracket

theorem AfterValue.isBreak (h : AfterValue stack c sc) : isBreak c = true := by
  cases h with
  | endTop hspace => simp [JsonText.isBreak, hspace]
  | space hspace => simp [JsonText.isBreak, hspace]
  | _ => rfl

theorem isNumeric_of_isBreak (h : isBreak c = true) : isNumeric c = false := by
  grind [isBreak, isNumeric, isDigit, isSpace, colon, comma, closeBrace, closeBracket]

theorem endValue_unnest (hbase : base ≠ []) (hc : stack = [] → isBreak c = false)
    (h : stateEndValue (stack ++ base) c = some sc) :
    ∃ sc', stateEndValue stack c = some sc' ∧ sc = sc'.nest base := by
  cases stack with
  | nil => exact absurd (afterValue_of_endValue h).isBreak (by simp [hc rfl])
  | cons top rest =>
      simp only [stateEndValue_eq_some_iff]
      cases afterValue_of_endValue h with
      | space hspace => exact ⟨_, .space hspace (List.cons_ne_nil _ _), rfl⟩
      | key => exact ⟨_, .key, rfl⟩
      | value => exact ⟨_, .value, rfl⟩
      | object => exact ⟨_, .object, (popParseState_nest hbase rest).symm⟩
      | element => exact ⟨_, .element, rfl⟩
      | array => exact ⟨_, .array, (popParseState_nest hbase rest).symm⟩

theorem beginValue_unnest (h : stateBeginValue (stack ++ base) c = some sc) :
    ∃ sc', stateBeginValue stack c = some sc' ∧ sc = sc'.nest base := by
  unfold stateBeginValue at h ⊢
  split_ifs at h ⊢
  · cases h
    exact ⟨_, rfl, rfl⟩
  · obtain ⟨first, hfirst, rfl⟩ := Option.map_eq_some_iff.mp h
    refine ⟨⟨first.1, first.2 ++ stack⟩, by rw [hfirst]; rfl, ?_⟩
    rw [Scanner.nest, nest_of_ne (firstByte_lex hfirst).2.1, List.append_assoc]

theorem beginString_unnest (h : stateBeginString (stack ++ base) c = some sc) :
    ∃ sc', stateBeginString stack c = some sc' ∧ sc = sc'.nest base := by
  unfold stateBeginString at h ⊢
  split_ifs at h ⊢
  · cases h
    exact ⟨_, rfl, rfl⟩
  · cases h
    exact ⟨_, rfl, rfl⟩

theorem closeEmpty_unnest (hbase : base ≠ []) (hstack : stack ≠ [])
    (h : closeEmpty (stack ++ base) c = some sc) :
    ∃ sc', closeEmpty stack c = some sc' ∧ sc = sc'.nest base := by
  cases stack with
  | nil => exact absurd rfl hstack
  | cons top rest =>
      have hend : stateEndValue ((.objectValue :: rest) ++ base) c = some sc := h
      exact endValue_unnest hbase (fun hnil => by cases hnil) hend

theorem state0_unnest (hbase : base ≠ []) (hc : stack = [] → isBreak c = false)
    (h : state0 (stack ++ base) c = some sc) :
    ∃ sc', state0 stack c = some sc' ∧ sc = sc'.nest base := by
  unfold state0 at h ⊢
  split_ifs at h ⊢
  · cases h
    exact ⟨_, rfl, rfl⟩
  · cases h
    exact ⟨_, rfl, rfl⟩
  · exact endValue_unnest hbase hc h

theorem stateESign_unnest (h : stateESign (stack ++ base) c = some sc) :
    ∃ sc', stateESign stack c = some sc' ∧ sc = sc'.nest base := by
  unfold stateESign at h ⊢
  split_ifs at h ⊢
  cases h
  exact ⟨_, rfl, rfl⟩

/-- What may come next in a value in an object or array may come next on its own, unless it
    follows the value. -/
theorem next_unnest (hbase : base ≠ []) {sc₀ : Scanner} (hsound : sc₀.Sound)
    (hc : sc₀.parseState = [] → sc₀.rule.lex = .outside → isBreak c = false)
    (h : (sc₀.nest base).next c = some sc) :
    ∃ sc₀', sc₀.next c = some sc₀' ∧ sc = sc₀'.nest base := by
  obtain ⟨rule, stack⟩ := sc₀
  cases rule with
  | beginValue => exact beginValue_unnest h
  | beginString => exact beginString_unnest h
  | endValue => exact endValue_unnest hbase (fun hnil => hc hnil rfl) h
  | zero => exact state0_unnest hbase (fun hnil => hc hnil rfl) h
  | expSign => exact stateESign_unnest h
  | endTop =>
      have hnil : stack = [] := hsound
      have hend : stateEndValue (stack ++ base) c = some sc := h
      subst hnil
      exact absurd (afterValue_of_endValue hend).isBreak (by simp [hc rfl rfl])
  | beginValueOrEmpty =>
      simp only [next, Scanner.nest, Rule.nest] at h ⊢
      split_ifs at h ⊢
      · cases h
        exact ⟨_, rfl, rfl⟩
      · exact endValue_unnest hbase (fun hnil => hc hnil rfl) h
      · exact beginValue_unnest h
  | beginStringOrEmpty =>
      simp only [next, Scanner.nest, Rule.nest] at h ⊢
      split_ifs at h ⊢ with hspace hclose
      · cases h
        exact ⟨_, rfl, rfl⟩
      · refine closeEmpty_unnest hbase (fun hnil => ?_) h
        exact absurd (hc hnil rfl) (by simp [hclose, isBreak])
      · exact beginString_unnest h
  | one =>
      simp only [next, Scanner.nest, Rule.nest] at h ⊢
      split_ifs at h ⊢
      · cases h
        exact ⟨_, rfl, rfl⟩
      · exact state0_unnest hbase (fun hnil => hc hnil rfl) h
  | dot0 =>
      simp only [next, Scanner.nest, Rule.nest] at h ⊢
      split_ifs at h ⊢
      · cases h
        exact ⟨_, rfl, rfl⟩
      · cases h
        exact ⟨_, rfl, rfl⟩
      · exact endValue_unnest hbase (fun hnil => hc hnil rfl) h
  | exp0 =>
      simp only [next, Scanner.nest, Rule.nest] at h ⊢
      split_ifs at h ⊢
      · cases h
        exact ⟨_, rfl, rfl⟩
      · exact endValue_unnest hbase (fun hnil => hc hnil rfl) h
  | exp =>
      simp only [next, Scanner.nest, Rule.nest] at h ⊢
      split_ifs at h ⊢
      · cases h
        exact ⟨_, rfl, rfl⟩
      · exact stateESign_unnest h
  | inStringEscU left =>
      simp only [next, Scanner.nest, Rule.nest] at h ⊢
      split_ifs at h ⊢
      cases h
      cases left <;> exact ⟨_, rfl, rfl⟩
  | literal l =>
      simp only [next, Scanner.nest, Rule.nest] at h ⊢
      split_ifs at h ⊢
      cases h
      cases l <;> exact ⟨_, rfl, rfl⟩
  | _ =>
      simp only [next, Scanner.nest, Rule.nest] at h ⊢
      split_ifs at h ⊢ <;> cases h <;> exact ⟨_, rfl, rfl⟩

end Nest

end JsonText
