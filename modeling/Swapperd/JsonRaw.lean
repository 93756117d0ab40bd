/-
  Swapperd/JsonRaw.lean
  =====================
  **Raw messages that are JSON stay JSON.**

  White space is only read between the tokens of a text, and what HTML gives a meaning to
  only in its strings.  So the scanner accepts what is left when the one is dropped and the
  other is escaped.

  `valid_compact`, `valid_htmlEscape` — one for each.
  `valid_marshalRaw` — the text that `json.Marshal` writes for a valid raw message is valid.
-/
import Swapperd.JsonScanner

namespace JsonText

open Scanner

/-! ### White space -/

/-- The scanner after white space at the end of a value. -/
def Scanner.spaced (sc : Scanner) : Scanner :=
  ⟨if sc.parseState = [] then .endTop else .endValue, sc.parseState⟩

section Compact

variable {c : UInt8} {sc sc' sc₁ sc₁' : Scanner}

/-- White space between tokens changes nothing, but that a number is over after it. -/
theorem next_space (hlex : sc.rule.lex = .outside) (hspace : isSpace c = true)
    (h : sc.next c = some sc') : sc' = sc ∨ sc.rule.ends = true ∧ sc' = sc.spaced := by
  have hnumeric : isNumeric c = false :=
    isNumeric_of_isBreak (by simp [isBreak, hspace])
  by_cases hends : sc.rule.ends = true
  · rw [next_of_ends hends hnumeric, stateEndValue_space hspace] at h
    exact .inr ⟨hends, (Option.some.inj h).symm⟩
  · refine .inl ?_
    obtain ⟨rule, stack⟩ := sc
    cases rule with
    | endValue | one | zero | dot0 | exp0 => exact absurd rfl hends
    | inString | inStringEsc | inStringEscU => cases hlex
    | literal l => cases l <;> grind [next, Literal.expects, isSpace]
    | _ =>
        simp only [next, stateBeginValue, stateBeginString, stateESign, hspace] at h
        grind [isDigit, isSpace]

/-- `sc` has read what `sc₁` has, but for white space. -/
def Trails (sc sc₁ : Scanner) : Prop :=
  sc₁ = sc ∨ sc.rule.ends = true ∧ sc₁ = sc.spaced

theorem spaced_spaced (sc : Scanner) : sc.spaced.spaced = sc.spaced := rfl

theorem trails_lex (h : Trails sc sc₁) : sc₁.rule.lex = sc.rule.lex := by
  obtain ⟨rule, stack⟩ := sc
  rcases h with rfl | ⟨hends, rfl⟩
  · rfl
  · have hspaced : (Scanner.mk rule stack).spaced.rule.lex = .outside := by
      unfold Scanner.spaced
      split <;> rfl
    rw [hspaced]
    cases rule with
    | inString | inStringEsc | inStringEscU => cases hends
    | _ => rfl

theorem trails_space (htrails : Trails sc sc₁) (hlex : sc.rule.lex = .outside)
    (hspace : isSpace c = true) (h : sc₁.next c = some sc₁') : Trails sc sc₁' := by
  rcases next_space ((trails_lex htrails).trans hlex) hspace h with rfl | ⟨hends, rfl⟩
  · exact htrails
  · rcases htrails with rfl | ⟨hsc, rfl⟩
    · exact .inr ⟨hends, rfl⟩
    · exact .inr ⟨hsc, spaced_spaced sc⟩

theorem trails_next (htrails : Trails sc sc₁) (hskips : sc.rule.lex.skips c = false)
    (h : sc₁.next c = some sc₁') : sc.next c = some sc₁' := by
  rcases htrails with rfl | ⟨hends, rfl⟩
  · exact h
  · have hlex : sc.rule.lex = .outside := by
      obtain ⟨rule, stack⟩ := sc
      cases rule with
      | inString | inStringEsc | inStringEscU => cases hends
      | _ => rfl
    have hspace : isSpace c = false := by simpa [Lex.skips, hlex] using hskips
    have hend : stateEndValue sc.parseState c = some sc₁' := by
      unfold Scanner.spaced at h
      by_cases hstack : sc.parseState = []
      · simp [next, hstack, hspace] at h
      · simpa only [next, if_neg hstack] using h
    rw [next_of_ends hends (isNumeric_of_isBreak (afterValue_of_endValue hend).isBreak)]
    exact hend

theorem run_compactFrom {text : List UInt8} (htrails : Trails sc sc₁)
    (h : sc₁.run text = some sc₁') :
    ∃ sc', sc.run (compactFrom sc.rule.lex text) = some sc' ∧ Trails sc' sc₁' := by
  induction text generalizing sc sc₁ with
  | nil =>
      cases h
      exact ⟨sc, rfl, htrails⟩
  | cons c rest ih =>
      obtain ⟨sc₂, hnext, hrest⟩ := Option.bind_eq_some_iff.mp h
      cases hskips : sc.rule.lex.skips c with
      | true =>
          have hlex : sc.rule.lex = .outside ∧ isSpace c = true := by
            simpa [Lex.skips] using hskips
          rw [compactFrom_of_skips hskips]
          exact ih (trails_space htrails hlex.1 hlex.2 hnext) hrest
      | false =>
          have hsc := trails_next htrails hskips hnext
          rw [compactFrom_of_not_skips hskips, run_cons, hsc, ← next_lex hsc]
          exact ih (.inl rfl) hrest

theorem over_of_trails (htrails : Trails sc sc₁) (h : sc₁.Over) : sc.Over := by
  rcases htrails with rfl | ⟨hends, rfl⟩
  · exact h
  · obtain ⟨rule, stack⟩ := sc
    refine ⟨h.1, ?_⟩
    cases rule with
    | endTop => rfl
    | _ => exact hends

end Compact

/-- A text without its white space is JSON if the text is. -/
theorem valid_compact {text : List UInt8} (h : Valid text) : Valid (compact text) := by
  obtain ⟨sc₁, hrun, hover⟩ := valid_iff.mp h
  obtain ⟨sc, hsc, htrails⟩ := run_compactFrom (.inl rfl) hrun
  exact valid_iff.mpr ⟨sc, hsc, over_of_trails htrails hover⟩

/-! ### Escapes -/

/-- A byte that only stands in strings. -/
def IsText (c : UInt8) : Prop := 0x80 ≤ c ∨ ¬ Unmarked c

section Escapes

variable {c : UInt8} {sc sc' : Scanner}

theorem firstByte_text (hc : IsText c) : firstByte c = none := by
  unfold IsText Unmarked at hc
  refine firstByte_eq_none ⟨?_, ?_, ?_, ?_⟩ ⟨?_, ?_, ?_⟩ ?_ <;>
    grind [isDigit, openBrace, openBracket, quote]

theorem isSpace_text (hc : IsText c) : isSpace c = false := by
  unfold IsText Unmarked at hc
  grind [isSpace]

theorem next_text (hc : IsText c) (h : sc.next c = some sc') :
    sc.rule = .inString ∧ sc' = sc := by
  obtain ⟨rule, stack⟩ := sc
  have hfirst := firstByte_text hc
  have hspace := isSpace_text hc
  unfold IsText Unmarked at hc
  have hend : ∀ stack sc, stateEndValue stack c ≠ some sc := fun stack sc heq =>
    absurd (afterValue_of_endValue heq).isBreak (by
      grind [isBreak, isSpace, colon, comma, closeBrace, closeBracket])
  have hdigit : isDigit c = false := by grind [isDigit]
  have hhex : isHex c = false := by
    unfold isHex
    grind
  have hclose : c ≠ closeBrace ∧ c ≠ closeBracket ∧ c ≠ quote ∧ c ≠ backslash := by
    grind [closeBrace, closeBracket, quote, backslash]
  have hescape : isEscape c = false := by
    unfold isEscape
    grind
  have hsign : c ≠ 0x30 ∧ c ≠ 0x2E ∧ c ≠ 0x2B ∧ c ≠ 0x2D ∧ c ≠ 0x65 ∧ c ≠ 0x45 ∧ c ≠ 0x75 := by
    grind
  cases rule with
  | literal l => cases l <;> grind [next, Literal.expects]
  | inString =>
      simp only [next, hclose] at h
      grind
  | _ =>
      simp [next, stateBeginValue, hfirst, hspace, stateBeginString, state0, stateESign, hdigit,
        hhex, hescape, hsign, hclose, hend] at h

theorem run_escapeByte (h : sc.next c = some sc') : sc.run (escapeByte c) = some sc' := by
  by_cases hc : Unmarked c
  · rw [escapeByte_of_unmarked hc, run_cons, h]
    rfl
  · obtain ⟨hrule, rfl⟩ := next_text (.inr hc) h
    obtain ⟨rule, stack⟩ := sc'
    cases hrule
    have hmarked : c = 0x3C ∨ c = 0x3E ∨ c = 0x26 := by
      unfold Unmarked at hc
      tauto
    rcases hmarked with rfl | rfl | rfl <;> rfl

theorem run_text {rest : List UInt8} (hc : IsText c) (h : sc.run (c :: rest) = some sc') :
    sc.rule = .inString ∧ sc.run rest = some sc' := by
  obtain ⟨sc₁, hnext, hrest⟩ := Option.bind_eq_some_iff.mp h
  obtain ⟨hrule, heq⟩ := next_text hc hnext
  exact ⟨hrule, heq ▸ hrest⟩

theorem run_separator {rest : List UInt8} {b : UInt8} (hb : 0x80 ≤ b)
    (h : sc.run (0xE2 :: 0x80 :: b :: rest) = some sc') :
    sc.rule = .inString ∧ sc.run rest = some sc' := by
  obtain ⟨hrule, htail⟩ := run_text (.inl (by decide)) h
  obtain ⟨-, hlast⟩ := run_text (.inl (by decide)) htail
  exact ⟨hrule, (run_text (.inl hb) hlast).2⟩

/-- The scanner ends where it did when characters are escaped. -/
theorem run_htmlEscape {text : List UInt8} (h : sc.run text = some sc') :
    sc.run (htmlEscape text) = some sc' := by
  induction text using separators_induction generalizing sc with
  | nil => exact h
  | separatorA8 rest ih =>
      obtain ⟨hrule, hrest⟩ := run_separator (by decide) h
      obtain ⟨rule, stack⟩ := sc
      cases hrule
      rw [htmlEscape_A8, run_append]
      exact ih hrest
  | separatorA9 rest ih =>
      obtain ⟨hrule, hrest⟩ := run_separator (by decide) h
      obtain ⟨rule, stack⟩ := sc
      cases hrule
      rw [htmlEscape_A9, run_append]
      exact ih hrest
  | cons c rest hnone ih =>
      obtain ⟨sc₁, hnext, hrest⟩ := Option.bind_eq_some_iff.mp h
      rw [htmlEscape_cons hnone, run_append, run_escapeByte hnext]
      exact ih hrest

end Escapes

theorem valid_htmlEscape {text : List UInt8} (h : Valid text) : Valid (htmlEscape text) := by
  obtain ⟨sc, hrun, hover⟩ := valid_iff.mp h
  exact valid_iff.mpr ⟨sc, run_htmlEscape hrun, hover⟩

/-- What is written for a raw message that is JSON is JSON. -/
theorem valid_marshalRaw {text : List UInt8} (h : Valid text) : Valid (marshalRaw text) :=
  valid_htmlEscape (valid_compact h)

/-! ### Valid texts -/

theorem Valid.closed {text : List UInt8} (h : Valid text) : Closed text := by
  obtain ⟨sc, hrun, hover⟩ := valid_iff.mp h
  have hlex : sc.rule.lex = lexFrom .outside text := run_lex hrun
  rw [Closed, ← hlex]
  obtain ⟨rule, stack⟩ := sc
  cases rule with
  | inString | inStringEsc | inStringEscU => cases hover.2
  | _ => rfl

theorem Valid.ne_nil {text : List UInt8} (h : Valid text) : text ≠ [] := by
  rintro rfl
  exact absurd h (by decide)

end JsonText
