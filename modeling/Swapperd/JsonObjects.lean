/-
  Swapperd/JsonObjects.lean
  =========================
  **Objects as Go's `encoding/json` writes them and takes them apart.**

  The reader cuts an object at the colons, commas and the brace of its own level, and
  drops the white space there.  What it cuts out are keys and texts of values.

  `members_objectText` — the keys and values of an object that was written.
  `valid_of_mem_members` — every value in a valid object is valid on its own.
-/
import Swapperd.JsonStrings

namespace JsonText

open Scanner

/-! ### Taking a text apart -/

/-- What becomes of a byte. -/
inductive Part where
  | dropped
  | kept
  | cut
deriving DecidableEq

/-- What becomes of the next byte: only at the level of the outermost object or array is
    anything cut. -/
def Scanner.part (sc : Scanner) (c : UInt8) : Part :=
  match sc.parseState with
  | [] => .dropped
  | [_] =>
      if sc.rule.lex ≠ .outside then .kept
      else if isSpace c then .dropped
      else if isBreak c then .cut
      else .kept
  | _ => .kept

/-- The pieces of the rest of a text, `piece` being what was read of the first. An empty
    object or array has none. -/
def piecesFrom : Scanner → List UInt8 → List UInt8 → Option (List (List UInt8))
  | sc, _, [] => if sc.eof then some [] else none
  | sc, piece, c :: rest => do
      let sc' ← sc.next c
      match sc.part c with
      | .dropped => piecesFrom sc' piece rest
      | .kept => piecesFrom sc' (piece ++ [c]) rest
      | .cut =>
          (piecesFrom sc' [] rest).map fun pieces => if piece = [] then pieces else piece :: pieces

/-- Keys and values come in turn. -/
def pairs : List (List UInt8) → List (List UInt8 × List UInt8)
  | key :: value :: rest => (key, value) :: pairs rest
  | _ => []

/-- A key is a string, which has no white space between tokens. -/
def unquoteKey (member : List UInt8 × List UInt8) : Option (String × List UInt8) :=
  (unquote (compact member.1)).map fun key => (key, member.2)

/-- The keys of an object and the texts of their values. -/
def members (text : List UInt8) : Option (List (String × List UInt8)) := do
  let pieces ← piecesFrom Scanner.start [] text
  (pairs pieces).mapM unquoteKey

/-! ### Writing an object -/

/-- An object after its first member. -/
def restText : List (String × List UInt8) → List UInt8
  | [] => [closeBrace]
  | (key, value) :: rest => comma :: (encodeString key ++ colon :: (value ++ restText rest))

def objectText : List (String × List UInt8) → List UInt8
  | [] => [openBrace, closeBrace]
  | (key, value) :: rest => openBrace :: (encodeString key ++ colon :: (value ++ restText rest))

/-- The text of a value as it stands in an object. -/
structure Element (text : List UInt8) : Prop where
  valid : Valid text
  tight : Tight text

theorem element_encodeString (s : String) : Element (encodeString s) :=
  ⟨valid_encodeString s, tight_encodeString s⟩

theorem Element.compact {text : List UInt8} (h : Element text) : compact text = text :=
  compactFrom_of_tightFrom h.tight

theorem element_encodeInt (n : Int) : Element (encodeInt n) :=
  ⟨valid_encodeInt n, tight_encodeInt n⟩

theorem element_marshalRaw {text : List UInt8} (h : Valid text) : Element (marshalRaw text) :=
  ⟨valid_marshalRaw h, (clean_marshalRaw text).tight⟩

/-! ### Pieces that are kept -/

section Kept

variable {c : UInt8} {sc sc' : Scanner} {top : ParseState}

/-- A value that is read on its own has no break outside its objects, arrays and strings,
    white space apart. -/
theorem next_isBreak (hstack : sc.parseState = []) (hlex : sc.rule.lex = .outside)
    (hspace : isSpace c = false) (hbreak : isBreak c = true) : sc.next c = none := by
  obtain ⟨rule, stack⟩ := sc
  cases hstack
  have hend : stateEndValue [] c = none := if_neg (by simp [hspace])
  have hnumeric := isNumeric_of_isBreak hbreak
  by_cases hends : rule.ends = true
  · rw [next_of_ends hends hnumeric]
    exact hend
  · have hcases : c = colon ∨ c = comma ∨ c = closeBrace ∨ c = closeBracket := by
      simpa [isBreak, hspace, or_assoc] using hbreak
    cases rule with
    | endValue | one | zero | dot0 | exp0 => exact absurd rfl hends
    | inString | inStringEsc | inStringEscU => cases hlex
    | literal l => rcases hcases with rfl | rfl | rfl | rfl <;> cases l <;> rfl
    | _ => rcases hcases with rfl | rfl | rfl | rfl <;> rfl

theorem part_of_kept (hskips : sc.rule.lex.skips c = false) (h : sc.next c = some sc') :
    (sc.nest [top]).part c = .kept := by
  have hlex : (sc.nest [top]).rule.lex = sc.rule.lex := by
    obtain ⟨rule, stack⟩ := sc
    cases rule <;> rfl
  match hstack : sc.parseState with
  | [] =>
      have hparse : (sc.nest [top]).parseState = [top] := by simp [Scanner.nest, hstack]
      unfold Scanner.part
      rw [hparse]
      dsimp only
      rw [hlex]
      by_cases houtside : sc.rule.lex = .outside
      · have hspace : isSpace c = false := by simpa [Lex.skips, houtside] using hskips
        have hbreak : isBreak c = false := by
          by_contra hbreak
          rw [next_isBreak hstack houtside hspace (by simpa using hbreak)] at h
          cases h
        simp [houtside, hspace, hbreak]
      · exact if_pos houtside
  | _ :: tail =>
      unfold Scanner.part
      cases tail <;> simp [Scanner.nest, hstack]

/-- All of a value is kept in an object or array. -/
theorem piecesFrom_kept {text : List UInt8} (htight : TightFrom sc.rule.lex text)
    (h : sc.run text = some sc') (piece rest : List UInt8) :
    piecesFrom (sc.nest [top]) piece (text ++ rest) =
      piecesFrom (sc'.nest [top]) (piece ++ text) rest := by
  induction text generalizing sc piece with
  | nil =>
      cases h
      simp
  | cons c tail ih =>
      obtain ⟨sc₁, hnext, hrest⟩ := Option.bind_eq_some_iff.mp h
      obtain ⟨hskips, htail⟩ := htight
      have hnest := next_nest (List.cons_ne_nil top []) hnext
      rw [← next_lex hnext] at htail
      rw [List.cons_append, piecesFrom, hnest, Option.bind_eq_bind, Option.bind_some,
        part_of_kept hskips hnext]
      dsimp only
      rw [ih htail hrest, List.append_assoc, List.singleton_append]

end Kept

/-! ### Objects that were written -/

section Written

variable {key : String} {value rest : List UInt8}

theorem ends_of_over {sc : Scanner} (h : sc.Over) (top : ParseState) :
    ∃ rule, rule.ends = true ∧ sc.nest [top] = ⟨rule, [top]⟩ :=
  ⟨sc.rule.nest, h.2, by rw [Scanner.nest, h.1]; rfl⟩

theorem ends_lex {rule : Rule} (h : rule.ends = true) : rule.lex = .outside := by
  cases rule with
  | inString | inStringEsc | inStringEscU => cases h
  | _ => rfl

theorem part_of_ends {rule : Rule} (h : rule.ends = true) {c : UInt8} (hspace : isSpace c = false)
    (hbreak : isBreak c = true) (top : ParseState) :
    (Scanner.mk rule [top]).part c = .cut := by
  simp [Scanner.part, ends_lex h, hspace, hbreak]

theorem piecesFrom_cut {piece : List UInt8} (hpiece : piece ≠ []) {c : UInt8} {sc sc' : Scanner}
    (h : sc.next c = some sc') (hpart : sc.part c = .cut) :
    piecesFrom sc piece (c :: rest) = (piecesFrom sc' [] rest).map (piece :: ·) := by
  rw [piecesFrom, h, Option.bind_eq_bind, Option.bind_some, hpart]
  simp only [if_neg hpiece]

/-- A value, and what comes after it. -/
theorem piecesFrom_value (hvalue : Element value) {c : UInt8} {sc' : Scanner}
    (hc : stateEndValue [.objectValue] c = some sc') (hspace : isSpace c = false) :
    piecesFrom ⟨.beginValue, [.objectValue]⟩ [] (value ++ c :: rest) =
      (piecesFrom sc' [] rest).map (value :: ·) := by
  obtain ⟨sc, hrun, hover⟩ := valid_iff.mp hvalue.valid
  have htight : TightFrom Scanner.start.rule.lex value := hvalue.tight
  have hkept := @piecesFrom_kept _ _ .objectValue _ htight hrun [] (c :: rest)
  have hstart : Scanner.start.nest [.objectValue] = ⟨.beginValue, [.objectValue]⟩ := rfl
  obtain ⟨rule, hends, hnest⟩ := ends_of_over hover .objectValue
  have hbreak := (afterValue_of_endValue hc).isBreak
  have hnext : (Scanner.mk rule [.objectValue]).next c = some sc' :=
    (next_of_ends hends (isNumeric_of_isBreak hbreak)).trans hc
  rw [hstart] at hkept
  rw [hkept, hnest]
  exact piecesFrom_cut hvalue.valid.ne_nil hnext (part_of_ends hends hspace hbreak _)

/-- A key, and the colon after it. -/
theorem piecesFrom_key {rule : Rule} (hrule : rule = .beginString ∨ rule = .beginStringOrEmpty) :
    piecesFrom ⟨rule, [.objectKey]⟩ [] (encodeString key ++ colon :: rest) =
      (piecesFrom ⟨.beginValue, [.objectValue]⟩ [] rest).map (encodeString key :: ·) := by
  have hrun : Scanner.run ⟨rule, []⟩ (encodeString key) = some ⟨.endValue, []⟩ := by
    rcases hrule with rfl | rfl
    · exact run_key key []
    · exact run_key key []
  have htight : TightFrom rule.lex (encodeString key) := by
    rcases hrule with rfl | rfl
    · exact tight_encodeString key
    · exact tight_encodeString key
  have hkept := @piecesFrom_kept _ _ .objectKey _ htight hrun [] (colon :: rest)
  have hstart : (Scanner.mk rule []).nest [.objectKey] = ⟨rule, [.objectKey]⟩ := by
    rcases hrule with rfl | rfl
    · rfl
    · rfl
  rw [hstart] at hkept
  rw [hkept]
  exact piecesFrom_cut (List.cons_ne_nil _ _) rfl rfl

theorem piecesFrom_restText {ms : List (String × List UInt8)} (h : ∀ m ∈ ms, Element m.2)
    (hvalue : Element value) :
    piecesFrom ⟨.beginValue, [.objectValue]⟩ [] (value ++ restText ms) =
      some (value :: ms.flatMap fun m => [encodeString m.1, m.2]) := by
  induction ms generalizing value with
  | nil =>
      rw [restText, piecesFrom_value hvalue rfl (by decide)]
      rfl
  | cons m tail ih =>
      obtain ⟨hm, htail⟩ := List.forall_mem_cons.mp h
      rw [restText,
        piecesFrom_value hvalue rfl (by decide),
        piecesFrom_key (.inl rfl), ih htail hm]
      rfl

theorem piecesFrom_objectText {ms : List (String × List UInt8)} (h : ∀ m ∈ ms, Element m.2) :
    piecesFrom Scanner.start [] (objectText ms) =
      some (ms.flatMap fun m => [encodeString m.1, m.2]) := by
  cases ms with
  | nil => decide
  | cons m tail =>
      obtain ⟨hm, htail⟩ := List.forall_mem_cons.mp h
      have hopen : piecesFrom Scanner.start [] (objectText (m :: tail)) =
          piecesFrom ⟨.beginStringOrEmpty, [.objectKey]⟩ []
            (encodeString m.1 ++ colon :: (m.2 ++ restText tail)) := rfl
      rw [hopen, piecesFrom_key (.inr rfl), piecesFrom_restText htail hm]
      rfl

theorem pairs_flatMap (ms : List (String × List UInt8)) :
    pairs (ms.flatMap fun m => [encodeString m.1, m.2]) =
      ms.map fun m => (encodeString m.1, m.2) := by
  induction ms with
  | nil => rfl
  | cons m tail ih => simp [pairs, ih]

/-- The members of an object are read as they were written. -/
theorem members_objectText {ms : List (String × List UInt8)} (h : ∀ m ∈ ms, Element m.2) :
    members (objectText ms) = some ms := by
  have hkeys : (ms.map fun m => (encodeString m.1, m.2)).mapM unquoteKey = some ms := by
    clear h
    induction ms with
    | nil => rfl
    | cons m tail ih =>
        simp [unquoteKey, (element_encodeString m.1).compact, unquote_encodeString, ih]
  rw [members, piecesFrom_objectText h, Option.bind_eq_bind, Option.bind_some, pairs_flatMap, hkeys]

theorem run_of_piecesFrom {text piece : List UInt8} {sc : Scanner} {pieces : List (List UInt8)}
    (h : piecesFrom sc piece text = some pieces) : (sc.run text).any Scanner.eof = true := by
  induction text generalizing sc piece pieces with
  | nil =>
      rw [piecesFrom] at h
      split_ifs at h with heof
      exact heof
  | cons c rest ih =>
      obtain ⟨sc', hnext, hrest⟩ := Option.bind_eq_some_iff.mp h
      rw [run_cons, hnext, Option.bind_some]
      split at hrest
      · exact ih hrest
      · exact ih hrest
      · obtain ⟨tail, htail, -⟩ := Option.map_eq_some_iff.mp hrest
        exact ih htail

theorem Tight.append {x y : List UInt8} (hx : Tight x) (hclosed : Closed x) (hy : Tight y) :
    Tight (x ++ y) := by
  refine tightFrom_append.mpr ⟨hx, ?_⟩
  rw [show lexFrom .outside x = .outside from hclosed]
  exact hy

theorem tight_restText {ms : List (String × List UInt8)} (h : ∀ m ∈ ms, Element m.2) :
    Tight (restText ms) := by
  induction ms with
  | nil => decide
  | cons m tail ih =>
      obtain ⟨hm, htail⟩ := List.forall_mem_cons.mp h
      have hkey := element_encodeString m.1
      have hvalue := hm.tight.append hm.valid.closed (ih htail)
      exact ⟨rfl, hkey.tight.append hkey.valid.closed ⟨rfl, hvalue⟩⟩

/-- An object may stand in an object. -/
theorem element_objectText {ms : List (String × List UInt8)} (h : ∀ m ∈ ms, Element m.2) :
    Element (objectText ms) where
  valid := run_of_piecesFrom (piecesFrom_objectText h)
  tight := by
    cases ms with
    | nil => decide
    | cons m tail =>
        obtain ⟨hm, htail⟩ := List.forall_mem_cons.mp h
        have hkey := element_encodeString m.1
        have hvalue := hm.tight.append hm.valid.closed (tight_restText htail)
        exact ⟨rfl, hkey.tight.append hkey.valid.closed ⟨rfl, hvalue⟩⟩

end Written

/-! ### Objects that are valid -/

/-- Where the reader is, `piece` being what it has kept of the value that it reads. -/
inductive Reading : Scanner → List UInt8 → Prop where
  | outermost {sc : Scanner} (h : sc.parseState = []) : Reading sc []
  | before {rule : Rule} {top : ParseState} (h : rule = .beginValue ∨ rule = .beginValueOrEmpty ∨
      rule = .beginString ∨ rule = .beginStringOrEmpty) : Reading ⟨rule, [top]⟩ []
  | within {sc : Scanner} {top : ParseState} {piece : List UInt8}
      (hrun : Scanner.start.run piece = some sc) : Reading (sc.nest [top]) piece
  | after {sc : Scanner} {top : ParseState} {piece : List UInt8}
      (hrun : Scanner.start.run piece = some sc) (hover : sc.Over) :
      Reading ⟨.endValue, [top]⟩ piece

section Steps

variable {c : UInt8} {sc sc' : Scanner} {piece : List UInt8} {top : ParseState}

/-- What becomes of the byte leaves the reader somewhere, and cuts out values only. -/
def Reads (sc : Scanner) (c : UInt8) (sc' : Scanner) (piece : List UInt8) : Prop :=
  match sc.part c with
  | .dropped => Reading sc' piece
  | .kept => Reading sc' (piece ++ [c])
  | .cut => (piece = [] ∨ Valid piece) ∧ Reading sc' []

theorem reading_firstByte {first : Rule × List ParseState} (h : firstByte c = some first) :
    Reading ⟨first.1, first.2 ++ []⟩ [] := by
  unfold firstByte at h
  split_ifs at h <;> cases h
  · exact .before (.inr (.inr (.inr rfl)))
  · exact .before (.inr (.inl rfl))
  all_goals exact .outermost rfl

theorem reading_beginValue (h : stateBeginValue [] c = some sc) : Reading sc [] := by
  unfold stateBeginValue at h
  split_ifs at h
  · cases h
    exact .outermost rfl
  · obtain ⟨first, hfirst, rfl⟩ := Option.map_eq_some_iff.mp h
    exact reading_firstByte hfirst

theorem reading_endValue {stack : List ParseState} (hstack : stack.length ≤ 1)
    (hspace : isSpace c = false) (h : stateEndValue stack c = some sc) : Reading sc [] := by
  have hrest : ∀ {top : ParseState} {rest : List ParseState}, stack = top :: rest → rest = [] := by
    intro top rest heq
    rw [heq, List.length_cons] at hstack
    exact List.eq_nil_of_length_eq_zero (by omega)
  cases afterValue_of_endValue h with
  | endTop => exact .outermost rfl
  | space hs => exact absurd hs (by simp [hspace])
  | key => exact hrest rfl ▸ .before (.inl rfl)
  | value => exact hrest rfl ▸ .before (.inr (.inr (.inl rfl)))
  | object => exact .outermost (hrest rfl)
  | element => exact hrest rfl ▸ .before (.inl rfl)
  | array => exact .outermost (hrest rfl)

theorem endValue_top (h : stateEndValue [] c = some sc) : sc.parseState = [] := by
  cases afterValue_of_endValue h with
  | endTop => rfl
  | space _ hstack => exact absurd rfl hstack

/-- Before the outermost object or array, and after it. -/
theorem reads_outermost (hstack : sc.parseState = []) (h : sc.next c = some sc') :
    Reads sc c sc' [] := by
  have hpart : sc.part c = .dropped := by simp [Scanner.part, hstack]
  rw [Reads, hpart]
  obtain ⟨rule, stack⟩ := sc
  cases hstack
  cases rule with
  | literal l =>
      simp only [next] at h
      split_ifs at h
      cases h
      exact .outermost rfl
  | _ =>
      simp only [next, stateBeginString, closeEmpty, state0, stateESign] at h
      grind [reading_beginValue, endValue_top, Reading.outermost]

theorem part_of_outside {rule : Rule} (hlex : rule.lex = .outside) (top : ParseState)
    (c : UInt8) : (Scanner.mk rule [top]).part c =
      if isSpace c then .dropped else if isBreak c then .cut else .kept := by
  simp [Scanner.part, hlex]

/-- A key begins like a string. -/
theorem start_of_beginString (hspace : isSpace c = false)
    (h : stateBeginString [top] c = some sc') :
    ∃ sc₀, Scanner.start.next c = some sc₀ ∧ sc' = sc₀.nest [top] := by
  unfold stateBeginString at h
  split_ifs at h with hc hquote
  · simp [hspace] at hc
  · cases h
    exact ⟨⟨.inString, []⟩, by rw [hquote]; rfl, rfl⟩

/-- Before a key or a value. -/
theorem reads_before {rule : Rule} (hrule : rule = .beginValue ∨ rule = .beginValueOrEmpty ∨
    rule = .beginString ∨ rule = .beginStringOrEmpty)
    (h : (Scanner.mk rule [top]).next c = some sc') : Reads ⟨rule, [top]⟩ c sc' [] := by
  have hlex : rule.lex = .outside := by rcases hrule with rfl | rfl | rfl | rfl <;> rfl
  rw [Reads, part_of_outside hlex]
  cases hspace : isSpace c with
  | true =>
      rcases next_space hlex hspace h with rfl | ⟨hends, -⟩
      · exact .before hrule
      · rcases hrule with rfl | rfl | rfl | rfl <;> cases hends
  | false =>
      cases hbreak : isBreak c with
      | true =>
          refine ⟨.inl rfl, ?_⟩
          have hfirst : firstByte c = none := by
            refine firstByte_eq_none ⟨?_, ?_, ?_, ?_⟩ ⟨?_, ?_, ?_⟩ ?_ <;>
              grind [isBreak, isDigit, colon, comma, closeBrace, closeBracket, openBrace,
                openBracket, quote]
          have hquote : c ≠ quote := by
            grind [isBreak, colon, comma, closeBrace, closeBracket, quote]
          rcases hrule with rfl | rfl | rfl | rfl
          · simp [next, stateBeginValue, hspace, hfirst] at h
          · simp only [next, stateBeginValue, hspace, hfirst] at h
            exact @reading_endValue _ _ [top] (Nat.le_refl 1) hspace (by grind)
          · simp [next, stateBeginString, hspace, hquote] at h
          · simp only [next, stateBeginString, hspace, hquote, closeEmpty] at h
            exact @reading_endValue _ _ [.objectValue] (Nat.le_refl 1) hspace (by grind)
      | false =>
          obtain ⟨sc₀, hsc₀, rfl⟩ :
              ∃ sc₀, Scanner.start.next c = some sc₀ ∧ sc' = sc₀.nest [top] := by
            rcases hrule with rfl | rfl | rfl | rfl
            · exact @beginValue_unnest _ [] _ _ h
            · refine @beginValue_unnest _ [] _ _ ?_
              have hclose : c ≠ closeBracket := by
                rintro rfl
                cases hbreak
              simpa [next, hspace, hclose] using h
            · exact start_of_beginString hspace h
            · refine start_of_beginString hspace ?_
              have hclose : c ≠ closeBrace := by
                rintro rfl
                cases hbreak
              simpa [next, hspace, hclose] using h
          refine .within ?_
          simp [hsc₀]

/-- Where a break may come, a value may be over. -/
theorem ends_of_isBreak (hsound : sc.Sound) (hstack : sc.parseState = [])
    (hlex : sc.rule.lex = .outside) (hspace : isSpace c = false) (hbreak : isBreak c = true)
    (h : (sc.nest [top]).next c = some sc') : sc.rule.nest.ends = true := by
  obtain ⟨rule, stack⟩ := sc
  cases hstack
  have hcases : c = colon ∨ c = comma ∨ c = closeBrace ∨ c = closeBracket := by
    simpa [isBreak, hspace, or_assoc] using hbreak
  cases rule with
  | endTop | endValue | one | zero | dot0 | exp0 => rfl
  | inString | inStringEsc | inStringEscU => cases hlex
  | beginValueOrEmpty | beginStringOrEmpty => exact absurd rfl hsound
  | literal l => rcases hcases with rfl | rfl | rfl | rfl <;> cases l <;> cases h
  | _ => rcases hcases with rfl | rfl | rfl | rfl <;> cases h

theorem reading_next (hends : sc.rule.ends = true) (hstack : sc.parseState = [top])
    (hspace : isSpace c = false) (hbreak : isBreak c = true) (h : sc.next c = some sc') :
    Reading sc' [] := by
  rw [next_of_ends hends (isNumeric_of_isBreak hbreak), hstack] at h
  exact @reading_endValue _ _ [top] (Nat.le_refl 1) hspace h

theorem reading_kept (hrun : Scanner.start.run piece = some sc)
    (hc : sc.parseState = [] → sc.rule.lex = .outside → isBreak c = false)
    (h : (sc.nest [top]).next c = some sc') : Reading sc' (piece ++ [c]) := by
  obtain ⟨sc₁, hnext, rfl⟩ :=
    next_unnest (List.cons_ne_nil top []) (run_sound start_sound hrun) hc h
  refine .within ?_
  simp [run_append, hrun, hnext]

theorem nest_lex (rule : Rule) : rule.nest.lex = rule.lex := by cases rule <;> rfl

/-- In a value. -/
theorem reads_within (hrun : Scanner.start.run piece = some sc)
    (h : (sc.nest [top]).next c = some sc') : Reads (sc.nest [top]) c sc' piece := by
  by_cases hinner : sc.parseState = [] ∧ sc.rule.lex = .outside
  · obtain ⟨hstack, hlex⟩ := hinner
    have hnest : sc.nest [top] = ⟨sc.rule.nest, [top]⟩ := by simp [Scanner.nest, hstack]
    have houtside : sc.rule.nest.lex = .outside := (nest_lex _).trans hlex
    rw [Reads, hnest, part_of_outside houtside]
    cases hspace : isSpace c with
    | true =>
        rw [hnest] at h
        rcases next_space houtside hspace h with rfl | ⟨hends, rfl⟩
        · exact hnest ▸ .within hrun
        · exact .after hrun ⟨hstack, hends⟩
    | false =>
        cases hbreak : isBreak c with
        | true =>
            have hends := ends_of_isBreak (run_sound start_sound hrun) hstack hlex hspace hbreak h
            rw [hnest] at h
            exact ⟨.inr (valid_iff.mpr ⟨sc, hrun, hstack, hends⟩),
              reading_next hends rfl hspace hbreak h⟩
        | false => exact reading_kept hrun (fun _ _ => hbreak) h
  · have hpart : (sc.nest [top]).part c = .kept := by
      unfold Scanner.part
      cases hstack : sc.parseState with
      | nil =>
          have hlex : sc.rule.nest.lex ≠ .outside := by
            rw [nest_lex]
            exact fun hlex => hinner ⟨hstack, hlex⟩
          simp [Scanner.nest, hstack, hlex]
      | cons _ tail => cases tail <;> simp [Scanner.nest, hstack]
    rw [Reads, hpart]
    exact reading_kept hrun (fun hstack hlex => absurd ⟨hstack, hlex⟩ hinner) h

/-- After a value, and white space. -/
theorem reads_after (hrun : Scanner.start.run piece = some sc) (hover : sc.Over)
    (h : (Scanner.mk .endValue [top]).next c = some sc') :
    Reads ⟨.endValue, [top]⟩ c sc' piece := by
  have hend : stateEndValue [top] c = some sc' := h
  rw [Reads, part_of_outside rfl]
  cases hspace : isSpace c with
  | true =>
      rw [stateEndValue_space hspace] at hend
      cases hend
      exact .after hrun hover
  | false =>
      have hbreak : isBreak c = true := (afterValue_of_endValue hend).isBreak
      rw [hbreak]
      exact ⟨.inr (valid_iff.mpr ⟨sc, hrun, hover⟩), reading_next rfl rfl hspace hbreak h⟩

theorem reads_of_next (hreading : Reading sc piece) (h : sc.next c = some sc') :
    Reads sc c sc' piece := by
  cases hreading with
  | outermost hstack => exact reads_outermost hstack h
  | before hrule => exact reads_before hrule h
  | within hrun => exact reads_within hrun h
  | after hrun hover => exact reads_after hrun hover h

end Steps

/-- Everything that is cut out of a valid text is valid. -/
theorem valid_of_mem_piecesFrom {text piece : List UInt8} {sc : Scanner}
    {pieces : List (List UInt8)} (hreading : Reading sc piece)
    (h : piecesFrom sc piece text = some pieces) : ∀ p ∈ pieces, Valid p := by
  induction text generalizing sc piece pieces with
  | nil =>
      rw [piecesFrom] at h
      split_ifs at h
      cases h
      simp
  | cons c rest ih =>
      obtain ⟨sc', hnext, hrest⟩ := Option.bind_eq_some_iff.mp h
      have hreads := reads_of_next hreading hnext
      unfold Reads at hreads
      split at hrest <;> rename_i hpart <;> rw [hpart] at hreads
      · exact ih hreads hrest
      · exact ih hreads hrest
      · obtain ⟨tail, htail, rfl⟩ := Option.map_eq_some_iff.mp hrest
        have hvalid := ih hreads.2 htail
        split
        · exact hvalid
        · rename_i hpiece
          exact List.forall_mem_cons.mpr ⟨hreads.1.resolve_left hpiece, hvalid⟩

theorem mem_of_mem_pairs {pieces : List (List UInt8)} {m : List UInt8 × List UInt8}
    (h : m ∈ pairs pieces) : m.2 ∈ pieces := by
  induction pieces using pairs.induct with
  | case1 key value rest ih =>
      rw [pairs] at h
      rcases List.mem_cons.mp h with rfl | hm
      · exact List.mem_cons_of_mem _ List.mem_cons_self
      · exact List.mem_cons_of_mem _ (List.mem_cons_of_mem _ (ih hm))
  | case2 pieces hnone =>
      rw [pairs.eq_2 pieces hnone] at h
      cases h

theorem map_snd_of_mapM {ps : List (List UInt8 × List UInt8)}
    {ms : List (String × List UInt8)} (h : ps.mapM unquoteKey = some ms) :
    ms.map Prod.snd = ps.map Prod.snd := by
  induction ps generalizing ms with
  | nil =>
      cases h
      rfl
  | cons p tail ih =>
      rw [List.mapM_cons] at h
      obtain ⟨m, hm, h⟩ := Option.bind_eq_some_iff.mp h
      obtain ⟨rest, hrest, h⟩ := Option.bind_eq_some_iff.mp h
      cases h
      obtain ⟨key, -, rfl⟩ := Option.map_eq_some_iff.mp hm
      rw [List.map_cons, List.map_cons, ih hrest]

/-- The text of a value in a valid object is valid. -/
theorem valid_of_mem_members {text : List UInt8} {ms : List (String × List UInt8)}
    (h : members text = some ms) : ∀ m ∈ ms, Valid m.2 := by
  obtain ⟨pieces, hpieces, hkeys⟩ := Option.bind_eq_some_iff.mp h
  intro m hm
  have hsnd : m.2 ∈ (pairs pieces).map Prod.snd := by
    rw [← map_snd_of_mapM hkeys]
    exact List.mem_map_of_mem hm
  obtain ⟨p, hp, hvalue⟩ := List.mem_map.mp hsnd
  rw [← hvalue]
  exact valid_of_mem_piecesFrom (.outermost rfl) hpieces p.2 (mem_of_mem_pairs hp)

/-! ### White space in an object -/

theorem compactFrom_append (lex : Lex) (x y : List UInt8) :
    compactFrom lex (x ++ y) = compactFrom lex x ++ compactFrom (lexFrom lex x) y := by
  induction x generalizing lex with
  | nil => rfl
  | cons c rest ih =>
      rw [List.cons_append, lexFrom_cons]
      cases hskips : lex.skips c with
      | true => rw [compactFrom_of_skips hskips, compactFrom_of_skips hskips, ih,
          next_of_skips hskips]
      | false => rw [compactFrom_of_not_skips hskips, compactFrom_of_not_skips hskips, ih,
          List.cons_append]

theorem compact_compact (text : List UInt8) : compact (compact text) = compact text :=
  compactFrom_of_tightFrom (tightFrom_compactFrom .outside text)

section Spaces

variable {c : UInt8} {sc sc' sc₁ sc₁' : Scanner} {piece : List UInt8}

/-- What is kept of a value ends where the scanner is. -/
theorem Reading.lex (h : Reading sc piece) (hstack : sc.parseState ≠ []) :
    lexFrom .outside piece = sc.rule.lex := by
  cases h with
  | outermost hnil => exact absurd hnil hstack
  | before hrule => rcases hrule with rfl | rfl | rfl | rfl <;> rfl
  | within hrun => exact (run_lex hrun).symm.trans (nest_lex _).symm
  | after hrun hover =>
      rw [← show _ = lexFrom .outside piece from run_lex hrun, ← nest_lex]
      exact ends_lex hover.2

theorem trails_parseState (h : Trails sc sc₁) : sc₁.parseState = sc.parseState := by
  rcases h with rfl | ⟨-, rfl⟩ <;> rfl

theorem trails_part (h : Trails sc sc₁) (c : UInt8) : sc₁.part c = sc.part c := by
  unfold Scanner.part
  rw [trails_parseState h, trails_lex h]

theorem eof_of_trails (h : Trails sc sc₁) (heof : sc₁.eof = true) : sc.eof = true := by
  rcases h with rfl | ⟨hends, rfl⟩
  · exact heof
  · have hspace : sc.next 0x20 = some sc.spaced := by
      rw [next_of_ends hends (by decide), stateEndValue_space (by decide)]
      rfl
    by_cases hstack : sc.parseState = []
    · simp [eof, hspace, Scanner.spaced, hstack]
    · have hrule : sc.spaced = ⟨.endValue, sc.parseState⟩ := by
        rw [Scanner.spaced, if_neg hstack]
      have hnext : sc.spaced.next 0x20 = some sc.spaced := by
        rw [hrule]
        exact (stateEndValue_space (by decide)).trans (by rw [if_neg hstack])
      rw [eof, hnext, hrule] at heof
      cases heof

theorem parseState_of_part (h : sc.part c ≠ .dropped) : sc.parseState ≠ [] := by
  intro hstack
  exact h (by simp [Scanner.part, hstack])

theorem part_space (hlex : sc.rule.lex = .outside) (hspace : isSpace c = true) :
    sc.part c ≠ .cut := by
  unfold Scanner.part
  split <;> simp [hlex, hspace]

/-- Without white space a text has the same pieces, without white space. -/
theorem piecesFrom_compactFrom {text : List UInt8} {pieces : List (List UInt8)}
    (hreading : Reading sc₁ piece) (htrails : Trails sc sc₁)
    (h : piecesFrom sc₁ piece text = some pieces) :
    piecesFrom sc (compact piece) (compactFrom sc.rule.lex text) = some (pieces.map compact) := by
  induction text generalizing sc sc₁ piece pieces with
  | nil =>
      rw [piecesFrom] at h
      split_ifs at h with heof
      cases h
      exact if_pos (eof_of_trails htrails heof)
  | cons c rest ih =>
      obtain ⟨sc₁', hnext, hrest⟩ := Option.bind_eq_some_iff.mp h
      have hreads := reads_of_next hreading hnext
      have hlex : sc₁.part c ≠ .dropped → lexFrom .outside piece = sc.rule.lex := fun hpart =>
        (hreading.lex (parseState_of_part hpart)).trans (trails_lex htrails)
      have hkept : sc₁.part c ≠ .dropped →
          compact (piece ++ [c]) = compact piece ++ compactFrom sc.rule.lex [c] := fun hpart => by
        rw [compact, compactFrom_append, hlex hpart]
        rfl
      cases hskips : sc.rule.lex.skips c with
      | true =>
          have hspace : sc.rule.lex = .outside ∧ isSpace c = true := by
            simpa [Lex.skips] using hskips
          have htrails' := trails_space htrails hspace.1 hspace.2 hnext
          rw [compactFrom_of_skips hskips]
          unfold Reads at hreads
          split at hrest <;> rename_i hpart <;> rw [hpart] at hreads
          · exact ih hreads htrails' hrest
          · have hpiece : compact (piece ++ [c]) = compact piece := by
              rw [hkept (by simp [hpart]), compactFrom_of_skips hskips]
              exact List.append_nil _
            rw [← hpiece]
            exact ih hreads htrails' hrest
          · have houtside := (trails_lex htrails).trans hspace.1
            exact absurd hpart (part_space houtside hspace.2)
      | false =>
          have hsc := trails_next htrails hskips hnext
          rw [compactFrom_of_not_skips hskips, ← next_lex hsc, piecesFrom, hsc,
            Option.bind_eq_bind, Option.bind_some, ← trails_part htrails]
          unfold Reads at hreads
          split at hrest <;> rename_i hpart <;> rw [hpart] at hreads
          · exact ih hreads (.inl rfl) hrest
          · have hpiece : compact (piece ++ [c]) = compact piece ++ [c] := by
              rw [hkept (by simp [hpart]), compactFrom_of_not_skips hskips]
              rfl
            rw [← hpiece]
            exact ih hreads (.inl rfl) hrest
          · obtain ⟨tail, htail, rfl⟩ := Option.map_eq_some_iff.mp hrest
            have hempty : compact piece = [] ↔ piece = [] := by
              rcases hreads.1 with rfl | hvalid
              · exact iff_of_true rfl rfl
              · exact iff_of_false (valid_compact hvalid).ne_nil hvalid.ne_nil
            have hih : piecesFrom sc₁' [] (compactFrom sc₁'.rule.lex rest) =
                some (tail.map compact) := ih hreads.2 (.inl rfl) htail
            rw [hih]
            by_cases hpiece : piece = []
            · subst hpiece
              rfl
            · simp [hpiece, hempty]

end Spaces

theorem pairs_map (pieces : List (List UInt8)) :
    pairs (pieces.map compact) = (pairs pieces).map fun p => (compact p.1, compact p.2) := by
  induction pieces using pairs.induct with
  | case1 key value rest ih => simp [pairs, ih]
  | case2 pieces hnone =>
      have hshort : pairs pieces = [] := pairs.eq_2 pieces hnone
      rw [hshort]
      match pieces with
      | [] => rfl
      | [_] => rfl
      | key :: value :: rest => exact absurd rfl (hnone key value rest)

theorem piecesFrom_isSome {text piece : List UInt8} {sc : Scanner}
    (h : (sc.run text).any Scanner.eof = true) :
    ∃ pieces, piecesFrom sc piece text = some pieces := by
  induction text generalizing sc piece with
  | nil => exact ⟨[], if_pos h⟩
  | cons c rest ih =>
      cases hnext : sc.next c with
      | none => simp [hnext] at h
      | some sc' =>
          rw [run_cons, hnext] at h
          obtain ⟨kept, hkept⟩ := @ih (piece ++ [c]) _ h
          obtain ⟨dropped, hdropped⟩ := @ih piece _ h
          obtain ⟨cut, hcut⟩ := @ih [] _ h
          rw [piecesFrom, hnext, Option.bind_eq_bind, Option.bind_some]
          cases sc.part c with
          | dropped => exact ⟨dropped, hdropped⟩
          | kept => exact ⟨kept, hkept⟩
          | cut => exact ⟨_, congrArg (Option.map _) hcut⟩

theorem mapM_unquoteKey_compact (ps : List (List UInt8 × List UInt8)) :
    (ps.map fun p => (compact p.1, compact p.2)).mapM unquoteKey =
      (ps.mapM unquoteKey).map fun ms => ms.map fun m => (m.1, compact m.2) := by
  induction ps with
  | nil => rfl
  | cons p rest ih =>
      rw [List.map_cons, List.mapM_cons, List.mapM_cons, ih]
      simp only [unquoteKey, compact_compact]
      cases unquote (compact p.1) with
      | none => rfl
      | some key =>
          cases rest.mapM unquoteKey with
          | none => rfl
          | some ms => rfl

/-! ### White space after a value -/

theorem next_of_over {sc : Scanner} (hover : sc.Over) {c : UInt8} (hspace : isSpace c = true) :
    sc.next c = some ⟨.endTop, []⟩ := by
  obtain ⟨rule, stack⟩ := sc
  obtain ⟨rfl, hends⟩ := hover
  have hnumeric : isNumeric c = false := isNumeric_of_isBreak (by simp [isBreak, hspace])
  cases rule with
  | endTop => exact if_pos hspace
  | endValue | one | zero | dot0 | exp0 =>
      rw [next_of_ends hends hnumeric, stateEndValue_space hspace]
      rfl
  | _ => cases hends

theorem piecesFrom_spaces {sc : Scanner} (hsound : sc.Sound) (hover : sc.Over)
    {spaces : List UInt8} (hspaces : ∀ c ∈ spaces, isSpace c = true) (piece : List UInt8) :
    piecesFrom sc piece spaces = some [] := by
  induction spaces generalizing sc with
  | nil => exact if_pos ((eof_iff hsound).mpr hover)
  | cons c rest ih =>
      obtain ⟨hc, hrest⟩ := List.forall_mem_cons.mp hspaces
      have hpart : sc.part c = .dropped := by
        unfold Scanner.part
        rw [hover.1]
      rw [piecesFrom, next_of_over hover hc, Option.bind_eq_bind, Option.bind_some, hpart]
      exact ih rfl ⟨rfl, rfl⟩ hrest

theorem piecesFrom_append_spaces {sc : Scanner} (hsound : sc.Sound) {text spaces : List UInt8}
    (h : (sc.run text).any Scanner.eof = true) (hspaces : ∀ c ∈ spaces, isSpace c = true)
    (piece : List UInt8) :
    piecesFrom sc piece (text ++ spaces) = piecesFrom sc piece text := by
  induction text generalizing sc piece with
  | nil =>
      have heof : sc.eof = true := h
      rw [List.nil_append, piecesFrom_spaces hsound ((eof_iff hsound).mp heof) hspaces, piecesFrom,
        if_pos heof]
  | cons c rest ih =>
      cases hnext : sc.next c with
      | none => simp [hnext] at h
      | some sc' =>
          rw [run_cons, hnext] at h
          have htail := ih (next_sound hsound hnext) h
          rw [List.cons_append, piecesFrom, piecesFrom, hnext, Option.bind_eq_bind,
            Option.bind_some, Option.bind_some]
          cases sc.part c with
          | dropped => exact htail piece
          | kept => exact htail _
          | cut => exact congrArg (Option.map _) (htail [])

theorem members_append_spaces {text spaces : List UInt8} (h : Valid text)
    (hspaces : ∀ c ∈ spaces, isSpace c = true) : members (text ++ spaces) = members text := by
  rw [members, members, piecesFrom_append_spaces start_sound h hspaces]

theorem compact_append_spaces {text spaces : List UInt8} (h : Valid text)
    (hspaces : ∀ c ∈ spaces, isSpace c = true) : compact (text ++ spaces) = compact text := by
  have hempty := compactFrom_spaces hspaces []
  rw [List.append_nil] at hempty
  rw [compact, compactFrom_append, show lexFrom .outside text = .outside from h.closed, hempty]
  exact List.append_nil _

/-- **Without white space an object has the same members**, without white space. -/
theorem members_compact {text : List UInt8} (h : Valid text) :
    members (compact text) = (members text).map fun ms => ms.map fun m => (m.1, compact m.2) := by
  obtain ⟨pieces, hpieces⟩ := @piecesFrom_isSome _ [] _ h
  have hcompact : piecesFrom Scanner.start [] (compact text) = some (pieces.map compact) :=
    piecesFrom_compactFrom (.outermost rfl) (.inl rfl) hpieces
  rw [members, members, hcompact, hpieces, Option.bind_eq_bind, Option.bind_some,
    Option.bind_some, pairs_map]
  exact mapM_unquoteKey_compact _

end JsonText
