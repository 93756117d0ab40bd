/-
  Swapperd/JsonRecords.lean
  =========================
  **Go values as `encoding/json` writes and reads them**: strings, integers, booleans, raw
  messages, maps of strings, and structs of such values.

  A value is read into a variable, which keeps what the text does not set.  The key of a
  field is matched by its bytes, or else without regard to case; a field that is tagged
  `omitempty` is not written when it is empty.

  `Lawful` — what holds of every kind of value: what is read may be written, and what is
  written is read back up to the form of raw messages.
  `Schema.lawful` — a struct is lawful when its fields are.
  `Schema.unmarshal_compact` — white space between tokens is not read.
-/
import Swapperd.JsonObjects
import Mathlib.Data.Finmap
import Mathlib.Data.String.Basic
import Mathlib.Data.Finset.Sort
import Mathlib.Logic.Function.Basic

namespace JsonText

open GoLibrary (IsInt64)

/-! ### Coders -/

/-- How values of a type are written, and read into a variable that has a value. -/
structure Coder (α : Type) where
  zero : α
  isEmpty : α → Bool
  marshal : α → Option (List UInt8)
  unmarshal : List UInt8 → α → Option α

/-- What a field tagged `omitempty`, or one that is not, may rely on. -/
structure Coder.Lawful {α : Type} (c : Coder α) (omitempty : Bool) where
  /-- What a variable may hold. -/
  Fit : α → Prop
  /-- What is read of what was written. -/
  canon : α → α
  fit_zero : Fit c.zero
  fit_unmarshal {text : List UInt8} {old a : α} (htext : Valid text) (hold : Fit old)
    (h : c.unmarshal text old = some a) : Fit a
  canon_empty {a : α} (homit : omitempty = true) (h : c.isEmpty a = true) : canon a = c.zero
  isEmpty_canon {a : α} (ha : Fit a) : c.isEmpty (canon a) = c.isEmpty a
  marshal_canon {a : α} (ha : Fit a) : c.marshal (canon a) = c.marshal a
  marshal {a : α} (ha : Fit a) (h : ¬ (omitempty = true ∧ c.isEmpty a = true)) :
    ∃ text, c.marshal a = some text ∧ Element text ∧ c.unmarshal text c.zero = some (canon a)
  unmarshal_compact {text : List UInt8} {old old' : α} (htext : Valid text)
    (hold : canon old = canon old') :
    (c.unmarshal (compact text) old).map canon = (c.unmarshal text old').map canon

def nullText : List UInt8 := [0x6E, 0x75, 0x6C, 0x6C]

def trueText : List UInt8 := [0x74, 0x72, 0x75, 0x65]

def falseText : List UInt8 := [0x66, 0x61, 0x6C, 0x73, 0x65]

/-! ### Scalars

The text of a scalar is one token, when the white space around it is dropped. A `null`
leaves the variable as it is. -/

def readString (text : List UInt8) (old : String) : Option String :=
  if compact text = nullText then some old else unquote (compact text)

def readInt (text : List UInt8) (old : Int) : Option Int :=
  if compact text = nullText then some old else decodeInt (compact text)

def readBool (text : List UInt8) (old : Bool) : Option Bool :=
  if compact text = nullText then some old
  else if compact text = trueText then some true
  else if compact text = falseText then some false
  else none

theorem readString_compact (text : List UInt8) (old : String) :
    readString (compact text) old = readString text old := by
  rw [readString, readString, compact_compact]

theorem readInt_compact (text : List UInt8) (old : Int) :
    readInt (compact text) old = readInt text old := by
  rw [readInt, readInt, compact_compact]

theorem readBool_compact (text : List UInt8) (old : Bool) :
    readBool (compact text) old = readBool text old := by
  rw [readBool, readBool, compact_compact]

def stringCoder : Coder String where
  zero := ""
  isEmpty s := s = ""
  marshal s := some (encodeString s)
  unmarshal := readString

def intCoder : Coder Int where
  zero := 0
  isEmpty n := n = 0
  marshal n := some (encodeInt n)
  unmarshal := readInt

def boolCoder : Coder Bool where
  zero := false
  isEmpty b := !b
  marshal b := some (if b then trueText else falseText)
  unmarshal := readBool

theorem encodeString_ne_null (s : String) : encodeString s ≠ nullText := by
  intro h
  have hhead : quote = 0x6E := (List.cons.inj h).1
  exact absurd hhead (by decide)

theorem decodeInt_nullText : decodeInt nullText = none := by decide

theorem encodeInt_ne_null {n : Int} (h : IsInt64 n) : encodeInt n ≠ nullText := by
  intro hnull
  have hread := decodeInt_encodeInt h
  rw [hnull, decodeInt_nullText] at hread
  cases hread

theorem readString_encodeString (s old : String) : readString (encodeString s) old = some s := by
  rw [readString, (element_encodeString s).compact, if_neg (encodeString_ne_null s),
    unquote_encodeString]

theorem readInt_encodeInt {n : Int} (h : IsInt64 n) (old : Int) :
    readInt (encodeInt n) old = some n := by
  rw [readInt, (element_encodeInt n).compact, if_neg (encodeInt_ne_null h), decodeInt_encodeInt h]

theorem isInt64_readInt {text : List UInt8} {old n : Int} (hold : IsInt64 old)
    (h : readInt text old = some n) : IsInt64 n := by
  unfold readInt at h
  split at h
  · exact Option.some.inj h ▸ hold
  · exact isInt64_decodeInt h

def stringCoder_lawful (omitempty : Bool) : stringCoder.Lawful omitempty where
  Fit _ := True
  canon := id
  fit_zero := trivial
  fit_unmarshal _ _ _ := trivial
  canon_empty _ h := of_decide_eq_true h
  isEmpty_canon _ := rfl
  marshal_canon _ := rfl
  marshal {s} _ _ := ⟨_, rfl, element_encodeString s, readString_encodeString s ""⟩
  unmarshal_compact {text old old'} _ hold := by
    obtain rfl : old = old' := hold
    exact congrArg (Option.map id) (readString_compact text old)

def intCoder_lawful (omitempty : Bool) : intCoder.Lawful omitempty where
  Fit := IsInt64
  canon := id
  fit_zero := by decide
  fit_unmarshal _ hold h := isInt64_readInt hold h
  canon_empty _ h := of_decide_eq_true h
  isEmpty_canon _ := rfl
  marshal_canon _ := rfl
  marshal {n} hn _ := ⟨_, rfl, element_encodeInt n, readInt_encodeInt hn 0⟩
  unmarshal_compact {text old old'} _ hold := by
    obtain rfl : old = old' := hold
    exact congrArg (Option.map id) (readInt_compact text old)

def boolCoder_lawful (omitempty : Bool) : boolCoder.Lawful omitempty where
  Fit _ := True
  canon := id
  fit_zero := trivial
  fit_unmarshal _ _ _ := trivial
  canon_empty _ h := by simpa [boolCoder] using h
  isEmpty_canon _ := rfl
  marshal_canon _ := rfl
  marshal {b} _ _ := by
    refine ⟨_, rfl, ?_, ?_⟩
    · cases b
      · exact ⟨by decide, by decide⟩
      · exact ⟨by decide, by decide⟩
    · cases b <;> rfl
  unmarshal_compact {text old old'} _ hold := by
    obtain rfl : old = old' := hold
    exact congrArg (Option.map id) (readBool_compact text old)

/-! ### Raw messages -/

/-- A nil raw message is written as `null`; other messages have to be valid. -/
def rawCoder : Coder (List UInt8) where
  zero := []
  isEmpty message := message = []
  marshal message :=
    if message = [] then some nullText
    else if Valid message then some (marshalRaw message)
    else none
  unmarshal text _ := some text

theorem marshalRaw_nil : marshalRaw [] = [] := rfl

/-- A raw message has to be omitted when it is empty, since `null` is read as such. -/
def rawCoder_lawful : rawCoder.Lawful true where
  Fit message := message = [] ∨ Valid message
  canon := marshalRaw
  fit_zero := .inl rfl
  fit_unmarshal htext _ h := .inr (Option.some.inj h ▸ htext)
  canon_empty _ h := by
    have hnil := of_decide_eq_true h
    rw [hnil]
    rfl
  isEmpty_canon {message} hfit := by
    rcases hfit with rfl | hvalid
    · rfl
    · have hmarshaled := (valid_marshalRaw hvalid).ne_nil
      simp [rawCoder, hvalid.ne_nil, hmarshaled]
  marshal_canon {message} hfit := by
    rcases hfit with rfl | hvalid
    · rfl
    · have hmarshaled := valid_marshalRaw hvalid
      simp [rawCoder, hvalid.ne_nil, hmarshaled.ne_nil, hvalid, hmarshaled,
        (clean_marshalRaw message).marshalRaw]
  marshal {message} hfit h := by
    have hne : message ≠ [] := fun hnil => h ⟨rfl, decide_eq_true hnil⟩
    have hvalid := hfit.resolve_left hne
    exact ⟨_, (if_neg hne).trans (if_pos hvalid), element_marshalRaw hvalid, rfl⟩
  unmarshal_compact {text} _ _ _ _ := by
    have hraw : marshalRaw (compact text) = marshalRaw text := by
      rw [marshalRaw, marshalRaw, compact_compact]
    exact congrArg some hraw

/-! ### Maps of strings -/

abbrev StringMap := Finmap fun _ : String => String

/-- The entries of a map, in the order of their keys. -/
def entries (m : StringMap) : List (String × String) :=
  (m.keys.sort (· ≤ ·)).map fun key => (key, (m.lookup key).getD "")

/-- The entry of a map is read into a fresh variable. -/
def setEntry (m : StringMap) (member : String × List UInt8) : Option StringMap :=
  (readString member.2 "").map (m.insert member.1)

def isObject (text : List UInt8) : Bool := (compact text).head? = some openBrace

def readMap (text : List UInt8) (old : StringMap) : Option StringMap :=
  if compact text = nullText then some ∅
  else if isObject text then (members text).bind fun ms => ms.foldlM setEntry old
  else none

/-- A nil map is the empty one. -/
def mapCoder : Coder StringMap where
  zero := ∅
  isEmpty m := m.keys.card = 0
  marshal m := some (objectText ((entries m).map fun e => (e.1, encodeString e.2)))
  unmarshal := readMap

theorem isObject_compact (text : List UInt8) : isObject (compact text) = isObject text := by
  rw [isObject, isObject, compact_compact]

theorem isObject_objectText {ms : List (String × List UInt8)} (h : ∀ m ∈ ms, Element m.2) :
    isObject (objectText ms) = true := by
  rw [isObject, (element_objectText h).compact]
  cases ms <;> rfl

theorem compact_objectText_ne {ms : List (String × List UInt8)} (h : ∀ m ∈ ms, Element m.2) :
    compact (objectText ms) ≠ nullText := by
  rw [(element_objectText h).compact]
  intro hnull
  cases ms with
  | nil => exact absurd hnull (by decide)
  | cons m tail => exact absurd (List.cons.inj hnull).1 (by decide)

theorem setEntry_encodeString (m : StringMap) (e : String × String) :
    setEntry m (e.1, encodeString e.2) = some (m.insert e.1 e.2) := by
  rw [setEntry, readString_encodeString]
  rfl

theorem setEntry_compact (m : StringMap) (member : String × List UInt8) :
    setEntry m (member.1, compact member.2) = setEntry m member := by
  rw [setEntry, setEntry, readString_compact]

/-- A map is read of what is left without white space. -/
theorem readMap_compact {text : List UInt8} (h : Valid text) (old : StringMap) :
    readMap (compact text) old = readMap text old := by
  have hset : (fun m (member : String × List UInt8) => setEntry m (member.1, compact member.2)) =
      setEntry := funext fun m => funext fun member => setEntry_compact m member
  unfold readMap
  rw [compact_compact, isObject_compact, members_compact h]
  cases members text with
  | none => rfl
  | some ms => simp only [Option.map_some, Option.bind_some, List.foldlM_map, hset]

theorem foldlM_setEntry (m : StringMap) (es : List (String × String)) :
    (es.map fun e => (e.1, encodeString e.2)).foldlM setEntry m =
      some (es.foldl (fun m e => m.insert e.1 e.2) m) := by
  induction es generalizing m with
  | nil => rfl
  | cons e rest ih =>
      rw [List.map_cons, List.foldlM_cons, setEntry_encodeString, Option.bind_eq_bind,
        Option.bind_some, ih]
      rfl

theorem lookup_foldl_insert {keys : List String} (value : String → String) (m : StringMap)
    (key : String) : ((keys.map fun k => (k, value k)).foldl (fun m e => m.insert e.1 e.2) m).lookup
      key = if key ∈ keys then some (value key) else m.lookup key := by
  induction keys generalizing m with
  | nil => simp
  | cons k rest ih =>
      rw [List.map_cons, List.foldl_cons, ih]
      by_cases hrest : key ∈ rest
      · simp [hrest]
      · by_cases hkey : key = k
        · subst hkey
          simp [hrest]
        · simp [hrest, hkey, Finmap.lookup_insert_of_ne]

/-- A map is what its entries make of the empty one. -/
theorem foldl_entries (m : StringMap) :
    (entries m).foldl (fun m e => m.insert e.1 e.2) ∅ = m := by
  refine Finmap.ext_lookup fun key => ?_
  rw [entries, lookup_foldl_insert]
  by_cases hkey : key ∈ m
  · obtain ⟨value, hvalue⟩ := Finmap.mem_iff.mp hkey
    simp [Finmap.mem_keys, hkey, hvalue]
  · simp [Finmap.mem_keys, hkey, Finmap.lookup_eq_none.mpr hkey]

def mapCoder_lawful (omitempty : Bool) : mapCoder.Lawful omitempty where
  Fit _ := True
  canon := id
  fit_zero := trivial
  fit_unmarshal _ _ _ := trivial
  canon_empty {m} _ h := by
    have hcard : m.keys.card = 0 := of_decide_eq_true h
    have hkeys := Finset.card_eq_zero.mp hcard
    refine Finmap.ext_lookup fun key => ?_
    have hnone : key ∉ m := by
      rw [← Finmap.mem_keys, hkeys]
      exact Finset.notMem_empty key
    exact Finmap.lookup_eq_none.mpr hnone
  isEmpty_canon _ := rfl
  marshal_canon _ := rfl
  marshal {m} _ _ := by
    have helements : ∀ e ∈ (entries m).map fun e => (e.1, encodeString e.2), Element e.2 := by
      intro e he
      obtain ⟨d, -, rfl⟩ := List.mem_map.mp he
      exact element_encodeString d.2
    refine ⟨_, rfl, element_objectText helements, ?_⟩
    have hread : readMap (objectText ((entries m).map fun e => (e.1, encodeString e.2))) ∅ =
        some m := by
      rw [readMap, if_neg (compact_objectText_ne helements), if_pos (isObject_objectText helements),
        members_objectText helements, Option.bind_some, foldlM_setEntry, foldl_entries]
    exact hread
  unmarshal_compact {text old old'} htext hold := by
    obtain rfl : old = old' := hold
    exact congrArg (Option.map id) (readMap_compact htext old)

/-! ### Kinds of fields -/

/-- The Go types of fields. -/
inductive Kind where
  | string
  | int64
  | bool
  | raw
  | stringMap
deriving DecidableEq

namespace Kind

abbrev Value : Kind → Type
  | string => String
  | int64 => Int
  | bool => Bool
  | raw => List UInt8
  | stringMap => StringMap

def coder : (kind : Kind) → Coder kind.Value
  | string => stringCoder
  | int64 => intCoder
  | bool => boolCoder
  | raw => rawCoder
  | stringMap => mapCoder

def lawful : (kind : Kind) → (omitempty : Bool) → (kind = raw → omitempty = true) →
    kind.coder.Lawful omitempty
  | string, omitempty, _ => stringCoder_lawful omitempty
  | int64, omitempty, _ => intCoder_lawful omitempty
  | bool, omitempty, _ => boolCoder_lawful omitempty
  | raw, true, _ => rawCoder_lawful
  | raw, false, h => Bool.noConfusion (h rfl)
  | stringMap, omitempty, _ => mapCoder_lawful omitempty

end Kind

/-- The tag of a field. -/
structure Tag where
  name : String
  kind : Kind
  omitempty : Bool := false

/-! ### Structs -/

/-- The fields of a struct: in the order in which they are written, each with the name and
    the option of its tag. A value of the struct is a function on them. -/
structure Schema (ι : Type) [DecidableEq ι] (α : ι → Type) where
  fields : List ι
  complete : ∀ i, i ∈ fields
  name : ι → String
  names_nodup : (fields.map name).Nodup
  omitempty : ι → Bool
  coder : (i : ι) → Coder (α i)

/-- The letters that `equalFold` takes for one: U+212A is the Kelvin sign, U+017F the
    long s. -/
def foldChar (c : Char) : Char :=
  if c = '\u212A' then 'k' else if c = '\u017F' then 's' else c.toLower

def foldKey (key : String) : List Char := key.toList.map foldChar

namespace Schema

variable {ι : Type} [DecidableEq ι] {α : ι → Type} (S : Schema ι α)

def zero : (i : ι) → α i := fun i => (S.coder i).zero

/-- The field is left out. -/
def omits (record : (i : ι) → α i) (i : ι) : Bool :=
  S.omitempty i && (S.coder i).isEmpty (record i)

/-- The members that are written for some of the fields. -/
def marshalFields (record : (i : ι) → α i) : List ι → Option (List (String × List UInt8))
  | [] => some []
  | i :: rest =>
      if S.omits record i then marshalFields record rest
      else do
        let text ← (S.coder i).marshal (record i)
        return (S.name i, text) :: (← marshalFields record rest)

def marshal (record : (i : ι) → α i) : Option (List UInt8) :=
  (S.marshalFields record S.fields).map objectText

/-- The field of a key: the one whose name it is, or else the first that it is the name of
    but for case. -/
def field? (key : String) : Option ι :=
  (S.fields.find? fun i => S.name i = key).or
    (S.fields.find? fun i => foldKey (S.name i) = foldKey key)

/-- A member of an unknown key is skipped. -/
def setMember (record : (i : ι) → α i) (member : String × List UInt8) :
    Option ((i : ι) → α i) :=
  match S.field? member.1 with
  | none => some record
  | some i => ((S.coder i).unmarshal member.2 (record i)).map (Function.update record i)

def unmarshal (text : List UInt8) (old : (i : ι) → α i) : Option ((i : ι) → α i) :=
  if compact text = nullText then some old
  else if isObject text then (members text).bind fun ms => ms.foldlM S.setMember old
  else none

/-- A struct is never empty. -/
def toCoder : Coder ((i : ι) → α i) where
  zero := S.zero
  isEmpty _ := false
  marshal := S.marshal
  unmarshal := S.unmarshal

theorem nodup : S.fields.Nodup := S.names_nodup.of_map S.name

theorem name_injective : Function.Injective S.name := fun i j h =>
  List.inj_on_of_nodup_map S.names_nodup (S.complete i) (S.complete j) h

theorem field?_name (i : ι) : S.field? (S.name i) = some i := by
  have hfind : S.fields.find? (fun j => S.name j = S.name i) = some i := by
    cases h : S.fields.find? (fun j => S.name j = S.name i) with
    | none => exact absurd (List.find?_eq_none.mp h i (S.complete i)) (by simp)
    | some j => exact congrArg some (S.name_injective (by simpa using List.find?_some h))
  rw [field?, hfind]
  rfl

section Laws

variable {S} (laws : (i : ι) → (S.coder i).Lawful (S.omitempty i))

/-- Every field holds what its variable may hold. -/
def Fit (record : (i : ι) → α i) : Prop := ∀ i, (laws i).Fit (record i)

def canon (record : (i : ι) → α i) : (i : ι) → α i := fun i => (laws i).canon (record i)

theorem fit_zero : Fit laws S.zero := fun i => (laws i).fit_zero

theorem fit_setMember {record record' : (i : ι) → α i} {member : String × List UInt8}
    (hvalid : Valid member.2) (hfit : Fit laws record)
    (h : S.setMember record member = some record') : Fit laws record' := by
  unfold setMember at h
  split at h
  · exact Option.some.inj h ▸ hfit
  · rename_i i hi
    obtain ⟨a, ha, rfl⟩ := Option.map_eq_some_iff.mp h
    intro j
    by_cases hj : j = i
    · subst hj
      rw [Function.update_self]
      exact (laws j).fit_unmarshal hvalid (hfit j) ha
    · rw [Function.update_of_ne hj]
      exact hfit j

theorem fit_foldlM {ms : List (String × List UInt8)} {record record' : (i : ι) → α i}
    (hvalid : ∀ m ∈ ms, Valid m.2) (hfit : Fit laws record)
    (h : ms.foldlM S.setMember record = some record') : Fit laws record' := by
  induction ms generalizing record with
  | nil => exact Option.some.inj h ▸ hfit
  | cons m rest ih =>
      obtain ⟨hm, hrest⟩ := List.forall_mem_cons.mp hvalid
      obtain ⟨record₁, hset, htail⟩ := Option.bind_eq_some_iff.mp h
      exact ih hrest (fit_setMember laws hm hfit hset) htail

theorem fit_unmarshal {text : List UInt8} {old record : (i : ι) → α i} (hold : Fit laws old)
    (h : S.unmarshal text old = some record) : Fit laws record := by
  unfold unmarshal at h
  split_ifs at h
  · exact Option.some.inj h ▸ hold
  · obtain ⟨ms, hms, hfold⟩ := Option.bind_eq_some_iff.mp h
    exact fit_foldlM laws (valid_of_mem_members hms) hold hfold

/-- What is written of some fields sets these, and no others. -/
theorem marshalFields_spec {record : (i : ι) → α i} (hfit : Fit laws record) {fields : List ι}
    (hnodup : fields.Nodup) : ∃ ms, S.marshalFields record fields = some ms ∧
      (∀ m ∈ ms, Element m.2) ∧ ∀ old : (i : ι) → α i, (∀ i ∈ fields, old i = S.zero i) →
        ms.foldlM S.setMember old =
          some fun i => if i ∈ fields then canon laws record i else old i := by
  induction fields with
  | nil => exact ⟨[], rfl, by simp, fun old _ => by simp⟩
  | cons i rest ih =>
      obtain ⟨hi, hrest⟩ := List.nodup_cons.mp hnodup
      obtain ⟨ms, hms, helements, hread⟩ := ih hrest
      by_cases homit : S.omits record i = true
      · refine ⟨ms, (if_pos homit).trans hms, helements, fun old hold => ?_⟩
        obtain ⟨hzero, hold⟩ := List.forall_mem_cons.mp hold
        obtain ⟨hempty, hi₀⟩ := Bool.and_eq_true_iff.mp homit
        rw [hread old hold]
        refine congrArg some (funext fun j => ?_)
        by_cases hj : j = i
        · subst hj
          rw [if_neg hi, if_pos List.mem_cons_self, hzero]
          exact ((laws j).canon_empty hempty hi₀).symm
        · simp [hj]
      · have hshown : ¬ (S.omitempty i = true ∧ (S.coder i).isEmpty (record i) = true) := by
          simpa [omits] using homit
        obtain ⟨text, htext, helement, hunmarshal⟩ := (laws i).marshal (hfit i) hshown
        refine ⟨(S.name i, text) :: ms, ?_, List.forall_mem_cons.mpr ⟨helement, helements⟩,
          fun old hold => ?_⟩
        · rw [marshalFields, if_neg homit, htext, hms]
          rfl
        · obtain ⟨hzero, hold⟩ := List.forall_mem_cons.mp hold
          have hset : S.setMember old (S.name i, text) =
              some (Function.update old i (canon laws record i)) := by
            rw [setMember, field?_name]
            dsimp only
            rw [hzero]
            exact congrArg (Option.map (Function.update old i)) hunmarshal
          have hupdated : ∀ j ∈ rest,
              Function.update old i (canon laws record i) j = S.zero j := by
            intro j hj
            have hne : j ≠ i := fun heq => hi (heq ▸ hj)
            rw [Function.update_of_ne hne, hold j hj]
          rw [List.foldlM_cons, hset, Option.bind_eq_bind, Option.bind_some, hread _ hupdated]
          refine congrArg some (funext fun j => ?_)
          by_cases hj : j = i
          · subst hj
            simp [hi]
          · simp [hj]

/-- **A struct is read as it was written**, up to the form of its raw messages. -/
theorem unmarshal_marshal {record : (i : ι) → α i} (hfit : Fit laws record) :
    ∃ text, S.marshal record = some text ∧ Element text ∧
      S.unmarshal text S.zero = some (canon laws record) := by
  obtain ⟨ms, hms, helements, hread⟩ := marshalFields_spec laws hfit S.nodup
  refine ⟨objectText ms, by rw [marshal, hms]; rfl, element_objectText helements, ?_⟩
  rw [unmarshal, if_neg (compact_objectText_ne helements), if_pos (isObject_objectText helements),
    members_objectText helements, Option.bind_some, hread S.zero fun _ _ => rfl]
  exact congrArg some (funext fun i => if_pos (S.complete i))

/-- The form of its raw messages makes no difference to what is written. -/
theorem marshal_canon {record : (i : ι) → α i} (hfit : Fit laws record) :
    S.marshal (canon laws record) = S.marshal record := by
  have hfields : ∀ fields, S.marshalFields (canon laws record) fields =
      S.marshalFields record fields := by
    intro fields
    induction fields with
    | nil => rfl
    | cons i rest ih =>
        have homits : S.omits (canon laws record) i = S.omits record i :=
          congrArg (S.omitempty i && ·) ((laws i).isEmpty_canon (hfit i))
        have hmarshal : (S.coder i).marshal (canon laws record i) =
            (S.coder i).marshal (record i) := (laws i).marshal_canon (hfit i)
        rw [marshalFields, marshalFields, homits, hmarshal, ih]
  rw [marshal, marshal, hfields]

/-- What is written has every field that is not left out. -/
theorem mem_marshalFields {record : (i : ι) → α i} {fields : List ι}
    {ms : List (String × List UInt8)} (h : S.marshalFields record fields = some ms) {i : ι}
    (hi : i ∈ fields) (hshown : S.omits record i = false) :
    ∃ text, (S.coder i).marshal (record i) = some text ∧ (S.name i, text) ∈ ms := by
  induction fields generalizing ms with
  | nil => cases hi
  | cons j rest ih =>
      rw [marshalFields] at h
      by_cases homit : S.omits record j = true
      · rw [if_pos homit] at h
        rcases List.mem_cons.mp hi with rfl | hrest
        · rw [hshown] at homit
          cases homit
        · exact ih h hrest
      · rw [if_neg homit] at h
        obtain ⟨text, htext, h⟩ := Option.bind_eq_some_iff.mp h
        obtain ⟨tail, htail, h⟩ := Option.bind_eq_some_iff.mp h
        cases h
        rcases List.mem_cons.mp hi with rfl | hrest
        · exact ⟨text, htext, List.mem_cons_self⟩
        · obtain ⟨text', htext', hmem⟩ := ih htail hrest
          exact ⟨text', htext', List.mem_cons_of_mem _ hmem⟩

theorem setMember_compact {record record' : (i : ι) → α i} {member : String × List UInt8}
    (hvalid : Valid member.2) (hcanon : canon laws record = canon laws record') :
    (S.setMember record (member.1, compact member.2)).map (canon laws) =
      (S.setMember record' member).map (canon laws) := by
  unfold setMember
  cases S.field? member.1 with
  | none => exact congrArg some hcanon
  | some i =>
      have hread := (laws i).unmarshal_compact hvalid (congrFun hcanon i)
      dsimp only
      cases h : (S.coder i).unmarshal (compact member.2) (record i) with
      | none =>
          rw [h] at hread
          rw [Option.map_eq_none_iff.mp hread.symm]
          rfl
      | some a =>
          rw [h] at hread
          obtain ⟨a', ha', heq⟩ := Option.map_eq_some_iff.mp hread.symm
          rw [ha']
          refine congrArg some (funext fun j => ?_)
          by_cases hj : j = i
          · subst hj
            simpa [canon] using heq.symm
          · simpa [canon, hj] using congrFun hcanon j

theorem foldlM_compact {ms : List (String × List UInt8)} {record record' : (i : ι) → α i}
    (hvalid : ∀ m ∈ ms, Valid m.2) (hcanon : canon laws record = canon laws record') :
    ((ms.map fun m => (m.1, compact m.2)).foldlM S.setMember record).map (canon laws) =
      (ms.foldlM S.setMember record').map (canon laws) := by
  induction ms generalizing record record' with
  | nil => exact congrArg some hcanon
  | cons m rest ih =>
      obtain ⟨hm, hrest⟩ := List.forall_mem_cons.mp hvalid
      have hset := setMember_compact laws hm hcanon
      rw [List.map_cons, List.foldlM_cons, List.foldlM_cons]
      cases h : S.setMember record (m.1, compact m.2) with
      | none =>
          rw [h] at hset
          rw [Option.map_eq_none_iff.mp hset.symm]
          rfl
      | some result =>
          rw [h] at hset
          obtain ⟨result', hresult', heq⟩ := Option.map_eq_some_iff.mp hset.symm
          rw [hresult']
          exact ih hrest heq.symm

/-- A struct is read of what is left without white space. -/
theorem unmarshal_compact {text : List UInt8} (h : Valid text) {old old' : (i : ι) → α i}
    (hcanon : canon laws old = canon laws old') :
    (S.unmarshal (compact text) old).map (canon laws) =
      (S.unmarshal text old').map (canon laws) := by
  unfold unmarshal
  rw [compact_compact, isObject_compact]
  split_ifs
  · exact congrArg some hcanon
  · rw [members_compact h]
    cases hms : members text with
    | none => rfl
    | some ms =>
        exact foldlM_compact laws (valid_of_mem_members hms) hcanon
  · rfl

/-- White space after a struct is not read. -/
theorem unmarshal_append_spaces {text spaces : List UInt8} (h : Valid text)
    (hspaces : ∀ c ∈ spaces, isSpace c = true) (old : (i : ι) → α i) :
    S.unmarshal (text ++ spaces) old = S.unmarshal text old := by
  unfold unmarshal isObject
  rw [compact_append_spaces h hspaces, members_append_spaces h hspaces]

/-- **A struct is lawful when its fields are.** -/
def lawful (omitempty : Bool) : S.toCoder.Lawful omitempty where
  Fit := Fit laws
  canon := canon laws
  fit_zero := fit_zero laws
  fit_unmarshal _ hold h := fit_unmarshal laws hold h
  canon_empty _ h := by cases h
  isEmpty_canon _ := rfl
  marshal_canon hfit := marshal_canon laws hfit
  marshal hfit _ := unmarshal_marshal laws hfit
  unmarshal_compact htext hold := unmarshal_compact laws htext hold

end Laws

end Schema

end JsonText
