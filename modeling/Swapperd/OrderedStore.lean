/-
  Swapperd/OrderedStore.lean
  ==========================
  **Stores that are listed in the order of their keys.**

  A store is a list of entries with increasing keys.  `get`, `put` and `erase` work on
  one key, `range` lists the entries from a key up to, and without, a limit.  Where keys
  are strings that begin with the name of a table, the range from a table's least key to
  its greatest lists that table without the greatest (`mem_range_table`).
-/
import Mathlib.Data.List.Lex
import Mathlib.Order.Lattice

/-- Entries in the order of their keys. -/
structure OrderedStore (K V : Type) [LinearOrder K] where
  entries : List (K × V)
  sorted : entries.Pairwise fun a b => a.1 < b.1

namespace OrderedStore

variable {K V : Type} [LinearOrder K]

/-! ### Operations -/

def empty : OrderedStore K V := ⟨[], .nil⟩

def get (s : OrderedStore K V) (k : K) : Option V :=
  (s.entries.find? fun e => e.1 = k).map Prod.snd

def insertEntry (k : K) (v : V) : List (K × V) → List (K × V)
  | [] => [(k, v)]
  | e :: rest =>
      if k < e.1 then (k, v) :: e :: rest
      else if k = e.1 then (k, v) :: rest
      else e :: insertEntry k v rest

theorem mem_insertEntry_of_mem {k : K} {v : V} {l : List (K × V)} {e : K × V}
    (h : e ∈ insertEntry k v l) : e = (k, v) ∨ e ∈ l := by
  induction l with
  | nil =>
      left
      simpa [insertEntry] using h
  | cons d rest ih =>
      unfold insertEntry at h
      split at h
      · exact List.mem_cons.mp h
      · split at h
        · rcases List.mem_cons.mp h with heq | hrest
          · exact .inl heq
          · exact .inr (List.mem_cons_of_mem _ hrest)
        · rcases List.mem_cons.mp h with rfl | hrest
          · exact .inr List.mem_cons_self
          · exact (ih hrest).imp_right (List.mem_cons_of_mem _)

theorem insertEntry_sorted {k : K} {v : V} {l : List (K × V)}
    (h : l.Pairwise fun a b => a.1 < b.1) :
    (insertEntry k v l).Pairwise fun a b => a.1 < b.1 := by
  induction l with
  | nil => simp [insertEntry]
  | cons d rest ih =>
      obtain ⟨hhead, hrest⟩ := List.pairwise_cons.mp h
      unfold insertEntry
      split
      · rename_i hlt
        apply List.pairwise_cons.mpr
        refine ⟨?_, h⟩
        intro e he
        rcases List.mem_cons.mp he with rfl | he
        · exact hlt
        · exact hlt.trans (hhead e he)
      · rename_i hnlt
        split
        · rename_i heq
          subst heq
          exact List.pairwise_cons.mpr ⟨hhead, hrest⟩
        · rename_i hne
          apply List.pairwise_cons.mpr
          refine ⟨?_, ih hrest⟩
          intro e he
          rcases mem_insertEntry_of_mem he with rfl | he
          · exact lt_of_le_of_ne (not_lt.mp hnlt) (Ne.symm hne)
          · exact hhead e he

def put (s : OrderedStore K V) (k : K) (v : V) : OrderedStore K V :=
  ⟨insertEntry k v s.entries, insertEntry_sorted s.sorted⟩

def erase (s : OrderedStore K V) (k : K) : OrderedStore K V :=
  ⟨s.entries.filter fun e => e.1 ≠ k, s.sorted.sublist List.filter_sublist⟩

/-- The entries with a value that `p` holds of. -/
def keep (s : OrderedStore K V) (p : V → Bool) : OrderedStore K V :=
  ⟨s.entries.filter fun e => p e.2, s.sorted.sublist List.filter_sublist⟩

/-- The entries from `start` up to `limit`, without `limit`. -/
def range (s : OrderedStore K V) (start limit : K) : List (K × V) :=
  s.entries.filter fun e => start ≤ e.1 ∧ e.1 < limit

/-! ### Entries -/

/-- There is one entry for a key at most. -/
theorem entry_unique {s : OrderedStore K V} {k : K} {v w : V} (hv : (k, v) ∈ s.entries)
    (hw : (k, w) ∈ s.entries) : v = w := by
  obtain ⟨entries, sorted⟩ := s
  dsimp only at hv hw
  induction entries with
  | nil => cases hv
  | cons d rest ih =>
      obtain ⟨hhead, hrest⟩ := List.pairwise_cons.mp sorted
      rcases List.mem_cons.mp hv with rfl | hvrest
      · rcases List.mem_cons.mp hw with heq | hwrest
        · exact (Prod.mk.inj heq).2.symm
        · exact absurd (hhead (k, w) hwrest) (lt_irrefl k)
      · rcases List.mem_cons.mp hw with rfl | hwrest
        · exact absurd (hhead (k, v) hvrest) (lt_irrefl k)
        · exact ih hrest hvrest hwrest

theorem get_eq_some_iff {s : OrderedStore K V} {k : K} {v : V} :
    s.get k = some v ↔ (k, v) ∈ s.entries := by
  unfold get
  constructor
  · intro h
    obtain ⟨e, he, rfl⟩ := Option.map_eq_some_iff.mp h
    have hkey : e.1 = k := by simpa using List.find?_some he
    subst hkey
    exact List.mem_of_find?_eq_some he
  · intro h
    cases hfind : s.entries.find? fun e => e.1 = k with
    | none => simpa using List.find?_eq_none.mp hfind _ h
    | some e =>
        have hkey : e.1 = k := by simpa using List.find?_some hfind
        have hmem : (k, e.2) ∈ s.entries := by
          rw [← hkey]
          exact List.mem_of_find?_eq_some hfind
        rw [entry_unique h hmem]
        rfl

theorem mem_put {s : OrderedStore K V} {k : K} {v : V} {e : K × V} :
    e ∈ (s.put k v).entries ↔ e = (k, v) ∨ e.1 ≠ k ∧ e ∈ s.entries := by
  obtain ⟨entries, sorted⟩ := s
  change e ∈ insertEntry k v entries ↔ e = (k, v) ∨ e.1 ≠ k ∧ e ∈ entries
  induction entries with
  | nil => simp [insertEntry]
  | cons d rest ih =>
      obtain ⟨hhead, hrest⟩ := List.pairwise_cons.mp sorted
      have hih := ih hrest
      unfold insertEntry
      split
      · rename_i hlt
        have habove : ∀ e ∈ d :: rest, e.1 ≠ k := by
          intro e he heq
          rcases List.mem_cons.mp he with rfl | he
          · exact absurd heq hlt.ne'
          · exact absurd heq (hlt.trans (hhead e he)).ne'
        rw [List.mem_cons]
        exact or_congr_right ⟨fun he => ⟨habove e he, he⟩, fun he => he.2⟩
      · split
        · rename_i heq
          subst heq
          have habove : ∀ e ∈ rest, e.1 ≠ d.1 := fun e he => (hhead e he).ne'
          rw [List.mem_cons, List.mem_cons]
          refine or_congr_right ⟨fun he => ⟨habove e he, .inr he⟩, ?_⟩
          rintro ⟨hne, rfl | he⟩
          · exact absurd rfl hne
          · exact he
        · rename_i hne
          rw [List.mem_cons, List.mem_cons, hih]
          constructor
          · rintro (rfl | rfl | ⟨hek, he⟩)
            · exact .inr ⟨Ne.symm hne, .inl rfl⟩
            · exact .inl rfl
            · exact .inr ⟨hek, .inr he⟩
          · rintro (rfl | ⟨hek, rfl | he⟩)
            · exact .inr (.inl rfl)
            · exact .inl rfl
            · exact .inr (.inr ⟨hek, he⟩)

theorem mem_erase {s : OrderedStore K V} {k : K} {e : K × V} :
    e ∈ (s.erase k).entries ↔ e.1 ≠ k ∧ e ∈ s.entries := by
  unfold erase
  rw [List.mem_filter]
  simp [and_comm]

theorem mem_range {s : OrderedStore K V} {start limit : K} {e : K × V} :
    e ∈ s.range start limit ↔ s.get e.1 = some e.2 ∧ start ≤ e.1 ∧ e.1 < limit := by
  unfold range
  rw [List.mem_filter, get_eq_some_iff]
  simp

theorem range_keep (s : OrderedStore K V) (p : V → Bool) (start limit : K) :
    (s.keep p).range start limit = (s.range start limit).filter fun e => p e.2 := by
  unfold range keep
  exact List.filter_comm _ _ _

/-- A listing has its keys in order, each of them once. -/
theorem range_keys_nodup (s : OrderedStore K V) (start limit : K) :
    ((s.range start limit).map Prod.fst).Nodup := by
  apply List.Pairwise.map _ (R := fun a b => a.1 < b.1)
  · intro a b h
    exact h.ne
  · exact s.sorted.sublist List.filter_sublist

/-! ### Reading after writing -/

theorem get_ext {s t : OrderedStore K V} {k l : K}
    (h : ∀ v, (k, v) ∈ s.entries ↔ (l, v) ∈ t.entries) : s.get k = t.get l := by
  apply Option.ext
  intro v
  rw [get_eq_some_iff, get_eq_some_iff, h]

@[simp] theorem get_empty (k : K) : (empty : OrderedStore K V).get k = none := rfl

theorem get_put (s : OrderedStore K V) (k l : K) (v : V) :
    (s.put k v).get l = if l = k then some v else s.get l := by
  split
  · rename_i heq
    rw [get_eq_some_iff, mem_put, heq]
    exact .inl rfl
  · rename_i hne
    apply get_ext
    intro w
    rw [mem_put]
    simp [hne]

theorem get_erase (s : OrderedStore K V) (k l : K) :
    (s.erase k).get l = if l = k then none else s.get l := by
  split
  · rename_i heq
    apply Option.eq_none_iff_forall_not_mem.mpr
    intro w hw
    exact (mem_erase.mp (get_eq_some_iff.mp hw)).1 heq
  · rename_i hne
    apply get_ext
    intro w
    rw [mem_erase]
    simp [hne]

/-! ### Writing a key that is there -/

theorem insertEntry_of_mem {k : K} {v w : V} {l : List (K × V)}
    (hsorted : l.Pairwise fun a b => a.1 < b.1) (h : (k, w) ∈ l) :
    insertEntry k v l = l.map fun e => if e.1 = k then (k, v) else e := by
  induction l with
  | nil => cases h
  | cons d rest ih =>
      obtain ⟨hhead, hrest⟩ := List.pairwise_cons.mp hsorted
      unfold insertEntry
      rcases List.mem_cons.mp h with rfl | htail
      · -- the keys behind it are greater
        have habove : rest.map (fun e => if e.1 = k then (k, v) else e) = rest := by
          apply List.map_congr_left (g := id) (fun e he => if_neg (hhead e he).ne') |>.trans
          exact List.map_id rest
        simp [habove]
      · have hlt := hhead (k, w) htail
        rw [if_neg (not_lt.mpr hlt.le), if_neg hlt.ne', ih hrest htail, List.map_cons,
          if_neg hlt.ne]

/-- Writing a key that is there changes its value, and the order of nothing. -/
theorem range_put_of_get {s : OrderedStore K V} {k : K} {v w : V} (h : s.get k = some w)
    (start limit : K) : (s.put k v).range start limit =
      (s.range start limit).map fun e => if e.1 = k then (k, v) else e := by
  have hentries : (s.put k v).entries = s.entries.map fun e => if e.1 = k then (k, v) else e :=
    insertEntry_of_mem s.sorted (get_eq_some_iff.mp h)
  unfold range
  rw [hentries, List.filter_map]
  congr 1
  apply List.filter_congr
  intro e _
  by_cases hkey : e.1 = k
  · simp [hkey]
  · simp [hkey]

/-! ### Tables

Keys are strings over ordered letters: the name of a table, and a key in the table. -/

section Tables

variable {α : Type} [LinearOrder α] {m M : α}

theorem append_lt_append_iff {t k l : List α} : t ++ k < t ++ l ↔ k < l := by
  induction t with
  | nil => rfl
  | cons a t ih =>
      rw [List.cons_append, List.cons_append, List.cons_lt_cons_iff, ih]
      simp

theorem append_lt_append_of_lt {t u k l : List α} (hlen : t.length = u.length) (h : t < u) :
    t ++ k < u ++ l := by
  induction t generalizing u with
  | nil =>
      have hu : u = [] := List.length_eq_zero_iff.mp hlen.symm
      subst hu
      exact absurd h (lt_irrefl _)
  | cons a t ih =>
      cases u with
      | nil => cases hlen
      | cons b u =>
          rw [List.cons_append, List.cons_append, List.cons_lt_cons_iff]
          rcases List.cons_lt_cons_iff.mp h with hab | ⟨rfl, htu⟩
          · exact .inl hab
          · exact .inr ⟨rfl, ih (by simpa using hlen) htu⟩

theorem replicate_le (hm : ∀ a, m ≤ a) (k : List α) : List.replicate k.length m ≤ k := by
  induction k with
  | nil => exact le_refl _
  | cons a k ih =>
      apply not_lt.mp
      intro h
      rcases List.cons_lt_cons_iff.mp h with ham | ⟨-, hk⟩
      · exact absurd ham (not_lt.mpr (hm a))
      · exact absurd hk (not_lt.mpr ih)

theorem le_replicate (hM : ∀ a, a ≤ M) (k : List α) : k ≤ List.replicate k.length M := by
  induction k with
  | nil => exact le_refl _
  | cons a k ih =>
      apply not_lt.mp
      intro h
      rcases List.cons_lt_cons_iff.mp h with ham | ⟨-, hk⟩
      · exact absurd ham (not_lt.mpr (hM a))
      · exact absurd hk (not_lt.mpr ih)

/-- **The range of a table** has every key of the table but the greatest, and no key of
    another table with a name of that length. -/
theorem mem_range_table (hm : ∀ a, m ≤ a) (hM : ∀ a, a ≤ M) {V : Type}
    {s : OrderedStore (List α) V} {t u k : List α} {v : V} (hlen : u.length = t.length) :
    (u ++ k, v) ∈ s.range (t ++ List.replicate k.length m) (t ++ List.replicate k.length M) ↔
      u = t ∧ k ≠ List.replicate k.length M ∧ s.get (t ++ k) = some v := by
  rw [mem_range]
  constructor
  · rintro ⟨hget, hstart, hlimit⟩
    have htable : u = t := by
      rcases lt_trichotomy u t with hlt | heq | hgt
      · exact absurd (append_lt_append_of_lt hlen hlt) (not_lt.mpr hstart)
      · exact heq
      · exact absurd (append_lt_append_of_lt hlen.symm hgt) (not_lt.mpr hlimit.le)
    subst htable
    exact ⟨rfl, (append_lt_append_iff.mp hlimit).ne, hget⟩
  · rintro ⟨rfl, hne, hget⟩
    refine ⟨hget, ?_, ?_⟩
    · apply not_lt.mp
      intro h
      exact absurd (append_lt_append_iff.mp h) (not_lt.mpr (replicate_le hm k))
    · exact append_lt_append_iff.mpr (lt_of_le_of_ne (le_replicate hM k) hne)

end Tables

end OrderedStore
