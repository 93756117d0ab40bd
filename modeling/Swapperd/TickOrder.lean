/-
  Swapperd/TickOrder.lean
  =======================
  **Ticks that visit the map in any order**, independent of any one task.

  A world has a part for each key, and a server answers a call from the part of its key
  (`perKey`).  A task is *local* when handling a request makes calls for its own key
  only, changes its own entry only, and does both without looking at the map.  Then a
  tick gives every entry what handling it alone gives (`Visits.handlesEach`), and two ticks
  that visit the map in two orders end in one state (`orderIndependent`).
-/
import Swapperd.RetryTask

namespace CallProgram

variable {Op : Type} {Reply : Op → Type} {α β : Type}

/-! ### Programs that make the same calls -/

/-- The programs make the same calls, all of which satisfy `P`, on the same replies, and end
    with related values. -/
inductive Program.Alike (P : Op → Prop) (R : α → β → Prop) :
    Program Op Reply α → Program Op Reply β → Prop where
  | pure {a : α} {b : β} : R a b → Alike P R (.pure a) (.pure b)
  | call {op : Op} {f : Reply op → Program Op Reply α} {g : Reply op → Program Op Reply β} :
      P op → (∀ r, Alike P R (f r) (g r)) → Alike P R (.call op f) (.call op g)

section Alike

variable {P : Op → Prop} {R : α → β → Prop}

theorem Program.Alike.perform_bind {op : Op} {f : Reply op → Program Op Reply α}
    {g : Reply op → Program Op Reply β} (hop : P op) (h : ∀ r, Alike P R (f r) (g r)) :
    Alike P R (perform op >>= f) (perform op >>= g) :=
  .call hop h

theorem Program.Alike.ite {c : Prop} [Decidable c] {p p' : Program Op Reply α}
    {q q' : Program Op Reply β} (hthen : c → Alike P R p q) (helse : ¬ c → Alike P R p' q') :
    Alike P R (if c then p else p') (if c then q else q') := by
  by_cases hc : c
  · rw [if_pos hc, if_pos hc]
    exact hthen hc
  · rw [if_neg hc, if_neg hc]
    exact helse hc

theorem Program.Alike.performs {p : Program Op Reply α} {q : Program Op Reply β}
    (h : Alike P R p q) : p.Performs P := by
  induction h with
  | pure => trivial
  | call hop _ ih => exact ⟨hop, ih⟩

end Alike

/-! ### Servers -/

variable {K σ : Type} [DecidableEq K]

/-- The reply to a call and the state after it. -/
abbrev Server (Op : Type) (Reply : Op → Type) (σ : Type) := (op : Op) → σ → Reply op × σ

/-- Every call is served from the state of its own key. -/
def perKey (key : Op → K) (serve : Server Op Reply σ) : Behaviour Op Reply (K → σ) Unit :=
  fun op w _ reply w' =>
    reply = (serve op (w (key op))).1 ∧
      w' = Function.update w (key op) (serve op (w (key op))).2

variable {key : Op → K} {serve : Server Op Reply σ}

/-- A server answers every call. -/
theorem exists_exec (key : Op → K) (serve : Server Op Reply σ) (p : Program Op Reply α)
    (w : K → σ) :
    ∃ events a w', Exec (perKey key serve) p w events a w' := by
  induction p generalizing w with
  | pure a => exact ⟨[], a, w, .pure a w⟩
  | call op f ih =>
      obtain ⟨events, a, w', h⟩ := ih (serve op (w (key op))).1
        (Function.update w (key op) (serve op (w (key op))).2)
      exact ⟨⟨op, w, (), _, _⟩ :: events, a, w', .call ⟨rfl, rfl⟩ h⟩

section Exec

variable {p : Program Op Reply α} {w w' : K → σ}
  {events : List (Event Op Reply (K → σ) Unit)} {a : α} {k : K}

/-- Calls for one key leave the states of the others as they are. -/
theorem Exec.frame (h : Exec (perKey key serve) p w events a w')
    (hown : p.Performs fun op => key op = k) {k' : K} (hk : k' ≠ k) : w' k' = w k' := by
  induction h with
  | pure => rfl
  | call hstep _ ih =>
      obtain ⟨rfl, hrest⟩ := hown
      rw [ih (hrest _), hstep.2, Function.update_of_ne hk]

/-- Programs that make the same calls for one key get the same answers from one state of
    that key. -/
theorem Exec.alike {q : Program Op Reply β} {R : α → β → Prop} {v v' : K → σ}
    {events' : List (Event Op Reply (K → σ) Unit)} {b : β}
    (h : Exec (perKey key serve) p w events a w') (h' : Exec (perKey key serve) q v events' b v')
    (halike : p.Alike (fun op => key op = k) R q) (hstate : w k = v k) :
    events.map Event.call = events'.map Event.call ∧ R a b ∧ w' k = v' k := by
  induction halike generalizing w v events events' with
  | pure hR =>
      obtain ⟨rfl, rfl, rfl⟩ := exec_pure_iff.mp h
      obtain ⟨rfl, rfl, rfl⟩ := exec_pure_iff.mp h'
      exact ⟨rfl, hR, hstate⟩
  | @call op f g hop _ ih =>
      subst hop
      obtain ⟨_, _, _, rest, rfl, ⟨rfl, rfl⟩, h⟩ := exec_call_iff.mp h
      obtain ⟨_, _, _, rest', rfl, ⟨rfl, rfl⟩, h'⟩ := exec_call_iff.mp h'
      rw [← hstate] at h'
      have hnext : Function.update w (key op) (serve op (w (key op))).2 (key op) =
          Function.update v (key op) (serve op (w (key op))).2 (key op) := by
        rw [Function.update_self, Function.update_self]
      obtain ⟨hcalls, hend⟩ := ih _ h h' hnext
      refine ⟨?_, hend⟩
      simp only [List.map_cons, hcalls]
      simp [Event.call, hstate]

end Exec

end CallProgram

namespace RetryTask

open CallProgram TransitionRuns

variable {Op : Type} {Reply : Op → Type} {K Req Msg σ : Type} [DecidableEq K]

/-! ### Local tasks -/

/-- What handling a request does to the map. -/
inductive Change (K Req : Type) where
  | keep
  | insert (k : K) (req : Req)
  | erase (k : K)

def Change.apply (store : Store K Req) : Change K Req → Store K Req
  | .keep => store
  | .insert k req => store.insert k req
  | .erase k => store.erase k

theorem Change.apply_lookup {store store' : Store K Req} {k : K}
    (h : store.lookup k = store'.lookup k) (d : Change K Req) :
    (d.apply store).lookup k = (d.apply store').lookup k := by
  cases d with
  | keep => exact h
  | insert k' req =>
      by_cases hk : k = k'
      · subst hk
        simp [Change.apply]
      · simp [Change.apply, Finmap.lookup_insert_of_ne _ hk, h]
  | erase k' =>
      by_cases hk : k = k'
      · subst hk
        simp [Change.apply]
      · simp [Change.apply, Finmap.lookup_erase_ne hk, h]

/-- The same messages, and the same change of two maps. -/
def SameChange (store store' : Store K Req) (a b : Store K Req × List Msg) : Prop :=
  a.2 = b.2 ∧ ∃ d : Change K Req, a.1 = d.apply store ∧ b.1 = d.apply store'

structure IsLocal (T : Task Op Reply K Req Msg) (key : Op → K) (serve : Server Op Reply σ) :
    Prop where
  /-- Calls are made for the request's key, and the map is not looked at. -/
  alike : ∀ store store' req, (T.handle store req).Alike (fun op => key op = T.key req)
    (SameChange store store') (T.handle store' req)
  /-- Only the request's own entry changes. -/
  entries : ∀ {s : Store K Req × (K → σ)} {p s'}, PassStep (perKey key serve) T s p s' →
    ∀ k ≠ T.key p.req, s'.1.lookup k = s.1.lookup k

abbrev ServedPass (Op : Type) (Reply : Op → Type) (K σ Req Msg : Type) :=
  Pass Op Reply (K → σ) Unit Req Msg

/-- The entry and the state of a key. -/
def SameAt (k : K) (s s' : Store K Req × (K → σ)) : Prop :=
  s.1.lookup k = s'.1.lookup k ∧ s.2 k = s'.2 k

theorem SameAt.refl (k : K) (s : Store K Req × (K → σ)) : SameAt k s s := ⟨rfl, rfl⟩

theorem SameAt.symm {k : K} {s s' : Store K Req × (K → σ)} (h : SameAt k s s') :
    SameAt k s' s := ⟨h.1.symm, h.2.symm⟩

theorem SameAt.trans {k : K} {s₁ s₂ s₃ : Store K Req × (K → σ)} (h : SameAt k s₁ s₂)
    (h' : SameAt k s₂ s₃) : SameAt k s₁ s₃ := ⟨h.1.trans h'.1, h.2.trans h'.2⟩

theorem eq_of_sameAt {s s' : Store K Req × (K → σ)} (h : ∀ k, SameAt k s s') : s = s' :=
  Prod.ext (Finmap.ext_lookup fun k => (h k).1) (funext fun k => (h k).2)

variable {T : Task Op Reply K Req Msg} {key : Op → K} {serve : Server Op Reply σ}

section Passes

variable {s s' : Store K Req × (K → σ)} {p : ServedPass Op Reply K σ Req Msg}

theorem PassStep.frame (hT : IsLocal T key serve) (h : PassStep (perKey key serve) T s p s')
    {k : K} (hk : k ≠ T.key p.req) : SameAt k s' s :=
  ⟨hT.entries h k hk, h.1.frame (hT.alike _ s.1 _).performs hk⟩

/-- Handling a request gives the same from every state that agrees on its key. -/
theorem PassStep.alike (hT : IsLocal T key serve) {s₀ s₀' : Store K Req × (K → σ)}
    {p₀ : ServedPass Op Reply K σ Req Msg} (h : PassStep (perKey key serve) T s p s')
    (h₀ : PassStep (perKey key serve) T s₀ p₀ s₀') (hreq : p.req = p₀.req)
    (hsame : SameAt (T.key p.req) s s₀) :
    p.calls = p₀.calls ∧ p.batch = p₀.batch ∧ SameAt (T.key p.req) s' s₀' := by
  have hexec := h₀.1
  rw [← hreq] at hexec
  obtain ⟨hcalls, ⟨hbatch, d, hs', hs₀'⟩, hstate⟩ :=
    h.1.alike hexec (hT.alike _ _ _) hsame.2
  refine ⟨hcalls, hbatch, ?_, hstate⟩
  rw [show s'.1 = _ from hs', show s₀'.1 = _ from hs₀']
  exact d.apply_lookup hsame.1

end Passes

/-! ### Ticks -/

abbrev ServedVisit (Op : Type) (Reply : Op → Type) (K σ Req Msg : Type) :=
  Transition (Store K Req × (K → σ)) (ServedPass Op Reply K σ Req Msg)

/-- The visits of a tick attempt every entry of the map once, in the given order, and do
    with it what handling it alone does, in any state that has the same at its key. -/
structure HandlesEach (T : Task Op Reply K Req Msg) (key : Op → K) (serve : Server Op Reply σ)
    (order : List K) (s : Store K Req × (K → σ)) (ts : List (ServedVisit Op Reply K σ Req Msg))
    (s' : Store K Req × (K → σ)) : Prop where
  once : ts.map (fun t => T.key t.label.req) = order
  present : ∀ t ∈ ts, s.1.lookup (T.key t.label.req) = some t.label.req
  absent : ∀ k ∉ order, SameAt k s' s
  alone : ∀ t ∈ ts, ∀ s₀ p s₀', PassStep (perKey key serve) T s₀ p s₀' → p.req = t.label.req →
    SameAt (T.key p.req) s₀ s →
    t.label.calls = p.calls ∧ t.label.batch = p.batch ∧ SameAt (T.key p.req) s' s₀'

section Visits

variable {order : List K} {s s' : Store K Req × (K → σ)}
  {ts : List (ServedVisit Op Reply K σ Req Msg)}

/-- A tick leaves keys that it does not visit as they are. -/
theorem Visits.frame (hT : IsLocal T key serve) (h : Visits (perKey key serve) T order s ts s')
    {k : K} (hk : ∀ t ∈ ts, k ≠ T.key t.label.req) : SameAt k s' s := by
  induction h with
  | nil => exact .refl _ _
  | skip _ _ ih => exact ih hk
  | visit _ hpass _ ih =>
      have hfirst := PassStep.frame hT hpass (hk _ List.mem_cons_self)
      exact (ih fun t ht => hk t (List.mem_cons_of_mem _ ht)).trans hfirst

/-- Each visit starts with what the tick found at its key, and the tick ends with what the
    visit left there. -/
theorem Visits.around (hT : IsLocal T key serve) (h : Visits (perKey key serve) T order s ts s')
    (hnodup : (ts.map fun t => T.key t.label.req).Nodup) :
    ∀ t ∈ ts, SameAt (T.key t.label.req) t.source s ∧
      SameAt (T.key t.label.req) s' t.target := by
  induction h with
  | nil => simp
  | skip _ _ ih => exact ih hnodup
  | @visit ks s s₁ s' p ts _ hpass hrest ih =>
      simp only [List.map_cons, List.nodup_cons] at hnodup
      obtain ⟨hnot, hnodup⟩ := hnodup
      intro t ht
      rcases List.mem_cons.mp ht with rfl | ht
      · refine ⟨.refl _ _, hrest.frame hT ?_⟩
        intro t ht heq
        exact hnot (List.mem_map.mpr ⟨t, ht, heq.symm⟩)
      · have hne : T.key t.label.req ≠ T.key p.req := fun heq =>
          hnot (List.mem_map.mpr ⟨t, ht, heq⟩)
        obtain ⟨hsource, htarget⟩ := ih hnodup t ht
        exact ⟨hsource.trans (PassStep.frame hT hpass hne), htarget⟩

theorem Visits.handlesEach (hT : IsLocal T key serve)
    (h : Visits (perKey key serve) T order s ts s') (hnodup : order.Nodup)
    (hmem : ∀ k ∈ order, k ∈ s.1) : HandlesEach T key serve order s ts s' := by
  have honce : ts.map (fun t => T.key t.label.req) = order := by
    refine h.keys (C := fun _ => True) ?_ (fun _ _ => trivial) hnodup hmem
    intro s p s' hpass _ k hk hin
    rw [← Finmap.lookup_isSome] at hin ⊢
    rwa [hT.entries hpass k hk]
  have haround := h.around hT (honce ▸ hnodup)
  refine ⟨honce, ?_, ?_, ?_⟩
  · intro t ht
    have hretry := (h.run.step_of_mem t ht).2 (h.retry t ht)
    rw [← hretry]
    exact (haround t ht).1.1.symm
  · intro k hk
    apply h.frame hT
    rintro t ht rfl
    exact hk (honce ▸ List.mem_map_of_mem ht)
  · intro t ht s₀ p s₀' hpass hreq hsame
    obtain ⟨hsource, htarget⟩ := haround t ht
    rw [hreq] at hsame ⊢
    obtain ⟨hcalls, hbatch, hafter⟩ := (h.run.step_of_mem t ht).alike hT hpass hreq.symm
      (hsource.trans hsame.symm)
    exact ⟨hcalls, hbatch, htarget.trans hafter⟩

end Visits

/-! ### Two ticks -/

/-- A request can be handled in every state that holds it. -/
theorem exists_pass (key : Op → K) (serve : Server Op Reply σ) (s : Store K Req × (K → σ))
    {req : Req}
    (hreq : s.1.lookup (T.key req) = some req) :
    ∃ p s', PassStep (perKey key serve) T s p s' ∧ p.req = req := by
  obtain ⟨events, ⟨store, batch⟩, w, hexec⟩ :=
    exists_exec key serve (T.handle s.1 req) s.2
  exact ⟨⟨req, true, events, batch⟩, (store, w), ⟨hexec, fun _ => hreq⟩, rfl⟩

/-- The batch that a visit emits, with the key that it is for. -/
def keyedBatch (T : Task Op Reply K Req Msg) (t : ServedVisit Op Reply K σ Req Msg) :
    K × List Msg :=
  (T.key t.label.req, t.label.batch)

section TwoTicks

variable {order order' : List K} {s s₁ s₂ : Store K Req × (K → σ)}
  {ts ts' : List (ServedVisit Op Reply K σ Req Msg)}

/-- Two ticks do the same at a key that both visit. -/
theorem HandlesEach.same_visit (h : HandlesEach T key serve order s ts s₁)
    (h' : HandlesEach T key serve order' s ts' s₂) {t t' : ServedVisit Op Reply K σ Req Msg}
    (ht : t ∈ ts) (ht' : t' ∈ ts') (hkey : T.key t.label.req = T.key t'.label.req) :
    t.label.batch = t'.label.batch ∧ SameAt (T.key t.label.req) s₁ s₂ := by
  have hpresent := h.present t ht
  have hreq : t.label.req = t'.label.req := by
    have hpresent' := h'.present t' ht'
    rw [← hkey, hpresent] at hpresent'
    exact Option.some.inj hpresent'
  obtain ⟨p, s', hpass, hp⟩ := exists_pass key serve s hpresent
  obtain ⟨-, hbatch, hafter⟩ := h.alone t ht s p s' hpass hp (.refl _ _)
  obtain ⟨-, hbatch', hafter'⟩ := h'.alone t' ht' s p s' hpass (hp.trans hreq) (.refl _ _)
  rw [hp] at hafter hafter'
  exact ⟨hbatch.trans hbatch'.symm, hafter.trans hafter'.symm⟩

theorem HandlesEach.exists_visit (h : HandlesEach T key serve order s ts s₁) {k : K}
    (hk : k ∈ order) : ∃ t ∈ ts, T.key t.label.req = k := by
  rw [← h.once] at hk
  exact List.mem_map.mp hk

/-- The batch of a visit is emitted by every other tick. -/
theorem HandlesEach.keyedBatch_mem (h : HandlesEach T key serve order s ts s₁)
    (h' : HandlesEach T key serve order' s ts' s₂) (horders : ∀ k, k ∈ order ↔ k ∈ order')
    {b : K × List Msg} (hb : b ∈ ts.map (keyedBatch T)) : b ∈ ts'.map (keyedBatch T) := by
  obtain ⟨t, ht, rfl⟩ := List.mem_map.mp hb
  have hk : T.key t.label.req ∈ order := by
    rw [← h.once]
    exact List.mem_map_of_mem ht
  obtain ⟨t', ht', hkey⟩ := h'.exists_visit ((horders _).mp hk)
  refine List.mem_map.mpr ⟨t', ht', ?_⟩
  obtain ⟨hbatch, -⟩ := h.same_visit h' ht ht' hkey.symm
  exact Prod.ext hkey hbatch.symm

theorem HandlesEach.perm (h : HandlesEach T key serve order s ts s₁)
    (h' : HandlesEach T key serve order' s ts' s₂) (hnodup : order.Nodup)
    (hnodup' : order'.Nodup) (horders : ∀ k, k ∈ order ↔ k ∈ order') :
    (ts.map (keyedBatch T)).Perm (ts'.map (keyedBatch T)) := by
  have hkeys : ∀ us : List (ServedVisit Op Reply K σ Req Msg),
      (us.map (keyedBatch T)).map Prod.fst = us.map fun t => T.key t.label.req := by
    intro us
    rw [List.map_map]
    rfl
  have hnodups : (ts.map (keyedBatch T)).Nodup := by
    apply List.Nodup.of_map Prod.fst
    rwa [hkeys, h.once]
  have hnodups' : (ts'.map (keyedBatch T)).Nodup := by
    apply List.Nodup.of_map Prod.fst
    rwa [hkeys, h'.once]
  rw [List.perm_ext_iff_of_nodup hnodups hnodups']
  intro b
  exact ⟨h.keyedBatch_mem h' horders, h'.keyedBatch_mem h fun k => (horders k).symm⟩

theorem HandlesEach.state_eq (h : HandlesEach T key serve order s ts s₁)
    (h' : HandlesEach T key serve order' s ts' s₂) (horders : ∀ k, k ∈ order ↔ k ∈ order') :
    s₁ = s₂ := by
  apply eq_of_sameAt
  intro k
  by_cases hk : k ∈ order
  · obtain ⟨t, ht, rfl⟩ := h.exists_visit hk
    obtain ⟨t', ht', hkey⟩ := h'.exists_visit ((horders _).mp hk)
    exact (h.same_visit h' ht ht' hkey.symm).2
  · exact (h.absent k hk).trans (h'.absent k fun hk' => hk ((horders k).mpr hk')).symm

end TwoTicks

abbrev ServedReduction (Op : Type) (Reply : Op → Type) (K σ Req Msg : Type) :=
  Reduction Op Reply (K → σ) Unit K Req Msg

/-- The visits that a tick consists of, each of which does what handling its entry alone
    does. -/
structure TickVisits (T : Task Op Reply K Req Msg) (key : Op → K) (serve : Server Op Reply σ)
    (order : List K) (s : Store K Req × (K → σ)) (l : ServedReduction Op Reply K σ Req Msg)
    (s' : Store K Req × (K → σ)) (ts : List (ServedVisit Op Reply K σ Req Msg)) : Prop where
  visits : Visits (perKey key serve) T order s ts s'
  handles : HandlesEach T key serve order s ts s'
  events : l.events = ts.flatMap (·.label.events)
  output : l.output = ts.flatMap (·.label.batch)

/-- Ticks from one state that visit the map in two orders end in one state, and emit the same
    batch for every key. -/
structure OrderIndependent (T : Task Op Reply K Req Msg) (key : Op → K)
    (serve : Server Op Reply σ) : Prop where
  possible : ∀ s input, input.Valid s.1 → ∃ l s', l.input = input ∧
    Reduces (perKey key serve) T s l s'
  agree : ∀ s, KeysAgree T.key s.1 → ∀ l₁ l₂ order₁ order₂ s₁ s₂,
    l₁.input = .tick order₁ → l₂.input = .tick order₂ →
    Reduces (perKey key serve) T s l₁ s₁ → Reduces (perKey key serve) T s l₂ s₂ →
    s₁ = s₂ ∧ ∃ ts₁ ts₂, TickVisits T key serve order₁ s l₁ s₁ ts₁ ∧
      TickVisits T key serve order₂ s l₂ s₂ ts₂ ∧
      (ts₁.map (keyedBatch T)).Perm (ts₂.map (keyedBatch T))

theorem exists_tickVisits (hkeys : KeepsKeys (perKey key serve) T)
    (hT : IsLocal T key serve) {order : List K} {s s' : Store K Req × (K → σ)}
    {l : ServedReduction Op Reply K σ Req Msg} (h : Reduces (perKey key serve) T s l s')
    (hinput : l.input = .tick order) (hagree : KeysAgree T.key s.1) :
    order.Nodup ∧ (∀ k, k ∈ order ↔ k ∈ s.1) ∧ ∃ ts, TickVisits T key serve order s l s' ts := by
  obtain ⟨ts, hts, hevents, hout⟩ := h.visits hkeys hinput hagree
  have hvalid := h.1
  rw [hinput] at hvalid
  exact ⟨hvalid.1, hvalid.2, ts, hts,
    hts.handlesEach hT hvalid.1 (fun k hk => (hvalid.2 k).mp hk), hevents, hout⟩

/-- **A tick of a local task does not depend on the order of the map.** -/
theorem orderIndependent (hkeys : KeepsKeys (perKey key serve) T) (hT : IsLocal T key serve) :
    OrderIndependent T key serve := by
  constructor
  · intro s input hvalid
    obtain ⟨events, ⟨store, output⟩, w, hexec⟩ :=
      exists_exec key serve (T.reduce s.1 input) s.2
    exact ⟨⟨input, events, output⟩, (store, w), rfl, hvalid, hexec⟩
  · intro s hagree l₁ l₂ order₁ order₂ s₁ s₂ hinput₁ hinput₂ h₁ h₂
    obtain ⟨hnodup₁, hmem₁, ts₁, hts₁⟩ := exists_tickVisits hkeys hT h₁ hinput₁ hagree
    obtain ⟨hnodup₂, hmem₂, ts₂, hts₂⟩ := exists_tickVisits hkeys hT h₂ hinput₂ hagree
    have horders : ∀ k, k ∈ order₁ ↔ k ∈ order₂ := fun k => (hmem₁ k).trans (hmem₂ k).symm
    exact ⟨hts₁.handles.state_eq hts₂.handles horders, ts₁, ts₂, hts₁, hts₂,
      hts₁.handles.perm hts₂.handles hnodup₁ hnodup₂ horders⟩

end RetryTask
