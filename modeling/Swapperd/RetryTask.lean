/-
  Swapperd/RetryTask.lean
  =======================
  **Tasks that retry what they could not finish**, independent of any one task.

  A task handles a new request at once; what it cannot finish it stores in a map under
  the request's key, and on a tick it handles every stored request again.  The order in
  which a tick visits the map is not fixed: a tick carries an order of its keys.

  Handling a message is a run of *passes*, one for each request handled
  (`Reduces.passes`), so that a property of all passes gives a property of all runs
  (`run_passes`).
-/
import Swapperd.CallProgram
import Swapperd.TransitionRuns
import Mathlib.Data.Finmap
import Mathlib.Algebra.GroupWithZero.Nat

namespace RetryTask

open CallProgram TransitionRuns

variable {Op : Type} {Reply : Op → Type} {K Req Msg : Type} [DecidableEq K]

/-- The unfinished requests of a task. -/
abbrev Store (K Req : Type) := Finmap fun _ : K => Req

structure Task (Op : Type) (Reply : Op → Type) (K Req Msg : Type) where
  key : Req → K
  handle : Store K Req → Req → Program Op Reply (Store K Req × List Msg)

/-- What a task reduces. A tick comes with the order in which the map is visited. -/
inductive Input (K Req : Type) where
  | tick (order : List K)
  | request (req : Req)
deriving DecidableEq

namespace Task

/-- The body of the loop of a tick. An entry that was deleted before the loop reaches
    its key is not visited. -/
def handleEntry (T : Task Op Reply K Req Msg) (k : K) (store : Store K Req) :
    Program Op Reply (Store K Req × List Msg) :=
  match store.lookup k with
  | none => return (store, [])
  | some req => T.handle store req

def handleTick (T : Task Op Reply K Req Msg) (order : List K) (store : Store K Req) :
    Program Op Reply (Store K Req × List Msg) := do
  let (store, msgs) ← .range T.handleEntry order store
  return (store, msgs.flatten)

def reduce (T : Task Op Reply K Req Msg) (store : Store K Req) :
    Input K Req → Program Op Reply (Store K Req × List Msg)
  | .tick order => T.handleTick order store
  | .request req => T.handle store req

end Task

/-! ### Keys -/

/-- Every request is stored under its own key. -/
def KeysAgree (key : Req → K) (store : Store K Req) : Prop :=
  ∀ k req, store.lookup k = some req → key req = k

section Keys

variable {key : Req → K} {store : Store K Req}

theorem keysAgree_empty (key : Req → K) : KeysAgree key (∅ : Store K Req) := by
  intro k req h
  simp at h

theorem KeysAgree.insert (h : KeysAgree key store) (req : Req) :
    KeysAgree key (store.insert (key req) req) := by
  intro k req' hlookup
  by_cases hk : k = key req
  · subst hk
    rw [Finmap.lookup_insert] at hlookup
    cases hlookup
    rfl
  · rw [Finmap.lookup_insert_of_ne _ hk] at hlookup
    exact h k req' hlookup

theorem KeysAgree.erase (h : KeysAgree key store) (k : K) :
    KeysAgree key (store.erase k) := by
  intro k' req hlookup
  by_cases hk : k' = k
  · subst hk
    simp at hlookup
  · rw [Finmap.lookup_erase_ne hk] at hlookup
    exact h k' req hlookup

end Keys

/-! ### Passes -/

/-- Handling one request: the request, whether it was stored, its calls and its
    messages. -/
structure Pass (Op : Type) (Reply : Op → Type) (σ N Req Msg : Type) where
  req : Req
  retry : Bool
  events : List (Event Op Reply σ N)
  batch : List Msg

variable {σ N : Type} {step : Behaviour Op Reply σ N} {T : Task Op Reply K Req Msg}

def Pass.calls (p : Pass Op Reply σ N Req Msg) : List ((op : Op) × Reply op) :=
  p.events.map Event.call

def PassStep (step : Behaviour Op Reply σ N) (T : Task Op Reply K Req Msg)
    (s : Store K Req × σ) (p : Pass Op Reply σ N Req Msg) (s' : Store K Req × σ) : Prop :=
  Exec step (T.handle s.1 p.req) s.2 p.events (s'.1, p.batch) s'.2 ∧
    (p.retry = true → s.1.lookup (T.key p.req) = some p.req)

theorem PassStep.mem_of_retry {s s' : Store K Req × σ} {p : Pass Op Reply σ N Req Msg}
    (h : PassStep step T s p s') (hretry : p.retry = true) : T.key p.req ∈ s.1 :=
  Finmap.mem_of_lookup_eq_some (h.2 hretry)

/-- Every pass keeps requests under their own keys. -/
def KeepsKeys (step : Behaviour Op Reply σ N) (T : Task Op Reply K Req Msg) : Prop :=
  ∀ {s p s'}, PassStep step T s p s' → KeysAgree T.key s.1 → KeysAgree T.key s'.1

/-- The passes that a message triggers: one for a request, retries for a tick. -/
def Input.Triggers (ps : List (Pass Op Reply σ N Req Msg)) : Input K Req → Prop
  | .request req => ∃ p, ps = [p] ∧ p.req = req ∧ p.retry = false
  | .tick _ => ∀ p ∈ ps, p.retry = true

/-- The passes of a tick that visits the keys in the given order. -/
inductive Visits (step : Behaviour Op Reply σ N) (T : Task Op Reply K Req Msg) :
    List K → Store K Req × σ →
      List (Transition (Store K Req × σ) (Pass Op Reply σ N Req Msg)) → Store K Req × σ → Prop where
  | nil (s : Store K Req × σ) : Visits step T [] s [] s
  /-- The entry was deleted earlier in the loop. -/
  | skip {k : K} {ks : List K} {s s' : Store K Req × σ}
      {ts : List (Transition (Store K Req × σ) (Pass Op Reply σ N Req Msg))} :
      s.1.lookup k = none → Visits step T ks s ts s' → Visits step T (k :: ks) s ts s'
  | visit {ks : List K} {s s₁ s' : Store K Req × σ} {p : Pass Op Reply σ N Req Msg}
      {ts : List (Transition (Store K Req × σ) (Pass Op Reply σ N Req Msg))} :
      p.retry = true → PassStep step T s p s₁ → Visits step T ks s₁ ts s' →
      Visits step T (T.key p.req :: ks) s (⟨s, p, s₁⟩ :: ts) s'

section Visits

variable {s s' : Store K Req × σ} {order : List K}
  {ts : List (Transition (Store K Req × σ) (Pass Op Reply σ N Req Msg))}

theorem Visits.run (h : Visits step T order s ts s') : Run (PassStep step T) s ts s' := by
  induction h with
  | nil s => exact .nil s
  | skip _ _ ih => exact ih
  | visit _ hpass _ ih => exact .cons hpass ih

theorem Visits.retry (h : Visits step T order s ts s') : ∀ t ∈ ts, t.label.retry = true := by
  induction h with
  | nil => simp
  | skip _ _ ih => exact ih
  | visit hretry _ _ ih => simpa using ⟨hretry, ih⟩

/-- When no pass deletes the entry of another key, a tick handles every key. -/
theorem Visits.keys {C : Pass Op Reply σ N Req Msg → Prop}
    (hlocal : ∀ {s p s'}, PassStep step T s p s' → C p → ∀ k ≠ T.key p.req, k ∈ s.1 → k ∈ s'.1)
    (h : Visits step T order s ts s') (hC : ∀ t ∈ ts, C t.label) (hnodup : order.Nodup)
    (hmem : ∀ k ∈ order, k ∈ s.1) : ts.map (fun t => T.key t.label.req) = order := by
  induction h with
  | nil => rfl
  | skip hlookup _ _ =>
      have hk := hmem _ List.mem_cons_self
      rw [← Finmap.lookup_isSome, hlookup] at hk
      exact absurd hk Bool.false_ne_true
  | @visit ks s s₁ s' p ts _ hpass _ ih =>
      obtain ⟨hnot, hnodup⟩ := List.nodup_cons.mp hnodup
      have hrest : ts.map (fun t => T.key t.label.req) = ks := by
        apply ih (fun t ht => hC t (List.mem_cons_of_mem _ ht)) hnodup
        intro k hk
        have hne : k ≠ T.key p.req := fun heq => hnot (heq ▸ hk)
        exact hlocal hpass (hC _ List.mem_cons_self) k hne (hmem k (List.mem_cons_of_mem _ hk))
      simp [hrest]

end Visits

theorem handleTick_visits (hkeys : KeepsKeys step T) {order : List K}
    {store store' : Store K Req} {w w' : σ}
    {its : List (Iteration Op Reply σ N K (Store K Req) (List Msg))}
    (h : Iterations step T.handleEntry order store w its store' w')
    (hagree : KeysAgree T.key store) :
    ∃ ts, Visits step T order (store, w) ts (store', w') ∧
      its.flatMap (·.events) = ts.flatMap (·.label.events) ∧
      (its.map (·.out)).flatten = ts.flatMap (·.label.batch) := by
  induction h with
  | nil s w => exact ⟨[], .nil _, rfl, rfl⟩
  | @cons ks it its s w hrun _ ih =>
      unfold Iteration.Runs Task.handleEntry at hrun
      cases hlookup : it.before.lookup it.key with
      | none =>
          simp only [hlookup, Program.pure_eq] at hrun
          obtain ⟨hevents, hout, hworld⟩ := exec_pure_iff.mp hrun
          obtain ⟨hafter, hbatch⟩ := Prod.mk.inj hout
          rw [hafter, hworld] at ih
          obtain ⟨ts, hts, hev, hmsgs⟩ := ih hagree
          exact ⟨ts, .skip hlookup hts, by simp [hevents, hev], by simp [hbatch, hmsgs]⟩
      | some req =>
          simp only [hlookup] at hrun
          have hkey : T.key req = it.key := hagree _ _ hlookup
          let p : Pass Op Reply σ N Req Msg := ⟨req, true, it.events, it.out⟩
          have hpass : PassStep step T (it.before, it.worldBefore) p (it.after, it.worldAfter) :=
            ⟨hrun, fun _ => by rw [show T.key p.req = it.key from hkey]; exact hlookup⟩
          obtain ⟨ts, hts, hev, hmsgs⟩ := ih (hkeys hpass hagree)
          rw [← hkey]
          exact ⟨⟨_, p, _⟩ :: ts, .visit rfl hpass hts, by simp [p, hev], by simp [p, hmsgs]⟩

/-! ### Runs -/

/-- Handling one message: the message, the calls made for it, the messages emitted. -/
structure Reduction (Op : Type) (Reply : Op → Type) (σ N K Req Msg : Type) where
  input : Input K Req
  events : List (Event Op Reply σ N)
  output : List Msg

def Reduction.calls (l : Reduction Op Reply σ N K Req Msg) : List ((op : Op) × Reply op) :=
  l.events.map Event.call

/-- The message is a new request under the key `k`. -/
def Reduction.Requests (T : Task Op Reply K Req Msg) (l : Reduction Op Reply σ N K Req Msg)
    (k : K) : Prop :=
  ∃ req, l.input = .request req ∧ T.key req = k

/-- A tick visits the keys of the map, each once, in some order. -/
def Input.Valid (store : Store K Req) : Input K Req → Prop
  | .request _ => True
  | .tick order => order.Nodup ∧ ∀ k, k ∈ order ↔ k ∈ store

def Reduces (step : Behaviour Op Reply σ N) (T : Task Op Reply K Req Msg)
    (s : Store K Req × σ) (l : Reduction Op Reply σ N K Req Msg) (s' : Store K Req × σ) :
    Prop :=
  l.input.Valid s.1 ∧ Exec step (T.reduce s.1 l.input) s.2 l.events (s'.1, l.output) s'.2

theorem Reduces.visits (hkeys : KeepsKeys step T) {s s' : Store K Req × σ}
    {l : Reduction Op Reply σ N K Req Msg} {order : List K} (h : Reduces step T s l s')
    (hinput : l.input = .tick order) (hagree : KeysAgree T.key s.1) :
    ∃ ts, Visits step T order s ts s' ∧ l.events = ts.flatMap (·.label.events) ∧
      l.output = ts.flatMap (·.label.batch) := by
  obtain ⟨-, hexec⟩ := h
  rw [hinput] at hexec
  simp only [Task.reduce, Task.handleTick, exec_bind_iff, Program.pure_eq,
    exec_pure_iff] at hexec
  obtain ⟨⟨m, outs⟩, w₁, first, second, hevents, hrange, rfl, hout, hworld⟩ := hexec
  obtain ⟨hstore, hmsgs⟩ := Prod.mk.inj hout
  obtain ⟨its, hits, rfl, rfl⟩ := exec_range_iff.mp hrange
  obtain ⟨ts, hts, hev, hbatch⟩ := handleTick_visits hkeys hits hagree
  have hs' : s' = (m, w₁) := Prod.ext hstore hworld
  rw [hs']
  exact ⟨ts, hts, by simp [hevents, hev], by rw [hmsgs, hbatch]⟩

/-- A new request is one pass. -/
theorem Reduces.pass {s s' : Store K Req × σ} {l : Reduction Op Reply σ N K Req Msg}
    {req : Req} (h : Reduces step T s l s') (hinput : l.input = .request req) :
    PassStep step T s ⟨req, false, l.events, l.output⟩ s' := by
  obtain ⟨-, hexec⟩ := h
  rw [hinput] at hexec
  exact ⟨hexec, by simp⟩

/-- Handling a message is a run of passes. -/
theorem Reduces.passes (hkeys : KeepsKeys step T) {s s' : Store K Req × σ}
    {l : Reduction Op Reply σ N K Req Msg} (h : Reduces step T s l s')
    (hagree : KeysAgree T.key s.1) :
    ∃ ts, Run (PassStep step T) s ts s' ∧ l.events = ts.flatMap (·.label.events) ∧
      l.output = ts.flatMap (·.label.batch) ∧ l.input.Triggers (ts.map (·.label)) := by
  cases hinput : l.input with
  | request req =>
      let p : Pass Op Reply σ N Req Msg := ⟨req, false, l.events, l.output⟩
      exact ⟨[⟨s, p, s'⟩], .cons (h.pass hinput) (.nil _), by simp [p], by simp [p],
        p, rfl, rfl, rfl⟩
  | tick order =>
      obtain ⟨ts, hts, hevents, hout⟩ := h.visits hkeys hinput hagree
      exact ⟨ts, hts.run, hevents, hout, by simpa [Input.Triggers] using hts.retry⟩

theorem Reduces.keysAgree (hkeys : KeepsKeys step T) {s s' : Store K Req × σ}
    {l : Reduction Op Reply σ N K Req Msg} (h : Reduces step T s l s')
    (hs : KeysAgree T.key s.1) : KeysAgree T.key s'.1 := by
  obtain ⟨ts, hts, -⟩ := h.passes hkeys hs
  exact (hts.invariant (P := fun s => KeysAgree T.key s.1) (C := fun _ _ => True)
    (fun hs hstep _ => hkeys hstep hs) hs (fun _ _ => trivial)).1

theorem run_keysAgree (hkeys : KeepsKeys step T) {s s' : Store K Req × σ}
    {ts : List (Transition (Store K Req × σ) (Reduction Op Reply σ N K Req Msg))}
    (h : Run (Reduces step T) s ts s') (hs : KeysAgree T.key s.1) :
    KeysAgree T.key s'.1 ∧
      ∀ t ∈ ts, KeysAgree T.key t.source.1 ∧ KeysAgree T.key t.target.1 :=
  h.invariant (P := fun s => KeysAgree T.key s.1) (C := fun _ _ => True)
    (fun hs hstep _ => hstep.keysAgree hkeys hs) hs (fun _ _ => trivial)

omit [DecidableEq K] in
theorem calls_eq_flatMap {l : Reduction Op Reply σ N K Req Msg}
    {ts : List (Transition (Store K Req × σ) (Pass Op Reply σ N Req Msg))}
    (hevents : l.events = ts.flatMap (·.label.events)) :
    l.calls = ts.flatMap (·.label.calls) := by
  simp [Reduction.calls, Pass.calls, hevents, List.map_flatMap]

/-- The passes of a stretch of a run in which `k` is not requested: those for `k` are
    all retries. -/
theorem run_passes (hkeys : KeepsKeys step T) {k : K} {s s' : Store K Req × σ}
    {ts : List (Transition (Store K Req × σ) (Reduction Op Reply σ N K Req Msg))}
    (h : Run (Reduces step T) s ts s') (hs : KeysAgree T.key s.1)
    (hk : ∀ t ∈ ts, ¬ t.label.Requests T k) :
    ∃ ps, Run (PassStep step T) s ps s' ∧
      ts.flatMap (·.label.calls) = ps.flatMap (·.label.calls) ∧
      ts.flatMap (·.label.output) = ps.flatMap (·.label.batch) ∧
      ∀ p ∈ ps, T.key p.label.req = k → p.label.retry = true := by
  induction h with
  | nil s => exact ⟨[], .nil _, rfl, rfl, by simp⟩
  | @cons s s₁ _ l ts hfirst _ ih =>
      obtain ⟨ps, hps, hevents, hout, htrigger⟩ := hfirst.passes hkeys hs
      obtain ⟨qs, hqs, hcalls, hbatch, hretry⟩ :=
        ih (hfirst.keysAgree hkeys hs) (fun t ht => hk t (List.mem_cons_of_mem _ ht))
      refine ⟨ps ++ qs, hps.append hqs, ?_, ?_, ?_⟩
      · simp [calls_eq_flatMap hevents, hcalls]
      · simp [hout, hbatch]
      · intro p hp hpk
        rcases List.mem_append.mp hp with hp | hp
        · have hmem := List.mem_map_of_mem (f := (·.label)) hp
          cases hinput : l.input with
          | tick order =>
              rw [hinput] at htrigger
              exact htrigger _ hmem
          | request req =>
              rw [hinput] at htrigger
              obtain ⟨q, hq, hreq, -⟩ := htrigger
              rw [hq, List.mem_singleton] at hmem
              exact absurd ⟨req, hinput, by rw [← hreq, ← hmem, hpk]⟩
                (hk _ List.mem_cons_self)
        · exact hretry p hp hpk

/-! ### Balance

When a pass that emits a message about `k` gives `k` up, a task emits no more messages
about `k` than it is asked to handle `k`. -/

section Balance

variable {s s' : Store K Req × σ} {k : K} {emits : Msg → Bool}
  {C : (op : Op) × Reply op → Prop}

/-- Whether the key is in the map, as a number. -/
def held (store : Store K Req) (k : K) : Nat := if k ∈ store then 1 else 0

theorem held_empty (k : K) : held (∅ : Store K Req) k = 0 := by
  simp [held, Finmap.notMem_empty]

theorem held_erase (store : Store K Req) (k k' : K) :
    held (store.erase k) k' = if k' = k then 0 else held store k' := by
  by_cases hk : k' = k
  · subst hk
    simp [held]
  · simp [held, Finmap.mem_erase, hk]

theorem held_insert (store : Store K Req) (k k' : K) (req : Req) :
    held (store.insert k req) k' = if k' = k then 1 else held store k' := by
  by_cases hk : k' = k
  · subst hk
    simp [held]
  · simp [held, hk]

def Pass.asks (T : Task Op Reply K Req Msg) (k : K) (p : Pass Op Reply σ N Req Msg) : Nat :=
  if p.retry then 0 else if T.key p.req = k then 1 else 0

def Input.asks (T : Task Op Reply K Req Msg) (k : K) : Input K Req → Nat
  | .tick _ => 0
  | .request req => if T.key req = k then 1 else 0

def Balances (step : Behaviour Op Reply σ N) (T : Task Op Reply K Req Msg) (k : K)
    (emits : Msg → Bool) (C : (op : Op) × Reply op → Prop) : Prop :=
  ∀ {s p s'}, PassStep step T s p s' → (∀ c ∈ p.calls, C c) →
    held s'.1 k + p.batch.countP emits ≤ held s.1 k + p.asks T k

/-- A pass is made for what is held or asked for. -/
theorem PassStep.one_le {p : Pass Op Reply σ N Req Msg} (h : PassStep step T s p s')
    (hk : T.key p.req = k) : 1 ≤ held s.1 k + p.asks T k := by
  cases hretry : p.retry with
  | true =>
      have hmem := h.mem_of_retry hretry
      rw [hk] at hmem
      simp [held, hmem]
  | false => simp [Pass.asks, hretry, hk]

theorem run_balance (hbalance : Balances step T k emits C)
    {ts : List (Transition (Store K Req × σ) (Pass Op Reply σ N Req Msg))}
    (h : Run (PassStep step T) s ts s') (hC : ∀ t ∈ ts, ∀ c ∈ t.label.calls, C c) :
    held s'.1 k + (ts.flatMap (·.label.batch)).countP emits ≤
        held s.1 k + (ts.map (·.label.asks T k)).sum ∧
      ∀ t ∈ ts, T.key t.label.req = k → 1 ≤ held s.1 k + (ts.map (·.label.asks T k)).sum := by
  induction h with
  | nil => simp
  | @cons s s₁ _ p ts hpass _ ih =>
      obtain ⟨hrest, hcalls⟩ := ih fun t ht => hC t (List.mem_cons_of_mem _ ht)
      have hfirst := hbalance hpass (hC _ List.mem_cons_self)
      simp only [List.flatMap_cons, List.countP_append, List.map_cons, List.sum_cons]
      refine ⟨by omega, ?_⟩
      intro t ht hk
      rcases List.mem_cons.mp ht with rfl | ht
      · have hone := hpass.one_le hk
        omega
      · have hone := hcalls t ht hk
        omega

theorem Reduces.balance (hkeys : KeepsKeys step T) (hbalance : Balances step T k emits C)
    {l : Reduction Op Reply σ N K Req Msg} (h : Reduces step T s l s')
    (hagree : KeysAgree T.key s.1) (hC : ∀ c ∈ l.calls, C c) :
    held s'.1 k + l.output.countP emits ≤ held s.1 k + l.input.asks T k ∧
      ∀ c ∈ l.calls, ∃ req, (T.key req = k → 1 ≤ held s.1 k + l.input.asks T k) ∧
        ∃ s p s', PassStep step T s p s' ∧ p.req = req ∧ c ∈ p.calls := by
  obtain ⟨ts, hts, hevents, hout, htrigger⟩ := h.passes hkeys hagree
  have hmem : ∀ t ∈ ts, ∀ c ∈ t.label.calls, c ∈ l.calls := by
    intro t ht c hc
    rw [calls_eq_flatMap hevents]
    exact List.mem_flatMap.mpr ⟨t, ht, hc⟩
  have hasks : (ts.map (·.label.asks T k)).sum = l.input.asks T k := by
    cases hinput : l.input with
    | tick order =>
        rw [hinput] at htrigger
        apply List.sum_eq_zero
        intro n hn
        obtain ⟨t, ht, rfl⟩ := List.mem_map.mp hn
        simp [Pass.asks, htrigger _ (List.mem_map_of_mem ht)]
    | request req =>
        rw [hinput] at htrigger
        obtain ⟨p, hp, rfl, hretry⟩ := htrigger
        obtain ⟨t, rfl, rfl⟩ := List.map_eq_singleton_iff.mp hp
        simp [Pass.asks, hretry, Input.asks]
  obtain ⟨hbal, hone⟩ := run_balance hbalance hts fun t ht c hc => hC c (hmem t ht c hc)
  rw [hasks] at hbal hone
  refine ⟨by rwa [hout], ?_⟩
  intro c hc
  rw [calls_eq_flatMap hevents] at hc
  obtain ⟨t, ht, hct⟩ := List.mem_flatMap.mp hc
  exact ⟨t.label.req, hone t ht, _, _, _, hts.step_of_mem t ht, rfl, hct⟩

end Balance

/-! ### What holds of all requests -/

/-- Every stored request satisfies `P`. -/
def Stores (P : Req → Prop) (store : Store K Req) : Prop :=
  ∀ k req, store.lookup k = some req → P req

section Stores

variable {P : Req → Prop} {store : Store K Req}

theorem stores_empty (P : Req → Prop) : Stores P (∅ : Store K Req) := by
  intro k req h
  simp at h

theorem Stores.insert (h : Stores P store) (k : K) {req : Req} (hreq : P req) :
    Stores P (store.insert k req) := by
  intro k' req' hlookup
  by_cases hk : k' = k
  · subst hk
    rw [Finmap.lookup_insert] at hlookup
    cases hlookup
    exact hreq
  · rw [Finmap.lookup_insert_of_ne _ hk] at hlookup
    exact h k' req' hlookup

theorem Stores.erase (h : Stores P store) (k : K) : Stores P (store.erase k) := by
  intro k' req hlookup
  by_cases hk : k' = k
  · subst hk
    simp at hlookup
  · rw [Finmap.lookup_erase_ne hk] at hlookup
    exact h k' req hlookup

/-- When passes keep `P`, a message that satisfies it is handled in passes that do. -/
theorem Reduces.stores (hkeys : KeepsKeys step T)
    (hkeep : ∀ {s p s'}, PassStep step T s p s' → P p.req → Stores P s.1 → Stores P s'.1)
    {s s' : Store K Req × σ} {l : Reduction Op Reply σ N K Req Msg} (h : Reduces step T s l s')
    (hagree : KeysAgree T.key s.1) (hs : Stores P s.1)
    (hinput : ∀ req, l.input = .request req → P req) :
    Stores P s'.1 ∧ ∃ ts, Run (PassStep step T) s ts s' ∧
      l.events = ts.flatMap (·.label.events) ∧ l.output = ts.flatMap (·.label.batch) ∧
      ∀ t ∈ ts, P t.label.req := by
  obtain ⟨ts, hts, hevents, hout, htrigger⟩ := h.passes hkeys hagree
  have hreq : ∀ t ∈ ts, Stores P t.source.1 → P t.label.req := by
    intro t ht hstore
    cases hi : l.input with
    | tick order =>
        rw [hi] at htrigger
        have hretry := htrigger _ (List.mem_map_of_mem ht)
        exact hstore _ _ ((hts.step_of_mem t ht).2 hretry)
    | request req =>
        rw [hi] at htrigger
        obtain ⟨p, hp, rfl, -⟩ := htrigger
        obtain ⟨t', rfl, rfl⟩ := List.map_eq_singleton_iff.mp hp
        obtain rfl := List.mem_singleton.mp ht
        exact hinput _ hi
  obtain ⟨hlast, hall⟩ := hts.invariant (P := fun s => Stores P s.1)
    (C := fun s p => Stores P s.1 → P p.req)
    (fun hs hstep hC => hkeep hstep (hC hs) hs) hs hreq
  exact ⟨hlast, ts, hts, hevents, hout, fun t ht => hreq t ht (hall t ht).1⟩

end Stores

end RetryTask
