/-
  Swapperd/CallProgram.lean
  =========================
  **Programs that call an outside world**, independent of any one program.

  A `Program Op Reply α` is a computation that performs calls `op : Op`, goes on
  with the reply it gets and ends with a value of type `α`.  What a call does is
  not part of the program: a `Behaviour` says which replies, and which changes of
  a world of type `σ`, a call may produce.  `Exec` runs a program against a
  behaviour and records every call it made, so that a statement about all
  outcomes of the calls is a statement about all executions.

  * `Program.Follows` — the program keeps to an automaton over its calls;
  * `exec_bind_iff` — an execution of a sequence splits into two executions;
  * `Exec.preserves` — what every call preserves, a program preserves;
  * `exec_range_iff` — an execution of a loop over a list is a chain of
    executions of its body, one for each element.
-/
import Mathlib.Data.List.Basic

namespace CallProgram

/-! ### Programs -/

/-- A computation over calls `op : Op`, each answered by a `Reply op`. -/
inductive Program (Op : Type) (Reply : Op → Type) (α : Type) where
  | pure : α → Program Op Reply α
  | call : (op : Op) → (Reply op → Program Op Reply α) → Program Op Reply α

variable {Op : Type} {Reply : Op → Type} {α β : Type}

namespace Program

def bind : Program Op Reply α → (α → Program Op Reply β) → Program Op Reply β
  | .pure a, f => f a
  | .call op k, f => .call op fun r => (k r).bind f

instance : Monad (Program Op Reply) where
  pure := Program.pure
  bind := Program.bind

/-- Perform one call and return its reply. -/
def perform (op : Op) : Program Op Reply (Reply op) := .call op .pure

@[simp] theorem pure_eq (a : α) : (Pure.pure a : Program Op Reply α) = .pure a := rfl

@[simp] theorem pure_bind (a : α) (f : α → Program Op Reply β) :
    (Program.pure a : Program Op Reply α) >>= f = f a := rfl

@[simp] theorem call_bind (op : Op) (k : Reply op → Program Op Reply α)
    (f : α → Program Op Reply β) :
    Program.call op k >>= f = .call op fun r => k r >>= f := rfl

@[simp] theorem perform_bind (op : Op) (f : Reply op → Program Op Reply β) :
    perform op >>= f = .call op f := rfl

/-- Run `body` on every element of a list, threading a state and collecting the
    outputs in order. -/
def range {K S A : Type} (body : K → S → Program Op Reply (S × A)) :
    List K → S → Program Op Reply (S × List A)
  | [], s => .pure (s, [])
  | k :: ks, s => do
      let (s', a) ← body k s
      let (s'', as) ← range body ks s'
      return (s'', a :: as)

/-- Every call that the program can come to make satisfies `P`. -/
def Performs (P : Op → Prop) : Program Op Reply α → Prop
  | .pure _ => True
  | .call op k => P op ∧ ∀ r, (k r).Performs P

theorem Performs.perform_bind {P : Op → Prop} {op : Op} {f : Reply op → Program Op Reply α}
    (hop : P op) (hf : ∀ r, (f r).Performs P) : (perform op >>= f).Performs P :=
  ⟨hop, hf⟩

theorem Performs.bind {P : Op → Prop} {p : Program Op Reply α} {f : α → Program Op Reply β}
    (hp : p.Performs P) (hf : ∀ a, (f a).Performs P) : (p >>= f).Performs P := by
  induction p with
  | pure a => exact hf a
  | call op k ih => exact ⟨hp.1, fun r => ih r (hp.2 r)⟩

end Program

/-! ### Protocols -/

/-- An automaton over calls: which call may come next, what its reply makes of the state,
    and with which values a program may end. -/
structure Protocol (Q Op : Type) (Reply : Op → Type) (α : Type) where
  Allows : Q → Op → Prop
  next : Q → (op : Op) → Reply op → Q
  Ends : Q → α → Prop

namespace Program

variable {Q : Type}

/-- Whatever the replies are, the program makes the calls that the protocol allows. -/
def Follows (P : Protocol Q Op Reply α) : Program Op Reply α → Q → Prop
  | .pure a, q => P.Ends q a
  | .call op k, q => P.Allows q op ∧ ∀ r, (k r).Follows P (P.next q op r)

theorem Follows.perform_bind {P : Protocol Q Op Reply β} {q : Q} {op : Op}
    {f : Reply op → Program Op Reply β} (hop : P.Allows q op)
    (hf : ∀ r, (f r).Follows P (P.next q op r)) : (perform op >>= f).Follows P q :=
  ⟨hop, hf⟩

end Program

/-! ### Executions -/

/-- One call of an execution: the operation, the worlds around it, what could be
    seen happening during it, and its reply. -/
structure Event (Op : Type) (Reply : Op → Type) (σ N : Type) where
  op : Op
  before : σ
  note : N
  reply : Reply op
  after : σ

/-- Which replies and world changes each call may produce. -/
abbrev Behaviour (Op : Type) (Reply : Op → Type) (σ N : Type) :=
  (op : Op) → σ → N → Reply op → σ → Prop

/-- The behaviour under which every call may have any reply. -/
def unconstrained : Behaviour Op Reply Unit Unit := fun _ _ _ _ _ => True

variable {σ N : Type} {step : Behaviour Op Reply σ N}

inductive Exec (step : Behaviour Op Reply σ N) :
    Program Op Reply α → σ → List (Event Op Reply σ N) → α → σ → Prop where
  | pure (a : α) (w : σ) : Exec step (.pure a) w [] a w
  | call {op : Op} {k : Reply op → Program Op Reply α} {w w₁ w₂ : σ} {n : N}
      {r : Reply op} {events : List (Event Op Reply σ N)} {a : α} :
      step op w n r w₁ → Exec step (k r) w₁ events a w₂ →
      Exec step (.call op k) w (⟨op, w, n, r, w₁⟩ :: events) a w₂

/-- The call of an event with its reply, without the worlds around it. -/
def Event.call (e : Event Op Reply σ N) : (op : Op) × Reply op := ⟨e.op, e.reply⟩

theorem exec_pure_iff {a b : α} {w w' : σ} {events : List (Event Op Reply σ N)} :
    Exec step (.pure a) w events b w' ↔ events = [] ∧ b = a ∧ w' = w := by
  constructor
  · intro h
    cases h
    exact ⟨rfl, rfl, rfl⟩
  · rintro ⟨rfl, rfl, rfl⟩
    exact .pure _ _

theorem exec_call_iff {op : Op} {k : Reply op → Program Op Reply α} {w w' : σ}
    {events : List (Event Op Reply σ N)} {a : α} :
    Exec step (.call op k) w events a w' ↔
      ∃ n r w₁ rest, events = ⟨op, w, n, r, w₁⟩ :: rest ∧ step op w n r w₁ ∧
        Exec step (k r) w₁ rest a w' := by
  constructor
  · intro h
    cases h with
    | call hstep hrest => exact ⟨_, _, _, _, rfl, hstep, hrest⟩
  · rintro ⟨n, r, w₁, rest, rfl, hstep, hrest⟩
    exact .call hstep hrest

theorem exec_perform_bind_iff {op : Op} {f : Reply op → Program Op Reply α} {w w' : σ}
    {events : List (Event Op Reply σ N)} {a : α} :
    Exec step (Program.perform op >>= f) w events a w' ↔
      ∃ n r w₁ rest, events = ⟨op, w, n, r, w₁⟩ :: rest ∧ step op w n r w₁ ∧
        Exec step (f r) w₁ rest a w' :=
  exec_call_iff

theorem exec_bind_iff {p : Program Op Reply α} {f : α → Program Op Reply β} {w w' : σ}
    {events : List (Event Op Reply σ N)} {b : β} :
    Exec step (p >>= f) w events b w' ↔
      ∃ a w₁ first second, events = first ++ second ∧ Exec step p w first a w₁ ∧
        Exec step (f a) w₁ second b w' := by
  induction p generalizing w events with
  | pure a =>
      constructor
      · intro h
        exact ⟨a, w, [], events, rfl, .pure _ _, h⟩
      · rintro ⟨a', w₁, first, second, rfl, hp, hf⟩
        obtain ⟨rfl, rfl, rfl⟩ := exec_pure_iff.mp hp
        exact hf
  | call op k ih =>
      constructor
      · intro h
        obtain ⟨n, r, w₁, rest, rfl, hstep, hrest⟩ := exec_call_iff.mp h
        obtain ⟨a, w₂, first, second, rfl, hp, hf⟩ := (ih r).mp hrest
        exact ⟨a, w₂, ⟨op, w, n, r, w₁⟩ :: first, second, rfl, .call hstep hp, hf⟩
      · rintro ⟨a, w₂, first, second, rfl, hp, hf⟩
        obtain ⟨n, r, w₁, rest, rfl, hstep, hrest⟩ := exec_call_iff.mp hp
        exact .call hstep ((ih r).mpr ⟨a, w₂, rest, second, rfl, hrest, hf⟩)

/-- Every recorded event is one the behaviour allows. -/
theorem Exec.allowed {p : Program Op Reply α} {w w' : σ}
    {events : List (Event Op Reply σ N)} {a : α} (h : Exec step p w events a w') :
    ∀ e ∈ events, step e.op e.before e.note e.reply e.after := by
  induction h with
  | pure => simp
  | call hstep _ ih => simpa using ⟨hstep, ih⟩

/-- Every recorded event is one the program can come to make. -/
theorem Exec.performs {P : Op → Prop} {p : Program Op Reply α} {w w' : σ}
    {events : List (Event Op Reply σ N)} {a : α} (h : Exec step p w events a w')
    (hp : p.Performs P) : ∀ e ∈ events, P e.op := by
  induction h with
  | pure => simp
  | call _ _ ih => simpa using ⟨hp.1, ih (hp.2 _)⟩

/-- A relation that every call satisfies, and that is a preorder, holds between the
    worlds before and after a program. -/
theorem Exec.preserves {R : σ → σ → Prop} (hrefl : ∀ w, R w w)
    (htrans : ∀ {w₁ w₂ w₃}, R w₁ w₂ → R w₂ w₃ → R w₁ w₃)
    (hcall : ∀ {op w n r w'}, step op w n r w' → R w w')
    {p : Program Op Reply α} {w w' : σ} {events : List (Event Op Reply σ N)} {a : α}
    (h : Exec step p w events a w') : R w w' := by
  induction h with
  | pure => exact hrefl _
  | call hstep _ ih => exact htrans (hcall hstep) ih

theorem Exec.of_nil {p : Program Op Reply α} {w w' : σ} {a : α}
    (h : Exec step p w [] a w') : w' = w := by
  cases h
  rfl

theorem Exec.of_cons {p : Program Op Reply α} {w w' : σ} {e : Event Op Reply σ N}
    {events : List (Event Op Reply σ N)} {a : α} (h : Exec step p w (e :: events) a w') :
    e.before = w ∧ ∃ q : Program Op Reply α, Exec step q e.after events a w' := by
  cases h with
  | call _ hrest => exact ⟨rfl, _, hrest⟩

/-- The calls of a program happen one after the other, each in the world that the one
    before it left. -/
theorem Exec.adjacent {p : Program Op Reply α} {w w' : σ} {pre post : List (Event Op Reply σ N)}
    {e e' : Event Op Reply σ N} {a : α} (h : Exec step p w (pre ++ e :: e' :: post) a w') :
    e'.before = e.after := by
  induction pre generalizing p w with
  | nil =>
      obtain ⟨-, q, hrest⟩ := h.of_cons
      exact hrest.of_cons.1
  | cons f pre ih =>
      obtain ⟨-, q, hrest⟩ := h.of_cons
      exact ih hrest

/-- A program ends in the world that its last call left. -/
theorem Exec.last {p : Program Op Reply α} {w w' : σ} {pre : List (Event Op Reply σ N)}
    {e : Event Op Reply σ N} {a : α} (h : Exec step p w (pre ++ [e]) a w') : e.after = w' := by
  induction pre generalizing p w with
  | nil =>
      obtain ⟨-, q, hrest⟩ := h.of_cons
      exact hrest.of_nil.symm
  | cons f pre ih =>
      obtain ⟨-, q, hrest⟩ := h.of_cons
      exact ih hrest

/-- What every call preserves relates the worlds of a program in their order. -/
theorem Exec.around {R : σ → σ → Prop} (hrefl : ∀ w, R w w)
    (htrans : ∀ {w₁ w₂ w₃}, R w₁ w₂ → R w₂ w₃ → R w₁ w₃)
    (hcall : ∀ {op w n r w'}, step op w n r w' → R w w')
    {p : Program Op Reply α} {w w' : σ} {events : List (Event Op Reply σ N)} {a : α}
    (h : Exec step p w events a w') : ∀ e ∈ events, R w e.before ∧ R e.after w' := by
  induction h with
  | pure => simp
  | call hstep hrest ih =>
      intro e he
      rcases List.mem_cons.mp he with rfl | he
      · exact ⟨hrefl _, hrest.preserves hrefl htrans hcall⟩
      · exact ⟨htrans (hcall hstep) (ih e he).1, (ih e he).2⟩

/-- What every call preserves relates each call to all that come after it. -/
theorem Exec.pairwise {R : σ → σ → Prop} (hrefl : ∀ w, R w w)
    (htrans : ∀ {w₁ w₂ w₃}, R w₁ w₂ → R w₂ w₃ → R w₁ w₃)
    (hcall : ∀ {op w n r w'}, step op w n r w' → R w w')
    {p : Program Op Reply α} {w w' : σ} {events : List (Event Op Reply σ N)} {a : α}
    (h : Exec step p w events a w') :
    events.Pairwise fun e e' => R e.after e'.before := by
  induction h with
  | pure => exact .nil
  | call _ hrest ih =>
      apply List.Pairwise.cons
      · intro e he
        exact (hrest.around hrefl htrans hcall e he).1
      · exact ih

/-! ### The order of calls -/

/-- In `cs`, everything that satisfies `P` comes after something that satisfies
    `Q`. -/
def OnlyAfter {C : Type} (Q P : C → Prop) (cs : List C) : Prop :=
  ∀ pre c post, cs = pre ++ c :: post → P c → ∃ q ∈ pre, Q q

theorem onlyAfter_nil {C : Type} (Q P : C → Prop) : OnlyAfter Q P [] := by
  intro pre c post h
  simp at h

theorem onlyAfter_cons {C : Type} {Q P : C → Prop} {c : C} {cs : List C} :
    OnlyAfter Q P (c :: cs) ↔ ¬ P c ∧ (Q c ∨ OnlyAfter Q P cs) := by
  constructor
  · intro h
    refine ⟨fun hc => ?_, ?_⟩
    · obtain ⟨q, hq, -⟩ := h [] c cs rfl hc
      simp at hq
    · by_cases hQ : Q c
      · exact .inl hQ
      · right
        intro pre c' post heq hc'
        obtain ⟨q, hq, hQq⟩ := h (c :: pre) c' post (by rw [heq]; rfl) hc'
        rcases List.mem_cons.mp hq with rfl | hq
        · exact absurd hQq hQ
        · exact ⟨q, hq, hQq⟩
  · rintro ⟨hc, hQ⟩ pre c' post heq hc'
    cases pre with
    | nil =>
        obtain ⟨rfl, -⟩ := List.cons.inj heq
        exact absurd hc' hc
    | cons d pre =>
        obtain ⟨rfl, rfl⟩ := List.cons.inj heq
        rcases hQ with hQ | hrest
        · exact ⟨c, by simp, hQ⟩
        · obtain ⟨q, hq, hQq⟩ := hrest pre c' post rfl hc'
          exact ⟨q, by simp [hq], hQq⟩

/-! ### Loops -/

section Range

variable {K S A : Type} {body : K → S → Program Op Reply (S × A)}

/-- One iteration of a loop: its element, the loop state and the world around it,
    its calls and its output. -/
structure Iteration (Op : Type) (Reply : Op → Type) (σ N K S A : Type) where
  key : K
  before : S
  worldBefore : σ
  events : List (Event Op Reply σ N)
  out : A
  after : S
  worldAfter : σ

/-- An iteration is an execution of the loop's body. -/
def Iteration.Runs (step : Behaviour Op Reply σ N)
    (body : K → S → Program Op Reply (S × A)) (it : Iteration Op Reply σ N K S A) : Prop :=
  Exec step (body it.key it.before) it.worldBefore it.events (it.after, it.out)
    it.worldAfter

/-- A chain of iterations over the elements of a list. -/
inductive Iterations (step : Behaviour Op Reply σ N)
    (body : K → S → Program Op Reply (S × A)) :
    List K → S → σ → List (Iteration Op Reply σ N K S A) → S → σ → Prop where
  | nil (s : S) (w : σ) : Iterations step body [] s w [] s w
  | cons {ks : List K} {it : Iteration Op Reply σ N K S A}
      {its : List (Iteration Op Reply σ N K S A)} {s : S} {w : σ} :
      it.Runs step body → Iterations step body ks it.after it.worldAfter its s w →
      Iterations step body (it.key :: ks) it.before it.worldBefore (it :: its) s w

theorem exec_range_iff {ks : List K} {s s' : S} {w w' : σ}
    {events : List (Event Op Reply σ N)} {outs : List A} :
    Exec step (Program.range body ks s) w events (s', outs) w' ↔
      ∃ its, Iterations step body ks s w its s' w' ∧
        events = its.flatMap (·.events) ∧ outs = its.map (·.out) := by
  induction ks generalizing s w events outs with
  | nil =>
      simp only [Program.range, exec_pure_iff, Prod.mk.injEq]
      constructor
      · rintro ⟨rfl, ⟨rfl, rfl⟩, rfl⟩
        exact ⟨[], .nil _ _, rfl, rfl⟩
      · rintro ⟨its, hits, rfl, rfl⟩
        cases hits
        exact ⟨rfl, ⟨rfl, rfl⟩, rfl⟩
  | cons k ks ih =>
      simp only [Program.range]
      rw [exec_bind_iff]
      constructor
      · rintro ⟨⟨s₁, out⟩, w₁, first, second, rfl, hbody, hrest⟩
        simp only [exec_bind_iff, Program.pure_eq, exec_pure_iff] at hrest
        obtain ⟨⟨s₂, rest⟩, w₂, mid, last, rfl, htail, rfl, heq, rfl⟩ := hrest
        obtain ⟨rfl, rfl⟩ := Prod.mk.inj heq
        obtain ⟨its, hits, rfl, rfl⟩ := ih.mp htail
        let it : Iteration Op Reply σ N K S A := ⟨k, s, w, first, out, s₁, w₁⟩
        have hrun : it.Runs step body := hbody
        exact ⟨it :: its, .cons hrun hits, by simp [it], rfl⟩
      · rintro ⟨its, hits, rfl, rfl⟩
        cases hits with
        | @cons _ it its _ _ hbody hits =>
            refine ⟨(it.after, it.out), it.worldAfter, it.events,
              its.flatMap (·.events), rfl, hbody, ?_⟩
            simp only [exec_bind_iff, Program.pure_eq, exec_pure_iff]
            exact ⟨(s', its.map (·.out)), w', its.flatMap (·.events), [], by simp,
              ih.mpr ⟨its, hits, rfl, rfl⟩, rfl, rfl, rfl⟩

end Range

end CallProgram
