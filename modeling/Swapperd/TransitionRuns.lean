/-
  Swapperd/TransitionRuns.lean
  ============================
  **Runs of a labelled transition system**, independent of any one system.

  A `Run step s ts s'` is a finite run from `s` to `s'`; `ts` lists its transitions
  with the states around them, so that "in every state reached" and "in every step
  taken" are statements about the members of `ts`.  The induction over runs is done
  here once:

  * `Run.invariant` — what every allowed step preserves holds in every state reached;
  * `Run.history` — the same for what relates a state to the steps that led to it;
  * `Run.forall_iff` — when a step keeps a property exactly if it meets a condition,
    the property holds throughout a run exactly if every step meets the condition;
  * `Run.pairwise` — a relation between the outputs of a step and everything that
    the state after it still allows orders the outputs of a whole run.
-/
import Mathlib.Data.List.Basic

namespace TransitionRuns

variable {S L : Type}

/-- One step of a run, with the states around it. -/
structure Transition (S L : Type) where
  source : S
  label : L
  target : S

inductive Run (step : S → L → S → Prop) : S → List (Transition S L) → S → Prop where
  | nil (s : S) : Run step s [] s
  | cons {s s₁ s₂ : S} {l : L} {ts : List (Transition S L)} :
      step s l s₁ → Run step s₁ ts s₂ → Run step s (⟨s, l, s₁⟩ :: ts) s₂

variable {step : S → L → S → Prop}

theorem Run.append {s s₁ s₂ : S} {ts us : List (Transition S L)}
    (h : Run step s ts s₁) (h' : Run step s₁ us s₂) : Run step s (ts ++ us) s₂ := by
  induction h with
  | nil => exact h'
  | cons hstep _ ih => exact .cons hstep (ih h')

/-- A run splits at any point into two runs. -/
theorem Run.split {s s' : S} {us ts : List (Transition S L)}
    (h : Run step s (us ++ ts) s') : ∃ m, Run step s us m ∧ Run step m ts s' := by
  induction us generalizing s with
  | nil => exact ⟨s, .nil s, h⟩
  | cons u us ih =>
      cases h with
      | cons hstep hrest =>
          obtain ⟨m, hfirst, hsecond⟩ := ih hrest
          exact ⟨m, .cons hstep hfirst, hsecond⟩

theorem Run.step_of_mem {s s' : S} {ts : List (Transition S L)}
    (h : Run step s ts s') : ∀ t ∈ ts, step t.source t.label t.target := by
  induction h with
  | nil => simp
  | cons hstep _ ih => simpa using ⟨hstep, ih⟩

/-- **Invariant rule.**  A property that holds at first, and that every step of the
    run meeting `C` preserves, holds before and after every step. -/
theorem Run.invariant {P : S → Prop} {C : S → L → Prop}
    (hstep : ∀ {s l s'}, P s → step s l s' → C s l → P s')
    {s s' : S} {ts : List (Transition S L)} (h : Run step s ts s') (hs : P s)
    (hC : ∀ t ∈ ts, C t.source t.label) :
    P s' ∧ ∀ t ∈ ts, P t.source ∧ P t.target := by
  induction h with
  | nil => exact ⟨hs, by simp⟩
  | cons hfirst _ ih =>
      have hnext := hstep hs hfirst (hC _ List.mem_cons_self)
      obtain ⟨hlast, hall⟩ := ih hnext (fun t ht => hC t (List.mem_cons_of_mem _ ht))
      exact ⟨hlast, by simpa using ⟨⟨hs, hnext⟩, hall⟩⟩

/-- **History rule.**  A relation between the steps that were taken and the state they
    lead to, kept by every step that meets `C` after them, holds before every step of a run
    whose steps all do. -/
theorem Run.history {P : List (Transition S L) → S → Prop}
    {C : List (Transition S L) → Transition S L → Prop}
    (hstep : ∀ {past t}, P past t.source → step t.source t.label t.target → C past t →
      P (past ++ [t]) t.target)
    {s s' : S} {ts : List (Transition S L)} (h : Run step s ts s') {past : List (Transition S L)}
    (hs : P past s) (hC : ∀ us t vs, ts = us ++ t :: vs → C (past ++ us) t) :
    P (past ++ ts) s' ∧ ∀ us t vs, ts = us ++ t :: vs → P (past ++ us) t.source := by
  induction h generalizing past with
  | nil s =>
      constructor
      · simpa using hs
      · intro us t vs heq
        cases us <;> cases heq
  | @cons s s₁ s₂ l ts hfirst _ ih =>
      have hC₀ : C past ⟨s, l, s₁⟩ := by simpa using hC [] _ ts rfl
      have hnext : P (past ++ [⟨s, l, s₁⟩]) s₁ := hstep hs hfirst hC₀
      have hrest : ∀ us t vs, ts = us ++ t :: vs → C (past ++ [⟨s, l, s₁⟩] ++ us) t := by
        rintro us t vs rfl
        simpa using hC (⟨s, l, s₁⟩ :: us) t vs rfl
      obtain ⟨hlast, hall⟩ := ih hnext hrest
      constructor
      · simpa using hlast
      · intro us t vs heq
        cases us with
        | nil =>
            obtain ⟨rfl, -⟩ := List.cons.inj heq
            simpa using hs
        | cons u us =>
            obtain ⟨rfl, htail⟩ := List.cons.inj heq
            simpa using hall us t vs htail

/-- **Exactness rule.**  When, from a state with `P`, a step leads to a state with
    `P` exactly if it meets `C`, then `P` holds in every state of a run exactly if
    every step of it meets `C`. -/
theorem Run.forall_iff {P : S → Prop} {C : S → L → Prop}
    (hstep : ∀ {s l s'}, P s → step s l s' → (P s' ↔ C s l))
    {s s' : S} {ts : List (Transition S L)} (h : Run step s ts s') (hs : P s) :
    (∀ t ∈ ts, P t.target) ↔ ∀ t ∈ ts, C t.source t.label := by
  induction h with
  | nil => simp
  | cons hfirst _ ih =>
      simp only [List.forall_mem_cons]
      constructor
      · rintro ⟨hnext, hall⟩
        exact ⟨(hstep hs hfirst).mp hnext, (ih hnext).mp hall⟩
      · rintro ⟨hC, hall⟩
        have hnext := (hstep hs hfirst).mpr hC
        exact ⟨hnext, (ih hnext).mpr hall⟩

/-- **Ordering rule.**  Every step has outputs; `M s o` says which outputs may still
    occur from state `s` on.  If a step's outputs are in order, were still allowed,
    and all that is allowed after the step may follow them, then the outputs of a
    whole run are in order. -/
theorem Run.pairwise {O : Type} {f : L → List O} {R : O → O → Prop}
    {P : S → Prop} {C : S → L → Prop} {M : S → O → Prop}
    (hkeep : ∀ {s l s'}, P s → step s l s' → C s l → P s')
    (hmem : ∀ {s l s'}, P s → step s l s' → C s l → ∀ o ∈ f l, M s o)
    (hok : ∀ {s l s' o}, P s → step s l s' → C s l → M s' o →
      M s o ∧ ∀ o' ∈ f l, R o' o)
    (hout : ∀ {s l s'}, P s → step s l s' → C s l → (f l).Pairwise R)
    {s s' : S} {ts : List (Transition S L)} (h : Run step s ts s') (hs : P s)
    (hC : ∀ t ∈ ts, C t.source t.label) :
    (ts.flatMap fun t => f t.label).Pairwise R ∧
      ∀ o ∈ ts.flatMap (fun t => f t.label), M s o := by
  induction h with
  | nil => simp
  | @cons s s₁ _ l ts hfirst _ ih =>
      have hCl := hC _ List.mem_cons_self
      obtain ⟨hrest, hall⟩ :=
        ih (hkeep hs hfirst hCl) (fun t ht => hC t (List.mem_cons_of_mem _ ht))
      simp only [List.flatMap_cons]
      refine ⟨List.pairwise_append.mpr ⟨hout hs hfirst hCl, hrest, ?_⟩, ?_⟩
      · intro o' ho' o ho
        exact (hok hs hfirst hCl (hall o ho)).2 o' ho'
      · intro o ho
        rcases List.mem_append.mp ho with ho | ho
        · exact hmem hs hfirst hCl o ho
        · exact (hok hs hfirst hCl (hall o ho)).1

end TransitionRuns
