/-
  Swapperd/RunRefinement.lean
  ===========================
  **Refinement between labelled transition systems**, independent of any two systems.

  A concrete system refines an abstract one when every step with a visible label is,
  through an abstraction function, a step of the abstract system, and every other step
  does not change what the function sees.  `Refines.run` maps a whole run.
-/
import Swapperd.TransitionRuns

namespace TransitionRuns

variable {S L A M : Type}

/-- The transition that the abstract system makes for a visible step. -/
def Transition.seen (abs : S → A) (label : L → Option M) (t : Transition S L) :
    Option (Transition A M) :=
  (label t.label).map fun m => ⟨abs t.source, m, abs t.target⟩

/-- A run as the abstract system sees it. -/
def seen (abs : S → A) (label : L → Option M) (ts : List (Transition S L)) :
    List (Transition A M) :=
  ts.filterMap (Transition.seen abs label)

/-- Steps from states with `P` refine `astep`: a visible one is a step, a silent one
    changes nothing. -/
structure Refines (step : S → L → S → Prop) (astep : A → M → A → Prop) (abs : S → A)
    (label : L → Option M) (P : S → Prop) : Prop where
  keeps : ∀ {s l s'}, P s → step s l s' → P s'
  moves : ∀ {s l s' m}, P s → step s l s' → label l = some m → astep (abs s) m (abs s')
  stays : ∀ {s l s'}, P s → step s l s' → label l = none → abs s' = abs s

variable {step : S → L → S → Prop} {astep : A → M → A → Prop} {abs : S → A}
  {label : L → Option M} {P : S → Prop}

theorem seen_cons_silent {t : Transition S L} (h : label t.label = none)
    (ts : List (Transition S L)) : seen abs label (t :: ts) = seen abs label ts := by
  apply List.filterMap_cons_none
  rw [Transition.seen, h]
  rfl

theorem seen_cons_visible {t : Transition S L} {m : M} (h : label t.label = some m)
    (ts : List (Transition S L)) :
    seen abs label (t :: ts) = ⟨abs t.source, m, abs t.target⟩ :: seen abs label ts := by
  apply List.filterMap_cons_some
  rw [Transition.seen, h]
  rfl

/-- A run whose steps meet a condition is one of the steps that do. -/
theorem Run.meets {C : S → L → Prop} {s s' : S} {ts : List (Transition S L)}
    (h : Run step s ts s') (hC : ∀ t ∈ ts, C t.source t.label) :
    Run (fun s l s' => step s l s' ∧ C s l) s ts s' := by
  induction h with
  | nil => exact .nil _
  | cons hstep _ ih =>
      exact .cons ⟨hstep, hC _ List.mem_cons_self⟩
        (ih fun t ht => hC t (List.mem_cons_of_mem _ ht))

/-- **Refinement rule.**  What the abstract system sees of a run is a run of it. -/
theorem Refines.run (hrefines : Refines step astep abs label P) {s s' : S}
    {ts : List (Transition S L)} (h : Run step s ts s') (hs : P s) :
    Run astep (abs s) (seen abs label ts) (abs s') := by
  induction h with
  | nil => exact .nil _
  | @cons s s₁ s₂ l ts hstep _ ih =>
      have hrest := ih (hrefines.keeps hs hstep)
      cases hlabel : label l with
      | none =>
          rw [seen_cons_silent hlabel]
          rwa [hrefines.stays hs hstep hlabel] at hrest
      | some m =>
          rw [seen_cons_visible hlabel]
          exact .cons (hrefines.moves hs hstep hlabel) hrest

end TransitionRuns
