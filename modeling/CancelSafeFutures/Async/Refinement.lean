import CancelSafeFutures.Async.Transition

/-!
# Refinement

A system and what an observer sees of it: `step s seen s'` is a step from `s` to `s'` that shows
`seen`, which may be nothing at all.  `Observes step s seen s'` is a run that shows `seen`.

`Simulates step spec R` says that whatever a step shows, some steps of the specification show as
well, and that `R` holds again after them.  Then the specification shows all that runs show
(`Simulates.run`).

`Detours` is for moves that may be put in without making a difference: what they lead to is related
by a `Bisimulation` to what there was before, and so it cannot be observed whether they were made
(`Detours.observe_eq`).
-/

namespace Async

variable {σ τ ω : Type}

/-- Runs, with what they show. -/
inductive Observes (step : σ → List ω → σ → Prop) (s : σ) : List ω → σ → Prop
  | refl : Observes step s [] s
  | step {seen seen' s' s''} :
      Observes step s seen s' → step s' seen' s'' → Observes step s (seen ++ seen') s''

namespace Observes

variable {step : σ → List ω → σ → Prop} {s s' s'' : σ} {seen seen' : List ω}

theorem one (h : step s seen s') : Observes step s seen s' := .step .refl h

theorem trans (run : Observes step s seen s') (run' : Observes step s' seen' s'') :
    Observes step s (seen ++ seen') s'' := by
  induction run' with
  | refl => rwa [List.append_nil]
  | step _ h ih =>
      rw [← List.append_assoc]
      exact ih.step h

end Observes

/-- What the steps show, the specification shows. -/
def Simulates (step : σ → List ω → σ → Prop) (spec : τ → List ω → τ → Prop) (R : σ → τ → Prop) :
    Prop :=
  ∀ {s t seen s'}, R s t → step s seen s' → ∃ t', Observes spec t seen t' ∧ R s' t'

/-- **Simulation.** What runs show, the specification shows. -/
theorem Simulates.run {step : σ → List ω → σ → Prop} {spec : τ → List ω → τ → Prop}
    {R : σ → τ → Prop} (simulates : Simulates step spec R) {s s' : σ} {t : τ} {seen : List ω}
    (related : R s t) (run : Observes step s seen s') :
    ∃ t', Observes spec t seen t' ∧ R s' t' := by
  induction run with
  | refl => exact ⟨t, .refl, related⟩
  | step _ h ih =>
      obtain ⟨t', shown, related'⟩ := ih
      obtain ⟨t'', shown', related''⟩ := simulates related' h
      exact ⟨t'', shown.trans shown', related''⟩

/-! ## Detours -/

namespace System

variable {ℓ : Type} {sys : System σ ℓ}

theorem runFrom_append (s : σ) (ls ls' : List ℓ) :
    sys.runFrom s (ls ++ ls') = (sys.runFrom s ls).bind fun s' => sys.runFrom s' ls' := by
  induction ls generalizing s with
  | nil => rfl
  | cons l ls ih =>
      simp only [List.cons_append, runFrom]
      cases sys.step s l with
      | none => rfl
      | some s' => exact ih s'

theorem run_concat (ls : List ℓ) (l : ℓ) :
    sys.run (ls ++ [l]) = (sys.run ls).bind fun s => sys.step s l := by
  rw [run, run, runFrom_append]
  cases sys.runFrom sys.init ls with
  | none => rfl
  | some s => exact Option.bind_fun_some (sys.step s l)

/-- The second list of moves is the first with detours taken, anywhere and any number of them.
`D s detour` says that `detour` may be taken from `s`. -/
inductive Detours (sys : System σ ℓ) (D : σ → List ℓ → Prop) : List ℓ → List ℓ → Prop
  | start : Detours sys D [] []
  | move {ls ls'} (l : ℓ) : Detours sys D ls ls' → Detours sys D (ls ++ [l]) (ls' ++ [l])
  | detour {ls ls' s detour} :
      Detours sys D ls ls' → sys.run ls' = some s → D s detour → Detours sys D ls (ls' ++ detour)

/-- A relation between states that moves keep, and that detours on one side do not break. -/
structure Bisimulation (sys : System σ ℓ) (D : σ → List ℓ → Prop) (R : σ → σ → Prop) : Prop where
  init : R sys.init sys.init
  step : ∀ {s s'} l, R s s' → Option.Rel R (sys.step s l) (sys.step s' l)
  detour : ∀ {s s' detour}, R s s' → D s' detour →
    ∃ s'', sys.runFrom s' detour = some s'' ∧ R s s''

/-- **Detours make no difference.** -/
theorem Detours.related {D : σ → List ℓ → Prop} {R : σ → σ → Prop} {ls ls' : List ℓ}
    (detours : Detours sys D ls ls') (bisimulation : Bisimulation sys D R) :
    Option.Rel R (sys.run ls) (sys.run ls') := by
  induction detours with
  | start => exact .some bisimulation.init
  | @move ls ls' l _ ih =>
      rw [run_concat, run_concat]
      generalize sys.run ls = before, sys.run ls' = before' at ih
      cases ih with
      | none => exact .none
      | some related => exact bisimulation.step l related
  | @detour ls ls' s' detour _ reached allowed ih =>
      generalize sys.run ls = before at ih
      rw [reached] at ih
      cases ih with
      | some related =>
          obtain ⟨s'', detoured, related'⟩ := bisimulation.detour related allowed
          rw [run] at reached
          rw [run, runFrom_append, reached, Option.bind_some, detoured]
          exact .some related'

/-- Nor can it be observed whether they were taken. -/
theorem Detours.observe_eq {D : σ → List ℓ → Prop} {R : σ → σ → Prop} {observe : σ → ω}
    {ls ls' : List ℓ} (detours : Detours sys D ls ls') (bisimulation : Bisimulation sys D R)
    (same : ∀ {s s'}, R s s' → observe s = observe s') :
    (sys.run ls').map observe = (sys.run ls).map observe := by
  have related := detours.related bisimulation
  generalize sys.run ls = reached, sys.run ls' = reached' at related
  cases related with
  | none => rfl
  | some related => exact congrArg some (same related).symm

end System

end Async
