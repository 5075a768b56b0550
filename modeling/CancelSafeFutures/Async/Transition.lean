import Mathlib.Data.List.Basic

/-!
# Transition systems

A system is an initial state and a partial step function: `step s l = some s'` when the move `l`
is possible in `s` and leads to `s'`.  `run` replays a list of moves, and everything that is
proved of whole runs goes through `System.run_invariant`: what one step keeps, every run keeps.
-/

namespace Async

/-- An initial state and the moves possible in each state. -/
structure System (σ ℓ : Type) where
  init : σ
  step : σ → ℓ → Option σ

namespace System

variable {σ ℓ : Type} (sys : System σ ℓ)

/-- Replay moves from `s`. -/
def runFrom (s : σ) : List ℓ → Option σ
  | [] => some s
  | l :: ls => (sys.step s l).bind fun s' => runFrom s' ls

/-- Replay moves from the initial state. -/
def run (ls : List ℓ) : Option σ := sys.runFrom sys.init ls

variable {sys}

theorem runFrom_cons {s s'' : σ} {l : ℓ} {ls : List ℓ}
    (h : sys.runFrom s (l :: ls) = some s'') :
    ∃ s', sys.step s l = some s' ∧ sys.runFrom s' ls = some s'' := by
  simpa only [runFrom, Option.bind_eq_some_iff] using h

/-- What every allowed step keeps, every run of allowed moves keeps. -/
theorem runFrom_invariant {I : σ → Prop} {A : ℓ → Prop}
    (step : ∀ {s l s'}, A l → I s → sys.step s l = some s' → I s')
    {ls : List ℓ} (all : ∀ l ∈ ls, A l) {s₀ s : σ} (inv : I s₀)
    (h : sys.runFrom s₀ ls = some s) : I s := by
  induction ls generalizing s₀ with
  | nil =>
      cases h
      exact inv
  | cons l ls ih =>
      obtain ⟨s₁, first, rest⟩ := runFrom_cons h
      exact ih (fun l' mem => all l' (List.mem_cons_of_mem _ mem))
        (step (all l (List.mem_cons_self ..)) inv first) rest

/-- **Invariant rule.** What holds initially and is kept by every allowed step holds after every
run of allowed moves. -/
theorem run_invariant {I : σ → Prop} {A : ℓ → Prop} (base : I sys.init)
    (step : ∀ {s l s'}, A l → I s → sys.step s l = some s' → I s')
    {ls : List ℓ} (all : ∀ l ∈ ls, A l) {s : σ} (h : sys.run ls = some s) : I s :=
  runFrom_invariant step all base h

/-- The rule for systems all of whose moves are allowed. -/
theorem run_invariant' {I : σ → Prop} (base : I sys.init)
    (step : ∀ {s l s'}, I s → sys.step s l = some s' → I s')
    {ls : List ℓ} {s : σ} (h : sys.run ls = some s) : I s := by
  have all : ∀ l ∈ ls, (fun _ : ℓ => True) l := fun _ _ => trivial
  exact run_invariant base (fun _ => step) all h

/-- **View rule.** What every step does to the view of a state, a system on the views does, and so
it is with runs. -/
theorem runFrom_view {τ : Type} {sys' : System τ ℓ} {view : σ → τ}
    (step : ∀ s l, (sys.step s l).map view = sys'.step (view s) l) (s : σ) (ls : List ℓ) :
    (sys.runFrom s ls).map view = sys'.runFrom (view s) ls := by
  induction ls generalizing s with
  | nil => rfl
  | cons l ls ih =>
      rw [runFrom, runFrom, ← step]
      cases sys.step s l with
      | none => rfl
      | some s' => exact ih s'

/-- A move that is guarded by what the view tells. -/
theorem map_guarded {τ : Type} {view : σ → τ} {p q : Prop} [Decidable p] [Decidable q] {s : σ}
    {t : τ} (same : p ↔ q) (commutes : view s = t) :
    (if p then some s else none).map view = if q then some t else none := by
  by_cases allowed : p
  · rw [if_pos allowed, if_pos (same.mp allowed), Option.map_some, commutes]
  · rw [if_neg allowed, if_neg (mt same.mpr allowed), Option.map_none]

end System

end Async
