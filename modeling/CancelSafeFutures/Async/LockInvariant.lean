import Mathlib.Logic.Function.Basic

/-!
# Locks and what they protect

Tasks are in phases, and in some phases a task holds the lock.  `Lock.Protects` says that at most
one task does, that the lock is taken exactly when one does, that `Free` holds of the shared state
while the lock is free, and `Held` of the holder's phase and the shared state while it is taken.

There are four kinds of step, and a rule for each: a task that does not hold the lock before or
after a step leaves the shared state alone (`outside`), one that takes the lock finds what
`Free` says (`acquire`), the holder may do anything that keeps `Held` (`hold`), and gives the lock
back when `Free` holds again (`release`).
-/

namespace Async

/-- The phases in which a task holds the lock, and whether the lock is taken. -/
structure Lock (P σ : Type) where
  Holds : P → Prop
  locked : σ → Bool

variable {ι P σ : Type} {lock : Lock P σ} {Free : σ → Prop} {Held : P → σ → Prop}

/-- The lock protects what `Free` and `Held` say of the shared state. -/
structure Lock.Protects (lock : Lock P σ) (Free : σ → Prop) (Held : P → σ → Prop) (shared : σ)
    (tasks : ι → P) : Prop where
  exclusive : ∀ {i j}, lock.Holds (tasks i) → lock.Holds (tasks j) → i = j
  locked : lock.locked shared = true ↔ ∃ i, lock.Holds (tasks i)
  free : lock.locked shared = false → Free shared
  held : ∀ {i}, lock.Holds (tasks i) → Held (tasks i) shared

namespace Lock.Protects

/-- Nobody holds a lock that is free. -/
theorem not_holds {shared : σ} {tasks : ι → P}
    (inv : lock.Protects Free Held shared tasks) (free : lock.locked shared = false) (i : ι) :
    ¬lock.Holds (tasks i) := by
  intro holds
  have taken := inv.locked.mpr ⟨i, holds⟩
  rw [free] at taken
  cases taken

/-- Nobody has a lock that nobody holds. -/
theorem unlocked {shared : σ} {tasks : ι → P} (inv : lock.Protects Free Held shared tasks)
    (none : ∀ i, ¬lock.Holds (tasks i)) : lock.locked shared = false := by
  rw [← Bool.not_eq_true]
  intro taken
  obtain ⟨i, holds⟩ := inv.locked.mp taken
  exact none i holds

/-- What is known of the shared state in either case. -/
theorem always {Q : Prop} {shared : σ} {tasks : ι → P}
    (inv : lock.Protects Free Held shared tasks) (free : Free shared → Q)
    (held : ∀ p, Held p shared → Q) : Q := by
  cases taken : lock.locked shared with
  | false => exact free (inv.free taken)
  | true =>
      obtain ⟨i, holds⟩ := inv.locked.mp taken
      exact held _ (inv.held holds)

/-- In the beginning. -/
theorem init {shared : σ} {tasks : ι → P} (none : ∀ i, ¬lock.Holds (tasks i))
    (locked : lock.locked shared = false) (free : Free shared) :
    lock.Protects Free Held shared tasks where
  exclusive holds := (none _ holds).elim
  locked := by
    rw [locked]
    exact ⟨nofun, fun ⟨i, holds⟩ => (none i holds).elim⟩
  free _ := free
  held holds := (none _ holds).elim

variable [DecidableEq ι] {shared shared' : σ} {tasks : ι → P} {i : ι} {p : P}

/-- A task without the lock goes on without it. -/
theorem outside (inv : lock.Protects Free Held shared tasks) (before : ¬lock.Holds (tasks i))
    (after : ¬lock.Holds p) :
    lock.Protects Free Held shared (Function.update tasks i p) := by
  have same : ∀ {j}, lock.Holds (Function.update tasks i p j) →
      Function.update tasks i p j = tasks j := by
    intro j holds
    by_cases eq : j = i
    · subst eq
      rw [Function.update_self] at holds
      exact (after holds).elim
    · exact Function.update_of_ne eq ..
  refine ⟨?_, ?_, inv.free, ?_⟩
  · intro j k holds holds'
    have eq := same holds
    have eq' := same holds'
    rw [eq] at holds
    rw [eq'] at holds'
    exact inv.exclusive holds holds'
  · rw [inv.locked]
    constructor
    · rintro ⟨j, holds⟩
      have ne : j ≠ i := by
        rintro rfl
        exact before holds
      exact ⟨j, by rwa [Function.update_of_ne ne]⟩
    · rintro ⟨j, holds⟩
      have eq := same holds
      rw [eq] at holds
      exact ⟨j, holds⟩
  · intro j holds
    have eq := same holds
    rw [eq] at holds ⊢
    exact inv.held holds

/-- The only task with the lock is `i`. -/
theorem of_holder (others : ∀ j, j ≠ i → ¬lock.Holds (tasks j)) (holds : lock.Holds p)
    (locked : lock.locked shared' = true) (held : Held p shared') :
    lock.Protects Free Held shared' (Function.update tasks i p) := by
  have only : ∀ {j}, lock.Holds (Function.update tasks i p j) → j = i := by
    intro j holds
    by_contra ne
    rw [Function.update_of_ne ne] at holds
    exact others j ne holds
  refine ⟨?_, ?_, ?_, ?_⟩
  · intro j k holds holds'
    exact (only holds).trans (only holds').symm
  · rw [locked]
    exact ⟨fun _ => ⟨i, by rwa [Function.update_self]⟩, fun _ => rfl⟩
  · intro free
    rw [locked] at free
    cases free
  · intro j holds
    rw [only holds, Function.update_self]
    exact held

/-- A task takes the lock. -/
theorem acquire (inv : lock.Protects Free Held shared tasks) (free : lock.locked shared = false)
    (holds : lock.Holds p) (locked : lock.locked shared' = true)
    (step : Free shared → Held p shared') :
    lock.Protects Free Held shared' (Function.update tasks i p) :=
  of_holder (fun j _ => inv.not_holds free j) holds locked (step (inv.free free))

/-- The holder does something, and from then on something else is to be protected. -/
theorem change {Free' : σ → Prop} {Held' : P → σ → Prop}
    (inv : lock.Protects Free Held shared tasks) (before : lock.Holds (tasks i))
    (holds : lock.Holds p) (locked : lock.locked shared' = true) (held : Held' p shared') :
    lock.Protects Free' Held' shared' (Function.update tasks i p) :=
  of_holder (fun _ ne holds => ne (inv.exclusive holds before)) holds locked held

/-- The holder does something. -/
theorem hold (inv : lock.Protects Free Held shared tasks) (before : lock.Holds (tasks i))
    (holds : lock.Holds p) (locked : lock.locked shared' = true)
    (step : Held (tasks i) shared → Held p shared') :
    lock.Protects Free Held shared' (Function.update tasks i p) :=
  inv.change before holds locked (step (inv.held before))

/-- The holder gives the lock back. -/
theorem release (inv : lock.Protects Free Held shared tasks) (before : lock.Holds (tasks i))
    (after : ¬lock.Holds p) (locked : lock.locked shared' = false)
    (step : Held (tasks i) shared → Free shared') :
    lock.Protects Free Held shared' (Function.update tasks i p) := by
  refine init (fun j => ?_) locked (step (inv.held before))
  by_cases eq : j = i
  · rwa [eq, Function.update_self]
  · rw [Function.update_of_ne eq]
    exact fun holds => eq (inv.exclusive holds before)

end Lock.Protects

end Async
