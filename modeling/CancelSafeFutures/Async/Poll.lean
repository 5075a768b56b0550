import Mathlib.Data.List.Basic

/-!
# Polls and futures

A future is a state machine: `Future.poll` is one call of `poll`, and returns the answer with
the state the future is left in.  `answer fut n` is what the `n`-th poll of `fut` answers,
`Resolves fut n out` says that `fut` answers `Pending` exactly `n` times and then `Ready out`,
and `RunToCompletion fut answers` says that `answers` are all the polls of a future that was
polled up to its first `Ready` and not beyond.

A poll can also end in a panic, or not end: `Run` is the outcome of a call, and `Halt` says why
there is no result.
-/

namespace Async

/-- The answer of one poll. -/
inductive Poll (α : Type) where
  | ready (value : α)
  | pending
  deriving DecidableEq, Repr

def Poll.isPending {α : Type} : Poll α → Bool
  | .ready _ => false
  | .pending => true

/-- Why a call came back without a result.  `outOfFuel` is the model's own: the call was still
in a loop when the passes it was given ran out. -/
inductive Halt where
  | panicked (message : String)
  | outOfFuel
  deriving DecidableEq, Repr

/-- The outcome of a call that may panic or fail to return. -/
abbrev Run (α : Type) := Except Halt α

@[simp] theorem run_bind_ok {α β : Type} (value : α) (next : α → Run β) :
    ((.ok value : Run α) >>= next) = next value := rfl

@[simp] theorem run_bind_error {α β : Type} (halt : Halt) (next : α → Run β) :
    ((.error halt : Run α) >>= next) = .error halt := rfl

/-- `Option::expect`. -/
def expect {α : Type} (value : Option α) (message : String) : Run α :=
  match value with
  | some value => .ok value
  | none => .error (.panicked message)

@[simp] theorem expect_some {α : Type} (value : α) (message : String) :
    expect (some value) message = .ok value := rfl

/-- `Option::unwrap`. -/
def unwrap {α : Type} (value : Option α) : Run α :=
  expect value "called `Option::unwrap()` on a `None` value"

/-- A future with output `Out`. -/
class Future (F : Type) (Out : outParam Type) where
  poll : F → Poll Out × F

section Futures

variable {F Out : Type} [Future F Out]

/-- The state a future is in after `n` polls. -/
def after (fut : F) : Nat → F
  | 0 => fut
  | n + 1 => after (Future.poll fut).2 n

/-- The answer to poll number `n`, counting from zero. -/
def answer (fut : F) (n : Nat) : Poll Out := (Future.poll (after fut n)).1

/-- One more poll, at the end. -/
theorem after_succ (fut : F) (n : Nat) : after fut (n + 1) = (Future.poll (after fut n)).2 := by
  induction n generalizing fut with
  | zero => rfl
  | succ n ih => exact ih (Future.poll fut).2

theorem answer_eq_of_poll {fut fut' : F} {n : Nat} {a : Poll Out}
    (h : Future.poll (after fut n) = (a, fut')) : answer fut n = a := by
  rw [answer, h]

theorem after_succ_of_poll {fut fut' : F} {n : Nat} {a : Poll Out}
    (h : Future.poll (after fut n) = (a, fut')) : after fut (n + 1) = fut' := by
  rw [after_succ, h]

/-- The first `n` polls all answer `Pending`. -/
def PendingFor (fut : F) (n : Nat) : Prop := ∀ k < n, answer fut k = .pending

theorem PendingFor.zero (fut : F) : PendingFor fut 0 := fun _ h => (Nat.not_lt_zero _ h).elim

theorem PendingFor.succ {fut : F} {n : Nat} (h : PendingFor fut n)
    (last : answer fut n = .pending) : PendingFor fut (n + 1) := by
  intro k hk
  rcases Nat.lt_succ_iff_lt_or_eq.mp hk with hk | rfl
  · exact h k hk
  · exact last

/-- `Pending` exactly `n` times, then `Ready out`. -/
structure Resolves (fut : F) (n : Nat) (out : Out) : Prop where
  pending : PendingFor fut n
  ready : answer fut n = .ready out

/-- The number of `Pending` answers and the output are the future's own. -/
theorem Resolves.unique {fut : F} {n n' : Nat} {out out' : Out}
    (h : Resolves fut n out) (h' : Resolves fut n' out') : n = n' ∧ out = out' := by
  have same : n = n' := by
    rcases Nat.lt_trichotomy n n' with lt | eq | gt
    · have := h.ready.symm.trans (h'.pending n lt)
      cases this
    · exact eq
    · have := h'.ready.symm.trans (h.pending n' gt)
      cases this
  subst same
  have := h.ready.symm.trans h'.ready
  cases this
  exact ⟨rfl, rfl⟩

/-- The answers are those of a future polled up to its first `Ready` and not beyond. -/
def RunToCompletion (fut : F) (answers : List (Poll Out)) : Prop :=
  ∃ n out, Resolves fut n out ∧ answers = List.replicate n .pending ++ [.ready out]

end Futures

end Async
