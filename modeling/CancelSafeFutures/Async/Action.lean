import Mathlib.Data.List.Basic

/-!
# Actions

An action is code that is lent data of type `T`, works on it in steps, may suspend between two of
them, and may panic.  What a step does may depend on an answer from outside.  A suspended action
can be dropped, and it still makes steps then: those of its destructors, as does an action that
unwinds.

`Activity` follows an action from its first step until it is gone, on whatever threads it runs,
and `Activity.run` replays it.  `Activity.On` is what it keeps of the threads.
-/

namespace Async

/-- What one step does: it goes on, it suspends, it panics, or the action is gone. -/
inductive Effect (A T : Type) where
  | update (this : A) (data : T)
  | await (this : A) (data : T)
  | panic (this : A) (data : T)
  | finish (data : T)

/-- An action of type `A` on data of type `T`, with answers from outside of type `Ans`. -/
class Action (A : Type) (T Ans : outParam Type) where
  step : A → T → Ans → Effect A T
  /-- What is left to do when a suspended action is dropped. -/
  drop : A → A

/-- An action on a thread.  `unwinding` says whether the thread was unwinding when it came to the
action. -/
structure Running (A : Type) where
  action : A
  dropped : Bool
  panicked : Bool
  unwinding : Bool
  deriving DecidableEq, Repr

/-- How an action went, and whether its thread was unwinding in the end. -/
structure Exit where
  dropped : Bool
  panicked : Bool
  unwinding : Bool
  deriving DecidableEq, Repr

/-- Nothing kept the action from running to its end. -/
def Exit.completed (this : Exit) : Bool := !this.dropped && !this.panicked

/-- An action that was started. -/
inductive Activity (A : Type) where
  | running (this : Running A)
  | suspended (action : A)
  | finished (exit : Exit)
  deriving DecidableEq, Repr

/-- What can happen to an action that was started: a step, or a thread comes to resume it or to
drop it. -/
inductive Input (Ans : Type) where
  | advance (answer : Ans)
  | resume (unwinding : Bool)
  | drop (unwinding : Bool)
  deriving DecidableEq, Repr

variable {A T Ans : Type}

namespace Running

/-- `thread::panicking()`. -/
def panicking (this : Running A) : Bool := this.unwinding || this.panicked

/-- One step.  Nothing that unwinds or is dropped can suspend, and a second panic aborts. -/
def advance [Action A T Ans] (this : Running A) (async : Bool) (data : T) (answer : Ans) :
    Option (Activity A × T) :=
  match Action.step this.action data answer with
  | .update action data => some (.running { this with action := action }, data)
  | .await action data =>
    if async && !this.dropped && !this.panicked then some (.suspended action, data) else none
  | .panic action data =>
    if this.panicked then none
    else some (.running { this with action := action, panicked := true }, data)
  | .finish data => some (.finished ⟨this.dropped, this.panicked, this.panicking⟩, data)

end Running

namespace Activity

/-- An action is started. -/
def start (action : A) (unwinding : Bool) : Activity A :=
  .running ⟨action, false, false, unwinding⟩

variable [Action A T Ans]

/-- One thing happens.  Only an `async` action suspends. -/
def next (async : Bool) (this : Activity A) (data : T) : Input Ans → Option (Activity A × T)
  | .advance answer =>
    match this with
    | .running this => this.advance async data answer
    | _ => none
  | .resume unwinding =>
    match this with
    | .suspended action => some (.running ⟨action, false, false, unwinding⟩, data)
    | _ => none
  | .drop unwinding =>
    match this with
    | .suspended action => some (.running ⟨Action.drop action, true, false, unwinding⟩, data)
    | _ => none

/-- One thing after the other. -/
def run (async : Bool) (this : Activity A) (data : T) :
    List (Input Ans) → Option (Activity A × T)
  | [] => some (this, data)
  | input :: rest =>
    (next async this data input).bind fun after => run async after.1 after.2 rest

/-- The last thing that happened, split off. -/
theorem run_concat {async : Bool} {this this' this'' : Activity A} {data data' data'' : T}
    {inputs : List (Input Ans)} {input : Input Ans}
    (before : run async this data inputs = some (this', data'))
    (last : next async this' data' input = some (this'', data'')) :
    run async this data (inputs ++ [input]) = some (this'', data'') := by
  induction inputs generalizing this data with
  | nil =>
      cases before
      rw [List.nil_append, run, last]
      rfl
  | cons first rest ih =>
      rw [run] at before
      obtain ⟨after, step, before⟩ := Option.bind_eq_some_iff.mp before
      rw [List.cons_append, run, step, Option.bind_some]
      exact ih before

end Activity

/-! ## The threads an action is on -/

/-- Whether the thread that an action is on was unwinding when it came to the action, after
something has happened; `unwinding` is that of the thread before. -/
def Input.thread (unwinding : Bool) : Input Ans → Bool
  | .advance _ => unwinding
  | .resume unwinding | .drop unwinding => unwinding

/-- What an activity keeps of its threads.  `first` is that of the thread that started it, and
`last` that of the thread that came last; only an `async` action sees more than one. -/
def Activity.On (async first last : Bool) : Activity A → Prop
  | .running this =>
    this.unwinding = last ∧ (async = false → last = first ∧ this.dropped = false)
  | .suspended _ => async = true
  | .finished exit =>
    exit.unwinding = (last || exit.panicked) ∧
      (async = false → last = first ∧ exit.dropped = false)

namespace Activity.On

variable [Action A T Ans] {async first last : Bool} {this this' : Activity A} {data data' : T}

/-- One step on a thread. -/
theorem advance {this : Running A} {answer : Ans} (on : (Activity.running this).On async first last)
    (h : this.advance async data answer = some (this', data')) : this'.On async first last := by
  unfold Running.advance at h
  split at h
  · cases h
    exact on
  · obtain ⟨suspends, h⟩ := Option.ite_none_right_eq_some.mp h
    cases h
    rw [Bool.and_eq_true, Bool.and_eq_true] at suspends
    exact suspends.1.1
  · obtain ⟨-, h⟩ := Option.ite_none_left_eq_some.mp h
    cases h
    exact on
  · cases h
    refine ⟨?_, on.2⟩
    rw [← on.1]
    rfl

/-- One thing happens.  A thread comes only to an action that is suspended. -/
theorem next {input : Input Ans} (on : this.On async first last)
    (h : Activity.next async this data input = some (this', data')) :
    this'.On async first (input.thread last) := by
  cases input with
  | advance answer =>
      cases this with
      | running this => exact on.advance h
      | suspended | finished => cases h
  | resume unwinding | drop unwinding =>
      cases this with
      | suspended action =>
          cases h
          have isAsync : async = true := on
          rw [isAsync]
          exact ⟨rfl, nofun⟩
      | running | finished => cases h

/-- One thing after the other. -/
theorem run {inputs : List (Input Ans)} (on : this.On async first last)
    (h : Activity.run async this data inputs = some (this', data')) :
    this'.On async first (inputs.foldl Input.thread last) := by
  induction inputs generalizing this data last with
  | nil =>
      cases h
      exact on
  | cons input rest ih =>
      rw [Activity.run] at h
      obtain ⟨after, step, h⟩ := Option.bind_eq_some_iff.mp h
      exact ih (on.next step) h

end Activity.On

/-! ## A small action -/

/-- A step of an action that adds up. -/
inductive TallyStep where
  | add (amount : Nat)
  | await
  | panic
  deriving DecidableEq, Repr

/-- An action given by its steps, which leaves nothing to its destructors. -/
abbrev Tally := List TallyStep

instance : Action Tally Nat Unit where
  step
    | [], data, _ => .finish data
    | .add amount :: rest, data, _ => .update rest (data + amount)
    | .await :: rest, data, _ => .await rest data
    | .panic :: _, data, _ => .panic [] data
  drop _ := []

end Async
