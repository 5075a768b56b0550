import CancelSafeFutures.Async.Action
import CancelSafeFutures.Async.Transition
import CancelSafeFutures.Sync.Poison

/-!
# `RobustMutex`

The model of `src/sync/mutex.rs`.  Of the inner mutex only mutual exclusion is kept: a guard is
made only when the lock is free, and the lock is free again when the guard is dropped.  Which of the
tasks that wait gets it is left open here; `queuedMutex` adds the queue.

`robustMutex` is a mutex in use by any number of tasks, each of which has one use of the mutex
going at a time.  A call is cut where others can come in between: taking the inner lock and
reading the flags are two moves, and so are writing the flags and giving the inner lock back; the
steps of an action are moves of their own.
-/

namespace CancelSafeFutures

open Async

/-- `tokio::sync::Mutex`. -/
structure InnerMutex (T : Type) where
  locked : Bool
  data : T
  deriving DecidableEq, Repr

/-- `tokio::sync::MutexGuard`.  `acquisition` tells how often the lock had been taken when it was
made. -/
structure MutexGuard where
  acquisition : Nat
  deriving DecidableEq, Repr

/-- `RobustMutex`. -/
structure RobustMutex (T : Type) where
  poison : Flag
  inner : InnerMutex T
  deriving DecidableEq, Repr

/-- `ActionPermit`.  Its `poison` is that of the mutex. -/
structure ActionPermit where
  guard : MutexGuard
  deriving DecidableEq, Repr

/-- `Poisoner`. -/
structure Poisoner where
  poisonGuard : Guard
  deriving DecidableEq, Repr

/-- `AsyncPoisoner`. -/
structure AsyncPoisoner where
  poisonGuard : Guard
  terminated : Bool
  deriving DecidableEq, Repr

namespace RobustMutex

variable {T : Type}

/-- `RobustMutex::new`. -/
def new (value : T) : RobustMutex T := ⟨.new, ⟨false, value⟩⟩

/-- `RobustMutex::is_poisoned`. -/
def isPoisoned (this : RobustMutex T) : Bool := this.poison.getFlags != noPoison

/-- `RobustMutex::is_panic_poisoned`. -/
def isPanicPoisoned (this : RobustMutex T) : Bool := this.poison.getFlags &&& panicPoison != 0

/-- `RobustMutex::is_cancel_poisoned`. -/
def isCancelPoisoned (this : RobustMutex T) : Bool := this.poison.getFlags &&& cancelPoison != 0

/-- `RobustMutex::get_mut`: the data, and the mutex when other data have been written to them. -/
def getMut (this : RobustMutex T) : T × (T → RobustMutex T) :=
  (this.inner.data, fun data => { this with inner := { this.inner with data := data } })

/-- `RobustMutex::into_inner`. -/
def intoInner (this : RobustMutex T) : LockResult T :=
  mapResult this.poison.borrow fun () => this.inner.data

end RobustMutex

/-- `ActionPermit::new`. -/
def ActionPermit.new (guard : MutexGuard) (poison : Flag) : LockResult ActionPermit :=
  mapResult poison.borrow fun () => ⟨guard⟩

/-- `RobustMutex::try_lock`, with what `try_lock` of the inner lock has returned. -/
def RobustMutex.tryLock (inner : Option MutexGuard) (poison : Flag) :
    TryLockResult ActionPermit :=
  match inner with
  | some guard => (ActionPermit.new guard poison).mapError .poisoned
  | none => .error .wouldBlock

/-- What a formatter is given by `debug_struct`: a name, and the fields with their texts. -/
structure DebugStruct where
  name : String
  fields : List (String × String)
  deriving DecidableEq, Repr

/-- `<RobustMutex as Debug>::fmt`, with what `try_lock` has returned.  `debug` is that of the
data, and the flags are read when the lock is free again. -/
def RobustMutex.fmt {T : Type} (debug : T → String) (result : TryLockResult ActionPermit)
    (data : T) (poison : Flag) : DebugStruct where
  name := "RobustMutex"
  fields :=
    [("data", match result with
      | .ok _ => debug data
      | .error _ => "<locked>"),
     ("poisoned", poison.fmt)]

/-- `Poisoner::drop`. -/
def Poisoner.drop (this : Poisoner) (poison : Flag) (panicking : Bool) : Flag :=
  poison.done this.poisonGuard false panicking

/-- `AsyncPoisoner::drop`. -/
def AsyncPoisoner.drop (this : AsyncPoisoner) (poison : Flag) (panicking : Bool) : Flag :=
  poison.done this.poisonGuard (!this.terminated) panicking

/-- The local variable `_poisoner` or `poisoner`. -/
inductive AnyPoisoner where
  | sync (this : Poisoner)
  | async (this : AsyncPoisoner)
  deriving DecidableEq, Repr

namespace AnyPoisoner

/-- The beginning of `perform`, `perform_async_boxed` and `perform_async_boxed_local`. -/
def new (async : Bool) (poison : Flag) (panicking : Bool) : AnyPoisoner :=
  let poisonGuard := poison.guardAssumingNoPoison panicking
  if async then .async ⟨poisonGuard, false⟩ else .sync ⟨poisonGuard⟩

def isAsync : AnyPoisoner → Bool
  | .sync _ => false
  | .async _ => true

/-- What is left of the function when the action is gone: `poisoner.terminated = true` after an
action that completed, and the drop. -/
def drop (this : AnyPoisoner) (poison : Flag) (exit : Exit) : Flag :=
  match this with
  | .sync this => this.drop poison exit.unwinding
  | .async this =>
    let this := if exit.completed then { this with terminated := true } else this
    this.drop poison exit.unwinding

end AnyPoisoner

/-- A call of `perform`, or a future of `perform_async_boxed` or `perform_async_boxed_local` from
its first poll on.  The last three fields say how the action was started and what has happened to
it since. -/
structure Section (A Ans : Type) where
  permit : ActionPermit
  poisoner : AnyPoisoner
  activity : Activity A
  action : A
  unwinding : Bool
  inputs : List (Input Ans)
  deriving DecidableEq, Repr

/-- How a task came to take the lock. -/
inductive Route where
  | lock
  | blockingLock
  | tryLock
  | fmt
  deriving DecidableEq, Repr

/-- What a task has to do with the mutex. -/
inductive Phase (A Ans : Type) where
  | idle
  /-- A call of `lock` or of `blocking_lock`. -/
  | locking (route : Route)
  /-- The inner lock is taken, and `ActionPermit::new` comes next. -/
  | acquired (guard : MutexGuard) (route : Route)
  | permit (permit : ActionPermit)
  | poisoned (error : PoisonError ActionPermit)
  /-- `Debug::fmt` has the result of `try_lock`. -/
  | formatting (result : TryLockResult ActionPermit)
  /-- A future of `perform_async_boxed` that was not polled. -/
  | created (permit : ActionPermit) (action : A)
  | section (this : Section A Ans)
  /-- The action is gone, and the poisoner is dropped next. -/
  | ending (this : Section A Ans) (exit : Exit)
  /-- The poisoner is gone, and the permit is dropped next. -/
  | unlocking (permit : ActionPermit)
  deriving DecidableEq, Repr

/-- An action that is gone, with the number of the acquisition it ran under. -/
structure Ended (A Ans : Type) where
  acquisition : Nat
  async : Bool
  action : A
  unwinding : Bool
  inputs : List (Input Ans)
  exit : Exit
  deriving DecidableEq, Repr

/-- The mutex, and what has happened under it: how often the lock was taken, under which
acquisitions an action was started, the actions that are gone, and for each step of an action the
acquisition it ran under. -/
structure Shared (A T Ans : Type) where
  mutex : RobustMutex T
  acquisitions : Nat
  started : List Nat
  log : List (Ended A Ans)
  trace : List Nat

/-- A mutex and the tasks that use it. -/
structure MutexProgram (ι A T Ans : Type) where
  shared : Shared A T Ans
  tasks : ι → Phase A Ans

/-- The moves.  `available` is `false` when `try_lock` fails although the lock is free, because
it is on its way to a task that waits for it; `unwinding` is `thread::panicking()`. -/
inductive MutexOp (ι A Ans : Type) where
  | lock (i : ι)
  | blockingLock (i : ι)
  | dropLock (i : ι)
  | acquire (i : ι)
  | tryLock (i : ι) (available : Bool)
  | fmt (i : ι) (available : Bool)
  | newPermit (i : ι)
  | intoInner (i : ι)
  | perform (i : ι) (action : A) (unwinding : Bool)
  | performAsyncBoxed (i : ι) (action : A)
  | poll (i : ι) (unwinding : Bool)
  | dropFuture (i : ι) (unwinding : Bool)
  | advance (i : ι) (answer : Ans)
  | dropPoisoner (i : ι)
  | dropGuard (i : ι)
  deriving DecidableEq, Repr

/-- The guard a task holds, in the permit or the error or the section it has. -/
def Phase.guard {A Ans : Type} : Phase A Ans → Option MutexGuard
  | .idle => none
  | .locking _ => none
  | .acquired guard _ => some guard
  | .permit this => some this.guard
  | .poisoned error => some error.guard.guard
  | .formatting (.ok this) => some this.guard
  | .formatting (.error (.poisoned error)) => some error.guard.guard
  | .formatting (.error .wouldBlock) => none
  | .created this _ => some this.guard
  | .section this => some this.permit.guard
  | .ending this _ => some this.permit.guard
  | .unlocking this => some this.guard

/-- What a call that has taken the lock gets from `ActionPermit::new`. -/
def Route.received {A Ans : Type} (this : Route) (guard : MutexGuard) (poison : Flag) :
    Phase A Ans :=
  match this with
  | .lock | .blockingLock =>
    match ActionPermit.new guard poison with
    | .ok permit => .permit permit
    | .error error => .poisoned error
  | .tryLock =>
    match RobustMutex.tryLock (some guard) poison with
    | .ok permit => .permit permit
    | .error (.poisoned error) => .poisoned error
    | .error .wouldBlock => .idle
  | .fmt => .formatting (RobustMutex.tryLock (some guard) poison)

namespace Shared

variable {A T Ans : Type}

/-- A new mutex. -/
def new (value : T) : Shared A T Ans where
  mutex := .new value
  acquisitions := 0
  started := []
  log := []
  trace := []

/-- The inner lock is taken. -/
def lock (this : Shared A T Ans) : Shared A T Ans :=
  { this with
    mutex := { this.mutex with inner := { this.mutex.inner with locked := true } }
    acquisitions := this.acquisitions + 1 }

/-- The inner lock is given back. -/
def unlock (this : Shared A T Ans) : Shared A T Ans :=
  { this with mutex := { this.mutex with inner := { this.mutex.inner with locked := false } } }

/-- An action is started. -/
def began (this : Shared A T Ans) (guard : MutexGuard) : Shared A T Ans :=
  { this with started := this.started ++ [guard.acquisition] }

/-- An action makes a step. -/
def write (this : Shared A T Ans) (guard : MutexGuard) (data : T) : Shared A T Ans :=
  { this with
    mutex := { this.mutex with inner := { this.mutex.inner with data := data } }
    trace := this.trace ++ [guard.acquisition] }

/-- An action is gone. -/
def ended (this : Shared A T Ans) (ended : Ended A Ans) : Shared A T Ans :=
  { this with log := this.log ++ [ended] }

/-- The flags are written. -/
def poisoned (this : Shared A T Ans) (poison : Flag) : Shared A T Ans :=
  { this with mutex := { this.mutex with poison := poison } }

end Shared

namespace Section

variable {A Ans : Type}

/-- An action is started. -/
def start (permit : ActionPermit) (async : Bool) (poison : Flag) (action : A)
    (unwinding : Bool) : Section A Ans where
  permit := permit
  poisoner := .new async poison unwinding
  activity := .start action unwinding
  action := action
  unwinding := unwinding
  inputs := []

/-- Something has happened to the action. -/
def after (this : Section A Ans) (input : Input Ans) (activity : Activity A) : Section A Ans :=
  { this with activity := activity, inputs := this.inputs ++ [input] }

/-- The action is gone. -/
def ended (this : Section A Ans) (exit : Exit) : Ended A Ans where
  acquisition := this.permit.guard.acquisition
  async := this.poisoner.isAsync
  action := this.action
  unwinding := this.unwinding
  inputs := this.inputs
  exit := exit

end Section

namespace MutexProgram

variable {ι A T Ans : Type} [DecidableEq ι]

/-- Task `i` gets to phase `p`. -/
def put (s : MutexProgram ι A T Ans) (i : ι) (p : Phase A Ans) : MutexProgram ι A T Ans :=
  { s with tasks := Function.update s.tasks i p }

/-- The inner lock goes to task `i`. -/
def acquire (s : MutexProgram ι A T Ans) (i : ι) (route : Route) : MutexProgram ι A T Ans :=
  { shared := s.shared.lock
    tasks := Function.update s.tasks i (.acquired ⟨s.shared.acquisitions + 1⟩ route) }

/-- Task `i` tries the inner lock, and leaves it at that when it does not get it. -/
def tryAcquire (s : MutexProgram ι A T Ans) (i : ι) (route : Route) (available : Bool) :
    MutexProgram ι A T Ans :=
  if available && !s.shared.mutex.inner.locked then s.acquire i route else s

/-- Task `i` drops its guard. -/
def release (s : MutexProgram ι A T Ans) (i : ι) : MutexProgram ι A T Ans :=
  { shared := s.shared.unlock, tasks := Function.update s.tasks i .idle }

/-- Task `i` starts an action. -/
def start (s : MutexProgram ι A T Ans) (i : ι) (permit : ActionPermit) (async : Bool)
    (action : A) (unwinding : Bool) : MutexProgram ι A T Ans :=
  { shared := s.shared.began permit.guard
    tasks := Function.update s.tasks i
      (.section (.start permit async s.shared.mutex.poison action unwinding)) }

/-- Something has happened to the action of task `i`. -/
def goOn (s : MutexProgram ι A T Ans) (i : ι) (sec : Section A Ans) (data : T) :
    MutexProgram ι A T Ans :=
  { shared := s.shared.write sec.permit.guard data
    tasks := Function.update s.tasks i (.section sec) }

/-- The action of task `i` is gone. -/
def finish (s : MutexProgram ι A T Ans) (i : ι) (sec : Section A Ans) (data : T) (exit : Exit) :
    MutexProgram ι A T Ans :=
  { shared := (s.shared.write sec.permit.guard data).ended (sec.ended exit)
    tasks := Function.update s.tasks i (.ending sec exit) }

/-- Task `i` drops its poisoner. -/
def dropPoisoner (s : MutexProgram ι A T Ans) (i : ι) (sec : Section A Ans) (exit : Exit) :
    MutexProgram ι A T Ans :=
  { shared := s.shared.poisoned (sec.poisoner.drop s.shared.mutex.poison exit)
    tasks := Function.update s.tasks i (.unlocking sec.permit) }

variable [Action A T Ans]

/-- Something happens to the action of task `i`. -/
def input (s : MutexProgram ι A T Ans) (i : ι) (sec : Section A Ans) (input : Input Ans) :
    Option (MutexProgram ι A T Ans) :=
  match sec.activity.next sec.poisoner.isAsync s.shared.mutex.inner.data input with
  | some (.finished exit, data) =>
    some (s.finish i (sec.after input (.finished exit)) data exit)
  | some (activity, data) => some (s.goOn i (sec.after input activity) data)
  | none => none

/-- One move. -/
def step (s : MutexProgram ι A T Ans) : MutexOp ι A Ans → Option (MutexProgram ι A T Ans)
  | .lock i =>
    match s.tasks i with
    | .idle => some (s.put i (.locking .lock))
    | _ => none
  | .blockingLock i =>
    match s.tasks i with
    | .idle => some (s.put i (.locking .blockingLock))
    | _ => none
  | .dropLock i =>
    match s.tasks i with
    | .locking .lock => some (s.put i .idle)
    | _ => none
  | .acquire i =>
    match s.tasks i with
    | .locking route => if s.shared.mutex.inner.locked then none else some (s.acquire i route)
    | _ => none
  | .tryLock i available =>
    match s.tasks i with
    | .idle => some (s.tryAcquire i .tryLock available)
    | _ => none
  | .fmt i available =>
    match s.tasks i with
    | .idle => some (s.tryAcquire i .fmt available)
    | _ => none
  | .newPermit i =>
    match s.tasks i with
    | .acquired guard route => some (s.put i (route.received guard s.shared.mutex.poison))
    | _ => none
  | .intoInner i =>
    match s.tasks i with
    | .poisoned error => some (s.put i (.permit error.intoInner))
    | _ => none
  | .perform i action unwinding =>
    match s.tasks i with
    | .permit permit => some (s.start i permit false action unwinding)
    | _ => none
  | .performAsyncBoxed i action =>
    match s.tasks i with
    | .permit permit => some (s.put i (.created permit action))
    | _ => none
  | .poll i unwinding =>
    match s.tasks i with
    | .created permit action => some (s.start i permit true action unwinding)
    | .section sec => s.input i sec (.resume unwinding)
    | _ => none
  | .dropFuture i unwinding =>
    match s.tasks i with
    | .created _ _ => some (s.release i)
    | .section sec => s.input i sec (.drop unwinding)
    | _ => none
  | .advance i answer =>
    match s.tasks i with
    | .section sec => s.input i sec (.advance answer)
    | _ => none
  | .dropPoisoner i =>
    match s.tasks i with
    | .ending sec exit => some (s.dropPoisoner i sec exit)
    | _ => none
  | .dropGuard i =>
    match s.tasks i with
    | .permit _ | .poisoned _ | .formatting (.ok _) | .formatting (.error (.poisoned _))
    | .unlocking _ => some (s.release i)
    | _ => none

end MutexProgram

/-- A new mutex and its tasks. -/
def robustMutex {ι A T Ans : Type} [DecidableEq ι] [Action A T Ans] (value : T) :
    System (MutexProgram ι A T Ans) (MutexOp ι A Ans) where
  init := ⟨.new value, fun _ => .idle⟩
  step := MutexProgram.step

end CancelSafeFutures
