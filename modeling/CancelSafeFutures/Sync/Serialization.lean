import CancelSafeFutures.Sync.UnderLock
import Mathlib.Data.List.Pairwise

/-!
# Serial execution

`Ended.perform` replays an action that is gone, from its start to its end, with nothing else in
between, and `serial` replays several of them one after the other.  While the lock is free, the
data are what `serial` makes of the initial value.
-/

namespace CancelSafeFutures

open Async

variable {ι A T Ans : Type} [Action A T Ans]

/-- What an action that is gone has made of `data`. -/
def Ended.perform (this : Ended A Ans) (data : T) : Option T :=
  match Activity.run this.async (.start this.action this.unwinding) data this.inputs with
  | some (.finished exit, data) => if exit = this.exit then some data else none
  | _ => none

/-- What several of them make of `value`, one after the other. -/
def serial (value : T) (log : List (Ended A Ans)) : Option T :=
  log.foldlM (fun data ended => ended.perform data) value

theorem serial_concat {value : T} {log : List (Ended A Ans)} {ended : Ended A Ans} {before : T}
    (log_eq : serial value log = some before) :
    serial value (log ++ [ended]) = ended.perform before := by
  rw [serial] at log_eq
  rw [serial, List.foldlM_append, log_eq]
  exact bind_pure (ended.perform before)

theorem Ended.perform_of_run {ended : Ended A Ans} {before data : T}
    (run : Activity.run ended.async (.start ended.action ended.unwinding) before ended.inputs =
      some (.finished ended.exit, data)) :
    ended.perform before = some data := by
  rw [Ended.perform, run]
  exact if_pos rfl

namespace MutexProgram

/-! ## The order of the steps -/

/-- Under each acquisition at most one action is started, and the steps are in the order of the
acquisitions. -/
structure Ordered (acquisitions : Nat) (started trace : List Nat) : Prop where
  once : started.Pairwise (· < ·)
  sorted : trace.Pairwise (· ≤ ·)
  started_le : ∀ acquisition ∈ started, acquisition ≤ acquisitions
  trace_le : ∀ acquisition ∈ trace, acquisition ≤ acquisitions

/-- All actions that were started are gone, and the data are those of a serial execution. -/
structure Settled (value : T) (shared : Shared A T Ans) : Prop where
  serial : serial value shared.log = some shared.mutex.inner.data
  started : shared.started = shared.log.map (·.acquisition)

/-- Under the present acquisition no action was started. -/
structure Unused (guard : MutexGuard) (shared : Shared A T Ans) : Prop where
  acquisition : guard.acquisition = shared.acquisitions
  started_lt : ∀ acquisition ∈ shared.started, acquisition < shared.acquisitions

/-- An action is under way, and so far it has done to the data what it does on its own. -/
structure UnderWay (value : T) (sec : Section A Ans) (shared : Shared A T Ans) : Prop where
  acquisition : sec.permit.guard.acquisition = shared.acquisitions
  started :
    shared.started = shared.log.map (·.acquisition) ++ [sec.permit.guard.acquisition]
  alone : ∃ before, CancelSafeFutures.serial value shared.log = some before ∧
    Activity.run sec.poisoner.isAsync (.start sec.action sec.unwinding) before sec.inputs =
      some (sec.activity, shared.mutex.inner.data)

/-- What is known while the lock is taken. -/
def Serial (value : T) (p : Phase A Ans) (shared : Shared A T Ans) : Prop :=
  Ordered shared.acquisitions shared.started shared.trace ∧
    match p with
    | .section sec => UnderWay value sec shared
    | .ending _ _ | .unlocking _ => Settled value shared
    | p => Settled value shared ∧ ∀ guard, p.guard = some guard → Unused guard shared

/-- Sorted lists stay so when the last element is at least as large as the others. -/
theorem pairwise_concat {r : Nat → Nat → Prop} {xs : List Nat} {x : Nat} (sorted : xs.Pairwise r)
    (last : ∀ y ∈ xs, r y x) : (xs ++ [x]).Pairwise r := by
  refine List.pairwise_append.mpr ⟨sorted, List.pairwise_singleton r x, ?_⟩
  intro y mem z single
  cases List.mem_singleton.mp single
  exact last y mem

theorem ordered_new : Ordered 0 [] [] :=
  ⟨.nil, .nil, fun _ mem => (nomatch mem), fun _ mem => (nomatch mem)⟩

namespace Ordered

variable {acquisitions : Nat} {started trace : List Nat}

/-- An action makes a step under the last acquisition. -/
theorem write (ordered : Ordered acquisitions started trace) {last : Nat}
    (eq : last = acquisitions) : Ordered acquisitions started (trace ++ [last]) := by
  subst eq
  refine ⟨ordered.once, pairwise_concat ordered.sorted ordered.trace_le,
    ordered.started_le, ?_⟩
  intro step mem
  rcases List.mem_append.mp mem with mem | mem
  · exact ordered.trace_le step mem
  · exact Nat.le_of_eq (List.mem_singleton.mp mem)

/-- An action that is started is the only one under the last acquisition. -/
theorem began (ordered : Ordered acquisitions started trace) {last : Nat}
    (eq : last = acquisitions) (unused : ∀ acquisition ∈ started, acquisition < acquisitions) :
    Ordered acquisitions (started ++ [last]) trace := by
  subst eq
  refine ⟨pairwise_concat ordered.once unused, ordered.sorted, ?_, ordered.trace_le⟩
  intro acquisition mem
  rcases List.mem_append.mp mem with mem | mem
  · exact ordered.started_le acquisition mem
  · exact Nat.le_of_eq (List.mem_singleton.mp mem)

theorem lock (ordered : Ordered acquisitions started trace) :
    Ordered (acquisitions + 1) started trace :=
  ⟨ordered.once, ordered.sorted,
    fun acquisition mem => Nat.le_succ_of_le (ordered.started_le acquisition mem),
    fun acquisition mem => Nat.le_succ_of_le (ordered.trace_le acquisition mem)⟩

/-- No step falls between two steps under another acquisition. -/
theorem between (ordered : Ordered acquisitions started trace) {xs ys zs : List Nat} {a b : Nat}
    (eq : trace = xs ++ a :: (ys ++ a :: zs)) (mem : b ∈ ys) : b = a := by
  have sorted := ordered.sorted
  rw [eq] at sorted
  have sorted := (List.pairwise_append.mp sorted).2.1
  rw [List.pairwise_cons] at sorted
  have ge : a ≤ b := sorted.1 b (List.mem_append_left _ mem)
  have le : b ≤ a := (List.pairwise_append.mp sorted.2).2.2 b mem a (List.mem_cons_self ..)
  omega

end Ordered

/-! ## The steps of an action -/

/-- An action is started. -/
theorem Settled.start {value : T} {shared : Shared A T Ans} (settled : Settled value shared)
    {permit : ActionPermit} (unused : Unused permit.guard shared) (async : Bool) (poison : Flag)
    (action : A) (unwinding : Bool) :
    UnderWay value (.start permit async poison action unwinding)
      (shared.began permit.guard) where
  acquisition := unused.acquisition
  started := congrArg (· ++ [permit.guard.acquisition]) settled.started
  alone := ⟨_, settled.serial, rfl⟩

/-- It makes a step. -/
theorem UnderWay.step {value : T} {sec : Section A Ans} {shared : Shared A T Ans}
    (way : UnderWay value sec shared) {input : Input Ans} {activity : Activity A} {data : T}
    (next : sec.activity.next sec.poisoner.isAsync shared.mutex.inner.data input =
      some (activity, data)) :
    UnderWay value (sec.after input activity) (shared.write sec.permit.guard data) := by
  obtain ⟨before, log, run⟩ := way.alone
  exact ⟨way.acquisition, way.started, before, log, Activity.run_concat run next⟩

/-- And it is gone. -/
theorem UnderWay.finish {value : T} {sec : Section A Ans} {shared : Shared A T Ans}
    {exit : Exit} (way : UnderWay value sec shared) (gone : sec.activity = .finished exit) :
    Settled value (shared.ended (sec.ended exit)) := by
  obtain ⟨before, log, run⟩ := way.alone
  rw [gone] at run
  refine ⟨?_, ?_⟩
  · exact (serial_concat log).trans (Ended.perform_of_run run)
  · rw [Shared.ended, List.map_append]
    exact way.started

/-- Whoever holds the lock keeps it so. -/
theorem serial_keeps (value : T) :
    Keeps (A := A) False
      (fun shared =>
        Ordered shared.acquisitions shared.started shared.trace ∧ Settled value shared)
      (Serial value) where
  acquire route free := by
    refine ⟨free.1.lock, ⟨free.2.serial, free.2.started⟩, ?_⟩
    intro guard held
    cases held
    exact ⟨rfl, fun started mem => Nat.lt_succ_of_le (free.1.started_le started mem)⟩
  newPermit {shared guard route p} held received := by
    have unused := held.2.2 guard rfl
    have same := received.guard
    cases received with
    | permit | poisoned | formatting =>
        refine ⟨held.1, held.2.1, fun guard' eq => ?_⟩
        cases eq.symm.trans same
        exact unused
  intoInner held := ⟨held.1, held.2.1, fun guard eq => held.2.2 guard eq⟩
  create action held := ⟨held.1, held.2.1, fun guard eq => held.2.2 guard eq⟩
  start {shared permit unwinding} async action held _ := by
    have before : Serial value (.permit permit : Phase A Ans) shared := by
      rcases held with held | ⟨_, held⟩ <;> exact held
    have unused := before.2.2 permit.guard rfl
    exact ⟨before.1.began unused.acquisition unused.started_lt,
      before.2.1.start unused async shared.mutex.poison action unwinding⟩
  goOn held next := ⟨held.1.write held.2.acquisition, held.2.step next⟩
  finish held next := ⟨held.1.write held.2.acquisition, (held.2.step next).finish rfl⟩
  dropPoisoner held := ⟨held.1, held.2.serial, held.2.started⟩
  release {shared p} quiet held := by
    have settled : Settled value shared := by
      cases p with
      | permit | poisoned | formatting | created => exact held.2.1
      | unlocking => exact held.2
      | _ => exact quiet.elim
    exact ⟨held.1, settled.serial, settled.started⟩

end MutexProgram

open MutexProgram in
/-- **Critical sections are serializable.**  While the lock is free all actions that were started
are gone, and the data are what they make of the initial value when each runs alone and without
interruption, one after the other in the order of acquisition; an action that was cut short counts
with what it did until then.  Under each acquisition at most one action is started, no step falls
between two steps under another acquisition, and the lock is taken exactly while some task, and
then only one, has a guard. -/
theorem sections_serializable [DecidableEq ι] {value : T} {ops : List (MutexOp ι A Ans)}
    {s : MutexProgram ι A T Ans} (h : (robustMutex value).run ops = some s) :
    (s.shared.mutex.inner.locked = false →
      serial value s.shared.log = some s.shared.mutex.inner.data ∧
        s.shared.started = s.shared.log.map (·.acquisition)) ∧
    s.shared.started.Pairwise (· < ·) ∧
    (∀ xs ys zs a, s.shared.trace = xs ++ a :: (ys ++ a :: zs) → ∀ b ∈ ys, b = a) ∧
    (s.shared.mutex.inner.locked = true ↔ ∃ i, (s.tasks i).guard.isSome = true) ∧
    ∀ i j, (s.tasks i).guard.isSome = true → (s.tasks j).guard.isSome = true → i = j := by
  have inv := (serial_keeps value).run ⟨ordered_new, rfl, rfl⟩ (fun _ _ => False.elim) h
  have ordered : Ordered s.shared.acquisitions s.shared.started s.shared.trace :=
    inv.always And.left fun _ held => held.1
  refine ⟨fun free => ?_, ordered.once, ?_, inv.locked, fun i j => inv.exclusive⟩
  · have settled := (inv.free free).2
    exact ⟨settled.serial, settled.started⟩
  · intro xs ys zs a eq b mem
    exact ordered.between eq mem

/-- One action is dropped after its first step, and another is run after it by a task that
recovers the permit. -/
theorem sections_serializable_of_two :
    ∃ s,
      (robustMutex 0 : System (MutexProgram Nat Tally Nat Unit) _).run
        [.lock 0, .acquire 0, .newPermit 0, .performAsyncBoxed 0 [.add 1, .await, .add 2],
          .lock 1, .poll 0 false, .advance 0 (), .advance 0 (), .tryLock 2 true,
          .dropFuture 0 false, .advance 0 (), .dropPoisoner 0, .dropGuard 0, .acquire 1,
          .newPermit 1, .intoInner 1, .perform 1 [.add 5] false, .advance 1 (), .advance 1 (),
          .dropPoisoner 1, .dropGuard 1] = some s ∧
      s.shared.mutex.inner.data = 6 ∧
      serial 0 s.shared.log = some s.shared.mutex.inner.data := by
  have run : (robustMutex 0 : System (MutexProgram Nat Tally Nat Unit) _).run
      [.lock 0, .acquire 0, .newPermit 0, .performAsyncBoxed 0 [.add 1, .await, .add 2],
        .lock 1, .poll 0 false, .advance 0 (), .advance 0 (), .tryLock 2 true,
        .dropFuture 0 false, .advance 0 (), .dropPoisoner 0, .dropGuard 0, .acquire 1,
        .newPermit 1, .intoInner 1, .perform 1 [.add 5] false, .advance 1 (), .advance 1 (),
        .dropPoisoner 1, .dropGuard 1] = some _ := rfl
  exact ⟨_, run, rfl, ((sections_serializable run).1 rfl).1⟩

end CancelSafeFutures
