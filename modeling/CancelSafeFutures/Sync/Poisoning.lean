import CancelSafeFutures.Sync.Serialization

/-!
# Poisoning

Which flags are set follows from how the actions that are gone have gone: `Interrupted` and
`Unwound` say it of the log, and `Exact` of the flags.  The flags are behind the log only from the
end of an action to the drop of its poisoner, and the lock is taken all that time.
-/

namespace CancelSafeFutures

open Async

variable {ι A T Ans : Type}

/-- Some async action did not run to its end. -/
def Interrupted (log : List (Ended A Ans)) : Prop :=
  ∃ ended ∈ log, ended.async = true ∧ ended.exit.completed = false

/-- Some action was torn down while its thread was unwinding. -/
def Unwound (log : List (Ended A Ans)) : Prop := ∃ ended ∈ log, ended.exit.unwinding = true

/-- The flags that tell of the actions in `log`. -/
def flagOf (log : List (Ended A Ans)) : Flag :=
  .encode (log.any fun ended => ended.exit.unwinding)
    (log.any fun ended => ended.async && !ended.exit.completed)

theorem any_interrupted {log : List (Ended A Ans)} :
    (log.any fun ended => ended.async && !ended.exit.completed) = true ↔ Interrupted log := by
  simp only [Interrupted, List.any_eq_true, Bool.and_eq_true, Bool.not_eq_true']

theorem any_unwound {log : List (Ended A Ans)} :
    (log.any fun ended => ended.exit.unwinding) = true ↔ Unwound log := by
  simp only [Unwound, List.any_eq_true]

/-- One bit of the flags. -/
theorem flagOf_cancel (log : List (Ended A Ans)) :
    ((flagOf log).getFlags &&& cancelPoison != 0) = true ↔ Interrupted log := by
  rw [flagOf, Flag.encode_cancel]
  exact any_interrupted

/-- And the other. -/
theorem flagOf_panic (log : List (Ended A Ans)) :
    ((flagOf log).getFlags &&& panicPoison != 0) = true ↔ Unwound log := by
  rw [flagOf, Flag.encode_panic]
  exact any_unwound

theorem flagOf_concat (log : List (Ended A Ans)) (ended : Ended A Ans) :
    flagOf (log ++ [ended]) =
      .encode ((log.any fun ended => ended.exit.unwinding) || ended.exit.unwinding)
        ((log.any fun ended => ended.async && !ended.exit.completed) ||
          (ended.async && !ended.exit.completed)) := by
  simp only [flagOf, List.any_append, List.any_cons, List.any_nil, Bool.or_false]

/-- Both poisoners make one call of `done`. -/
theorem AnyPoisoner.drop_eq_done (async : Bool) (flag poison : Flag) (unwinding : Bool)
    (exit : Exit) :
    (AnyPoisoner.new async flag unwinding).drop poison exit =
      poison.done ⟨unwinding⟩ (async && !exit.completed) exit.unwinding := by
  cases async with
  | false => rfl
  | true =>
      simp only [new, drop, AsyncPoisoner.drop, Flag.guardAssumingNoPoison, if_true,
        Bool.true_and]
      cases exit.completed <;> rfl

/-- The poisoner of an action that was started on a thread that did not unwind tells how it
went. -/
theorem AnyPoisoner.drop_flagOf (log : List (Ended A Ans)) (ended : Ended A Ans) (flag : Flag) :
    (AnyPoisoner.new ended.async flag false).drop (flagOf log) ended.exit =
      flagOf (log ++ [ended]) := by
  rw [drop_eq_done, flagOf_concat, flagOf, Flag.done_encode, Bool.not_false, Bool.true_and]

/-- What `ActionPermit::new` reads. -/
theorem ActionPermit.new_flagOf (guard : MutexGuard) (log : List (Ended A Ans)) :
    ActionPermit.new guard (flagOf log) = .ok ⟨guard⟩ ∧ ¬Interrupted log ∧ ¬Unwound log ∨
      ActionPermit.new guard (flagOf log) = .error ⟨⟨guard⟩, (flagOf log).getFlags⟩ ∧
        (Interrupted log ∨ Unwound log) := by
  rw [← any_interrupted, ← any_unwound, flagOf, new, Flag.borrow_encode]
  cases log.any fun ended => ended.exit.unwinding <;>
    cases log.any fun ended => ended.async && !ended.exit.completed <;> simp [mapResult]

/-- A call that reads the flags as clear has a permit. -/
theorem Route.received_ok (route : Route) {guard : MutexGuard} {poison : Flag}
    {permit : ActionPermit} (h : ActionPermit.new guard poison = .ok permit) :
    (route.received guard poison : Phase A Ans) =
      if route = .fmt then .formatting (.ok permit) else .permit permit := by
  cases route <;> simp only [received, RobustMutex.tryLock, h, Except.mapError, reduceCtorEq,
    if_true, if_false]

/-- And one that does not has the error. -/
theorem Route.received_error (route : Route) {guard : MutexGuard} {poison : Flag}
    {error : PoisonError ActionPermit} (h : ActionPermit.new guard poison = .error error) :
    (route.received guard poison : Phase A Ans) =
      if route = .fmt then .formatting (.error (.poisoned error)) else .poisoned error := by
  cases route <;> simp only [received, RobustMutex.tryLock, h, Except.mapError, reduceCtorEq,
    if_true, if_false]

/-- The error takes the flags along. -/
theorem ActionPermit.flags_of_error {guard : MutexGuard} {poison : Flag}
    {error : PoisonError ActionPermit} (h : ActionPermit.new guard poison = .error error) :
    error.flags = poison.getFlags := by
  unfold ActionPermit.new Flag.borrow at h
  split at h
  · cases h
    rfl
  · cases h

namespace MutexProgram

/-- The flags tell of all actions that are gone. -/
def Exact (shared : Shared A T Ans) : Prop := shared.mutex.poison = flagOf shared.log

/-- What is known of the flags while the lock is taken. -/
def Poison (p : Phase A Ans) (shared : Shared A T Ans) : Prop :=
  match p with
  | .poisoned error => Exact shared ∧ error.flags = shared.mutex.poison.getFlags
  | .section sec =>
    Exact shared ∧ ∃ flag, sec.poisoner = .new sec.poisoner.isAsync flag false
  | .ending sec exit =>
    (∃ flag, sec.poisoner = .new sec.poisoner.isAsync flag false) ∧
      ∃ before, shared.log = before ++ [sec.ended exit] ∧ shared.mutex.poison = flagOf before
  | _ => Exact shared

theorem isAsync_new (async : Bool) (flag : Flag) (unwinding : Bool) :
    (AnyPoisoner.new async flag unwinding).isAsync = async := by
  cases async <;> rfl

/-- Whoever holds the lock keeps it so, as long as no action is started on a thread that
unwinds. -/
theorem poison_keeps [Action A T Ans] :
    Keeps (A := A) True (Exact (T := T)) Poison where
  acquire _ free := free
  newPermit held received := by
    cases received with
    | permit | formatting => exact held
    | poisoned _ new => exact ⟨held, ActionPermit.flags_of_error new⟩
  intoInner held := held.1
  create _ held := held
  start {shared permit unwinding} async action held calm := by
    have exact_ : Exact shared := by
      rcases held with held | ⟨_, held⟩ <;> exact held
    rw [calm trivial]
    refine ⟨exact_, shared.mutex.poison, ?_⟩
    exact congrArg (AnyPoisoner.new · _ _) (isAsync_new ..).symm
  goOn held _ := held
  finish held _ := ⟨held.2, _, rfl, held.1⟩
  dropPoisoner {shared sec exit} held := by
    obtain ⟨⟨flag, poisoner⟩, before, log, flags⟩ := held
    have dropped := AnyPoisoner.drop_flagOf before (sec.ended exit) flag
    rw [← log, ← flags] at dropped
    have told : sec.poisoner.drop shared.mutex.poison exit = flagOf shared.log := by
      rw [poisoner]
      exact dropped
    exact told
  release {shared p} quiet held := by
    cases p with
    | permit | formatting | created | unlocking => exact held
    | poisoned => exact held.1
    | _ => exact quiet.elim

end MutexProgram

open MutexProgram in
/-- **Poisoning is exact.**  If no action is started on a thread that unwinds, then whenever the
lock is free the cancel flag is set exactly when some async action that was started did not run to
its end, and the panic flag exactly when some action was torn down while its thread was unwinding.
A task that has just taken the lock gets a permit from its call, whichever it is, exactly when
neither has happened, and otherwise an error that tells, as long as it exists, which of the two
have. -/
theorem poisoning_exact [Action A T Ans] [DecidableEq ι] {value : T}
    {ops : List (MutexOp ι A Ans)} (calm : ∀ op ∈ ops, op.Calm) {s : MutexProgram ι A T Ans}
    (h : (robustMutex value).run ops = some s) :
    (s.shared.mutex.inner.locked = false →
      s.shared.started = s.shared.log.map (·.acquisition) ∧
      (s.shared.mutex.isCancelPoisoned = true ↔ Interrupted s.shared.log) ∧
      (s.shared.mutex.isPanicPoisoned = true ↔ Unwound s.shared.log)) ∧
    (∀ i guard route, s.tasks i = .acquired guard route →
      ActionPermit.new guard s.shared.mutex.poison = .ok ⟨guard⟩ ∧
          (route.received guard s.shared.mutex.poison : Phase A Ans) =
            (if route = .fmt then .formatting (.ok ⟨guard⟩) else .permit ⟨guard⟩) ∧
          ¬Interrupted s.shared.log ∧ ¬Unwound s.shared.log ∨
        ∃ error, ActionPermit.new guard s.shared.mutex.poison = .error error ∧
          (route.received guard s.shared.mutex.poison : Phase A Ans) =
            (if route = .fmt then .formatting (.error (.poisoned error)) else .poisoned error) ∧
          (Interrupted s.shared.log ∨ Unwound s.shared.log) ∧
          (error.isCancel = true ↔ Interrupted s.shared.log) ∧
          (error.isPanic = true ↔ Unwound s.shared.log)) ∧
    ∀ i error, s.tasks i = .poisoned error →
      (error.isCancel = true ↔ Interrupted s.shared.log) ∧
      (error.isPanic = true ↔ Unwound s.shared.log) := by
  have new : Exact (Shared.new value : Shared A T Ans) := Flag.new_eq_encode
  have settled := (serial_keeps value).run ⟨ordered_new, rfl, rfl⟩ (fun _ _ => False.elim) h
  have inv := poison_keeps.run new (fun op mem _ => calm op mem) h
  refine ⟨fun free => ⟨(settled.free free).2.started, ?_⟩, ?_, ?_⟩
  · have flags : s.shared.mutex.poison = flagOf s.shared.log := inv.free free
    rw [RobustMutex.isCancelPoisoned, RobustMutex.isPanicPoisoned, flags]
    exact ⟨flagOf_cancel _, flagOf_panic _⟩
  · intro i guard route phase
    have held := inv.held (i := i) (by rw [phase]; rfl)
    rw [phase] at held
    have flags : s.shared.mutex.poison = flagOf s.shared.log := held
    rw [flags]
    rcases ActionPermit.new_flagOf guard s.shared.log with ⟨ok, none⟩ | ⟨error, some⟩
    · exact .inl ⟨ok, route.received_ok ok, none⟩
    · exact .inr ⟨_, error, route.received_error error, some, flagOf_cancel _, flagOf_panic _⟩
  · intro i error phase
    have held := inv.held (i := i) (by rw [phase]; rfl)
    rw [phase] at held
    have flags : s.shared.mutex.poison = flagOf s.shared.log := held.1
    rw [PoisonError.isCancel, PoisonError.isPanic, held.2, flags]
    exact ⟨flagOf_cancel _, flagOf_panic _⟩

/-- An action is dropped while another task waits for the lock; the task gets an error, recovers
the permit and panics, and a third one hears of both. -/
theorem poisoning_exact_of_three :
    ∃ s,
      (robustMutex 0 : System (MutexProgram Nat Tally Nat Unit) _).run
        [.lock 0, .acquire 0, .newPermit 0, .performAsyncBoxed 0 [.add 1, .await, .add 2],
          .lock 1, .poll 0 false, .advance 0 (), .advance 0 (), .dropFuture 0 false,
          .advance 0 (), .dropPoisoner 0, .dropGuard 0, .acquire 1, .newPermit 1, .intoInner 1,
          .perform 1 [.panic] false, .advance 1 (), .advance 1 (), .dropPoisoner 1, .dropGuard 1,
          .tryLock 2 true, .newPermit 2, .dropGuard 2] = some s ∧
      s.shared.mutex.isPoisoned = true ∧
      (s.shared.mutex.isCancelPoisoned = true ↔ Interrupted s.shared.log) ∧
      (s.shared.mutex.isPanicPoisoned = true ↔ Unwound s.shared.log) := by
  have run : (robustMutex 0 : System (MutexProgram Nat Tally Nat Unit) _).run
      [.lock 0, .acquire 0, .newPermit 0, .performAsyncBoxed 0 [.add 1, .await, .add 2],
        .lock 1, .poll 0 false, .advance 0 (), .advance 0 (), .dropFuture 0 false,
        .advance 0 (), .dropPoisoner 0, .dropGuard 0, .acquire 1, .newPermit 1, .intoInner 1,
        .perform 1 [.panic] false, .advance 1 (), .advance 1 (), .dropPoisoner 1, .dropGuard 1,
        .tryLock 2 true, .newPermit 2, .dropGuard 2] = some _ := rfl
  refine ⟨_, run, rfl, ((poisoning_exact ?_ run).1 rfl).2⟩
  simp only [List.forall_mem_cons, MutexOp.Calm, true_and, List.not_mem_nil, false_implies,
    implies_true]

end CancelSafeFutures
