import CancelSafeFutures.Sync.UnderLock

/-!
# The gate

A poisoned mutex is to give its data away in a `PoisonError` only.  `Gives` lists what the public
operations give to their callers, and `Lives` is the whole life of a mutex: the tasks that share it
make their moves, and while none of them has anything to do with it its owner may call `get_mut`.
`poison_gate` then says which operations keep the gate.
-/

namespace CancelSafeFutures

open Async

variable {ι A T Ans : Type}

/-- The public operations that get to the data. -/
inductive Operation where
  | lock
  | blockingLock
  | tryLock
  | fmt
  | intoInner
  | getMut
  deriving DecidableEq, Repr

/-- What such an operation gives to its caller; `lock` stands for `blocking_lock` as well. -/
inductive Outcome (T : Type) where
  | lock (result : LockResult ActionPermit)
  | tryLock (result : TryLockResult ActionPermit)
  | fmt (text : DebugStruct)
  | intoInner (result : LockResult T)
  | getMut (data : T)

namespace MutexProgram

/-- What an operation that returns in the state `s` gives.  `debug` is that of the data, and
`later` is what the flags are when `Debug::fmt` reads them. -/
inductive Gives (debug : T → String) (s : MutexProgram ι A T Ans) :
    Operation → Outcome T → Prop
  | lock {i guard} : s.tasks i = .acquired guard .lock →
      Gives debug s .lock (.lock (ActionPermit.new guard s.shared.mutex.poison))
  | blockingLock {i guard} : s.tasks i = .acquired guard .blockingLock →
      Gives debug s .blockingLock (.lock (ActionPermit.new guard s.shared.mutex.poison))
  | tryLock {i guard} : s.tasks i = .acquired guard .tryLock →
      Gives debug s .tryLock (.tryLock (RobustMutex.tryLock (some guard) s.shared.mutex.poison))
  | tryLockBusy {i} : s.tasks i = .idle →
      Gives debug s .tryLock (.tryLock (RobustMutex.tryLock none s.shared.mutex.poison))
  | fmt {i result} (later : Flag) : s.tasks i = .formatting result →
      Gives debug s .fmt (.fmt (RobustMutex.fmt debug result s.shared.mutex.inner.data later))
  | fmtBusy {i} (later : Flag) : s.tasks i = .idle →
      Gives debug s .fmt (.fmt (RobustMutex.fmt debug
        (RobustMutex.tryLock none s.shared.mutex.poison) s.shared.mutex.inner.data later))
  | intoInner : (∀ i, s.tasks i = .idle) →
      Gives debug s .intoInner (.intoInner s.shared.mutex.intoInner)
  | getMut : (∀ i, s.tasks i = .idle) →
      Gives debug s .getMut (.getMut s.shared.mutex.getMut.1)

/-- The owner calls `get_mut` and writes to the data. -/
def getMut (s : MutexProgram ι A T Ans) (write : T → T) : MutexProgram ι A T Ans :=
  let lent := s.shared.mutex.getMut
  { s with shared := { s.shared with mutex := lent.2 (write lent.1) } }

/-- What can become of a mutex, if its tasks make allowed moves only.  `&mut self` is to be had
only when nobody borrows the mutex. -/
inductive Lives [DecidableEq ι] [Action A T Ans] (allowed : MutexOp ι A Ans → Prop)
    (s : MutexProgram ι A T Ans) : MutexProgram ι A T Ans → Prop
  | refl : Lives allowed s s
  | move {s' s'' op} : Lives allowed s s' → allowed op → s'.step op = some s'' →
      Lives allowed s s''
  | getMut {s'} (write : T → T) : Lives allowed s s' → (∀ i, s'.tasks i = .idle) →
      Lives allowed s (s'.getMut write)

end MutexProgram

/-- The error tells what the flags of the mutex are. -/
structure PoisonError.Tells {G : Type} (this : PoisonError G) (mutex : RobustMutex T) : Prop where
  isPanic : this.isPanic = mutex.isPanicPoisoned
  isCancel : this.isCancel = mutex.isCancelPoisoned

/-- What a caller is given is in an error that tells what the flags of the mutex are, or there is
nothing in it. -/
def Outcome.Gated (mutex : RobustMutex T) : Outcome T → Prop
  | .lock (.error error) => error.Tells mutex
  | .tryLock (.error (.poisoned error)) => error.Tells mutex
  | .tryLock (.error .wouldBlock) => True
  | .fmt text => text.fields.lookup "data" = some "<locked>"
  | .intoInner (.error error) => error.Tells mutex
  | _ => False

/-- With what a task has in such a phase it gets to the data without an error in between. -/
def Phase.MayAccess : Phase A Ans → Prop
  | .permit _ | .created _ _ | .section _ => True
  | _ => False

/-! ## What reads the flags -/

section

variable {mutex : RobustMutex T}

theorem RobustMutex.isPoisoned_iff :
    mutex.isPoisoned = true ↔ mutex.poison.getFlags ≠ noPoison := by
  rw [isPoisoned, bne_iff_ne]

/-- The flags are the mutex's. -/
theorem PoisonError.Tells.of_flags {G : Type} {error : PoisonError G}
    (flags : error.flags = mutex.poison.getFlags) : error.Tells mutex where
  isPanic := by rw [PoisonError.isPanic, flags, RobustMutex.isPanicPoisoned]
  isCancel := by rw [PoisonError.isCancel, flags, RobustMutex.isCancelPoisoned]

/-- `map_result` of a read of nonzero flags. -/
theorem mapResult_borrow {G : Type} (poisoned : mutex.isPoisoned = true) (f : Unit → G) :
    mapResult mutex.poison.borrow f = .error ⟨f (), mutex.poison.getFlags⟩ := by
  rw [Flag.borrow_eq, if_neg (RobustMutex.isPoisoned_iff.mp poisoned)]
  rfl

end

/-- What `try_lock` returns holds the flags of the mutex or nothing at all. -/
theorem tryLock_gated {mutex : RobustMutex T} (poisoned : mutex.isPoisoned = true)
    (inner : Option MutexGuard) :
    RobustMutex.tryLock inner mutex.poison = .error .wouldBlock ∨
      ∃ error, RobustMutex.tryLock inner mutex.poison = .error (.poisoned error) ∧
        error.Tells mutex := by
  cases inner with
  | none => exact .inl rfl
  | some guard =>
      refine .inr ⟨⟨⟨guard⟩, mutex.poison.getFlags⟩, ?_, .of_flags rfl⟩
      rw [RobustMutex.tryLock, ActionPermit.new, mapResult_borrow poisoned]
      rfl

/-- A permit without an error is got from clear flags only. -/
theorem clear_of_permit {mutex : RobustMutex T} {guard : MutexGuard} {permit : ActionPermit}
    (new : ActionPermit.new guard mutex.poison = .ok permit) : mutex.isPoisoned = false := by
  rw [← Bool.not_eq_true]
  intro poisoned
  rw [ActionPermit.new, mapResult_borrow poisoned] at new
  cases new

/-- The data are got at under the lock only. -/
theorem Phase.MayAccess.holds {p : Phase A Ans} (may : p.MayAccess) :
    (MutexProgram.innerLock (T := T)).Holds p := by
  cases p with
  | idle | locking | acquired | poisoned | formatting | ending | unlocking => exact may.elim
  | _ => rfl

namespace MutexProgram

variable [DecidableEq ι] [Action A T Ans]

/-! ## What the flags do -/

omit [DecidableEq ι] [Action A T Ans] in
/-- A poisoner clears nothing. -/
theorem within_drop (poisoner : AnyPoisoner) (poison : Flag) (exit : Exit) :
    poison.Within (poisoner.drop poison exit) := by
  cases poisoner with
  | sync => exact .done ..
  | async => exact .done ..

/-- And so does every move. -/
theorem within_step {s s' : MutexProgram ι A T Ans} {op : MutexOp ι A Ans}
    (h : s.step op = some s') : s.shared.mutex.poison.Within s'.shared.mutex.poison := by
  have turn : Turn False s s' := step_turn nofun h
  cases turn with
  | dropPoisoner => exact within_drop ..
  | _ => exact .refl _

/-- Nothing that happens to a mutex clears its flags. -/
theorem Lives.within {allowed : MutexOp ι A Ans → Prop} {s s' : MutexProgram ι A T Ans}
    (lives : Lives allowed s s') : s.shared.mutex.poison.Within s'.shared.mutex.poison := by
  induction lives with
  | refl => exact .refl _
  | move _ _ step ih => exact ih.trans (within_step step)
  | getMut _ _ _ ih => exact ih

/-- A run of moves is part of a life. -/
theorem Lives.of_run {value : T} {ops : List (MutexOp ι A Ans)} {s : MutexProgram ι A T Ans}
    (h : (robustMutex value).run ops = some s) :
    Lives (fun _ => True) (robustMutex value).init s := by
  refine System.run_invariant' ?_ ?_ h
  · exact .refl
  · intro s op s' lives step
    exact lives.move trivial step

/-- What a task is told of the flags while it holds the lock. -/
def Heard (p : Phase A Ans) (shared : Shared A T Ans) : Prop :=
  match p with
  | .poisoned error => error.flags = shared.mutex.poison.getFlags
  | .formatting result => ∃ guard, result = RobustMutex.tryLock (some guard) shared.mutex.poison
  | _ => True

omit [DecidableEq ι] in
/-- It stays so, since nobody else writes them. -/
theorem heard_keeps : Keeps (A := A) (T := T) False (fun _ => True) Heard where
  acquire _ _ := trivial
  newPermit {shared guard route p} _ received := by
    cases received with
    | permit => exact trivial
    | poisoned _ new =>
        unfold ActionPermit.new at new
        rw [Flag.borrow_eq] at new
        split at new
        · cases new
        · cases new
          rfl
    | formatting _ result => exact ⟨guard, result.symm⟩
  intoInner _ := trivial
  create _ _ := trivial
  start _ _ _ _ := trivial
  goOn _ _ := trivial
  finish _ _ := trivial
  dropPoisoner _ := trivial
  release _ _ := trivial

/-- In every state that a mutex gets to. -/
theorem Lives.heard {allowed : MutexOp ι A Ans → Prop} {s s' : MutexProgram ι A T Ans}
    (lives : Lives allowed s s')
    (inv : innerLock.Protects (fun _ => True) Heard s.shared s.tasks) :
    innerLock.Protects (fun _ => True) Heard s'.shared s'.tasks := by
  induction lives with
  | refl => exact inv
  | move _ _ step ih => exact heard_keeps.step ih (step_turn nofun step)
  | @getMut s' write _ unshared ih =>
      have none : ∀ i, ¬(innerLock (T := T)).Holds (s'.tasks i) :=
        fun i => not_holds_of_none (by rw [unshared i]; rfl)
      exact .init none (ih.unlocked none) trivial

end MutexProgram

/-! ## Who gets to the data -/

/-- The task that makes a move. -/
def MutexOp.task : MutexOp ι A Ans → ι
  | .lock i | .blockingLock i | .dropLock i | .acquire i | .tryLock i _ | .fmt i _ | .newPermit i
  | .intoInner i | .perform i _ _ | .performAsyncBoxed i _ | .poll i _ | .dropFuture i _
  | .advance i _ | .dropPoisoner i | .dropGuard i => i

namespace MutexProgram

variable [DecidableEq ι] [Action A T Ans] {s s' : MutexProgram ι A T Ans} {op : MutexOp ι A Ans}
  {i : ι}

theorem input_tasks {sec : Section A Ans} {input : Input Ans}
    (h : s.input i sec input = some s') : ∃ p, s'.tasks = Function.update s.tasks i p := by
  unfold MutexProgram.input at h
  split at h
  · cases h
    exact ⟨_, rfl⟩
  · cases h
    exact ⟨_, rfl⟩
  · cases h

/-- A move is a move of one task. -/
theorem step_tasks (h : s.step op = some s') :
    ∃ p, s'.tasks = Function.update s.tasks op.task p := by
  cases op with
  | lock | blockingLock | dropLock | newPermit | intoInner | perform | performAsyncBoxed
  | dropPoisoner =>
      simp only [step] at h
      split at h
      · cases h
        exact ⟨_, rfl⟩
      · cases h
  | acquire i =>
      simp only [step] at h
      split at h
      · obtain ⟨-, h⟩ := Option.ite_none_left_eq_some.mp h
        cases h
        exact ⟨_, rfl⟩
      · cases h
  | tryLock i available | fmt i available =>
      simp only [step] at h
      split at h
      · cases h
        unfold tryAcquire
        split
        · exact ⟨_, rfl⟩
        · exact ⟨_, (Function.update_eq_self i s.tasks).symm⟩
      · cases h
  | poll i unwinding | dropFuture i unwinding =>
      simp only [step] at h
      split at h
      · cases h
        exact ⟨_, rfl⟩
      · exact input_tasks h
      · cases h
  | advance i answer =>
      simp only [step] at h
      split at h
      · exact input_tasks h
      · cases h
  | dropGuard i =>
      simp only [step] at h
      split at h
      all_goals
        cases h
        try exact ⟨_, rfl⟩

/-- An error that is not unwrapped stays or is dropped. -/
theorem step_poisoned {error : PoisonError ActionPermit} (phase : s.tasks i = .poisoned error)
    (kept : op ≠ .intoInner i) (h : s.step op = some s') :
    s'.tasks i = .poisoned error ∨ s'.tasks i = .idle := by
  by_cases own : op.task = i
  · subst own
    cases op with
    | intoInner => exact (kept rfl).elim
    | dropGuard i =>
        simp only [step, MutexOp.task] at h phase
        rw [phase] at h
        cases h
        exact .inr (Function.update_self ..)
    | _ =>
        simp only [step, MutexOp.task] at h phase
        rw [phase] at h
        cases h
  · obtain ⟨p, tasks⟩ := step_tasks h
    rw [tasks, Function.update_of_ne (Ne.symm own)]
    exact .inl phase

/-- If a task gets to the data without an error in between, the mutex is not poisoned. -/
def Clean (i : ι) (s : MutexProgram ι A T Ans) : Prop :=
  (s.tasks i).MayAccess → s.shared.mutex.isPoisoned = false

omit [Action A T Ans] in
/-- Some task has moved. -/
theorem clean_update {shared : Shared A T Ans} {j : ι} {p : Phase A Ans}
    (own : j = i → p.MayAccess → shared.mutex.isPoisoned = false)
    (other : j ≠ i → (s.tasks i).MayAccess → shared.mutex.isPoisoned = false) :
    Clean i (⟨shared, Function.update s.tasks j p⟩ : MutexProgram ι A T Ans) := by
  intro may
  by_cases eq : j = i
  · subst eq
    simp only [Function.update_self] at may
    exact own rfl may
  · simp only [Function.update_of_ne (Ne.symm eq)] at may
    exact other eq may

omit [Action A T Ans] in
/-- A task with access has moved, and the flags are as they were. -/
theorem Clean.moved {shared : Shared A T Ans} {j : ι} {p p' : Phase A Ans} (clean : Clean i s)
    (same : shared.mutex.isPoisoned = s.shared.mutex.isPoisoned) (phase : s.tasks j = p)
    (may : p.MayAccess) :
    Clean i (⟨shared, Function.update s.tasks j p'⟩ : MutexProgram ι A T Ans) := by
  refine clean_update ?_ ?_
  · rintro rfl -
    rw [same]
    apply clean
    rwa [phase]
  · intro _ may'
    rw [same]
    exact clean may'

/-- A task that unwraps no error stays clean: it gets a permit only when the flags are clear, and
nobody else writes them while it has one. -/
theorem Clean.step (clean : Clean i s)
    (inv : innerLock.Protects (fun _ => True) Heard s.shared s.tasks)
    (kept : op ≠ .intoInner i) (h : s.step op = some s') : Clean i s' := by
  by_cases poisoned : ∃ error, s.tasks i = .poisoned error
  · obtain ⟨error, phase⟩ := poisoned
    intro may
    rcases step_poisoned phase kept h with after | after
    · rw [after] at may
      exact may.elim
    · rw [after] at may
      exact may.elim
  · have turn : Turn False s s' := step_turn nofun h
    cases turn with
    | idle => exact clean
    | @outside j p _ none =>
        refine clean_update ?_ fun _ => clean
        intro _ may
        exact (not_holds_of_none (T := T) none (Phase.MayAccess.holds may)).elim
    | acquire => exact clean_update (fun _ may => may.elim) fun _ => clean
    | @newPermit j guard route _ =>
        refine clean_update ?_ fun _ => clean
        intro _ may
        have new : Received guard s.shared.mutex.poison
            (route.received guard s.shared.mutex.poison : Phase A Ans) := received ..
        generalize route.received guard s.shared.mutex.poison = p at may new
        cases new with
        | permit _ new => exact clear_of_permit new
        | poisoned | formatting => exact may.elim
    | intoInner phase =>
        refine clean_update ?_ fun _ => clean
        rintro rfl
        exact (poisoned ⟨_, phase⟩).elim
    | create phase => exact clean.moved rfl phase trivial
    | start phase _ =>
        rcases phase with phase | ⟨_, phase⟩
        · exact clean.moved rfl phase trivial
        · exact clean.moved rfl phase trivial
    | goOn phase _ => exact clean.moved rfl phase trivial
    | finish => exact clean_update (fun _ may => may.elim) fun _ => clean
    | @dropPoisoner j sec exit phase =>
        refine clean_update (fun _ may => may.elim) ?_
        intro other may
        have holder : (innerLock (T := T)).Holds (s.tasks j) := by
          rw [phase]
          rfl
        exact (other (inv.exclusive holder (Phase.MayAccess.holds may))).elim
    | release => exact clean_update (fun _ may => may.elim) fun _ => clean

/-- Whatever else happens to the mutex. -/
theorem Lives.clean (lives : Lives (· ≠ .intoInner i) s s')
    (inv : innerLock.Protects (fun _ => True) Heard s.shared s.tasks) (clean : Clean i s) :
    Clean i s' := by
  induction lives with
  | refl => exact clean
  | move before kept step ih => exact ih.step (before.heard inv) kept step
  | getMut _ _ _ ih => exact ih

/-- The gate of a mutex that is in the state `s`. -/
structure Gate (debug : T → String) (s : MutexProgram ι A T Ans) : Prop where
  /-- While it is poisoned every operation keeps the gate but for `get_mut`, which does not. -/
  outcome : ∀ {operation outcome}, s.shared.mutex.isPoisoned = true →
    Gives debug s operation outcome →
    (outcome.Gated s.shared.mutex ↔ operation ≠ .getMut)
  /-- An error tells what the flags are as long as there is one. -/
  error : ∀ {i error}, s.tasks i = .poisoned error → error.Tells s.shared.mutex
  /-- A task that takes the lock from now on does not get to the data while the mutex is poisoned,
  unless it unwraps an error. -/
  unwrapped : ∀ {i s'}, (s.tasks i).guard = none → Lives (· ≠ .intoInner i) s s' →
    s'.shared.mutex.isPoisoned = true → ¬(s'.tasks i).MayAccess
  /-- The flags are never cleared. -/
  flags : ∀ {s'}, Lives (fun _ => True) s s' →
    s.shared.mutex.poison.Within s'.shared.mutex.poison

omit [DecidableEq ι] [Action A T Ans] in
/-- What the operations give while the mutex is poisoned. -/
theorem Gives.gated {debug : T → String} {operation : Operation} {outcome : Outcome T}
    (inv : innerLock.Protects (fun _ => True) Heard s.shared s.tasks)
    (poisoned : s.shared.mutex.isPoisoned = true) (gives : Gives debug s operation outcome) :
    outcome.Gated s.shared.mutex ↔ operation ≠ .getMut := by
  cases gives with
  | lock | blockingLock =>
      rw [ActionPermit.new, mapResult_borrow poisoned]
      exact ⟨fun _ => nofun, fun _ => .of_flags rfl⟩
  | tryLock | tryLockBusy =>
      refine ⟨fun _ => nofun, fun _ => ?_⟩
      rcases tryLock_gated poisoned _ with busy | ⟨error, result, tells⟩
      · rw [busy]
        trivial
      · rw [result]
        exact tells
  | @fmt i result later phase =>
      refine ⟨fun _ => nofun, fun _ => ?_⟩
      cases result with
      | error => rfl
      | ok permit =>
          have heard := inv.held (i := i) (by rw [phase]; rfl)
          rw [phase] at heard
          obtain ⟨guard, result⟩ := heard
          rcases tryLock_gated poisoned (some guard) with busy | ⟨error, locked, -⟩
          · cases result.trans busy
          · cases result.trans locked
  | fmtBusy => exact ⟨fun _ => nofun, fun _ => rfl⟩
  | intoInner =>
      rw [RobustMutex.intoInner, mapResult_borrow poisoned]
      exact ⟨fun _ => nofun, fun _ => .of_flags rfl⟩
  | getMut => exact ⟨fun gated => gated.elim, fun ne => (ne rfl).elim⟩

end MutexProgram

open MutexProgram in
/-- **The gate.**  In every state that a mutex gets to in its life, and whatever becomes of it
from there. -/
theorem poison_gate [DecidableEq ι] [Action A T Ans] {value : T} (debug : T → String)
    {s : MutexProgram ι A T Ans}
    (lives : Lives (fun _ => True) (robustMutex value).init s) : Gate debug s := by
  have inv := lives.heard (protects_new trivial)
  refine ⟨fun poisoned gives => gives.gated inv poisoned, ?_, ?_, Lives.within⟩
  · intro i error phase
    have heard := inv.held (i := i) (by rw [phase]; rfl)
    rw [phase] at heard
    exact .of_flags heard
  · intro i s' none lives' poisoned may
    have clean : Clean i s := by
      intro may
      exact (not_holds_of_none (T := T) none (Phase.MayAccess.holds may)).elim
    have clear := lives'.clean inv clean may
    rw [poisoned] at clear
    cases clear

/-- An action panics, and the owner writes to the data after that. -/
theorem poison_gate_panicked :
    ∃ s : MutexProgram Unit Tally Nat Unit,
      (robustMutex 0).run [.tryLock () true, .newPermit (), .perform () [.add 1, .panic] false,
        .advance () (), .advance () (), .advance () (), .dropPoisoner (), .dropGuard ()] =
        some s ∧
      s.shared.mutex.isPanicPoisoned = true ∧ MutexProgram.Gate Nat.repr (s.getMut (· + 1)) := by
  have runs : ∃ s : MutexProgram Unit Tally Nat Unit,
      (robustMutex 0).run [.tryLock () true, .newPermit (), .perform () [.add 1, .panic] false,
        .advance () (), .advance () (), .advance () (), .dropPoisoner (), .dropGuard ()] =
        some s ∧
      s.shared.mutex.isPanicPoisoned = true ∧ ∀ i, s.tasks i = .idle :=
    ⟨_, rfl, rfl, fun _ => rfl⟩
  obtain ⟨s, run, poisoned, unshared⟩ := runs
  exact ⟨s, run, poisoned, poison_gate Nat.repr (.getMut _ (.of_run run) unshared)⟩

/-- Then `get_mut` gives away what the action has left, without an error. -/
theorem get_mut_not_gated :
    ∃ s : MutexProgram Unit Tally Nat Unit,
      (robustMutex 0).run [.tryLock () true, .newPermit (), .perform () [.add 1, .panic] false,
        .advance () (), .advance () (), .advance () (), .dropPoisoner (), .dropGuard ()] =
        some s ∧
      s.shared.mutex.isPoisoned = true ∧
      MutexProgram.Gives Nat.repr s .getMut (.getMut 1) ∧
      ¬(Outcome.getMut 1).Gated s.shared.mutex :=
  ⟨_, rfl, rfl, .getMut fun _ => rfl, fun gated => gated⟩

end CancelSafeFutures
