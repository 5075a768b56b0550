import CancelSafeFutures.Async.Refinement
import CancelSafeFutures.Sync.Poisoning
import CancelSafeFutures.Sync.PoisonGate

/-!
# Visits

`Vault` is what the mutex is for: data that are visited by one task after the other, and whether a
visit was cut short.  A visit is one step: whoever comes is told what has happened before, and
leaves what an action makes of the data, all at once.

`Watch` is the mutex with its tasks, and a history of the acquisition going on: what its holder was
told, and the action that is gone.  It shows a visit when the lock is given back.  `sees_step` is
the simulation, and `robustMutex_atomic` says that the visits, in the order in which the lock is
taken, are visits of the vault.
-/

namespace CancelSafeFutures

open Async

variable {ι A T Ans : Type}

/-- What a `PoisonError` tells. -/
structure Warning where
  isPanic : Bool
  isCancel : Bool
  deriving DecidableEq, Repr

/-- One step of the vault: a visit, or its owner has written to the data. -/
inductive Vault.Visit (ι A T Ans : Type) where
  | task (i : ι) (warning : Option Warning) (ended : Option (Ended A Ans))
  | owner (before after : T)

/-- Data, and whether a visit was cut short by a panic or by a cancellation. -/
structure Vault (T : Type) where
  data : T
  panicked : Bool
  cancelled : Bool
  deriving DecidableEq, Repr

namespace Vault

def new (value : T) : Vault T := ⟨value, false, false⟩

/-- What a visitor is told. -/
def warning (this : Vault T) : Option Warning :=
  if this.panicked || this.cancelled then some ⟨this.panicked, this.cancelled⟩ else none

/-- An action is performed, all at once. -/
def perform [Action A T Ans] (this : Vault T) (ended : Ended A Ans) : Option (Vault T) :=
  (ended.perform this.data).map fun data =>
    { data := data
      panicked := this.panicked || (!ended.unwinding && ended.exit.unwinding)
      cancelled := this.cancelled || (ended.async && !ended.exit.completed) }

theorem perform_of [Action A T Ans] {this : Vault T} {ended : Ended A Ans} {data : T}
    (performed : ended.perform this.data = some data) :
    this.perform ended = some
      { data := data
        panicked := this.panicked || (!ended.unwinding && ended.exit.unwinding)
        cancelled := this.cancelled || (ended.async && !ended.exit.completed) } := by
  rw [perform, performed]
  rfl

/-- The steps of the vault. -/
inductive Step [Action A T Ans] : Vault T → List (Vault.Visit ι A T Ans) → Vault T → Prop
  | look {this i} : Step this [.task i this.warning none] this
  | perform {this this' i ended} : this.perform ended = some this' →
      Step this [.task i this.warning (some ended)] this'
  | write {this data} : Step this [.owner this.data data] { this with data := data }

end Vault

/-- What a task that has just gone through `ActionPermit::new` was told. -/
def Phase.warning : Phase A Ans → Option Warning
  | .poisoned error | .formatting (.error (.poisoned error)) =>
    some ⟨error.isPanic, error.isCancel⟩
  | _ => none

/-- The mutex and its tasks.  `warning` is what the task that has the lock was told, and `ended`
the action that is gone under this acquisition. -/
structure Watch (ι A T Ans : Type) where
  program : MutexProgram ι A T Ans
  warning : Option Warning
  ended : Option (Ended A Ans)

namespace Watch

def new (value : T) : Watch ι A T Ans := ⟨⟨.new value, fun _ => .idle⟩, none, none⟩

def locked (this : Watch ι A T Ans) : Bool := this.program.shared.mutex.inner.locked

/-- The history goes on with a move that leads to `program`. -/
def next (this : Watch ι A T Ans) (op : MutexOp ι A Ans) (program : MutexProgram ι A T Ans) :
    Watch ι A T Ans where
  program := program
  warning :=
    match op with
    | .newPermit i => (program.tasks i).warning
    | _ => this.warning
  ended :=
    if program.shared.mutex.inner.locked then
      if program.shared.log.length = this.program.shared.log.length then this.ended
      else program.shared.log.getLast?
    else none

/-- It shows a visit when the lock is given back. -/
def shows (this : Watch ι A T Ans) (op : MutexOp ι A Ans) (program : MutexProgram ι A T Ans) :
    List (Vault.Visit ι A T Ans) :=
  if this.locked && !program.shared.mutex.inner.locked then
    [.task op.task this.warning this.ended]
  else []

/-- The steps of the mutex.  Its owner may write to the data when nobody borrows it. -/
inductive Step [DecidableEq ι] [Action A T Ans] :
    Watch ι A T Ans → List (Vault.Visit ι A T Ans) → Watch ι A T Ans → Prop
  | move {this op program} : this.program.step op = some program →
      Step this (this.shows op program) (this.next op program)
  | getMut {this} (write : T → T) : (∀ i, this.program.tasks i = .idle) →
      Step this
        [.owner this.program.shared.mutex.inner.data (write this.program.shared.mutex.inner.data)]
        { this with program := this.program.getMut write }

end Watch

/-! ## What the vault says of the mutex -/

namespace Watch

/-- The mutex is as the vault is. -/
structure Same (vault : Vault T) (shared : Shared A T Ans) : Prop where
  data : shared.mutex.inner.data = vault.data
  poison : shared.mutex.poison = .encode vault.panicked vault.cancelled

/-- While the lock is free. -/
def Free (vault : Vault T) (ended : Option (Ended A Ans)) (shared : Shared A T Ans) : Prop :=
  Same vault shared ∧ ended = none

variable [Action A T Ans]

/-- While it is taken: `vault` is as it was when it was taken. -/
def Held (vault : Vault T) (warning : Option Warning) (ended : Option (Ended A Ans))
    (p : Phase A Ans) (shared : Shared A T Ans) : Prop :=
  match p with
  | .acquired _ _ => Same vault shared ∧ ended = none
  | .section sec =>
    warning = vault.warning ∧ ended = none ∧
      shared.mutex.poison = .encode vault.panicked vault.cancelled ∧
      (∃ flag, sec.poisoner = .new sec.poisoner.isAsync flag sec.unwinding) ∧
      Activity.run sec.poisoner.isAsync (.start sec.action sec.unwinding) vault.data sec.inputs =
        some (sec.activity, shared.mutex.inner.data)
  | .ending sec exit =>
    warning = vault.warning ∧ ended = some (sec.ended exit) ∧
      shared.mutex.poison = .encode vault.panicked vault.cancelled ∧
      (∃ flag, sec.poisoner = .new sec.poisoner.isAsync flag sec.unwinding) ∧
      (sec.ended exit).perform vault.data = some shared.mutex.inner.data
  | .unlocking _ =>
    warning = vault.warning ∧ ∃ this vault', ended = some this ∧
      vault.perform this = some vault' ∧ Same vault' shared
  | .poisoned error =>
    warning = vault.warning ∧ ended = none ∧ Same vault shared ∧
      vault.warning = some ⟨error.isPanic, error.isCancel⟩
  | _ => warning = vault.warning ∧ ended = none ∧ Same vault shared

/-- The lock protects what the vault says. -/
def Sees (this : Watch ι A T Ans) (vault : Vault T) : Prop :=
  MutexProgram.innerLock.Protects (Free vault this.ended)
    (Held vault this.warning this.ended) this.program.shared this.program.tasks

omit [Action A T Ans] in
/-- What `ActionPermit::new` tells is what a visitor of the vault is told. -/
theorem warning_of_received {guard : MutexGuard} {vault : Vault T} {p : Phase A Ans}
    (received : MutexProgram.Received guard (.encode vault.panicked vault.cancelled) p) :
    p.warning = vault.warning := by
  have told : (some ⟨(⟨(), (Flag.encode vault.panicked vault.cancelled).getFlags⟩ :
      PoisonError Unit).isPanic, (⟨(), (Flag.encode vault.panicked vault.cancelled).getFlags⟩ :
      PoisonError Unit).isCancel⟩ : Option Warning) =
      some ⟨vault.panicked, vault.cancelled⟩ := by
    simp only [PoisonError.isPanic, PoisonError.isCancel, Flag.encode_panic, Flag.encode_cancel]
  have new : ActionPermit.new guard (.encode vault.panicked vault.cancelled) =
      if vault.panicked || vault.cancelled then
        .error ⟨⟨guard⟩, (Flag.encode vault.panicked vault.cancelled).getFlags⟩
      else .ok ⟨guard⟩ := by
    rw [ActionPermit.new, Flag.borrow_encode]
    split <;> rfl
  unfold Vault.warning
  cases poisoned : vault.panicked || vault.cancelled with
  | true =>
      rw [poisoned, if_pos rfl] at new
      rw [if_pos rfl, ← told]
      cases received with
      | permit _ ok => cases ok.symm.trans new
      | poisoned _ error =>
          cases error.symm.trans new
          rfl
      | formatting _ result =>
          rw [← result, RobustMutex.tryLock, new]
          rfl
  | false =>
      rw [poisoned, if_neg Bool.false_ne_true] at new
      rw [if_neg Bool.false_ne_true]
      cases received with
      | permit _ ok => rfl
      | poisoned _ error => cases error.symm.trans new
      | formatting _ result =>
          rw [← result, RobustMutex.tryLock, new]
          rfl

section Moves

variable [DecidableEq ι] {this : Watch ι A T Ans} {vault : Vault T} {op : MutexOp ι A Ans}
  {i : ι}

/-- A task that has a guard and has not been through `ActionPermit::new` makes that move next. -/
theorem step_acquired {s s' : MutexProgram ι A T Ans} {guard : MutexGuard} {route : Route}
    (phase : s.tasks i = .acquired guard route) (other : op ≠ .newPermit i)
    (h : s.step op = some s') : s'.tasks i = .acquired guard route := by
  by_cases own : op.task = i
  · subst own
    cases op with
    | newPermit => exact (other rfl).elim
    | _ =>
        simp only [MutexProgram.step, MutexOp.task] at h phase
        rw [phase] at h
        cases h
  · obtain ⟨p, tasks⟩ := MutexProgram.step_tasks h
    rw [tasks, Function.update_of_ne (Ne.symm own)]
    exact phase

omit [DecidableEq ι] [Action A T Ans] in
/-- A move that gives no lock back shows nothing. -/
theorem shows_nil {program : MutexProgram ι A T Ans}
    (kept : this.locked = true → program.shared.mutex.inner.locked = true) :
    this.shows op program = [] := by
  refine if_neg fun gives => ?_
  rw [Bool.and_eq_true, Bool.not_eq_true'] at gives
  rw [kept gives.1] at gives
  cases gives.2

omit [DecidableEq ι] [Action A T Ans] in
/-- A move after which no action is gone that was not gone before. -/
theorem next_eq {program : MutexProgram ι A T Ans} (other : ∀ i, op ≠ .newPermit i)
    (log : program.shared.log = this.program.shared.log)
    (kept : program.shared.mutex.inner.locked = true ∨ this.ended = none) :
    this.next op program = ⟨program, this.warning, this.ended⟩ := by
  have warning : (this.next op program).warning = this.warning := by
    cases op with
    | newPermit i => exact (other i rfl).elim
    | _ => rfl
  have ended : (this.next op program).ended = this.ended := by
    simp only [next]
    split
    · rw [if_pos (congrArg List.length log)]
    · next free => exact (kept.resolve_left free).symm
  rw [← warning, ← ended]
  rfl

/-- The holder of the lock goes from one phase to another. -/
theorem Sees.hold {p p' : Phase A Ans} {guard guard' : MutexGuard} {shared' : Shared A T Ans}
    (sees : this.Sees vault) (other : ∀ i, op ≠ .newPermit i)
    (phase : this.program.tasks i = p) (held : p.guard = some guard)
    (held' : p'.guard = some guard')
    (locked : shared'.mutex.inner.locked = this.program.shared.mutex.inner.locked)
    (log : shared'.log = this.program.shared.log)
    (step : Held vault this.warning this.ended p this.program.shared →
      Held vault this.warning this.ended p' shared') :
    this.shows op ⟨shared', Function.update this.program.tasks i p'⟩ = [] ∧
      (this.next op ⟨shared', Function.update this.program.tasks i p'⟩).Sees vault := by
  have taken : this.program.shared.mutex.inner.locked = true :=
    sees.locked.mpr ⟨i, Option.isSome_iff_exists.mpr ⟨guard, by rw [phase, held]⟩⟩
  refine ⟨shows_nil fun _ => locked.trans taken, ?_⟩
  rw [next_eq other log (.inl (locked.trans taken))]
  exact MutexProgram.hold_phase sees phase held held' locked step

/-- `ActionPermit::new` tells the holder of the lock what the vault does. -/
theorem Sees.newPermit {guard : MutexGuard} {route : Route} (sees : this.Sees vault)
    (phase : this.program.tasks i = .acquired guard route) {p : Phase A Ans}
    (received : MutexProgram.Received guard this.program.shared.mutex.poison p) :
    this.shows (.newPermit i) (this.program.put i p) = [] ∧
      (this.next (.newPermit i) (this.program.put i p)).Sees vault := by
  have holds : (MutexProgram.innerLock (T := T)).Holds (this.program.tasks i) :=
    Option.isSome_iff_exists.mpr ⟨guard, by rw [phase]; rfl⟩
  have taken : this.program.shared.mutex.inner.locked = true := sees.locked.mpr ⟨i, holds⟩
  obtain ⟨same, none⟩ : Held vault this.warning this.ended
      (.acquired guard route) this.program.shared := phase ▸ sees.held holds
  have told : p.warning = vault.warning := warning_of_received (same.poison ▸ received)
  have next : this.next (.newPermit i) (this.program.put i p) =
      ⟨this.program.put i p, vault.warning, this.ended⟩ := by
    simp only [Watch.next, MutexProgram.put, taken, if_true, Function.update_self, told]
  refine ⟨shows_nil fun _ => taken, ?_⟩
  rw [next]
  refine sees.change holds (Option.isSome_iff_exists.mpr ⟨guard, received.guard⟩) taken ?_
  cases received with
  | permit => exact ⟨rfl, none, same⟩
  | poisoned => exact ⟨rfl, none, same, told.symm⟩
  | formatting => exact ⟨rfl, none, same⟩

/-- The action of the holder is gone. -/
theorem Sees.finish {sec : Section A Ans} {input : Input Ans} {exit : Exit} {data : T}
    (sees : this.Sees vault) (other : ∀ i, op ≠ .newPermit i)
    (phase : this.program.tasks i = .section sec)
    (next : sec.activity.next sec.poisoner.isAsync this.program.shared.mutex.inner.data input =
      some (.finished exit, data)) :
    let program := this.program.finish i (sec.after input (.finished exit)) data exit
    this.shows op program = [] ∧ (this.next op program).Sees vault := by
  have holds : (MutexProgram.innerLock (T := T)).Holds (this.program.tasks i) :=
    Option.isSome_iff_exists.mpr ⟨sec.permit.guard, by rw [phase]; rfl⟩
  have taken : this.program.shared.mutex.inner.locked = true := sees.locked.mpr ⟨i, holds⟩
  obtain ⟨warning, -, poison, poisoner, run⟩ : Held vault this.warning this.ended
      (.section sec) this.program.shared := phase ▸ sees.held holds
  have goes : this.next op (this.program.finish i (sec.after input (.finished exit)) data exit) =
      ⟨this.program.finish i (sec.after input (.finished exit)) data exit, this.warning,
        some ((sec.after input (.finished exit)).ended exit)⟩ := by
    have warns : (this.next op (this.program.finish i (sec.after input (.finished exit)) data
        exit)).warning = this.warning := by
      cases op with
      | newPermit i => exact (other i rfl).elim
      | _ => rfl
    have longer :
        (this.program.shared.log ++ [(sec.after input (.finished exit)).ended exit]).length
          ≠ this.program.shared.log.length := by
      rw [List.length_append, List.length_singleton]
      exact Nat.succ_ne_self _
    rw [← warns]
    simp only [Watch.next, MutexProgram.finish, Shared.write, Shared.ended, taken, if_true,
      if_neg longer, List.getLast?_concat]
  refine ⟨shows_nil fun _ => taken, ?_⟩
  rw [goes]
  refine sees.change holds rfl taken ⟨warning, rfl, poison, poisoner, ?_⟩
  exact Ended.perform_of_run (Activity.run_concat run next)

omit [DecidableEq ι] in
/-- An action is started. -/
theorem held_started {permit : ActionPermit} {async unwinding : Bool} {action : A}
    {shared : Shared A T Ans} {warning : Option Warning} {ended : Option (Ended A Ans)}
    (held : warning = vault.warning ∧ ended = none ∧ Same vault shared) :
    Held vault warning ended
      (.section (.start permit async shared.mutex.poison action unwinding))
      (shared.began permit.guard) := by
  obtain ⟨warning, empty, same⟩ := held
  refine ⟨warning, empty, same.poison, ⟨shared.mutex.poison, ?_⟩, ?_⟩
  · exact congrArg (AnyPoisoner.new · _ _) (MutexProgram.isAsync_new ..).symm
  · rw [← same.data]
    rfl

omit [DecidableEq ι] in
/-- The flags are written. -/
theorem held_unlocking {sec : Section A Ans} {exit : Exit} {shared : Shared A T Ans}
    {warning : Option Warning} {ended : Option (Ended A Ans)}
    (held : Held vault warning ended (.ending sec exit) shared) :
    Held vault warning ended (.unlocking sec.permit)
      (shared.poisoned (sec.poisoner.drop shared.mutex.poison exit)) := by
  obtain ⟨warning, ended, poison, ⟨flag, poisoner⟩, performed⟩ := held
  refine ⟨warning, _, _, ended, Vault.perform_of performed, rfl, ?_⟩
  simp only [Shared.poisoned]
  rw [poisoner, AnyPoisoner.drop_eq_done, poison, Flag.done_encode]
  rfl

/-- The lock is given back, and the vault makes the visit. -/
theorem Sees.release {guard : MutexGuard} (sees : this.Sees vault)
    (step : this.program.step op = some (this.program.release i))
    (held : (this.program.tasks i).guard = some guard)
    (quiet : MutexProgram.Quiet (this.program.tasks i)) :
    ∃ vault', Vault.Step vault (this.shows op (this.program.release i)) vault' ∧
      (this.next op (this.program.release i)).Sees vault' := by
  have holds : (MutexProgram.innerLock (T := T)).Holds (this.program.tasks i) :=
    Option.isSome_iff_exists.mpr ⟨guard, held⟩
  have taken : this.program.shared.mutex.inner.locked = true := sees.locked.mpr ⟨i, holds⟩
  have shows : this.shows op (this.program.release i) =
      [.task op.task this.warning this.ended] := by
    refine if_pos ?_
    rw [locked, taken]
    rfl
  have known := sees.held holds
  have free : ∀ {vault'}, Same vault' this.program.shared →
      (this.next op (this.program.release i)).Sees vault' := by
    intro vault' same
    refine .init (fun j => ?_) rfl ⟨⟨same.data, same.poison⟩, rfl⟩
    by_cases eq : j = i
    · subst eq
      simp only [next, MutexProgram.release, Function.update_self]
      nofun
    · simp only [next, MutexProgram.release, Function.update_of_ne eq]
      exact fun holds' => eq (sees.exclusive holds' holds)
  rw [shows]
  generalize this.program.tasks i = p at known quiet
  cases p with
  | permit | formatting | created =>
      obtain ⟨warning, ended, same⟩ := known
      rw [warning, ended]
      exact ⟨vault, .look, free same⟩
  | poisoned =>
      obtain ⟨warning, ended, same, -⟩ := known
      rw [warning, ended]
      exact ⟨vault, .look, free same⟩
  | unlocking =>
      obtain ⟨warning, gone, vault', ended, performed, same⟩ := known
      rw [warning, ended]
      exact ⟨vault', .perform performed, free same⟩
  | _ => exact quiet.elim

/-- **One move.** -/
theorem sees_move {program : MutexProgram ι A T Ans} (sees : this.Sees vault)
    (h : this.program.step op = some program) :
    ∃ vault', Observes Vault.Step vault (this.shows op program) vault' ∧
      (this.next op program).Sees vault' := by
  have silent : this.shows op program = [] ∧ (this.next op program).Sees vault →
      ∃ vault', Observes Vault.Step vault (this.shows op program) vault' ∧
        (this.next op program).Sees vault' := by
    rintro ⟨shows, sees'⟩
    rw [shows]
    exact ⟨vault, .refl, sees'⟩
  by_cases new : ∃ i, op = .newPermit i
  · obtain ⟨i, rfl⟩ := new
    simp only [MutexProgram.step] at h
    split at h
    · next guard route phase =>
        cases h
        exact silent (sees.newPermit phase (MutexProgram.received ..))
    · cases h
  · have other : ∀ i, op ≠ .newPermit i := fun i eq => new ⟨i, eq⟩
    have turn : MutexProgram.Turn False this.program program := MutexProgram.step_turn False.elim h
    -- a move of a task outside the lock
    have outside : program.shared = this.program.shared →
        MutexProgram.innerLock.Protects (Free vault this.ended)
          (Held vault this.warning this.ended) program.shared program.tasks →
        this.shows op program = [] ∧ (this.next op program).Sees vault := by
      intro same inv
      refine ⟨shows_nil fun taken => same ▸ taken, ?_⟩
      rw [next_eq other (congrArg Shared.log same)]
      · exact inv
      · rw [same]
        cases taken : this.program.shared.mutex.inner.locked with
        | true => exact .inl rfl
        | false => exact .inr (sees.free taken).2
    cases turn with
    | idle => exact silent (outside rfl sees)
    | outside before after =>
        exact silent (outside rfl (sees.outside (MutexProgram.not_holds_of_none before)
          (MutexProgram.not_holds_of_none after)))
    | acquire before free =>
        refine silent ⟨shows_nil fun _ => rfl, ?_⟩
        rw [next_eq other]
        · refine sees.acquire free rfl rfl ?_
          rintro ⟨same, empty⟩
          exact ⟨⟨same.data, same.poison⟩, empty⟩
        · rfl
        · exact .inl rfl
    | @newPermit i guard route phase =>
        have received : MutexProgram.Received guard this.program.shared.mutex.poison
            (route.received guard this.program.shared.mutex.poison : Phase A Ans) :=
          MutexProgram.received route guard this.program.shared.mutex.poison
        have stays := step_acquired phase (other i) h
        simp only [MutexProgram.put, Function.update_self] at stays
        rw [stays] at received
        cases received
    | intoInner phase =>
        refine silent (sees.hold other phase rfl rfl rfl rfl ?_)
        rintro ⟨warning, empty, same, -⟩
        exact ⟨warning, empty, same⟩
    | create phase => exact silent (sees.hold other phase rfl rfl rfl rfl id)
    | @start i permit async action unwinding phase _ =>
        rcases phase with phase | ⟨_, phase⟩
        · exact silent (sees.hold other phase rfl rfl rfl rfl held_started)
        · exact silent (sees.hold other phase rfl rfl rfl rfl held_started)
    | goOn phase next =>
        refine silent (sees.hold other phase rfl rfl rfl rfl ?_)
        rintro ⟨warning, empty, poison, poisoner, run⟩
        exact ⟨warning, empty, poison, poisoner, Activity.run_concat run next⟩
    | finish phase next => exact silent (sees.finish other phase next)
    | dropPoisoner phase => exact silent (sees.hold other phase rfl rfl rfl rfl held_unlocking)
    | release held quiet =>
        obtain ⟨vault', step, sees'⟩ := sees.release h held quiet
        exact ⟨vault', .one step, sees'⟩

end Moves

/-! ## Runs -/

variable [DecidableEq ι]

omit [DecidableEq ι] in
theorem sees_new (value : T) : (Watch.new value : Watch ι A T Ans).Sees (.new value) :=
  MutexProgram.protects_new ⟨⟨rfl, Flag.new_eq_encode⟩, rfl⟩

omit [DecidableEq ι] in
/-- Nobody borrows the mutex. -/
theorem Sees.free {this : Watch ι A T Ans} {vault : Vault T} (sees : this.Sees vault)
    (idle : ∀ i, this.program.tasks i = .idle) : this.locked = false :=
  sees.unlocked fun i => MutexProgram.not_holds_of_none (by rw [idle i]; rfl)

/-- **The simulation.** -/
theorem sees_step :
    Simulates Watch.Step Vault.Step (Sees : Watch ι A T Ans → Vault T → Prop) := by
  intro this vault shown next sees step
  cases step with
  | move h => exact sees_move sees h
  | getMut write idle =>
      obtain ⟨same, empty⟩ := Lock.Protects.free sees (sees.free idle)
      have written : Vault.Step vault
          ([.owner this.program.shared.mutex.inner.data
            (write this.program.shared.mutex.inner.data)] : List (Vault.Visit ι A T Ans))
          { vault with data := write this.program.shared.mutex.inner.data } := by
        rw [same.data]
        exact .write
      refine ⟨_, .one written, .init (fun i => MutexProgram.not_holds_of_none ?_) (sees.free idle)
        ⟨⟨rfl, same.poison⟩, empty⟩⟩
      simp only [MutexProgram.getMut, idle i]
      rfl

/-- How many visits of tasks there are. -/
def countTasks (shown : List (Vault.Visit ι A T Ans)) : Nat :=
  shown.countP fun visit => match visit with
    | .task .. => true
    | .owner .. => false

omit [DecidableEq ι] [Action A T Ans] in
@[simp] theorem countTasks_append (shown shown' : List (Vault.Visit ι A T Ans)) :
    countTasks (shown ++ shown') = countTasks shown + countTasks shown' :=
  List.countP_append

/-- Each acquisition is one visit, which is over when the lock is free again. -/
def Counts (this : Watch ι A T Ans) (shown : List (Vault.Visit ι A T Ans)) : Prop :=
  countTasks shown + this.locked.toNat = this.program.shared.acquisitions

theorem Counts.move {this : Watch ι A T Ans} {vault : Vault T} {op : MutexOp ι A Ans}
    {program : MutexProgram ι A T Ans} {shown : List (Vault.Visit ι A T Ans)}
    (counts : Counts this shown) (sees : this.Sees vault)
    (h : this.program.step op = some program) :
    Counts (this.next op program) (shown ++ this.shows op program) := by
  have turn : MutexProgram.Turn False this.program program := MutexProgram.step_turn False.elim h
  have silent : program.shared.mutex.inner.locked = this.locked →
      program.shared.acquisitions = this.program.shared.acquisitions →
      Counts (this.next op program) (shown ++ this.shows op program) := by
    intro same acquisitions
    rw [shows_nil fun taken => same.trans taken, List.append_nil]
    have after : countTasks shown + program.shared.mutex.inner.locked.toNat =
        program.shared.acquisitions := by
      rw [same, acquisitions]
      exact counts
    exact after
  cases turn with
  | acquire _ free =>
      rw [shows_nil fun _ => rfl, List.append_nil]
      rw [Counts, locked, free] at counts
      exact congrArg (· + 1) counts
  | @release i guard held _ =>
      have taken : this.locked = true :=
        sees.locked.mpr ⟨i, Option.isSome_iff_exists.mpr ⟨guard, held⟩⟩
      rw [Counts, taken] at counts
      have shows : this.shows op (this.program.release i) =
          [.task op.task this.warning this.ended] := if_pos (by rw [taken]; rfl)
      rw [Counts, shows, countTasks_append]
      exact counts
  | _ => exact silent rfl rfl

theorem Counts.run {value : T} {shown : List (Vault.Visit ι A T Ans)} {this : Watch ι A T Ans}
    (run : Observes Watch.Step (.new value) shown this) : Counts this shown := by
  induction run with
  | refl => exact Nat.zero_add _
  | step before step ih =>
      obtain ⟨vault, -, sees⟩ := sees_step.run (sees_new value) before
      cases step with
      | move h => exact ih.move sees h
      | getMut write idle =>
          rw [Counts, countTasks_append]
          exact ih

end Watch

open Watch MutexProgram in
/-- What the visits of a mutex are. -/
structure Atomic (ι A : Type) {T Ans : Type} [DecidableEq ι] [Action A T Ans] (value : T) :
    Prop where
  /-- Whatever becomes of a mutex, the history can be kept of it. -/
  watched : ∀ {s : MutexProgram ι A T Ans}, Lives (fun _ => True) (robustMutex value).init s →
    ∃ shown ended warning, Observes Watch.Step (.new value) shown ⟨s, warning, ended⟩
  /-- What it shows are visits of the vault, one for each time the lock was taken and given back;
  while it is free the data are those of the vault, and the flags tell what it tells. -/
  visits : ∀ {shown} {w : Watch ι A T Ans}, Observes Watch.Step (.new value) shown w →
    countTasks shown + w.locked.toNat = w.program.shared.acquisitions ∧
    ∃ vault, Observes Vault.Step (.new value) shown vault ∧
      (w.locked = false → w.program.shared.mutex.inner.data = vault.data ∧
        w.program.shared.mutex.isPanicPoisoned = vault.panicked ∧
        w.program.shared.mutex.isCancelPoisoned = vault.cancelled) ∧
      ∀ i error, w.program.tasks i = .poisoned error →
        vault.warning = some ⟨error.isPanic, error.isCancel⟩

open Watch MutexProgram in
/-- **Atomic visits.**  Whatever the tasks and the owner of a mutex do, the uses of it that are
over are visits of the vault, in the order in which the lock was taken. -/
theorem robustMutex_atomic [DecidableEq ι] [Action A T Ans] (value : T) :
    Atomic ι A value where
  watched lives := by
    induction lives with
    | refl => exact ⟨[], none, none, .refl⟩
    | move _ _ step ih =>
        obtain ⟨shown, ended, warning, run⟩ := ih
        exact ⟨_, _, _, run.step (.move step)⟩
    | getMut write _ idle ih =>
        obtain ⟨shown, ended, warning, run⟩ := ih
        exact ⟨_, _, _, run.step (.getMut write idle)⟩
  visits {shown w} run := by
    obtain ⟨vault, visits, sees⟩ := sees_step.run (sees_new value) run
    refine ⟨?_, vault, visits, ?_, ?_⟩
    · exact Counts.run run
    · intro free
      obtain ⟨same, -⟩ := Lock.Protects.free sees free
      rw [RobustMutex.isPanicPoisoned, RobustMutex.isCancelPoisoned, same.poison,
        Flag.encode_panic, Flag.encode_cancel]
      exact ⟨same.data, rfl, rfl⟩
    · intro i error phase
      have held := sees.held (i := i) (by rw [phase]; rfl)
      rw [phase] at held
      exact held.2.2.2

end CancelSafeFutures
