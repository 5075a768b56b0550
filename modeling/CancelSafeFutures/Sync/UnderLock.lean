import CancelSafeFutures.Async.LockInvariant
import CancelSafeFutures.Sync.Mutex

/-!
# Under the lock

`MutexProgram.Turn` lists what a move of `robustMutex` can do.  `Keeps` is what has to be shown of
a property that is to hold while the inner lock is free, or while it is taken, with one condition
for each thing that its holder can do; `Keeps.run` then has it in every state.
-/

namespace CancelSafeFutures

open Async

namespace MutexProgram

variable {ι A T Ans : Type} [DecidableEq ι] [Action A T Ans]

/-- A phase in which nothing was started, or the flags were written. -/
def Quiet : Phase A Ans → Prop
  | .permit _ | .poisoned _ | .formatting _ | .created _ _ | .unlocking _ => True
  | _ => False

/-- What a move can do.  When it is `calm` no action is started while its thread unwinds. -/
inductive Turn (calm : Prop) (s : MutexProgram ι A T Ans) : MutexProgram ι A T Ans → Prop
  | idle : Turn calm s s
  | outside {i p} : (s.tasks i).guard = none → p.guard = none → Turn calm s (s.put i p)
  | acquire {i route} :
      (s.tasks i).guard = none → s.shared.mutex.inner.locked = false →
      Turn calm s (s.acquire i route)
  | newPermit {i guard route} :
      s.tasks i = .acquired guard route →
      Turn calm s (s.put i (route.received guard s.shared.mutex.poison))
  | intoInner {i error} :
      s.tasks i = .poisoned error → Turn calm s (s.put i (.permit error.intoInner))
  | create {i permit action} :
      s.tasks i = .permit permit → Turn calm s (s.put i (.created permit action))
  | start {i permit async action unwinding} :
      s.tasks i = .permit permit ∨ (∃ action, s.tasks i = .created permit action) →
      (calm → unwinding = false) →
      Turn calm s (s.start i permit async action unwinding)
  | goOn {i sec input activity data} :
      s.tasks i = .section sec →
      sec.activity.next sec.poisoner.isAsync s.shared.mutex.inner.data input =
        some (activity, data) →
      Turn calm s (s.goOn i (sec.after input activity) data)
  | finish {i sec input exit data} :
      s.tasks i = .section sec →
      sec.activity.next sec.poisoner.isAsync s.shared.mutex.inner.data input =
        some (.finished exit, data) →
      Turn calm s (s.finish i (sec.after input (.finished exit)) data exit)
  | dropPoisoner {i sec exit} :
      s.tasks i = .ending sec exit → Turn calm s (s.dropPoisoner i sec exit)
  | release {i guard} :
      (s.tasks i).guard = some guard → Quiet (s.tasks i) → Turn calm s (s.release i)

/-- Something happens to an action. -/
theorem input_turn {calm : Prop} {s s' : MutexProgram ι A T Ans} {i : ι} {sec : Section A Ans}
    {input : Input Ans} (phase : s.tasks i = .section sec) (h : s.input i sec input = some s') :
    Turn calm s s' := by
  unfold MutexProgram.input at h
  split at h
  · next exit data next =>
      cases h
      exact .finish phase next
  · next activity data _ next =>
      cases h
      exact .goOn phase next
  · cases h

/-- The inner lock is tried. -/
theorem tryAcquire_turn {calm : Prop} {s : MutexProgram ι A T Ans} {i : ι}
    (phase : (s.tasks i).guard = none) (route : Route) (available : Bool) :
    Turn calm s (s.tryAcquire i route available) := by
  unfold tryAcquire
  split
  · next free =>
      rw [Bool.and_eq_true, Bool.not_eq_true'] at free
      exact .acquire phase free.2
  · exact .idle

/-- A guard is dropped. -/
theorem release_turn {calm : Prop} {s s' : MutexProgram ι A T Ans} {i : ι} {p : Phase A Ans}
    {guard : MutexGuard} (phase : s.tasks i = p) (held : p.guard = some guard) (quiet : Quiet p)
    (h : some (s.release i) = some s') : Turn calm s s' := by
  subst phase
  cases h
  exact .release held quiet

end MutexProgram

/-- No action is started or resumed on a thread that unwinds. -/
def MutexOp.Calm {ι A Ans : Type} : MutexOp ι A Ans → Prop
  | .perform _ _ unwinding | .poll _ unwinding => unwinding = false
  | _ => True

namespace MutexProgram

variable {ι A T Ans : Type} [DecidableEq ι] [Action A T Ans]

/-- Nothing else happens. -/
theorem step_turn {calm : Prop} {s s' : MutexProgram ι A T Ans} {op : MutexOp ι A Ans}
    (allowed : calm → op.Calm) (h : s.step op = some s') : Turn calm s s' := by
  cases op with
  | lock i | blockingLock i | dropLock i =>
      simp only [step] at h
      split at h
      · next phase =>
          cases h
          exact .outside (by rw [phase]; rfl) rfl
      · cases h
  | acquire i =>
      simp only [step] at h
      split at h
      · next route phase =>
          obtain ⟨free, h⟩ := Option.ite_none_left_eq_some.mp h
          cases h
          exact .acquire (by rw [phase]; rfl) (Bool.eq_false_iff.mpr free)
      · cases h
  | tryLock i available | fmt i available =>
      simp only [step] at h
      split at h
      · next phase =>
          cases h
          exact tryAcquire_turn (by rw [phase]; rfl) _ _
      · cases h
  | newPermit i =>
      simp only [step] at h
      split at h
      · next phase =>
          cases h
          exact .newPermit phase
      · cases h
  | intoInner i =>
      simp only [step] at h
      split at h
      · next phase =>
          cases h
          exact .intoInner phase
      · cases h
  | perform i action unwinding =>
      simp only [step] at h
      split at h
      · next phase =>
          cases h
          exact .start (.inl phase) allowed
      · cases h
  | performAsyncBoxed i action =>
      simp only [step] at h
      split at h
      · next phase =>
          cases h
          exact .create phase
      · cases h
  | poll i unwinding =>
      simp only [step] at h
      split at h
      · next phase =>
          cases h
          exact .start (.inr ⟨_, phase⟩) allowed
      · next phase => exact input_turn phase h
      · cases h
  | dropFuture i unwinding =>
      simp only [step] at h
      split at h
      · next phase => exact release_turn phase rfl trivial h
      · next phase => exact input_turn phase h
      · cases h
  | advance i answer =>
      simp only [step] at h
      split at h
      · next phase => exact input_turn phase h
      · cases h
  | dropPoisoner i =>
      simp only [step] at h
      split at h
      · next phase =>
          cases h
          exact .dropPoisoner phase
      · cases h
  | dropGuard i =>
      simp only [step] at h
      split at h
      · next phase => exact release_turn phase rfl trivial h
      · next phase => exact release_turn phase rfl trivial h
      · next phase => exact release_turn phase rfl trivial h
      · next phase => exact release_turn phase rfl trivial h
      · next phase => exact release_turn phase rfl trivial h
      · cases h

/-! ## What the inner lock protects -/

/-- The inner lock. -/
def innerLock : Lock (Phase A Ans) (Shared A T Ans) where
  Holds p := p.guard.isSome = true
  locked shared := shared.mutex.inner.locked

omit [Action A T Ans] in
theorem not_holds_of_none {p : Phase A Ans} (none : p.guard = none) :
    ¬(innerLock (T := T)).Holds p := by
  simp only [innerLock, none, Option.isSome_none, Bool.false_eq_true, not_false_eq_true]

/-- What `ActionPermit::new` makes of a guard. -/
inductive Received (guard : MutexGuard) (poison : Flag) : Phase A Ans → Prop
  | permit {permit : ActionPermit} :
      permit.guard = guard → ActionPermit.new guard poison = .ok permit →
      Received guard poison (.permit permit)
  | poisoned {error : PoisonError ActionPermit} :
      error.guard.guard = guard → ActionPermit.new guard poison = .error error →
      Received guard poison (.poisoned error)
  | formatting {result : TryLockResult ActionPermit} :
      (Phase.formatting result : Phase A Ans).guard = some guard →
      RobustMutex.tryLock (some guard) poison = result →
      Received guard poison (.formatting result)

omit [Action A T Ans] in
theorem received (route : Route) (guard : MutexGuard) (poison : Flag) :
    Received guard poison (route.received guard poison : Phase A Ans) := by
  have new : (∃ permit : ActionPermit, permit.guard = guard ∧
        ActionPermit.new guard poison = .ok permit) ∨
      ∃ error : PoisonError ActionPermit, error.guard.guard = guard ∧
        ActionPermit.new guard poison = .error error := by
    unfold ActionPermit.new
    cases poison.borrow with
    | ok => exact .inl ⟨_, rfl, rfl⟩
    | error error => exact .inr ⟨_, rfl, rfl⟩
  unfold Route.received RobustMutex.tryLock
  rcases new with ⟨permit, held, new⟩ | ⟨error, held, new⟩
  · cases route <;> simp only [new, Except.mapError]
    · exact .permit held new
    · exact .permit held new
    · exact .permit held new
    · exact .formatting (congrArg some held)
        (by simp only [RobustMutex.tryLock, new, Except.mapError])
  · cases route <;> simp only [new, Except.mapError]
    · exact .poisoned held new
    · exact .poisoned held new
    · exact .poisoned held new
    · exact .formatting (congrArg some held)
        (by simp only [RobustMutex.tryLock, new, Except.mapError])

omit [Action A T Ans] in
/-- The guard is taken along. -/
theorem Received.guard {guard : MutexGuard} {poison : Flag} {p : Phase A Ans}
    (received : Received guard poison p) : p.guard = some guard := by
  cases received with
  | permit held => exact congrArg some held
  | poisoned held => exact congrArg some held
  | formatting held _ => exact held

/-- What keeps `Free` and `Held`: one condition for each thing that happens while the lock is
taken. -/
structure Keeps (calm : Prop) (Free : Shared A T Ans → Prop)
    (Held : Phase A Ans → Shared A T Ans → Prop) : Prop where
  acquire {shared} (route) :
    Free shared → Held (.acquired ⟨shared.acquisitions + 1⟩ route) shared.lock
  newPermit {shared guard route p} :
    Held (.acquired guard route) shared → Received guard shared.mutex.poison p → Held p shared
  intoInner {shared error} : Held (.poisoned error) shared → Held (.permit error.intoInner) shared
  create {shared permit} (action) :
    Held (.permit permit) shared → Held (.created permit action) shared
  start {shared} {permit : ActionPermit} {unwinding} (async action) :
    (Held (.permit permit) shared ∨ ∃ action, Held (.created permit action) shared) →
    (calm → unwinding = false) →
    Held (.section (.start permit async shared.mutex.poison action unwinding))
      (shared.began permit.guard)
  goOn {shared sec input activity data} :
    Held (.section sec) shared →
    sec.activity.next sec.poisoner.isAsync shared.mutex.inner.data input = some (activity, data) →
    Held (.section (sec.after input activity)) (shared.write sec.permit.guard data)
  finish {shared sec input exit data} :
    Held (.section sec) shared →
    sec.activity.next sec.poisoner.isAsync shared.mutex.inner.data input =
      some (.finished exit, data) →
    Held (.ending (sec.after input (.finished exit)) exit)
      ((shared.write sec.permit.guard data).ended ((sec.after input (.finished exit)).ended exit))
  dropPoisoner {shared sec exit} :
    Held (.ending sec exit) shared →
    Held (.unlocking sec.permit)
      (shared.poisoned (sec.poisoner.drop shared.mutex.poison exit))
  release {shared p} : Quiet p → Held p shared → Free shared.unlock

variable {calm : Prop} {Free : Shared A T Ans → Prop} {Held : Phase A Ans → Shared A T Ans → Prop}

omit [Action A T Ans] in
/-- The holder goes from one phase to another. -/
theorem hold_phase {s : MutexProgram ι A T Ans} {i : ι} {p p' : Phase A Ans}
    {guard guard' : MutexGuard} {shared' : Shared A T Ans}
    (inv : innerLock.Protects Free Held s.shared s.tasks) (phase : s.tasks i = p)
    (held : p.guard = some guard) (held' : p'.guard = some guard')
    (same : shared'.mutex.inner.locked = s.shared.mutex.inner.locked)
    (step : Held p s.shared → Held p' shared') :
    innerLock.Protects Free Held shared' (Function.update s.tasks i p') := by
  subst phase
  have before : (innerLock : Lock (Phase A Ans) (Shared A T Ans)).Holds (s.tasks i) :=
    Option.isSome_iff_exists.mpr ⟨guard, held⟩
  refine inv.hold before (Option.isSome_iff_exists.mpr ⟨guard', held'⟩) ?_ step
  exact same.trans (inv.locked.mpr ⟨i, before⟩)

/-- What every move keeps under the lock. -/
theorem Keeps.step {s s' : MutexProgram ι A T Ans} (keeps : Keeps calm Free Held)
    (inv : innerLock.Protects Free Held s.shared s.tasks) (turn : Turn calm s s') :
    innerLock.Protects Free Held s'.shared s'.tasks := by
  cases turn with
  | idle => exact inv
  | outside before after => exact inv.outside (not_holds_of_none before) (not_holds_of_none after)
  | acquire _ free => exact inv.acquire free rfl rfl (keeps.acquire _)
  | newPermit phase =>
      exact hold_phase inv phase rfl (received ..).guard rfl fun held =>
        keeps.newPermit held (received ..)
  | intoInner phase => exact hold_phase inv phase rfl rfl rfl keeps.intoInner
  | create phase => exact hold_phase inv phase rfl rfl rfl (keeps.create _)
  | start phase unwinding =>
      rcases phase with phase | ⟨created, phase⟩
      · exact hold_phase inv phase rfl rfl rfl fun held => keeps.start _ _ (.inl held) unwinding
      · exact hold_phase inv phase rfl rfl rfl fun held =>
          keeps.start _ _ (.inr ⟨created, held⟩) unwinding
  | goOn phase next => exact hold_phase inv phase rfl rfl rfl fun held => keeps.goOn held next
  | finish phase next => exact hold_phase inv phase rfl rfl rfl fun held => keeps.finish held next
  | dropPoisoner phase => exact hold_phase inv phase rfl rfl rfl keeps.dropPoisoner
  | release held quiet =>
      exact inv.release (Option.isSome_iff_exists.mpr ⟨_, held⟩) nofun rfl (keeps.release quiet)

/-- And so every run of moves that are calm, if that is asked for. -/
theorem Keeps.runFrom {value : T} (keeps : Keeps calm Free Held) {ops : List (MutexOp ι A Ans)}
    (allowed : ∀ op ∈ ops, calm → op.Calm) {s₀ s : MutexProgram ι A T Ans}
    (inv : innerLock.Protects Free Held s₀.shared s₀.tasks)
    (h : (robustMutex value).runFrom s₀ ops = some s) :
    innerLock.Protects Free Held s.shared s.tasks := by
  refine System.runFrom_invariant (A := fun op => calm → op.Calm)
    (I := fun s => innerLock.Protects Free Held s.shared s.tasks) ?_ allowed inv h
  intro s op s' allowed inv h
  exact keeps.step inv (step_turn allowed h)

omit [DecidableEq ι] [Action A T Ans] in
/-- A new mutex. -/
theorem protects_new {value : T} (new : Free (.new value)) :
    innerLock.Protects Free Held (Shared.new value) fun _ : ι => Phase.idle :=
  .init (fun _ => nofun) rfl new

/-- A run from the beginning. -/
theorem Keeps.run {value : T} (keeps : Keeps calm Free Held)
    (new : Free (.new value)) {ops : List (MutexOp ι A Ans)}
    (allowed : ∀ op ∈ ops, calm → op.Calm) {s : MutexProgram ι A T Ans}
    (h : (robustMutex value).run ops = some s) :
    innerLock.Protects Free Held s.shared s.tasks :=
  keeps.runFrom allowed (protects_new new) h

end MutexProgram

end CancelSafeFutures
