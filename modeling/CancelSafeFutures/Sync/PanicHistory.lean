import CancelSafeFutures.Sync.Poisoning

/-!
# Panic histories

Nothing is asked of the threads here: an action may be started, resumed or dropped on a thread
that unwinds, and it may panic there as well.  `Follows` and `Settles` go with one section from
the state it is started in until the lock is free again.  The flags are then what one call of
`done` has made of them, and `told_iff` says when that tells how the action went.
-/

namespace CancelSafeFutures

open Async

variable {ι A T Ans : Type}

/-- The flags tell how an action went. -/
structure Told (before after : RobustMutex T) (exit : Exit) : Prop where
  /-- If it did not run to its end the mutex is poisoned. -/
  interrupted : exit.completed = false → after.isPoisoned = true
  /-- With the panic flag if it panicked. -/
  panicked : exit.panicked = true → after.isPanicPoisoned = true
  /-- And if it did the flags are as they were. -/
  completed : exit.completed = true → after.poison = before.poison

/-- What a thread says of itself at the start of an action and at its end tells how the action
went: it does not panic if the first thread was unwinding, and if that was not it does not run to
its end on a thread that was when it came. -/
structure Legible (first last : Bool) (exit : Exit) : Prop where
  panicked : exit.panicked = true → first = false
  completed : exit.completed = true → first = false → last = false

/-! ## One call of `done` -/

namespace RobustMutex

theorem isPoisoned_encode (panicked cancelled : Bool) (inner : InnerMutex T) :
    (RobustMutex.mk (.encode panicked cancelled) inner).isPoisoned = (panicked || cancelled) := by
  cases panicked <;> cases cancelled <;> rfl

theorem isPanicPoisoned_encode (panicked cancelled : Bool) (inner : InnerMutex T) :
    (RobustMutex.mk (.encode panicked cancelled) inner).isPanicPoisoned = panicked :=
  Flag.encode_panic panicked cancelled

end RobustMutex

theorem Flag.encode_inj {panicked panicked' cancelled cancelled' : Bool}
    (eq : encode panicked cancelled = encode panicked' cancelled') :
    panicked = panicked' ∧ cancelled = cancelled' := by
  constructor
  · have panic := encode_panic panicked cancelled
    rwa [eq, encode_panic, eq_comm] at panic
  · have cancel := encode_cancel panicked cancelled
    rwa [eq, encode_cancel, eq_comm] at cancel

/-- `Told` of the two flags. -/
theorem told_encode {p c p' c' : Bool} {before after : InnerMutex T} {exit : Exit} :
    Told ⟨.encode p c, before⟩ ⟨.encode p' c', after⟩ exit ↔
      (exit.completed = false → (p' || c') = true) ∧ (exit.panicked = true → p' = true) ∧
        (exit.completed = true → p' = p ∧ c' = c) := by
  constructor
  · intro told
    have interrupted := told.interrupted
    have panicked := told.panicked
    rw [RobustMutex.isPoisoned_encode] at interrupted
    rw [RobustMutex.isPanicPoisoned_encode] at panicked
    exact ⟨interrupted, panicked, fun completed => Flag.encode_inj (told.completed completed)⟩
  · rintro ⟨interrupted, panicked, completed⟩
    refine ⟨?_, ?_, ?_⟩
    · rwa [RobustMutex.isPoisoned_encode]
    · rwa [RobustMutex.isPanicPoisoned_encode]
    · intro done
      obtain ⟨rfl, rfl⟩ := completed done
      rfl

/-- What `done` adds for an action tells how it went just if the threads do, or if the panic flag
was set already. -/
theorem told_iff {async first last p c : Bool} {exit : Exit} {before after : RobustMutex T}
    (flags : before.poison = .encode p c)
    (done : after.poison =
      before.poison.done ⟨first⟩ (async && !exit.completed) exit.unwinding)
    (on : (Activity.finished exit : Activity A).On async first last) :
    Told before after exit ↔ before.isPanicPoisoned = true ∨ Legible first last exit := by
  rcases before with ⟨poison, before⟩
  rcases after with ⟨poison', after⟩
  rcases exit with ⟨dropped, panicked, unwinding⟩
  obtain ⟨thread, sync⟩ := on
  simp only at flags done thread sync
  subst thread flags done
  rw [Flag.done_encode, told_encode, RobustMutex.isPanicPoisoned_encode]
  have legible : Legible first last ⟨dropped, panicked, last || panicked⟩ ↔
      (panicked = true → first = false) ∧
        ((!dropped && !panicked) = true → first = false → last = false) :=
    ⟨fun ⟨h, h'⟩ => ⟨h, h'⟩, fun ⟨h, h'⟩ => ⟨h, h'⟩⟩
  rw [legible]
  cases panicked with
  | true =>
      -- it did not run to its end, and the first thread is all that matters
      simp only [Exit.completed]
      cases p <;> cases first <;> simp
  | false =>
      cases dropped with
      | true =>
          -- only an `async` action is dropped, and that sets the other flag
          cases async with
          | true => simp [Exit.completed]
          | false => exact absurd (sync rfl).2 nofun
      | false =>
          simp only [Exit.completed]
          cases p <;> cases first <;> cases last <;> simp

namespace MutexProgram

/-! ## Every run -/

/-- The flags are some of those there are. -/
def Encoded (shared : Shared A T Ans) : Prop :=
  ∃ panicked cancelled, shared.mutex.poison = .encode panicked cancelled

/-- Whoever writes the flags makes a call of `done`. -/
theorem encoded_keeps [Action A T Ans] :
    Keeps (A := A) False (Encoded (T := T)) fun _ shared => Encoded shared where
  acquire _ free := free
  newPermit held _ := held
  intoInner held := held
  create _ held := held
  start _ _ held _ := by
    rcases held with held | ⟨_, held⟩ <;> exact held
  goOn held _ := held
  finish held _ := held
  dropPoisoner {shared sec exit} held := by
    obtain ⟨panicked, cancelled, flags⟩ := held
    simp only [Encoded, Shared.poisoned, AnyPoisoner.drop]
    rw [flags]
    split
    · exact ⟨_, _, Flag.done_encode ..⟩
    · exact ⟨_, _, Flag.done_encode ..⟩
  release _ held := held

theorem encoded_of_run [Action A T Ans] [DecidableEq ι] {value : T}
    {ops : List (MutexOp ι A Ans)} {s : MutexProgram ι A T Ans}
    (h : (robustMutex value).run ops = some s) : Encoded s.shared := by
  have inv := encoded_keeps.run ⟨false, false, Flag.new_eq_encode⟩ (fun _ _ => False.elim) h
  exact inv.always id fun _ => id

/-! ## One section -/

/-- A move that starts an action, and the section it starts. -/
inductive Begins (s : MutexProgram ι A T Ans) : MutexOp ι A Ans → Section A Ans → Prop
  | perform {i permit action unwinding} : s.tasks i = .permit permit →
      Begins s (.perform i action unwinding)
        (.start permit false s.shared.mutex.poison action unwinding)
  | performAsyncBoxed {i permit action unwinding} : s.tasks i = .created permit action →
      Begins s (.poll i unwinding) (.start permit true s.shared.mutex.poison action unwinding)

variable [Action A T Ans]

/-- `sec` is what has become of the section `first`, which found the mutex as it is in
`origin`. -/
structure Follows (origin : Shared A T Ans) (first sec : Section A Ans) (data : T) : Prop where
  poisoner : sec.poisoner = first.poisoner
  action : sec.action = first.action
  unwinding : sec.unwinding = first.unwinding
  run : Activity.run first.poisoner.isAsync first.activity origin.mutex.inner.data sec.inputs =
    some (sec.activity, data)

/-- The action is gone and the flags are written. -/
structure Settles (origin : Shared A T Ans) (first sec : Section A Ans) (exit : Exit)
    (shared : Shared A T Ans) : Prop where
  follows : Follows origin first sec shared.mutex.inner.data
  gone : sec.activity = .finished exit
  log : shared.log = origin.log ++ [sec.ended exit]
  poison : shared.mutex.poison = sec.poisoner.drop origin.mutex.poison exit

/-- What is known of the section `first` under the acquisition it was started under. -/
def Present (origin : Shared A T Ans) (first : Section A Ans) (p : Phase A Ans)
    (shared : Shared A T Ans) : Prop :=
  match p with
  | .section sec =>
    Follows origin first sec shared.mutex.inner.data ∧ shared.log = origin.log ∧
      shared.mutex.poison = origin.mutex.poison
  | .ending sec exit =>
    Follows origin first sec shared.mutex.inner.data ∧ sec.activity = .finished exit ∧
      shared.log = origin.log ++ [sec.ended exit] ∧ shared.mutex.poison = origin.mutex.poison
  | .unlocking _ => ∃ sec exit, Settles origin first sec exit shared
  | _ => False

/-- Nothing is known any more when the lock was taken again. -/
def During (origin : Shared A T Ans) (first : Section A Ans) (p : Phase A Ans)
    (shared : Shared A T Ans) : Prop :=
  origin.acquisitions ≤ shared.acquisitions ∧
    (shared.acquisitions = origin.acquisitions → Present origin first p shared)

/-- The same while the lock is free. -/
def Afterwards (origin : Shared A T Ans) (first : Section A Ans) (shared : Shared A T Ans) :
    Prop :=
  origin.acquisitions ≤ shared.acquisitions ∧
    (shared.acquisitions = origin.acquisitions → ∃ sec exit, Settles origin first sec exit shared)

theorem Follows.step {origin : Shared A T Ans} {first sec : Section A Ans} {data data' : T}
    (follows : Follows origin first sec data) {input : Input Ans} {activity : Activity A}
    (next : sec.activity.next sec.poisoner.isAsync data input = some (activity, data')) :
    Follows origin first (sec.after input activity) data' := by
  rw [follows.poisoner] at next
  exact ⟨follows.poisoner, follows.action, follows.unwinding,
    Activity.run_concat follows.run next⟩

/-- Nobody else writes the flags until the lock is given back. -/
theorem during_keeps (origin : Shared A T Ans) (first : Section A Ans) :
    Keeps (A := A) False (Afterwards origin first) (During origin first) where
  acquire {shared} _ free := by
    refine ⟨Nat.le_succ_of_le free.1, fun same => ?_⟩
    have taken : shared.acquisitions + 1 = origin.acquisitions := same
    have before := free.1
    omega
  newPermit held _ := ⟨held.1, fun same => (held.2 same).elim⟩
  intoInner held := ⟨held.1, fun same => (held.2 same).elim⟩
  create _ held := ⟨held.1, fun same => (held.2 same).elim⟩
  start _ _ held _ := by
    rcases held with held | ⟨_, held⟩
    · exact ⟨held.1, fun same => (held.2 same).elim⟩
    · exact ⟨held.1, fun same => (held.2 same).elim⟩
  goOn held next := by
    refine ⟨held.1, fun same => ?_⟩
    obtain ⟨follows, log, poison⟩ := held.2 same
    exact ⟨follows.step next, log, poison⟩
  finish held next := by
    refine ⟨held.1, fun same => ?_⟩
    obtain ⟨follows, log, poison⟩ := held.2 same
    exact ⟨follows.step next, rfl, congrArg (· ++ [_]) log, poison⟩
  dropPoisoner {shared sec exit} held := by
    refine ⟨held.1, fun same => ?_⟩
    obtain ⟨follows, gone, log, poison⟩ := held.2 same
    exact ⟨sec, exit, follows, gone, log, congrArg (sec.poisoner.drop · exit) poison⟩
  release {shared p} quiet held := by
    refine ⟨held.1, fun same => ?_⟩
    have present := held.2 same
    cases p with
    | unlocking =>
        obtain ⟨sec, exit, settles⟩ := present
        exact ⟨sec, exit, settles.follows, settles.gone, settles.log, settles.poison⟩
    | permit | poisoned | formatting | created => exact present.elim
    | _ => exact quiet.elim

/-- A section is followed from its start. -/
theorem start_during [DecidableEq ι] {Free : Shared A T Ans → Prop}
    {Held : Phase A Ans → Shared A T Ans → Prop} {s : MutexProgram ι A T Ans}
    (inv : innerLock.Protects Free Held s.shared s.tasks) {i : ι} {permit : ActionPermit}
    (guard : (s.tasks i).guard = some permit.guard) (async : Bool) (action : A)
    (unwinding : Bool) :
    innerLock.Protects
      (Afterwards s.shared (.start permit async s.shared.mutex.poison action unwinding))
      (During s.shared (.start permit async s.shared.mutex.poison action unwinding))
      (s.start i permit async action unwinding).shared
      (s.start i permit async action unwinding).tasks := by
  have holds : (innerLock (T := T)).Holds (s.tasks i) :=
    Option.isSome_iff_exists.mpr ⟨_, guard⟩
  refine inv.change holds rfl (inv.locked.mpr ⟨i, holds⟩) ⟨Nat.le_refl _, fun _ => ?_⟩
  exact ⟨⟨rfl, rfl, rfl, rfl⟩, rfl, rfl⟩

/-- What starts an action is its section. -/
theorem Begins.step {s s₁ : MutexProgram ι A T Ans} [DecidableEq ι] {op : MutexOp ι A Ans}
    {first : Section A Ans} (begins : Begins s op first) (h : s.step op = some s₁) :
    ∃ i permit async action unwinding,
      first = .start permit async s.shared.mutex.poison action unwinding ∧
        (s.tasks i).guard = some permit.guard ∧ s₁ = s.start i permit async action unwinding := by
  cases begins with
  | perform phase =>
      simp only [MutexProgram.step, phase] at h
      cases h
      exact ⟨_, _, _, _, _, rfl, by rw [phase]; rfl, rfl⟩
  | performAsyncBoxed phase =>
      simp only [MutexProgram.step, phase] at h
      cases h
      exact ⟨_, _, _, _, _, rfl, by rw [phase]; rfl, rfl⟩

end MutexProgram

open MutexProgram in
/-- **What the flags tell of a section.**  An action is started in any state that a mutex gets
to, and `s` is a state in which the lock is free again and has not been taken since.  The action is
gone then.  The flags tell how it went if and only if the panic flag was set before it started or
what its threads said of themselves tells. -/
theorem section_told_iff [Action A T Ans] [DecidableEq ι] {value : T}
    {ops : List (MutexOp ι A Ans)} {s₀ : MutexProgram ι A T Ans}
    (h₀ : (robustMutex value).run ops = some s₀) {op : MutexOp ι A Ans} {first : Section A Ans}
    (begins : Begins s₀ op first) {rest : List (MutexOp ι A Ans)} {s : MutexProgram ι A T Ans}
    (h : (robustMutex value).runFrom s₀ (op :: rest) = some s)
    (free : s.shared.mutex.inner.locked = false)
    (same : s.shared.acquisitions = s₀.shared.acquisitions) :
    ∃ ended, s.shared.log = s₀.shared.log ++ [ended] ∧
      ended.async = first.poisoner.isAsync ∧ ended.action = first.action ∧
      ended.unwinding = first.unwinding ∧
      ended.perform s₀.shared.mutex.inner.data = some s.shared.mutex.inner.data ∧
      (Told s₀.shared.mutex s.shared.mutex ended.exit ↔
        s₀.shared.mutex.isPanicPoisoned = true ∨
          Legible ended.unwinding (ended.inputs.foldl Input.thread ended.unwinding)
            ended.exit) := by
  obtain ⟨panicked, cancelled, flags⟩ := encoded_of_run h₀
  have inv₀ := encoded_keeps.run ⟨false, false, Flag.new_eq_encode⟩ (fun _ _ => False.elim) h₀
  obtain ⟨s₁, step, h⟩ := System.runFrom_cons h
  obtain ⟨i, permit, async, action, unwinding, rfl, guard, rfl⟩ := begins.step step
  have inv₁ := start_during inv₀ guard async action unwinding
  have inv := (during_keeps _ _).runFrom (fun _ _ => False.elim) inv₁ h
  obtain ⟨sec, exit, ⟨poisoner, action_eq, unwinding_eq, run⟩, gone, log, poison⟩ :=
    (inv.free free).2 same
  have isAsync : sec.poisoner.isAsync = async := by
    rw [poisoner]
    exact isAsync_new async _ unwinding
  have replay : Activity.run async (.start action unwinding) s₀.shared.mutex.inner.data
      sec.inputs = some (.finished exit, s.shared.mutex.inner.data) := by
    rw [← gone, ← run]
    exact congrArg (Activity.run · _ _ _) (isAsync_new async _ unwinding).symm
  refine ⟨sec.ended exit, log, congrArg AnyPoisoner.isAsync poisoner, action_eq, unwinding_eq,
    ?_, ?_⟩
  · apply Ended.perform_of_run
    simp only [Section.ended]
    rw [isAsync, action_eq, unwinding_eq]
    exact replay
  · -- the drop of its poisoner is one call of `done`
    have on : (Activity.start action unwinding).On async unwinding unwinding :=
      ⟨rfl, fun _ => ⟨rfl, rfl⟩⟩
    have after : s.shared.mutex.poison =
        s₀.shared.mutex.poison.done ⟨unwinding⟩ (async && !exit.completed) exit.unwinding := by
      rw [poison, poisoner]
      exact AnyPoisoner.drop_eq_done async _ _ unwinding exit
    have last := on.run replay
    simp only [Section.ended]
    rw [unwinding_eq]
    exact told_iff flags after last

/-- An action is started on a thread that unwinds, and dropped on another one that does not. -/
theorem section_told_iff_dropped :
    ∃ s₀ s : MutexProgram Nat Tally Nat Unit, ∃ ended,
      (robustMutex 0).run [.lock 0, .acquire 0, .newPermit 0,
        .performAsyncBoxed 0 [.add 1, .await, .add 2]] = some s₀ ∧
      (robustMutex 0).runFrom s₀ [.poll 0 true, .advance 0 (), .advance 0 (),
        .dropFuture 0 false, .advance 0 (), .dropPoisoner 0, .dropGuard 0] = some s ∧
      s.shared.log = s₀.shared.log ++ [ended] ∧
      (Told s₀.shared.mutex s.shared.mutex ended.exit ↔
        s₀.shared.mutex.isPanicPoisoned = true ∨
          Legible ended.unwinding (ended.inputs.foldl Input.thread ended.unwinding)
            ended.exit) := by
  have runs : ∃ s₀ s : MutexProgram Nat Tally Nat Unit,
      (robustMutex 0).run [.lock 0, .acquire 0, .newPermit 0,
        .performAsyncBoxed 0 [.add 1, .await, .add 2]] = some s₀ ∧
      s₀.tasks 0 = .created ⟨⟨1⟩⟩ [.add 1, .await, .add 2] ∧
      (robustMutex 0).runFrom s₀ [.poll 0 true, .advance 0 (), .advance 0 (),
        .dropFuture 0 false, .advance 0 (), .dropPoisoner 0, .dropGuard 0] = some s ∧
      s.shared.mutex.inner.locked = false ∧ s.shared.acquisitions = s₀.shared.acquisitions :=
    ⟨_, _, rfl, rfl, rfl, rfl, rfl⟩
  obtain ⟨s₀, s, h₀, created, h, free, same⟩ := runs
  obtain ⟨ended, log, -, -, -, -, told⟩ :=
    section_told_iff h₀ (.performAsyncBoxed created) h free same
  exact ⟨s₀, s, ended, h₀, h, log, told⟩

/-- The flags do not tell of an action that is started on a thread that unwinds and panics, and
they tell of a panic when an action is resumed on such a thread and runs to its end. -/
theorem section_not_told :
    (∃ s₀ s : MutexProgram Nat Tally Nat Unit, ∃ ended,
      (robustMutex 0).run [.tryLock 0 true, .newPermit 0] = some s₀ ∧
      (robustMutex 0).runFrom s₀ [.perform 0 [.panic] true, .advance 0 (), .advance 0 (),
        .dropPoisoner 0, .dropGuard 0] = some s ∧
      s.shared.log = s₀.shared.log ++ [ended] ∧ ended.exit.panicked = true ∧
      s.shared.mutex.isPoisoned = false ∧
      ¬Told s₀.shared.mutex s.shared.mutex ended.exit) ∧
    ∃ s₀ s : MutexProgram Nat Tally Nat Unit, ∃ ended,
      (robustMutex 0).run [.tryLock 0 true, .newPermit 0, .performAsyncBoxed 0 [.await]] =
        some s₀ ∧
      (robustMutex 0).runFrom s₀ [.poll 0 false, .advance 0 (), .poll 0 true, .advance 0 (),
        .dropPoisoner 0, .dropGuard 0] = some s ∧
      s.shared.log = s₀.shared.log ++ [ended] ∧ ended.exit.completed = true ∧
      s.shared.mutex.isPanicPoisoned = true ∧
      ¬Told s₀.shared.mutex s.shared.mutex ended.exit := by
  constructor
  · refine ⟨_, _, _, rfl, rfl, rfl, rfl, rfl, ?_⟩
    intro told
    exact absurd (told.panicked rfl) (by decide)
  · refine ⟨_, _, _, rfl, rfl, rfl, rfl, rfl, ?_⟩
    intro told
    exact absurd (told.completed rfl) (by decide)

end CancelSafeFutures
