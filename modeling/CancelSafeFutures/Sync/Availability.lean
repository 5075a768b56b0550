import CancelSafeFutures.Sync.LockQueue

/-!
# A mutex does not get stuck

Whatever the task that holds the inner lock is at, moves of its own give the lock back (`Frees`):
a permit, an error or a future that was not polled can be dropped, and an action that comes to its
end is followed by the drops of its poisoner and of its guard.  Each task in the queue can then
take the lock and give it back in its turn (`serve`).  So a task that waits gets the lock after
moves of the holder, of the tasks ahead of it and of its own, provided that the action under way,
if there is one, can be brought to an end (`robustMutex_available`).
-/

namespace CancelSafeFutures

open Async

/-- The move in which something happens to the action of task `i`. -/
def MutexOp.input {ι A Ans : Type} (i : ι) : Input Ans → MutexOp ι A Ans
  | .advance answer => .advance i answer
  | .resume unwinding => .poll i unwinding
  | .drop unwinding => .dropFuture i unwinding

namespace MutexProgram

variable {ι A T Ans : Type} [DecidableEq ι] [Action A T Ans] {value : T}
  {s s₁ : MutexProgram ι A T Ans} {j : ι} {sec : Section A Ans}

theorem step_input (phase : s.tasks j = .section sec) (input : Input Ans) :
    s.step (.input j input) = s.input j sec input := by
  cases input <;> simp only [MutexOp.input, step, phase]

/-- Moves of task `j` alone give the lock back. -/
def Frees (value : T) (s : MutexProgram ι A T Ans) (j : ι) : Prop :=
  ∃ ops s', (robustMutex value).runFrom s ops = some s' ∧
    (∀ op ∈ ops, op.task = j ∧ op.ofHolder = true) ∧ s'.shared.mutex.inner.locked = false ∧
    s'.tasks = Function.update s.tasks j .idle

/-- One move more, at the beginning. -/
theorem Frees.step {op : MutexOp ι A Ans} {p : Phase A Ans} (first : s.step op = some s₁)
    (own : op.task = j ∧ op.ofHolder = true) (tasks : s₁.tasks = Function.update s.tasks j p)
    (frees : Frees value s₁ j) : Frees value s j := by
  obtain ⟨ops, s', run, all_own, free, tasks'⟩ := frees
  refine ⟨op :: ops, s', ?_, List.forall_mem_cons.mpr ⟨own, all_own⟩, free, ?_⟩
  · have first' : (robustMutex value).step s op = some s₁ := first
    rw [System.runFrom, first', Option.bind_some, run]
  · rw [tasks', tasks, Function.update_idem]

/-- The guard is dropped. -/
theorem Frees.release {op : MutexOp ι A Ans} (last : s.step op = some (s.release j))
    (own : op.task = j ∧ op.ofHolder = true) : Frees value s j := by
  refine ⟨[op], s.release j, ?_, List.forall_mem_singleton.mpr own, rfl, rfl⟩
  have last' : (robustMutex value).step s op = some (s.release j) := last
  rw [System.runFrom, last', Option.bind_some, System.runFrom]

/-- Nothing was started, or the flags were written. -/
theorem frees_quiet {p : Phase A Ans} {guard : MutexGuard} (phase : s.tasks j = p)
    (quiet : Quiet p) (held : p.guard = some guard) : Frees value s j := by
  have drop : s.step (.dropGuard j) = some (s.release j) → Frees value s j :=
    fun last => .release last ⟨rfl, rfl⟩
  cases p with
  | permit | poisoned | unlocking => exact drop (by simp only [step, phase])
  | formatting result =>
      rcases result with (error | _) | _
      · exact drop (by simp only [step, phase])
      · cases held
      · exact drop (by simp only [step, phase])
  | created =>
      have last : s.step (.dropFuture j false) = some (s.release j) := by simp only [step, phase]
      exact .release last ⟨rfl, rfl⟩
  | idle | locking | acquired | «section» | ending => exact quiet.elim

omit [DecidableEq ι] [Action A T Ans] in
theorem Received.quiet {guard : MutexGuard} {poison : Flag} {p : Phase A Ans}
    (received : Received guard poison p) : Quiet p := by
  cases received <;> trivial

theorem frees_acquired {guard : MutexGuard} {route : Route}
    (phase : s.tasks j = .acquired guard route) : Frees value s j := by
  have first : s.step (.newPermit j) =
      some (s.put j (route.received guard s.shared.mutex.poison)) := by simp only [step, phase]
  have got : Received guard s.shared.mutex.poison
      (route.received guard s.shared.mutex.poison : Phase A Ans) := received ..
  exact .step first ⟨rfl, rfl⟩ rfl (frees_quiet (Function.update_self ..) got.quiet got.guard)

theorem frees_ending {exit : Exit} (phase : s.tasks j = .ending sec exit) : Frees value s j := by
  have first : s.step (.dropPoisoner j) = some (s.dropPoisoner j sec exit) := by
    simp only [step, phase]
  exact .step first ⟨rfl, rfl⟩ rfl (frees_quiet (Function.update_self ..) trivial rfl)

/-- An action that comes to its end. -/
theorem frees_section {input : Input Ans} {inputs : List (Input Ans)} {exit : Exit} {data : T}
    (phase : s.tasks j = .section sec)
    (ends : sec.activity.run sec.poisoner.isAsync s.shared.mutex.inner.data (input :: inputs) =
      some (.finished exit, data)) : Frees value s j := by
  induction inputs generalizing s sec input with
  | nil =>
      rw [Activity.run] at ends
      obtain ⟨⟨activity, data'⟩, next, ends⟩ := Option.bind_eq_some_iff.mp ends
      cases ends
      have first := step_input phase input
      rw [MutexProgram.input, next] at first
      exact .step first (by cases input <;> exact ⟨rfl, rfl⟩) rfl
        (frees_ending (Function.update_self ..))
  | cons later inputs ih =>
      rw [Activity.run] at ends
      obtain ⟨⟨activity, data'⟩, next, ends⟩ := Option.bind_eq_some_iff.mp ends
      have first := step_input phase input
      rw [MutexProgram.input, next] at first
      have own : (MutexOp.input j input : MutexOp ι A Ans).task = j ∧
          (MutexOp.input j input : MutexOp ι A Ans).ofHolder = true := by
        cases input <;> exact ⟨rfl, rfl⟩
      cases activity with
      | finished exit' => exact .step first own rfl (frees_ending (Function.update_self ..))
      | running this =>
          exact .step first own rfl (ih (Function.update_self ..) ends)
      | suspended action =>
          exact .step first own rfl (ih (Function.update_self ..) ends)

/-- The action under way, if there is one, can be brought to an end: there is something more that
may happen to it, after which it is gone. -/
def CanEnd (s : MutexProgram ι A T Ans) : Prop :=
  ∀ j sec, s.tasks j = .section sec → ∃ input inputs exit data,
    sec.activity.run sec.poisoner.isAsync s.shared.mutex.inner.data (input :: inputs) =
      some (.finished exit, data)

/-- Whatever the holder is at. -/
theorem frees_holder {guard : MutexGuard} (held : (s.tasks j).guard = some guard)
    (ends : s.CanEnd) : Frees value s j := by
  generalize phase : s.tasks j = p at held
  cases p with
  | idle | locking => cases held
  | acquired => exact frees_acquired phase
  | «section» sec =>
      obtain ⟨input, inputs, exit, data, gone⟩ := ends j sec phase
      exact frees_section phase gone
  | ending => exact frees_ending phase
  | permit | poisoned | formatting | created | unlocking => exact frees_quiet phase trivial held

end MutexProgram

namespace QueuedMutex

variable {ι A T Ans : Type} [DecidableEq ι] [Action A T Ans] {value : T}
  {s : QueuedMutex ι A T Ans} {i j : ι}

/-- The lock is free after moves of the holder, if there is one. -/
theorem freed {ops : List (QueuedOp ι A Ans)} (h : (queuedMutex value).run ops = some s)
    (ends : s.mutex.CanEnd) :
    ∃ more s', (queuedMutex value).runFrom s more = some s' ∧
      (∀ op ∈ more, (s.mutex.tasks op.task).guard.isSome = true) ∧
      s'.mutex.shared.mutex.inner.locked = false ∧ s'.queue = s.queue ∧
      ∀ k, (s.mutex.tasks k).guard = none → s'.mutex.tasks k = s.mutex.tasks k := by
  have protects := MutexProgram.heard_keeps.run trivial (fun _ _ => False.elim) (queued_run h)
  cases taken : s.mutex.shared.mutex.inner.locked with
  | false => exact ⟨[], s, rfl, List.forall_mem_nil _, taken, rfl, fun _ _ => rfl⟩
  | true =>
      obtain ⟨j, holds⟩ := protects.locked.mp taken
      obtain ⟨guard, held⟩ := Option.isSome_iff_exists.mp holds
      have frees : MutexProgram.Frees value s.mutex j := MutexProgram.frees_holder held ends
      obtain ⟨more, m', run, own, free, tasks⟩ := frees
      refine ⟨more.map .move, ⟨m', s.queue⟩, runFrom_ofHolder s.queue run fun op mem =>
        (own op mem).2, ?_, free, rfl, fun k none => ?_⟩
      · intro op mem
        obtain ⟨move, among, rfl⟩ := List.mem_map.mp mem
        rw [QueuedOp.task, (own move among).1]
        exact holds
      · have other : k ≠ j := by
          rintro rfl
          rw [none] at held
          cases held
        rw [tasks, Function.update_of_ne other]

/-- The first of the queue takes a lock that is free. -/
theorem step_acquire {route : Route} (free : s.mutex.shared.mutex.inner.locked = false)
    (phase : s.mutex.tasks j = .locking route) (first : s.queue.head?.all (· == j) = true) :
    (queuedMutex value).step s (.move (.acquire j)) =
      some ⟨s.mutex.acquire j route, s.queue.erase j⟩ := by
  refine step_move.mpr ⟨first, ?_, rfl⟩
  simp [MutexProgram.step, phase, free]

theorem step_newPermit {guard : MutexGuard} {route : Route}
    (phase : s.mutex.tasks j = .acquired guard route) :
    (queuedMutex value).step s (.move (.newPermit j)) =
      some ⟨s.mutex.put j (route.received guard s.mutex.shared.mutex.poison), s.queue⟩ := by
  have moved : s.mutex.step (.newPermit j) =
      some (s.mutex.put j (route.received guard s.mutex.shared.mutex.poison)) := by
    simp only [MutexProgram.step, phase]
  have step : s.step (.move (.newPermit j)) = some ⟨_, s.queue⟩ :=
    step_move.mpr ⟨rfl, moved, rfl⟩
  exact step

/-- And gives it back. -/
theorem serve_first {route : Route} {rest : List ι}
    (free : s.mutex.shared.mutex.inner.locked = false) (queue : s.queue = j :: rest)
    (phase : s.mutex.tasks j = .locking route) :
    ∃ more s', (queuedMutex value).runFrom s more = some s' ∧ (∀ op ∈ more, op.task = j) ∧
      s'.mutex.shared.mutex.inner.locked = false ∧ s'.queue = rest ∧
      s'.mutex.tasks = Function.update s.mutex.tasks j .idle := by
  have acquired : (queuedMutex value).step s (.move (.acquire j)) = some _ :=
    step_acquire free phase (by simp [queue])
  rw [queue, List.erase_cons_head] at acquired
  have frees : MutexProgram.Frees value (s.mutex.acquire j route) j :=
    MutexProgram.frees_acquired (Function.update_self ..)
  obtain ⟨more, m', run, own, free', tasks⟩ := frees
  have lifted := runFrom_ofHolder rest run fun op mem => (own op mem).2
  refine ⟨.move (.acquire j) :: more.map .move, ⟨m', rest⟩, ?_, ?_, free', rfl, ?_⟩
  · rw [System.runFrom, acquired, Option.bind_some, lifted]
  · refine List.forall_mem_cons.mpr ⟨rfl, fun op mem => ?_⟩
    obtain ⟨move, among, rfl⟩ := List.mem_map.mp mem
    exact (own move among).1
  · rw [tasks]
    exact Function.update_idem ..

/-- So do those behind it, one after the other. -/
theorem serve {front rest : List ι} (free : s.mutex.shared.mutex.inner.locked = false)
    (queue : s.queue = front ++ rest) (queued : Queued s) :
    ∃ more s', (queuedMutex value).runFrom s more = some s' ∧ (∀ op ∈ more, op.task ∈ front) ∧
      s'.mutex.shared.mutex.inner.locked = false ∧ s'.queue = rest ∧
      ∀ k, k ∉ front → s'.mutex.tasks k = s.mutex.tasks k := by
  induction front generalizing s with
  | nil => exact ⟨[], s, rfl, List.forall_mem_nil _, free, queue, fun _ _ => rfl⟩
  | cons j front ih =>
      obtain ⟨route, phase⟩ := queued.locking j (queue ▸ List.mem_cons_self)
      obtain ⟨more, s₁, run, own, free₁, queue₁, tasks⟩ := serve_first free queue phase
      have queued₁ : Queued s₁ :=
        System.runFrom_invariant (I := Queued) (A := fun _ => True)
          (fun _ queued h => queued.step h) (fun _ _ => trivial) queued run
      obtain ⟨more', s', run', own', free', queue', others⟩ := ih free₁ queue₁ queued₁
      refine ⟨more ++ more', s', ?_, ?_, free', queue', fun k outside => ?_⟩
      · rw [System.runFrom_append, run, Option.bind_some, run']
      · refine List.forall_mem_append.mpr ⟨fun op mem => ?_, fun op mem => ?_⟩
        · rw [own op mem]
          exact List.mem_cons_self
        · exact List.mem_cons_of_mem _ (own' op mem)
      · rw [others k (List.not_mem_of_not_mem_cons outside), tasks,
          Function.update_of_ne (List.ne_of_not_mem_cons outside)]

end QueuedMutex

open QueuedMutex in
/-- **Availability.** In every state that a mutex gets to, if the action under way, if any, can be
brought to an end, a task that waits for the lock gets it, with what the flags then say, after
moves of the holder, of the tasks ahead of it and of its own alone; those behind it stay where they
are.  And if it is in the queue, then however the mutex is used until it gets the lock, no more
tasks have it before than are ahead now. -/
theorem robustMutex_available {ι A T Ans : Type} [DecidableEq ι] [Action A T Ans] {value : T}
    {ops : List (QueuedOp ι A Ans)} {s : QueuedMutex ι A T Ans}
    (h : (queuedMutex value).run ops = some s) {i : ι} {route : Route}
    (waiting : s.mutex.tasks i = .locking route) (ends : s.mutex.CanEnd) :
    (∃ more s', (queuedMutex value).runFrom s more = some s' ∧
      (∀ op ∈ more, op.task = i ∨ op.task ∈ s.ahead i ∨
        (s.mutex.tasks op.task).guard.isSome = true) ∧
      s'.mutex.tasks i =
        route.received ⟨s'.mutex.shared.acquisitions⟩ s'.mutex.shared.mutex.poison ∧
      s'.queue = (s.queue.dropWhile (· != i)).tail ∧
      ∀ j, j ≠ i → j ∉ s.ahead i → (s.mutex.tasks j).guard = none →
        s'.mutex.tasks j = s.mutex.tasks j) ∧
    (i ∈ s.queue → ∀ more s', (queuedMutex value).runFrom s more = some s' →
      (∀ op ∈ more, op ≠ .move (.acquire i) ∧ op ≠ .move (.dropLock i)) →
      s'.mutex.shared.acquisitions + (s'.ahead i).length ≤
        s.mutex.shared.acquisitions + (s.ahead i).length) := by
  refine ⟨?_, fun waits more s' run still => (waits_behind waits run still).2⟩
  have queued := Queued.run h
  obtain ⟨more, s₁, run, own, free, same, others⟩ := freed h ends
  have queued₁ : Queued s₁ :=
    System.runFrom_invariant (I := Queued) (A := fun _ => True)
      (fun _ queued h => queued.step h) (fun _ _ => trivial) queued run
  have parts : s₁.queue = s.ahead i ++ s.queue.dropWhile (· != i) := by
    rw [same, ahead, List.takeWhile_append_dropWhile]
  have served : ∃ more₁ s₂, (queuedMutex value).runFrom s₁ more₁ = some s₂ ∧ _ :=
    serve free parts queued₁
  obtain ⟨more₁, s₂, run₁, own₁, free₂, queue₂, others₁⟩ := served
  have not_ahead : i ∉ s.ahead i := by
    intro mem
    have passes := List.all_eq_true.mp List.all_takeWhile i mem
    rw [bne_self_eq_false] at passes
    cases passes
  have outside : (s.mutex.tasks i).guard = none := by rw [waiting]; rfl
  have still : s₂.mutex.tasks i = .locking route := by
    rw [others₁ i not_ahead, others i outside, waiting]
  have first : s₂.queue.head?.all (· == i) = true ∧ s₂.queue.erase i = s₂.queue.tail := by
    rw [queue₂]
    cases behind : s.queue.dropWhile (· != i) with
    | nil => exact ⟨rfl, rfl⟩
    | cons k rest =>
        have stops := List.head?_dropWhile_not (· != i) s.queue
        rw [behind] at stops
        obtain rfl : k = i := by simpa using stops
        exact ⟨by simp, List.erase_cons_head ..⟩
  have acquired : (queuedMutex value).step s₂ (.move (.acquire i)) = some _ :=
    step_acquire free₂ still first.1
  obtain ⟨s₃, got, s₃_eq⟩ : ∃ s₃, (queuedMutex value).step ⟨s₂.mutex.acquire i route,
      s₂.queue.erase i⟩ (.move (.newPermit i)) = some s₃ ∧ s₃ = ⟨_, s₂.queue.erase i⟩ :=
    ⟨_, step_newPermit (Function.update_self ..), rfl⟩
  refine ⟨more ++ (more₁ ++ [.move (.acquire i), .move (.newPermit i)]), s₃, ?_, ?_, ?_, ?_, ?_⟩
  · rw [System.runFrom_append, run, Option.bind_some, System.runFrom_append, run₁,
      Option.bind_some, System.runFrom, acquired, Option.bind_some, System.runFrom, got]
    rfl
  · refine List.forall_mem_append.mpr ⟨fun op mem => .inr (.inr (own op mem)), ?_⟩
    refine List.forall_mem_append.mpr ⟨fun op mem => .inr (.inl (own₁ op mem)), fun op mem => ?_⟩
    left
    rcases List.mem_pair.mp mem with rfl | rfl <;> rfl
  · rw [s₃_eq]
    exact Function.update_self ..
  · rw [s₃_eq, first.2, queue₂]
  · intro k other behind none
    simp only [s₃_eq, MutexProgram.put, MutexProgram.acquire, Function.update_of_ne other]
    rw [others₁ k behind, others k none]

/-- A task waits behind another, for a third whose action is suspended, and can be dropped. -/
theorem robustMutex_available_suspended :
    ∃ s : QueuedMutex Nat Tally Nat Unit, (queuedMutex 0).run [.move (.lock 0),
        .move (.acquire 0), .move (.newPermit 0),
        .move (.performAsyncBoxed 0 [.add 1, .await, .add 2]), .move (.poll 0 false),
        .move (.advance 0 ()), .move (.advance 0 ()), .move (.lock 1), .move (.lock 2), .join 1,
        .join 2] = some s ∧ s.ahead 2 = [1] ∧
      ∃ more s', (queuedMutex 0).runFrom s more = some s' ∧
        (∀ op ∈ more, op.task = 2 ∨ op.task ∈ s.ahead 2 ∨
          (s.mutex.tasks op.task).guard.isSome = true) ∧
        s'.mutex.tasks 2 =
          Route.lock.received ⟨s'.mutex.shared.acquisitions⟩ s'.mutex.shared.mutex.poison := by
  have run : (queuedMutex 0 : System (QueuedMutex Nat Tally Nat Unit) _).run [.move (.lock 0),
      .move (.acquire 0), .move (.newPermit 0),
      .move (.performAsyncBoxed 0 [.add 1, .await, .add 2]), .move (.poll 0 false),
      .move (.advance 0 ()), .move (.advance 0 ()), .move (.lock 1), .move (.lock 2), .join 1,
      .join 2] = some _ := rfl
  obtain ⟨s, reached, ahead, waiting, sec, phase, gone⟩ :
      ∃ s : QueuedMutex Nat Tally Nat Unit, (queuedMutex 0).run [.move (.lock 0),
          .move (.acquire 0), .move (.newPermit 0),
          .move (.performAsyncBoxed 0 [.add 1, .await, .add 2]), .move (.poll 0 false),
          .move (.advance 0 ()), .move (.advance 0 ()), .move (.lock 1), .move (.lock 2), .join 1,
          .join 2] = some s ∧ s.ahead 2 = [1] ∧
        s.mutex.tasks 2 = .locking .lock ∧ ∃ sec, s.mutex.tasks 0 = .section sec ∧
          sec.activity.run sec.poisoner.isAsync s.mutex.shared.mutex.inner.data
            [.drop false, .advance ()] = some (.finished ⟨true, false, false⟩, 1) :=
    ⟨_, run, rfl, rfl, _, rfl, rfl⟩
  have protects := MutexProgram.heard_keeps.run trivial (fun _ _ => False.elim)
    (QueuedMutex.queued_run reached)
  have ends : s.mutex.CanEnd := by
    intro j sec' phase'
    obtain rfl : j = 0 := protects.exclusive (by rw [phase']; rfl) (by rw [phase]; rfl)
    rw [phase] at phase'
    cases phase'
    exact ⟨_, _, _, _, gone⟩
  obtain ⟨more, s', runs, own, got, -⟩ := (robustMutex_available reached waiting ends).1
  exact ⟨s, reached, ahead, more, s', runs, own, got⟩

end CancelSafeFutures
