import CancelSafeFutures.Async.Refinement
import CancelSafeFutures.Sync.PoisonGate

/-!
# The queue of the inner lock

In `robustMutex` any task that waits may take a lock that is free.  The inner mutex lets the tasks
that wait have it in the order in which they have asked for it, and `queuedMutex` is `robustMutex`
with that order: `lock` and `blocking_lock` have to wait at the end of the queue unless the lock is
free and the queue empty (`join`), only the first of the queue takes the lock, a call of `lock` that
is dropped leaves the queue, and `try_lock` fails as long as somebody waits.

* `queued_run`: what is proved of the runs of `robustMutex` holds of these.
* `Queued.run`: the tasks in the queue wait, and each is there once.
* `waits_behind`: nobody is overtaken.
-/

namespace CancelSafeFutures

open Async

/-- A mutex and its tasks, with those that wait for the inner lock, in the order in which they are
to have it. -/
structure QueuedMutex (ι A T Ans : Type) where
  mutex : MutexProgram ι A T Ans
  queue : List ι

/-- The moves. -/
inductive QueuedOp (ι A Ans : Type) where
  /-- A call of `lock` or `blocking_lock` finds that it has to wait. -/
  | join (i : ι)
  | move (op : MutexOp ι A Ans)
  deriving DecidableEq, Repr

/-- The task that makes a move. -/
def QueuedOp.task {ι A Ans : Type} : QueuedOp ι A Ans → ι
  | .join i => i
  | .move op => op.task

/-- The moves of the mutex among some moves. -/
def moves {ι A Ans : Type} : List (QueuedOp ι A Ans) → List (MutexOp ι A Ans)
  | [] => []
  | .join _ :: ops => moves ops
  | .move op :: ops => op :: moves ops

/-- The moves of a task that has the lock. -/
def MutexOp.ofHolder {ι A Ans : Type} : MutexOp ι A Ans → Bool
  | .lock _ | .blockingLock _ | .dropLock _ | .acquire _ | .tryLock _ _ | .fmt _ _ => false
  | _ => true

namespace QueuedMutex

variable {ι A T Ans : Type} [DecidableEq ι]

/-- The first of the queue takes the lock, and `try_lock` has it only if the queue is empty. -/
def admits (queue : List ι) : MutexOp ι A Ans → Bool
  | .acquire i => queue.head?.all (· == i)
  | .tryLock _ available | .fmt _ available => available == queue.isEmpty
  | _ => true

/-- The queue after a move. -/
def queueAfter (queue : List ι) : MutexOp ι A Ans → List ι
  | .acquire i | .dropLock i => queue.erase i
  | _ => queue

variable [Action A T Ans]

/-- One move. -/
def step (s : QueuedMutex ι A T Ans) : QueuedOp ι A Ans → Option (QueuedMutex ι A T Ans)
  | .join i =>
    match s.mutex.tasks i with
    | .locking _ =>
      if i ∉ s.queue ∧ (s.mutex.shared.mutex.inner.locked = true ∨ s.queue ≠ []) then
        some { s with queue := s.queue ++ [i] }
      else none
    | _ => none
  | .move op =>
    if admits s.queue op then (s.mutex.step op).map fun mutex => ⟨mutex, queueAfter s.queue op⟩
    else none

end QueuedMutex

/-- A new mutex and its tasks, none of which waits. -/
def queuedMutex {ι A T Ans : Type} [DecidableEq ι] [Action A T Ans] (value : T) :
    System (QueuedMutex ι A T Ans) (QueuedOp ι A Ans) where
  init := ⟨(robustMutex value).init, []⟩
  step := QueuedMutex.step

namespace QueuedMutex

variable {ι A T Ans : Type} [DecidableEq ι] [Action A T Ans] {value : T}
  {s s' : QueuedMutex ι A T Ans} {i j : ι} {op : MutexOp ι A Ans}

/-- A task gets to the end of the queue. -/
theorem step_join (h : s.step (.join i) = some s') :
    (∃ route, s.mutex.tasks i = .locking route) ∧ i ∉ s.queue ∧
      s' = { s with queue := s.queue ++ [i] } := by
  simp only [step] at h
  split at h
  · next route phase =>
      obtain ⟨waits, h⟩ := Option.ite_none_right_eq_some.mp h
      cases h
      exact ⟨⟨route, phase⟩, waits.1, rfl⟩
  · cases h

theorem step_move :
    s.step (.move op) = some s' ↔
      admits s.queue op = true ∧ s.mutex.step op = some s'.mutex ∧
        s'.queue = queueAfter s.queue op := by
  simp only [step]
  constructor
  · intro h
    obtain ⟨admitted, h⟩ := Option.ite_none_right_eq_some.mp h
    obtain ⟨mutex, moved, rfl⟩ := Option.map_eq_some_iff.mp h
    exact ⟨admitted, moved, rfl⟩
  · rintro ⟨admitted, moved, queue⟩
    rw [if_pos admitted, moved, Option.map_some, ← queue]

/-! ## Below the queue -/

/-- The mutex does not know of the queue. -/
theorem queued_runFrom {ops : List (QueuedOp ι A Ans)}
    (h : (queuedMutex value).runFrom s ops = some s') :
    (robustMutex value).runFrom s.mutex (moves ops) = some s'.mutex := by
  induction ops generalizing s with
  | nil =>
      cases h
      rfl
  | cons op ops ih =>
      obtain ⟨s₁, first, rest⟩ := System.runFrom_cons h
      have later := ih rest
      cases op with
      | join i =>
          obtain ⟨-, -, rfl⟩ := step_join first
          exact later
      | move op =>
          obtain ⟨-, moved, -⟩ := step_move.mp first
          have moved' : (robustMutex value).step s.mutex op = some s₁.mutex := moved
          rw [moves, System.runFrom, moved', Option.bind_some]
          exact later

/-- **Below the queue** is a run of `robustMutex`. -/
theorem queued_run {ops : List (QueuedOp ι A Ans)} (h : (queuedMutex value).run ops = some s) :
    (robustMutex value).run (moves ops) = some s.mutex :=
  queued_runFrom h

/-- The holder has nothing to do with the queue. -/
theorem runFrom_ofHolder {m m' : MutexProgram ι A T Ans} {ops : List (MutexOp ι A Ans)}
    (queue : List ι) (h : (robustMutex value).runFrom m ops = some m')
    (own : ∀ op ∈ ops, op.ofHolder = true) :
    (queuedMutex value).runFrom ⟨m, queue⟩ (ops.map .move) = some ⟨m', queue⟩ := by
  induction ops generalizing m with
  | nil =>
      cases h
      rfl
  | cons op ops ih =>
      obtain ⟨m₁, first, rest⟩ := System.runFrom_cons h
      obtain ⟨holder, own⟩ := List.forall_mem_cons.mp own
      have outside : admits queue op = true ∧ queueAfter queue op = queue := by
        cases op <;> first | exact ⟨rfl, rfl⟩ | cases holder
      have moved : (queuedMutex value).step ⟨m, queue⟩ (.move op) = some ⟨m₁, queue⟩ :=
        step_move.mpr ⟨outside.1, first, outside.2.symm⟩
      rw [List.map_cons, System.runFrom, moved, Option.bind_some]
      exact ih rest own

/-! ## The queue -/

/-- The tasks in the queue wait, and each is there once. -/
structure Queued (s : QueuedMutex ι A T Ans) : Prop where
  nodup : s.queue.Nodup
  locking : ∀ i ∈ s.queue, ∃ route, s.mutex.tasks i = .locking route

/-- A call of `lock` goes on or is dropped. -/
theorem step_locking {m m' : MutexProgram ι A T Ans} {route : Route}
    (phase : m.tasks op.task = .locking route) (h : m.step op = some m') :
    op = .acquire op.task ∨ op = .dropLock op.task := by
  cases op with
  | acquire => exact .inl rfl
  | dropLock => exact .inr rfl
  | _ =>
      simp only [MutexProgram.step, MutexOp.task] at h phase
      rw [phase] at h
      cases h

theorem Queued.step (queued : Queued s) {op : QueuedOp ι A Ans} (h : s.step op = some s') :
    Queued s' := by
  cases op with
  | join i =>
      obtain ⟨waits, new, rfl⟩ := step_join h
      have nodup := List.nodup_cons.mpr ⟨new, queued.nodup⟩
      refine ⟨(List.perm_append_singleton i s.queue).nodup_iff.mpr nodup, fun j mem => ?_⟩
      rcases List.mem_append.mp mem with before | now
      · exact queued.locking j before
      · rw [List.mem_singleton.mp now]
        exact waits
  | move op =>
      obtain ⟨-, moved, queue⟩ := step_move.mp h
      obtain ⟨p, tasks⟩ := MutexProgram.step_tasks moved
      -- whoever stays in the queue has not moved
      have stays : ∀ j ∈ s'.queue, j ∈ s.queue ∧ j ≠ op.task := by
        intro j mem
        rw [queue] at mem
        have before : j ∈ s.queue := by
          cases op with
          | acquire | dropLock => exact List.mem_of_mem_erase mem
          | _ => exact mem
        refine ⟨before, ?_⟩
        rintro rfl
        obtain ⟨route, phase⟩ := queued.locking _ before
        rcases step_locking phase moved with own | own
        all_goals
          rw [own] at mem
          exact queued.nodup.not_mem_erase mem
      refine ⟨?_, fun j mem => ?_⟩
      · rw [queue]
        cases op with
        | acquire | dropLock => exact queued.nodup.erase _
        | _ => exact queued.nodup
      · obtain ⟨before, other⟩ := stays j mem
        rw [tasks, Function.update_of_ne other]
        exact queued.locking j before

theorem Queued.run {ops : List (QueuedOp ι A Ans)} (h : (queuedMutex value).run ops = some s) :
    Queued s :=
  System.run_invariant' (I := Queued) ⟨List.nodup_nil, fun _ mem => (List.not_mem_nil mem).elim⟩
    (fun queued h => queued.step h) h

/-! ## Nobody is overtaken -/

/-- The tasks that are to have the lock before task `i`: all that wait, if it is not in the
queue. -/
def ahead (s : QueuedMutex ι A T Ans) (i : ι) : List ι := s.queue.takeWhile (· != i)

omit [Action A T Ans] in
/-- Somebody comes to the end of the queue. -/
theorem takeWhile_concat {queue : List ι} (waits : i ∈ queue) :
    (queue ++ [j]).takeWhile (· != i) = queue.takeWhile (· != i) := by
  induction queue with
  | nil => cases waits
  | cons k queue ih =>
      rw [List.cons_append, List.takeWhile_cons, List.takeWhile_cons]
      by_cases own : k = i
      · simp only [own, bne_self_eq_false, Bool.false_eq_true, if_false]
      · rw [ih ((List.mem_cons.mp waits).resolve_left (Ne.symm own))]

omit [Action A T Ans] in
/-- Somebody else leaves the queue. -/
theorem takeWhile_erase {queue : List ι} (other : j ≠ i) :
    ((queue.erase j).takeWhile (· != i)).length ≤ (queue.takeWhile (· != i)).length := by
  induction queue with
  | nil => exact Nat.le_refl _
  | cons k queue ih =>
      by_cases first : k = j
      · rw [first, List.erase_cons_head, List.takeWhile_cons, if_pos (bne_iff_ne.mpr other)]
        exact Nat.le_succ _
      · rw [List.erase_cons_tail (by rwa [beq_iff_eq]), List.takeWhile_cons, List.takeWhile_cons]
        split
        · exact Nat.succ_le_succ ih
        · exact Nat.le_refl _

/-- The lock is taken by `acquire`, or by a `try_lock` to which it is available. -/
theorem step_acquisitions {m m' : MutexProgram ι A T Ans} (h : m.step op = some m') :
    m'.shared.acquisitions = m.shared.acquisitions ∨
      (op = .acquire op.task ∧ m'.shared.acquisitions = m.shared.acquisitions + 1) ∨
      op = .tryLock op.task true ∨ op = .fmt op.task true := by
  have input : ∀ {i sec input}, m.input i sec input = some m' →
      m'.shared.acquisitions = m.shared.acquisitions := by
    intro i sec input h
    unfold MutexProgram.input at h
    split at h
    all_goals
      cases h
      try rfl
  cases op with
  | acquire i =>
      simp only [MutexProgram.step] at h
      split at h
      · obtain ⟨-, h⟩ := Option.ite_none_left_eq_some.mp h
        cases h
        exact .inr (.inl ⟨rfl, rfl⟩)
      · cases h
  | tryLock i available | fmt i available =>
      cases available with
      | true => simp [MutexOp.task]
      | false =>
          simp only [MutexProgram.step, MutexProgram.tryAcquire, Bool.false_and] at h
          split at h
          · cases h
            exact .inl rfl
          · cases h
  | lock | blockingLock | dropLock | newPermit | intoInner | perform | performAsyncBoxed
  | dropPoisoner | dropGuard =>
      simp only [MutexProgram.step] at h
      split at h
      all_goals
        cases h
        try exact .inl rfl
  | poll | dropFuture =>
      simp only [MutexProgram.step] at h
      split at h
      · cases h
        exact .inl rfl
      · exact .inl (input h)
      · cases h
  | advance =>
      simp only [MutexProgram.step] at h
      split at h
      · exact .inl (input h)
      · cases h

/-- For each task that takes the lock there is one less ahead. -/
theorem ahead_step (waits : i ∈ s.queue) {op : QueuedOp ι A Ans} (h : s.step op = some s')
    (not_taken : op ≠ .move (.acquire i)) (not_dropped : op ≠ .move (.dropLock i)) :
    i ∈ s'.queue ∧ s'.mutex.shared.acquisitions + (s'.ahead i).length ≤
      s.mutex.shared.acquisitions + (s.ahead i).length := by
  cases op with
  | join j =>
      obtain ⟨-, -, rfl⟩ := step_join h
      refine ⟨List.mem_append_left _ waits, ?_⟩
      rw [ahead, takeWhile_concat waits]
      exact Nat.le_refl _
  | move op =>
      obtain ⟨admitted, moved, queue⟩ := step_move.mp h
      rw [ahead, ahead, queue]
      -- whatever is not about the queue leaves it alone, and the lock
      have quiet : queueAfter s.queue op = s.queue →
          s'.mutex.shared.acquisitions = s.mutex.shared.acquisitions →
          i ∈ queueAfter s.queue op ∧ s'.mutex.shared.acquisitions +
            ((queueAfter s.queue op).takeWhile (· != i)).length ≤
              s.mutex.shared.acquisitions + (s.queue.takeWhile (· != i)).length := by
        intro same acquisitions
        rw [same, acquisitions]
        exact ⟨waits, Nat.le_refl _⟩
      have taken := step_acquisitions moved
      cases op with
      | acquire j =>
          have other : j ≠ i := fun eq => not_taken (by rw [eq])
          cases queued : s.queue with
          | nil =>
              rw [queued] at waits
              cases waits
          | cons first rest =>
              rw [queued] at admitted waits
              obtain rfl : first = j := by simpa [admits] using admitted
              have rest_waits := (List.mem_cons.mp waits).resolve_left (Ne.symm other)
              have once : s'.mutex.shared.acquisitions ≤ s.mutex.shared.acquisitions + 1 := by
                rcases taken with same | ⟨-, one⟩ | other | other
                · omega
                · omega
                · cases other
                · cases other
              rw [queueAfter, List.erase_cons_head, List.takeWhile_cons,
                if_pos (bne_iff_ne.mpr other), List.length_cons]
              exact ⟨rest_waits, by omega⟩
      | dropLock j =>
          have other : j ≠ i := fun eq => not_dropped (by rw [eq])
          have same := taken.resolve_right (by simp)
          rw [same]
          exact ⟨(List.mem_erase_of_ne (Ne.symm other)).mpr waits,
            Nat.add_le_add_left (takeWhile_erase other) _⟩
      | tryLock j available | fmt j available =>
          -- somebody waits, so the lock is not available
          cases available with
          | true =>
              have empty : s.queue = [] := by simpa [admits] using admitted
              rw [empty] at waits
              cases waits
          | false => exact quiet rfl (taken.resolve_right (by simp))
      | _ => exact quiet rfl (taken.resolve_right (by simp))

/-- **Nobody is overtaken.** While a task waits in the queue, the lock is taken no more often than
there were tasks ahead of it. -/
theorem waits_behind {ops : List (QueuedOp ι A Ans)} (waits : i ∈ s.queue)
    (h : (queuedMutex value).runFrom s ops = some s')
    (still : ∀ op ∈ ops, op ≠ .move (.acquire i) ∧ op ≠ .move (.dropLock i)) :
    i ∈ s'.queue ∧ s'.mutex.shared.acquisitions + (s'.ahead i).length ≤
      s.mutex.shared.acquisitions + (s.ahead i).length := by
  induction ops generalizing s with
  | nil =>
      cases h
      exact ⟨waits, Nat.le_refl _⟩
  | cons op ops ih =>
      obtain ⟨s₁, first, rest⟩ := System.runFrom_cons h
      obtain ⟨⟨not_taken, not_dropped⟩, still⟩ := List.forall_mem_cons.mp still
      obtain ⟨waits₁, le₁⟩ := ahead_step waits first not_taken not_dropped
      obtain ⟨waits', le⟩ := ih waits₁ rest still
      exact ⟨waits', Nat.le_trans le le₁⟩

end QueuedMutex

end CancelSafeFutures
