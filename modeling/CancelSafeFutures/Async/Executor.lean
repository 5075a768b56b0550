import CancelSafeFutures.Async.Loop
import Mathlib.Data.Finset.Card

/-!
# An executor

An executor polls a task when it has been spawned, and after that only when it was woken.  A source
that the future polls, a future or a stream of its own, gets the waker when it answers `Pending`,
and has it until it is polled again or wakes the task.

* `lastAnswer source i log`: whether source `i` suspended when it was last polled in a call.
* `Executes poll source init n calls task`: `n` moves of the executor and of the sources, in which
  `calls` were made.
* `Wakeful`: a call that answers `Pending` leaves the waker with every source it waits for.  Then
  no wakeup is lost (`Executes.heard`), and what resolves when it is polled again and again
  resolves in the hands of an executor (`Wakeful.completes`).
-/

namespace Async

variable {σ β ε Source : Type}

/-- A future in the hands of an executor. -/
structure Task (σ β Source : Type) where
  fut : σ
  output : Option β
  woken : Bool
  /-- The sources that have the waker. -/
  armed : Finset Source

/-- A new task is polled at once. -/
def Task.spawn (fut : σ) : Task σ β Source where
  fut := fut
  output := none
  woken := true
  armed := ∅

/-- The output, if there is one. -/
def Poll.value? {α : Type} : Poll α → Option α
  | .ready value => some value
  | .pending => none

/-! ## Who has the waker -/

section Arm

variable [DecidableEq Source] (source : ε → Option (Source × Bool))

/-- What one event does with the waker. -/
def armOne (armed : Finset Source) (event : ε) : Finset Source :=
  match source event with
  | some (i, true) => insert i armed
  | some (i, false) => armed.erase i
  | none => armed

/-- Who has the waker after the events of `log`. -/
def arm (armed : Finset Source) (log : List ε) : Finset Source := log.foldl (armOne source) armed

/-- Some source answers `Pending`. -/
def suspends (event : ε) : Bool := (source event).any Prod.snd

/-- Whether source `i` answers `Pending`, if the event is a poll of it. -/
def answerOf (i : Source) (event : ε) : Option Bool :=
  match source event with
  | some (j, suspended) => if j = i then some suspended else none
  | none => none

/-- Whether source `i` answered `Pending` when it was last polled. -/
def lastAnswer (i : Source) (log : List ε) : Option Bool :=
  (log.filterMap (answerOf source i)).getLast?

theorem lastAnswer_concat (i : Source) (log : List ε) (event : ε) :
    lastAnswer source i (log ++ [event]) =
      (answerOf source i event).or (lastAnswer source i log) := by
  unfold lastAnswer
  rw [List.filterMap_append, List.getLast?_append]
  cases answer : answerOf source i event with
  | none => rw [List.filterMap_cons_none answer]; rfl
  | some suspended => rw [List.filterMap_cons_some answer]; rfl

theorem mem_arm_iff (armed : Finset Source) (i : Source) (log : List ε) :
    i ∈ arm source armed log ↔ (lastAnswer source i log).getD (decide (i ∈ armed)) = true := by
  induction log using List.reverseRecOn with
  | nil => simp [arm, lastAnswer]
  | append_singleton log event ih =>
      have last : arm source armed (log ++ [event]) =
          armOne source (arm source armed log) event := List.foldl_concat ..
      rw [last, lastAnswer_concat, armOne, answerOf]
      rcases source event with _ | ⟨j, suspended⟩
      · exact ih
      · by_cases same : j = i
        · subst same
          cases suspended <;> simp
        · cases suspended <;> simp [same, Ne.symm same, ih]

variable {source} in
theorem mem_arm_of_last (armed : Finset Source) {i : Source} {log : List ε}
    (last : lastAnswer source i log = some true) : i ∈ arm source armed log := by
  rw [mem_arm_iff, last]
  rfl

/-- A source has the waker for a suspension. -/
theorem card_arm_le (armed : Finset Source) (log : List ε) :
    (arm source armed log).card ≤ armed.card + log.countP (suspends source) := by
  induction log generalizing armed with
  | nil => exact Nat.le_refl _
  | cons event log ih =>
      have rest := ih (armOne source armed event)
      have one : (armOne source armed event).card ≤
          armed.card + if suspends source event = true then 1 else 0 := by
        rw [armOne, suspends]
        rcases source event with _ | ⟨i, _ | _⟩
        · exact Nat.le_refl _
        · exact Finset.card_erase_le
        · exact Finset.card_insert_le i armed
      rw [List.countP_cons]
      simp only [arm, List.foldl_cons] at rest ⊢
      omega

end Arm

/-! ## Executions -/

variable [DecidableEq Source]

/-- One move: a call of `poll`, or a wakeup. -/
inductive Task.Step (poll : Nat → σ → Run (Poll β × List ε × σ))
    (source : ε → Option (Source × Bool)) (t : Task σ β Source) :
    List (Call σ β ε) → Task σ β Source → Prop
  | poll {fuel answer log s'} :
      t.output = none → t.woken = true → poll fuel t.fut = .ok (answer, log, s') →
      Step poll source t [⟨t.fut, answer, log, s'⟩]
        ⟨s', answer.value?, false, arm source t.armed log⟩
  | wake {i} :
      i ∈ t.armed → Step poll source t [] { t with woken := true, armed := t.armed.erase i }

/-- So many moves, from the spawning on. -/
inductive Executes (poll : Nat → σ → Run (Poll β × List ε × σ))
    (source : ε → Option (Source × Bool)) (init : σ) :
    Nat → List (Call σ β ε) → Task σ β Source → Prop
  | spawn : Executes poll source init 0 [] (.spawn init)
  | step {n calls t calls' t'} :
      Executes poll source init n calls t → t.Step poll source calls' t' →
      Executes poll source init (n + 1) (calls ++ calls') t'

variable {poll : Nat → σ → Run (Poll β × List ε × σ)} {source : ε → Option (Source × Bool)}
  {init : σ} {n : Nat} {calls : List (Call σ β ε)} {t : Task σ β Source}

/-- The calls of an execution are polls one after another. -/
theorem Executes.polls (exec : Executes poll source init n calls t) :
    Polls poll init calls t.fut := by
  induction exec with
  | spawn => exact .start
  | step _ step ih =>
      cases step with
      | poll _ _ called => exact ih.poll called
      | wake _ =>
          rw [List.append_nil]
          exact ih

theorem Executes.running (exec : Executes poll source init n calls t) (running : t.output = none) :
    ∀ call ∈ calls, call.answer = .pending := by
  induction exec with
  | spawn => simp
  | @step n calls t calls' t' _ step ih =>
      cases step with
      | @poll fuel answer log s' before _ _ =>
          have last : answer = .pending := by
            cases answer with
            | ready b => cases running
            | pending => rfl
          intro call mem
          rcases List.mem_append.mp mem with earlier | now
          · exact ih before call earlier
          · rw [List.mem_singleton.mp now]
            exact last
      | wake _ =>
          rw [List.append_nil]
          exact ih running

theorem Executes.resolved (exec : Executes poll source init n calls t) {b : β}
    (done : t.output = some b) :
    ∃ k, calls.length = k + 1 ∧ FirstReady poll init k (calls.flatMap Call.log) b t.fut := by
  induction exec with
  | spawn => cases done
  | step before step ih =>
      cases step with
      | @poll fuel answer log s' running _ called =>
          cases answer with
          | pending => cases done
          | ready b' =>
              cases done
              refine ⟨_, List.length_append, ?_⟩
              rw [List.flatMap_append, List.flatMap_singleton]
              exact .mk before.polls (before.running running) called
      | wake _ =>
          rw [List.append_nil]
          exact ih done

/-- Each move is a call, or gives back a waker that was got for a suspension. -/
theorem Executes.moves_le (exec : Executes poll source init n calls t) :
    n + t.armed.card ≤ calls.length + (calls.flatMap Call.log).countP (suspends source) := by
  induction exec with
  | spawn => exact Nat.le_refl _
  | @step n calls t calls' t' _ step ih =>
      cases step with
      | @poll fuel answer log s' _ _ _ =>
          have more := card_arm_le source t.armed log
          rw [List.length_append, List.length_singleton, List.flatMap_append,
            List.flatMap_singleton, List.countP_append]
          dsimp only
          omega
      | @wake i has =>
          have fewer := Finset.card_erase_add_one has
          rw [List.append_nil]
          dsimp only
          omega

/-! ## Wakeups -/

/-- A call that answers `Pending` leaves the waker with every source that is waited for, and with
some source. -/
structure Wakeful (poll : Nat → σ → Run (Poll β × List ε × σ))
    (source : ε → Option (Source × Bool)) (waitsFor : σ → Source → Prop) (init : σ) : Prop where
  arms : ∀ {calls s fuel log s'}, Polls poll init calls s →
    (∀ call ∈ calls, call.answer = .pending) → poll fuel s = .ok (.pending, log, s') →
    (∀ i, waitsFor s' i → lastAnswer source i log = some true) ∧
      ∃ i, lastAnswer source i log = some true

/-- The task is to be polled, or has left the waker with every source it waits for and with some
source. -/
def Task.Heard (waitsFor : σ → Source → Prop) (t : Task σ β Source) : Prop :=
  t.woken = true ∨ ((∀ i, waitsFor t.fut i → i ∈ t.armed) ∧ t.armed.Nonempty)

/-- A task that is not to be polled stands where a call has answered `Pending`. -/
theorem Executes.asleep (exec : Executes poll source init n calls t) (running : t.output = none)
    (asleep : t.woken = false) :
    ∃ before s fuel log armed, calls = before ++ [⟨s, .pending, log, t.fut⟩] ∧
      Polls poll init before s ∧ (∀ call ∈ before, call.answer = .pending) ∧
      poll fuel s = .ok (.pending, log, t.fut) ∧ t.armed = arm source armed log := by
  cases exec with
  | spawn => cases asleep
  | @step n calls t calls' t' before step =>
      cases step with
      | @poll fuel answer log s' unresolved _ called =>
          cases answer with
          | ready b => cases running
          | pending =>
              exact ⟨calls, t.fut, fuel, log, t.armed, rfl, before.polls,
                before.running unresolved, called, rfl⟩
      | wake _ => cases asleep

/-- **No wakeup is lost.** -/
theorem Wakeful.heard {waitsFor : σ → Source → Prop}
    (wakeful : Wakeful poll source waitsFor init) (exec : Executes poll source init n calls t)
    (running : t.output = none) : t.Heard waitsFor := by
  cases asleep : t.woken with
  | true => exact .inl asleep
  | false =>
      obtain ⟨before, s, fuel, log, armed, -, run, pending, called, armed_eq⟩ :=
        exec.asleep running asleep
      obtain ⟨all, i, some_source⟩ := wakeful.arms run pending called
      exact .inr ⟨fun i waits => armed_eq ▸ mem_arm_of_last armed (all i waits),
        i, armed_eq ▸ mem_arm_of_last armed some_source⟩

/-- What becomes of a future that is `Ready b` after `m` calls that answer `Pending`. -/
structure Completes (poll : Nat → σ → Run (Poll β × List ε × σ))
    (source : ε → Option (Source × Bool)) (init : σ) (m : Nat) (b : β) : Prop where
  /-- As long as there is no output, there is a next move. -/
  goes_on : ∀ {n calls t}, Executes poll source init n calls t → t.output = none →
    ∃ calls' t', t.Step poll source calls' t'
  /-- No execution goes on for ever. -/
  bounded : ∃ most, ∀ {n calls t}, Executes poll source init n calls t → n ≤ most
  calls_le : ∀ {n calls t}, Executes poll source init n calls t → calls.length ≤ m + 1
  /-- What it comes to, and after how many calls. -/
  output : ∀ {n calls t b'}, Executes poll source init n calls t → t.output = some b' →
    b' = b ∧ calls.length = m + 1

/-- The calls before the first `Ready` are those of the run that leads to it, and are followed by
another. -/
theorem FirstReady.next {m : Nat} {log : List ε} {b : β} {s s' : σ}
    (first : FirstReady poll init m log b s) (det : Deterministic poll)
    (run : Polls poll init calls s') (pending : ∀ call ∈ calls, call.answer = .pending) :
    calls.length ≤ m ∧ calls.flatMap Call.log <+: log ∧ ∃ fuel r, poll fuel s' = .ok r := by
  obtain @⟨calls₀, s₀, log₀, s₁, fuel, b, run₀, pending₀, ready⟩ := first
  rcases Nat.lt_trichotomy calls.length calls₀.length with lt | same | gt
  · have at_k := List.getElem?_eq_getElem lt
    obtain ⟨before, fuel', call⟩ := run₀.take at_k
    have length : (calls₀.take calls.length).length = calls.length := by
      rw [List.length_take, Nat.min_eq_left (Nat.le_of_lt lt)]
    obtain ⟨same, rfl⟩ := before.unique det run length
    refine ⟨Nat.le_of_lt lt, ?_, fuel', _, call⟩
    rw [← List.take_append_drop calls.length calls₀, same, List.flatMap_append, List.append_assoc]
    exact List.prefix_append ..
  · obtain ⟨rfl, rfl⟩ := run.unique det run₀ same
    exact ⟨Nat.le_refl _, List.prefix_append .., fuel, _, ready⟩
  · -- the call that answers `Ready` is not one of those that do not
    have at_k := List.getElem?_eq_getElem gt
    obtain ⟨before, fuel', call⟩ := run.take at_k
    have length : (calls.take calls₀.length).length = calls₀.length := by
      rw [List.length_take, Nat.min_eq_left (Nat.le_of_lt gt)]
    obtain ⟨-, rfl⟩ := before.unique det run₀ length
    have answer := congrArg Prod.fst (det _ _ _ _ _ call ready)
    rw [pending _ (List.getElem_mem gt)] at answer
    cases answer

/-- **Liveness.** -/
theorem Wakeful.completes {waitsFor : σ → Source → Prop}
    (wakeful : Wakeful poll source waitsFor init) (det : Deterministic poll) {m : Nat}
    {log : List ε} {b : β} {s : σ} (first : FirstReady poll init m log b s) :
    Completes poll source init m b := by
  have calls_bound : ∀ {n calls} {t : Task σ β Source}, Executes poll source init n calls t →
      calls.length ≤ m + 1 ∧ calls.flatMap Call.log <+: log := by
    intro n calls t exec
    cases done : t.output with
    | none =>
        obtain ⟨few, record, -⟩ := first.next det exec.polls (exec.running done)
        exact ⟨Nat.le_succ_of_le few, record⟩
    | some b' =>
        obtain ⟨k, length, ready⟩ := exec.resolved done
        obtain ⟨rfl, record, -, -⟩ := ready.unique det first
        exact ⟨Nat.le_of_eq length, record ▸ List.prefix_rfl⟩
  refine ⟨?_, ?_, fun exec => (calls_bound exec).1, ?_⟩
  · intro n calls t exec running
    rcases wakeful.heard exec running with woken | ⟨-, i, armed⟩
    · obtain ⟨-, -, fuel, ⟨answer, log, s'⟩, called⟩ :=
        first.next det exec.polls (exec.running running)
      exact ⟨_, _, .poll running woken called⟩
    · exact ⟨_, _, .wake armed⟩
  · refine ⟨m + 1 + log.countP (suspends source), fun {n calls t} exec => ?_⟩
    have moves := exec.moves_le
    obtain ⟨few, record⟩ := calls_bound exec
    have suspensions := record.sublist.countP_le (p := suspends source)
    omega
  · intro n calls t b' exec done
    obtain ⟨k, length, ready⟩ := exec.resolved done
    obtain ⟨rfl, -, same, -⟩ := ready.unique det first
    exact ⟨same, length⟩

/-- What an executor makes of a future: no wakeup is lost, and what comes of polling it again and
again comes of polling it when it was woken. -/
structure WellDriven (poll : Nat → σ → Run (Poll β × List ε × σ))
    (source : ε → Option (Source × Bool)) (waitsFor : σ → Source → Prop) (init : σ) : Prop where
  heard : ∀ {n calls t}, Executes poll source init n calls t → t.output = none → t.Heard waitsFor
  completes : ∀ {m b}, ReadyAt poll init m b → Completes poll source init m b

theorem Wakeful.driven {waitsFor : σ → Source → Prop}
    (wakeful : Wakeful poll source waitsFor init) (det : Deterministic poll) :
    WellDriven poll source waitsFor init where
  heard := wakeful.heard
  completes ready := by
    obtain ⟨log, s, first⟩ := ready.reached
    exact wakeful.completes det first

end Async
