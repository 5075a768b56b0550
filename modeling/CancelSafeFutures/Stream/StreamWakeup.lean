import CancelSafeFutures.Async.Executor
import CancelSafeFutures.Stream.CollectRuns
import CancelSafeFutures.Stream.ForEachBound
import CancelSafeFutures.Stream.ForEachWakeup

/-!
# The stream adapters in the hands of an executor

`CollectThenTry` goes on until its stream is pending, so the stream always has the waker
(`collectThenTry_driven`).  `ForEachConcurrentThenTry` can be left without a waker, but only by a
lone error of its stream: over a stream that never fails it is driven to its end
(`forEach_driven`).
-/

namespace CancelSafeFutures

open Async

namespace CollectThenTry

variable {St C A E : Type} [Inhabited C] [Extend C A] [TryStream St A E]

/-- A poll of the stream, the only source. -/
def streamPoll (answer : Poll (Option (Except E A))) : Option (Unit × Bool) :=
  some ((), answer.isPending)

omit [Inhabited C] [Extend C A] [TryStream St A E] in
theorem lastAnswer_concat_pending (log : List (Poll (Option (Except E A)))) :
    lastAnswer streamPoll () (log ++ [.pending]) = some true := by
  rw [lastAnswer_concat]
  rfl

/-- A call that returns `Pending` has just seen the stream pending. -/
theorem wakeful (stream : St) :
    Wakeful poll streamPoll (fun _ _ => True) (new stream : CollectThenTry St C E) where
  arms := by
    intro calls this fuel log this' _ _ called
    have loops : Loops iteration this .pending log this' := Loops.of_loop called
    have last : Poll.pending = .pending → lastAnswer streamPoll () ([] ++ log) = some true :=
      loops.rule (I := fun _ _ => True)
        (P := fun answer log _ => answer = .pending → lastAnswer streamPoll () log = some true)
        (fun _ _ => trivial)
        (fun {s log l answer s'} _ left pending => by
          subst pending
          obtain ⟨st, -, rfl, -⟩ := leave_pending_cases left
          exact lastAnswer_concat_pending log)
        trivial
    exact ⟨fun _ _ => last rfl, (), last rfl⟩

/-- **`CollectThenTry` in the hands of an executor.**  No wakeup is lost, whatever the stream does,
and what comes of polling it again and again comes of polling it when it was woken. -/
theorem collectThenTry_driven (C : Type) [Inhabited C] [Extend C A] (stream : St) :
    WellDriven poll streamPoll (fun _ _ => True) (new stream : CollectThenTry St C E) :=
  (wakeful stream).driven poll_deterministic

end CollectThenTry

namespace ForEachConcurrentThenTry

variable {St A E F Fut Q : Type} [TryStream St A E] [FnMut F A Fut]
  [Future Fut (Except E Unit)] [FuturesUnordered Q Fut (Except E Unit)]

/-- What the adapter polls. -/
inductive ForEachSource where
  | stream
  | futures
  deriving DecidableEq

/-- A call the adapter makes as a poll of a source. -/
def sourcePoll : ForEachEvent A E Fut → Option (ForEachSource × Bool)
  | .tryPollNext answer => some (.stream, answer.isPending)
  | .apply _ _ => none
  | .pollNext answer => some (.futures, answer.isPending)

/-- The sources that can still move the adapter forward. -/
def waitsFor (this : ForEachConcurrentThenTry St F Q E) : ForEachSource → Prop
  | .stream => this.stream.isSome = true ∧ this.belowLimit = true
  | .futures => 0 < FuturesUnordered.len this.futures

omit [TryStream St A E] [FnMut F A Fut] [Future Fut (Except E Unit)] in
theorem lastAnswer_stream (log : List (ForEachEvent A E Fut)) :
    lastAnswer sourcePoll .stream log = (lastStreamAnswer log).map Poll.isPending := by
  rw [lastAnswer, lastStreamAnswer, ← List.getLast?_map, List.map_filterMap]
  congr 2
  funext event
  cases event <;> rfl

omit [TryStream St A E] [FnMut F A Fut] [Future Fut (Except E Unit)] in
theorem lastAnswer_futures (log : List (ForEachEvent A E Fut)) :
    lastAnswer sourcePoll .futures log = (lastFuturesAnswer log).map Poll.isPending := by
  rw [lastAnswer, lastFuturesAnswer, ← List.getLast?_map, List.map_filterMap]
  congr 2
  funext event
  cases event <;> rfl

omit [TryStream St A E] [FnMut F A Fut] in
/-- An adapter that is armed has left the waker where it waits. -/
theorem Armed.lastAnswers {log : List (ForEachEvent A E Fut)}
    {this : ForEachConcurrentThenTry St F Q E} (armed : Armed log this) :
    (∀ i, waitsFor this i → lastAnswer sourcePoll i log = some true) ∧
      ∃ i, lastAnswer sourcePoll i log = some true := by
  constructor
  · intro i waits
    cases i with
    | stream =>
        rw [lastAnswer_stream, armed.stream waits.1 waits.2]
        rfl
    | futures =>
        rw [lastAnswer_futures, armed.futures waits]
        rfl
  · rcases armed.some_source with last | last
    · refine ⟨.stream, ?_⟩
      rw [lastAnswer_stream, last]
      rfl
    · refine ⟨.futures, ?_⟩
      rw [lastAnswer_futures, last]
      rfl

variable {stream : St} {limit : Option Nat} {f : F}

/-- A stream that never fails gives no lone error. -/
theorem not_errorAlone_of_infallible (infallible : Infallible stream)
    {calls : List (Call (ForEachConcurrentThenTry St F Q E) (Except E Unit)
      (ForEachEvent A E Fut))}
    {this head : ForEachConcurrentThenTry St F Q E}
    (run : Polls poll (new stream limit f) calls this)
    (at_head : Head iteration this head) : ¬ StreamErrorAlone head := by
  rintro ⟨-, ⟨st, error, live, failed⟩, -⟩
  obtain ⟨passes, steps⟩ := Steps.of_polls run
  obtain ⟨t, steps⟩ := steps.call.of_head at_head
  obtain ⟨here, plays, gone | same⟩ := (Credit.steps steps).plays
  · rw [live] at gone
    cases gone
  · rw [live] at same
    cases same
    exact infallible _ _ (plays.concat (Prod.ext failed rfl)) error (by simp)

theorem wakeful (infallible : Infallible stream) :
    Wakeful poll sourcePoll waitsFor (new stream limit f : ForEachConcurrentThenTry St F Q E) where
  arms run _ called :=
    ((armed_iff called).mpr fun _ at_head =>
      not_errorAlone_of_infallible infallible run at_head).lastAnswers

/-- **`ForEachConcurrentThenTry` in the hands of an executor.**  If a wakeup is lost, then the last
call ended in a lone error of the stream; over a stream that never fails none is lost, and what
comes of polling the adapter again and again comes of polling it when it was woken. -/
theorem forEach_driven (stream : St) (limit : Option Nat) (f : F) :
    (∀ {n calls t}, Executes poll sourcePoll
        (new stream limit f : ForEachConcurrentThenTry St F Q E) n calls t → t.output = none →
      t.Heard waitsFor ∨ ∃ call, calls.getLast? = some call ∧
        ∃ head, Head iteration call.before head ∧ StreamErrorAlone head) ∧
    (Infallible stream → WellDriven poll sourcePoll waitsFor
      (new stream limit f : ForEachConcurrentThenTry St F Q E)) := by
  constructor
  · intro n calls t exec running
    cases asleep : t.woken with
    | true => exact .inl (.inl asleep)
    | false =>
        obtain ⟨before, s, fuel, log, armed, rfl, -, -, called, armed_eq⟩ :=
          exec.asleep running asleep
        by_cases calm : ∀ head, Head iteration s head → ¬ StreamErrorAlone head
        · obtain ⟨all, i, some_source⟩ := ((armed_iff called).mpr calm).lastAnswers
          exact .inl (.inr ⟨fun i waits => armed_eq ▸ mem_arm_of_last armed (all i waits),
            i, armed_eq ▸ mem_arm_of_last armed some_source⟩)
        · simp only [not_forall, not_not] at calm
          obtain ⟨head, at_head, lone⟩ := calm
          exact .inr ⟨_, List.getLast?_concat, head, at_head, lone⟩
  · intro infallible
    exact (wakeful infallible).driven poll_deterministic

/-- A stream that is pending once and yields one item. -/
def oneItem : Script (Option (Except Nat Nat)) := ⟨[.pending, .ready (some (.ok 1)), .ready none]⟩

/-- A new adapter over `oneItem`, with room for one future. -/
def oneAtATime : ForEachConcurrentThenTry (Script (Option (Except Nat Nat)))
    (Nat → Script (Except Nat Unit)) (WokenSet (Script (Except Nat Unit)) (Except Nat Unit)) Nat :=
  new oneItem (some 1) fun _ => ⟨[.pending, .ready (.ok ())]⟩

/-- The stream wakes the task, and the second call is the last. -/
theorem forEach_driven_oneItem : Completes poll sourcePoll oneAtATime 1 (.ok ()) := by
  have infallible : Infallible oneItem := Script.infallible oneItem (by simp [oneItem])
  obtain ⟨s₁, log₁, log₂, s₂, called₁, called₂⟩ : ∃ s₁ log₁ log₂ s₂,
      poll 1 oneAtATime = .ok (.pending, log₁, s₁) ∧
        poll 4 s₁ = .ok (.ready (.ok ()), log₂, s₂) := ⟨_, _, _, _, rfl, rfl⟩
  have first : FirstReady poll oneAtATime 1 _ (.ok ()) s₂ :=
    .mk (.poll .start called₁) (by simp) called₂
  exact ((forEach_driven oneItem (some 1) _).2 infallible).completes
    (first.readyAt poll_deterministic)

end ForEachConcurrentThenTry

end CancelSafeFutures
