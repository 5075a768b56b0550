import CancelSafeFutures.Async.Woken
import CancelSafeFutures.Stream.ForEachConcurrentThenTry

/-!
# Wakeups of `ForEachConcurrentThenTry`

A source registers the waker exactly when it answers `Pending`.  So a call of `poll` that returns
`Pending` is only followed by another if every source that can still move the adapter forward
answered `Pending` when it was last polled in that call: `Armed`.

The body of the loop does not count an error of the stream as progress.  A pass that sees such an
error while no future is ready to be yielded therefore returns `Pending` with the stream live and
not armed (`StreamErrorAlone`), and that is the only way for a call to return unarmed
(`armed_iff`).
-/

namespace CancelSafeFutures.ForEachConcurrentThenTry

open Async

variable {St A E F Fut Q : Type} [TryStream St A E] [FnMut F A Fut]
  [Future Fut (Except E Unit)] [FuturesUnordered Q Fut (Except E Unit)]

/-- What the stream answered when it was last polled. -/
def lastStreamAnswer (log : List (ForEachEvent A E Fut)) : Option (Poll (Option (Except E A))) :=
  (log.filterMap fun event => match event with
    | .tryPollNext answer => some answer
    | _ => none).getLast?

/-- What the set of futures answered when it was last polled. -/
def lastFuturesAnswer (log : List (ForEachEvent A E Fut)) :
    Option (Poll (Option (Except E Unit))) :=
  (log.filterMap fun event => match event with
    | .pollNext answer => some answer
    | _ => none).getLast?

/-- After a call that recorded `log` and left `this`, every source that can still move the adapter
forward has the waker, and some source has it. -/
structure Armed (log : List (ForEachEvent A E Fut)) (this : ForEachConcurrentThenTry St F Q E) :
    Prop where
  stream : this.stream.isSome = true → this.belowLimit = true →
    lastStreamAnswer log = some .pending
  futures : 0 < FuturesUnordered.len this.futures → lastFuturesAnswer log = some .pending
  some_source : lastStreamAnswer log = some .pending ∨ lastFuturesAnswer log = some .pending

/-- A pass from `this` gets an error from the stream, and no completed future from the set. -/
structure StreamErrorAlone (this : ForEachConcurrentThenTry St F Q E) : Prop where
  below : this.belowLimit = true
  error : ∃ stream error, this.stream = some stream ∧
    (TryStream.tryPollNext stream).1 = .ready (some (.error error))
  alone : ∀ item, (FuturesUnordered.pollNext this.futures).1 ≠ .ready (some item)

/-! ## One pass -/

omit [FnMut F A Fut] in
/-- A pass that does not poll the stream gets no error from it. -/
theorem not_errorAlone_of_skipped {this : ForEachConcurrentThenTry St F Q E}
    (gone : this.belowLimit = true → this.stream = none) : ¬ StreamErrorAlone this := by
  rintro ⟨below, ⟨stream, _, live, _⟩, _⟩
  rw [gone below] at live
  cases live

omit [FnMut F A Fut] in
/-- Neither does one that gets something else. -/
theorem not_errorAlone_of_polled {this : ForEachConcurrentThenTry St F Q E} {stream stream' : St}
    {answer : Poll (Option (Except E A))} (live : this.stream = some stream)
    (polled : TryStream.tryPollNext stream = (answer, stream'))
    (other : ∀ error, answer ≠ .ready (some (.error error))) : ¬ StreamErrorAlone this := by
  rintro ⟨_, ⟨stream, error, live', failed⟩, _⟩
  cases live.symm.trans live'
  rw [polled] at failed
  exact other error failed

/-- A pass that goes round again is not one of a lone stream error. -/
theorem not_errorAlone_of_again {this this' : ForEachConcurrentThenTry St F Q E}
    {log : List (ForEachEvent A E Fut)} (again : this.iteration = .ok (log, .again this')) :
    ¬ StreamErrorAlone this := by
  intro lone
  obtain ⟨madeProgress, log₁, mid, turn, rest⟩ := again_cases again
  have turn_error : madeProgress = false ∧ mid.futures = this.futures := by
    cases turn with
    | skipped gone => exact (not_errorAlone_of_skipped gone lone).elim
    | item _ live polled _ => exact (not_errorAlone_of_polled live polled nofun lone).elim
    | error _ _ _ => exact ⟨rfl, recordError_futures ..⟩
    | ended _ _ _ => exact ⟨rfl, rfl⟩
    | pending _ _ _ => exact ⟨rfl, rfl⟩
  obtain ⟨rfl, futures⟩ := turn_error
  rw [futures] at rest
  rcases rest with ⟨item, futures', yielded, -, -⟩ | ⟨_, _, _, _, progress, _⟩
  · exact lone.alone item (by rw [yielded])
  · cases progress

/-- A pass that returns `Pending` leaves the adapter armed, whatever the call did before, unless
it is one of a lone stream error. -/
theorem armed_iff_of_leave {this this' : ForEachConcurrentThenTry St F Q E}
    {before log : List (ForEachEvent A E Fut)}
    (left : this.iteration = .ok (log, .leave .pending this')) :
    Armed (before ++ log) this' ↔ ¬ StreamErrorAlone this := by
  obtain ⟨log₁, mid, futures, turn, rfl, rest⟩ := leave_pending_cases left
  have len_eq : FuturesUnordered.len futures = FuturesUnordered.len mid.futures := by
    rcases rest with ⟨polled, -⟩ | ⟨polled, -, -⟩
    · obtain ⟨_, _, _, _, same, _⟩ := FuturesUnordered.pollNext_pending polled
      exact same
    · obtain ⟨empty, empty', _⟩ := FuturesUnordered.pollNext_none polled
      rw [empty, empty']
  have below_eq : belowLimit { mid with futures := futures } = mid.belowLimit :=
    belowLimit_congr rfl len_eq
  have alone : ∀ item, (FuturesUnordered.pollNext mid.futures).1 ≠ .ready (some item) := by
    rcases rest with ⟨polled, -⟩ | ⟨polled, -, -⟩ <;> rw [polled] <;> intro item h <;> cases h
  cases turn with
  | skipped gone =>
      have calm := not_errorAlone_of_skipped gone
      rcases rest with ⟨polled, rfl⟩ | ⟨polled, live, -⟩
      · refine iff_of_true ⟨fun live below => ?_, fun _ => ?_, .inr ?_⟩ calm
        · rw [below_eq] at below
          simp [gone below] at live
        · simp [lastFuturesAnswer]
        · simp [lastFuturesAnswer]
      · exact (live (gone (belowLimit_of_empty (FuturesUnordered.pollNext_none polled).1))).elim
  | @error stream stream' error below live polled =>
      refine iff_of_false (fun armed => ?_) (not_not_intro ⟨below, ⟨stream, error, live, ?_⟩, ?_⟩)
      · have unarmed := armed.stream (by simp) (by
          rw [below_eq]
          exact (belowLimit_congr (by simp) (by simp)).trans below)
        rcases rest with ⟨-, rfl⟩ | ⟨-, -, rfl⟩ <;>
          simp [lastStreamAnswer] at unarmed
      · rw [polled]
      · simpa using alone
  | ended below live polled =>
      have calm := not_errorAlone_of_polled live polled nofun
      rcases rest with ⟨-, rfl⟩ | ⟨-, live, -⟩
      · refine iff_of_true ⟨fun live _ => ?_, fun _ => ?_, .inr ?_⟩ calm
        · cases live
        · simp [lastFuturesAnswer]
        · simp [lastFuturesAnswer]
      · exact (live rfl).elim
  | pending below live polled =>
      have calm := not_errorAlone_of_polled live polled nofun
      refine iff_of_true ⟨fun _ _ => ?_, fun some_left => ?_, .inl ?_⟩ calm
      · rcases rest with ⟨-, rfl⟩ | ⟨-, -, rfl⟩ <;>
          simp [lastStreamAnswer]
      · rcases rest with ⟨-, rfl⟩ | ⟨polled, -, -⟩
        · simp [lastFuturesAnswer]
        · rw [(FuturesUnordered.pollNext_none polled).2.1] at some_left
          exact (Nat.lt_irrefl 0 some_left).elim
      · rcases rest with ⟨-, rfl⟩ | ⟨-, -, rfl⟩ <;>
          simp [lastStreamAnswer]

/-! ## A whole call -/

theorem armed_iff_of_loops {this this' : ForEachConcurrentThenTry St F Q E}
    {before log : List (ForEachEvent A E Fut)}
    (h : Loops iteration this .pending log this') :
    Armed (before ++ log) this' ↔ ∀ head, Head iteration this head → ¬ StreamErrorAlone head := by
  generalize answer_eq : (Poll.pending : Poll (Except E Unit)) = answer at h
  induction h generalizing before with
  | leave left =>
      subst answer_eq
      rw [armed_iff_of_leave left]
      constructor
      · intro calm head at_head
        rw [at_head.eq_of_leave left]
        exact calm
      · exact fun calm => calm _ .refl
  | again again _ ih =>
      rw [← List.append_assoc, ih answer_eq]
      constructor
      · intro calm head at_head
        rcases at_head.cases again with rfl | later
        · exact not_errorAlone_of_again again
        · exact calm head later
      · exact fun calm head later => calm head (.head ⟨_, again⟩ later)

theorem armed_iff {fuel : Nat} {this this' : ForEachConcurrentThenTry St F Q E}
    {log : List (ForEachEvent A E Fut)} (call : this.poll fuel = .ok (.pending, log, this')) :
    Armed log this' ↔ ∀ head, Head iteration this head → ¬ StreamErrorAlone head := by
  have armed : Armed ([] ++ log) this' ↔ _ := armed_iff_of_loops (Loops.of_loop call)
  exact armed

/-- A pass that returns `Ready` sees the stream end or finds it gone. -/
theorem not_errorAlone_of_ready {this this' : ForEachConcurrentThenTry St F Q E}
    {log : List (ForEachEvent A E Fut)} {result : Except E Unit}
    (left : this.iteration = .ok (log, .leave (.ready result) this')) :
    ¬ StreamErrorAlone this := by
  rintro ⟨below, ⟨stream, error, live, polled⟩, -⟩
  obtain ⟨_, _, mid, _, turn, -, ended, -⟩ := leave_ready_cases left
  cases turn with
  | skipped gone => rw [gone below] at live; cases live
  | item _ _ _ _ => cases ended
  | error _ _ _ => simp at ended
  | ended _ live' polled' =>
      cases live.symm.trans live'
      rw [polled'] at polled
      cases polled
  | pending _ _ _ => cases ended

theorem not_errorAlone_of_loops_ready {this this' : ForEachConcurrentThenTry St F Q E}
    {log : List (ForEachEvent A E Fut)} {result : Except E Unit}
    (h : Loops iteration this (.ready result) log this') :
    ∀ head, Head iteration this head → ¬ StreamErrorAlone head := by
  generalize answer_eq : (Poll.ready result : Poll (Except E Unit)) = answer at h
  induction h with
  | leave left =>
      subst answer_eq
      intro head at_head
      rw [at_head.eq_of_leave left]
      exact not_errorAlone_of_ready left
  | again again _ ih =>
      intro head at_head
      rcases at_head.cases again with rfl | later
      · exact not_errorAlone_of_again again
      · exact ih answer_eq head later

/-- **Wakeups over a run.** In a run of polls of a new adapter, every call that returns `Pending`
leaves every source that can still move the adapter forward with the waker if and only if no pass
of the run begins with a lone stream error. -/
theorem forEach_armed_iff (stream : St) (limit : Option Nat) (f : F)
    {calls : List (Call (ForEachConcurrentThenTry St F Q E) (Except E Unit)
      (ForEachEvent A E Fut))}
    {this : ForEachConcurrentThenTry St F Q E}
    (run : Polls poll (new stream limit f) calls this) :
    (∀ call ∈ calls, call.answer = .pending → Armed call.log call.after) ↔
      ∀ call ∈ calls, ∀ head, Head iteration call.before head → ¬ StreamErrorAlone head := by
  have per_call : ∀ call ∈ calls, (call.answer = .pending → Armed call.log call.after) ↔
      ∀ head, Head iteration call.before head → ¬ StreamErrorAlone head := by
    intro call mem
    obtain ⟨fuel, called⟩ := run.call mem
    rcases call with ⟨before, answer | _, log, after⟩
    · exact iff_of_true (fun h => by cases h)
        (not_errorAlone_of_loops_ready (Loops.of_loop called))
    · simp only [forall_const]
      exact armed_iff called
  exact forall₂_congr per_call

/-! ## The lost wakeup -/

/-- A stream that yields an error and is then ready to yield an item. -/
def errorThenItem : Script (Option (Except Nat Nat)) :=
  ⟨[.ready (some (.error 7)), .ready (some (.ok 1)), .ready none]⟩

/-- The first call on `errorThenItem`: `Pending`, with nothing left that would wake the task. -/
def lostCall : Call
    (ForEachConcurrentThenTry (Script (Option (Except Nat Nat))) (Nat → Script (Except Nat Unit))
      (WokenSet (Script (Except Nat Unit)) (Except Nat Unit)) Nat)
    (Except Nat Unit) (ForEachEvent Nat Nat (Script (Except Nat Unit))) where
  before := new errorThenItem none fun _ => ⟨[.ready (.ok ())]⟩
  answer := .pending
  log := [.tryPollNext (.ready (some (.error 7))), .pollNext (.ready none)]
  after :=
    { stream := some ⟨[.ready (some (.ok 1)), .ready none]⟩
      f := fun _ => ⟨[.ready (.ok ())]⟩
      futures := ⟨[], []⟩
      limit := none
      firstError := some 7 }

theorem lostCall_run : Polls poll lostCall.before [lostCall] lostCall.after :=
  .poll .start (show poll 1 lostCall.before = _ from rfl)

/-- The adapter can return `Pending` unarmed: here the stream would yield at once. -/
theorem forEach_lost_wakeup :
    Polls poll lostCall.before [lostCall] lostCall.after ∧ lostCall.answer = .pending ∧
      ¬ Armed lostCall.log lostCall.after := by
  refine ⟨lostCall_run, rfl, fun armed => ?_⟩
  have unarmed := armed.stream rfl rfl
  cases unarmed

theorem forEach_armed_iff_lostCall :
    (∀ call ∈ [lostCall], call.answer = .pending → Armed call.log call.after) ↔
      ∀ call ∈ [lostCall], ∀ head, Head iteration call.before head → ¬ StreamErrorAlone head :=
  forEach_armed_iff errorThenItem none _ lostCall_run

end CancelSafeFutures.ForEachConcurrentThenTry
