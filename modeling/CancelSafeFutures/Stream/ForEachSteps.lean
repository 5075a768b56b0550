import CancelSafeFutures.Stream.ForEachCompletion

/-!
# `ForEachConcurrentThenTry` step by step

A run of the adapter as the half passes it is made of, so that a statement can be about every
point inside a poll and between two of them, whether the poll comes to an end or not.  `Steps init
t place this`: after the steps traced in `t` the run stands at `place` in the state `this`.

* `Steps.of_polls`: calls of `poll` one after another are such a run.
* `Inv` is what every step keeps, and `forEach_represents` what it says of the adapter's fields.
-/

namespace CancelSafeFutures.ForEachConcurrentThenTry

open Async

variable {St A E F Fut Q : Type} [TryStream St A E] [FnMut F A Fut]
  [Future Fut (Except E Unit)] [FuturesUnordered Q Fut (Except E Unit)]

/-- Where a run stands: between two polls, at the head of a pass, or between its halves. -/
inductive Place where
  | idle
  | head
  | middle (madeProgress : Bool)

/-- What a run has done: polls begun, passes begun, what the polls answered, and the calls made. -/
structure Trace (A E Fut : Type) where
  polls : Nat
  passes : Nat
  answers : List (Poll (Except E Unit))
  log : List (ForEachEvent A E Fut)

/-- The runs of the adapter. -/
inductive Steps (init : ForEachConcurrentThenTry St F Q E) :
    Trace A E Fut → Place → ForEachConcurrentThenTry St F Q E → Prop
  | new : Steps init ⟨0, 0, [], []⟩ .idle init
  | call {t this} :
      Steps init t .idle this → Steps init { t with polls := t.polls + 1 } .head this
  | stream {t this} :
      Steps init t .head this →
      Steps init { t with passes := t.passes + 1, log := t.log ++ this.pollStream.2.1 }
        (.middle this.pollStream.1) this.pollStream.2.2
  | again {t madeProgress mid log this} :
      Steps init t (.middle madeProgress) mid →
      mid.pollFutures madeProgress = (log, .again this) →
      Steps init { t with log := t.log ++ log } .head this
  | leave {t madeProgress mid log answer this} :
      Steps init t (.middle madeProgress) mid →
      mid.pollFutures madeProgress = (log, .leave answer this) →
      Steps init { t with answers := t.answers ++ [answer], log := t.log ++ log } .idle this

/-! ## Calls are steps -/

/-- The passes of a call. -/
theorem Steps.of_loops {init this this' : ForEachConcurrentThenTry St F Q E} {t : Trace A E Fut}
    {answer : Poll (Except E Unit)} {log : List (ForEachEvent A E Fut)}
    (steps : Steps init t .head this) (loops : Loops iteration this answer log this') :
    ∃ passes, Steps init ⟨t.polls, passes, t.answers ++ [answer], t.log ++ log⟩ .idle this' := by
  induction loops generalizing t with
  | leave pass =>
      obtain ⟨log₂, futures, rfl⟩ := iteration_halves pass
      have last := steps.stream.leave futures
      rw [List.append_assoc] at last
      exact ⟨_, last⟩
  | again pass _ ih =>
      obtain ⟨log₂, futures, rfl⟩ := iteration_halves pass
      obtain ⟨passes, rest⟩ := ih (steps.stream.again futures)
      simp only [List.append_assoc] at rest ⊢
      exact ⟨passes, rest⟩

/-- **Calls are steps.** -/
theorem Steps.of_polls {init this : ForEachConcurrentThenTry St F Q E}
    {calls : List (Call (ForEachConcurrentThenTry St F Q E) (Except E Unit) _)}
    (run : Polls poll init calls this) :
    ∃ passes, Steps init ⟨calls.length, passes, calls.map Call.answer,
      (calls.flatMap Call.log : List (ForEachEvent A E Fut))⟩ .idle this := by
  induction run with
  | start => exact ⟨0, .new⟩
  | poll _ called ih =>
      obtain ⟨passes, steps⟩ := ih
      obtain ⟨passes', steps'⟩ := steps.call.of_loops (Loops.of_loop called)
      refine ⟨passes', ?_⟩
      simpa using steps'

/-- So are the passes of a call that has not returned. -/
theorem Steps.of_head {init this head : ForEachConcurrentThenTry St F Q E} {t : Trace A E Fut}
    (steps : Steps init t .head this) (reached : Head iteration this head) :
    ∃ t' : Trace A E Fut, Steps init t' .head head := by
  induction reached with
  | refl => exact ⟨t, steps⟩
  | tail _ pass ih =>
      obtain ⟨t', before⟩ := ih
      obtain ⟨log, pass⟩ := pass
      obtain ⟨log₂, futures, -⟩ := iteration_halves pass
      exact ⟨_, before.stream.again futures⟩

/-! ## What the two halves do to the fields -/

/-- What the stream answered, in order. -/
def streamAnswers (log : List (ForEachEvent A E Fut)) : List (Poll (Option (Except E A))) :=
  log.filterMap fun event => match event with
    | .tryPollNext answer => some answer
    | _ => none

/-- Some poll has returned `Ready`. -/
def Returned (answers : List (Poll (Except E Unit))) : Prop := ∃ result, .ready result ∈ answers

section Reading

omit [TryStream St A E] [FnMut F A Fut] [Future Fut (Except E Unit)]
  [FuturesUnordered Q Fut (Except E Unit)]

@[simp] theorem streamAnswers_append (log log' : List (ForEachEvent A E Fut)) :
    streamAnswers (log ++ log') = streamAnswers log ++ streamAnswers log' :=
  List.filterMap_append

@[simp] theorem streamAnswers_pollNext (answer : Poll (Option (Except E Unit))) :
    streamAnswers ([.pollNext answer] : List (ForEachEvent A E Fut)) = [] := rfl

theorem returned_concat (answers : List (Poll (Except E Unit))) (answer : Poll (Except E Unit)) :
    Returned (answers ++ [answer]) ↔ Returned answers ∨ ∃ result, answer = .ready result := by
  simp only [Returned, List.mem_append, List.mem_singleton, exists_or]
  exact or_congr Iff.rfl ⟨fun ⟨r, h⟩ => ⟨r, h.symm⟩, fun ⟨r, h⟩ => ⟨r, h.symm⟩⟩

end Reading

section Halves

variable {this mid this' : ForEachConcurrentThenTry St F Q E} {madeProgress : Bool}
  {log : List (ForEachEvent A E Fut)}

/-- The stream is polled at most once in a pass, below the limit and while it is there. -/
theorem StreamTurn.answers (turn : StreamTurn this madeProgress log mid) :
    (streamAnswers log = [] ∧ mid.stream = this.stream) ∨
      (this.belowLimit = true ∧ this.stream ≠ none ∧
        ∃ answer, streamAnswers log = [answer] ∧ (mid.stream = none ↔ answer = .ready none)) := by
  cases turn with
  | skipped _ => exact .inl ⟨rfl, rfl⟩
  | item below live _ _ => exact .inr ⟨below, by simp [live], _, rfl, by simp⟩
  | error below live _ => exact .inr ⟨below, by simp [live], _, rfl, by simp⟩
  | ended below live _ => exact .inr ⟨below, by simp [live], _, rfl, by simp⟩
  | pending below live _ => exact .inr ⟨below, by simp [live], _, rfl, by simp⟩

theorem StreamTurn.limit (turn : StreamTurn this madeProgress log mid) :
    mid.limit = this.limit := by
  cases turn with
  | error _ _ _ => exact recordError_limit ..
  | _ => rfl

theorem StreamTurn.firstError (turn : StreamTurn this madeProgress log mid) :
    mid.firstError = this.firstError.or (errors log).head? := by
  cases turn with
  | error _ _ _ => exact recordError_firstError ..
  | _ => exact (Option.or_none).symm

/-- A new future comes below the limit. -/
theorem StreamTurn.len (turn : StreamTurn this madeProgress log mid) :
    FuturesUnordered.len mid.futures = FuturesUnordered.len this.futures ∨
      (this.belowLimit = true ∧
        FuturesUnordered.len mid.futures = FuturesUnordered.len this.futures + 1) := by
  cases turn with
  | item below _ _ _ => exact .inr ⟨below, FuturesUnordered.len_push ..⟩
  | error _ _ _ => exact .inl (congrArg FuturesUnordered.len (recordError_futures ..))
  | _ => exact .inl rfl

/-- Once the stream is gone the first half does nothing. -/
theorem StreamTurn.of_gone (turn : StreamTurn this madeProgress log mid)
    (gone : this.stream = none) : madeProgress = false ∧ log = [] ∧ mid = this := by
  cases turn with
  | skipped _ => exact ⟨rfl, rfl, rfl⟩
  | item _ live _ _ => simp [gone] at live
  | error _ live _ => simp [gone] at live
  | ended _ live _ => simp [gone] at live
  | pending _ live _ => simp [gone] at live

omit [TryStream St A E] [FnMut F A Fut]

theorem FuturesTurn.firstError_again (turn : FuturesTurn madeProgress mid log (.again this')) :
    this'.firstError = mid.firstError.or (errors log).head? := by
  rcases turn.of_again with ⟨item, futures, -, rfl, rfl⟩ | ⟨answer, futures, -, which, -, rfl, rfl⟩
  · cases item with
    | error error => exact recordError_firstError ..
    | ok _ => exact (Option.or_none).symm
  · rcases which with rfl | ⟨rfl, -⟩ <;> exact (Option.or_none).symm

theorem FuturesTurn.firstError_pending
    (turn : FuturesTurn madeProgress mid log (.leave .pending this')) :
    this'.firstError = mid.firstError.or (errors log).head? := by
  obtain ⟨-, futures, rfl, ⟨-, rfl⟩ | ⟨-, -, rfl⟩⟩ := turn.of_pending <;>
    exact (Option.or_none).symm

/-- After a second half that returns `Pending` there is something left to run. -/
theorem FuturesTurn.not_terminated
    (turn : FuturesTurn madeProgress mid log (.leave .pending this')) :
    this'.isTerminated = false := by
  unfold isTerminated
  rw [Bool.and_eq_false_iff]
  obtain ⟨-, futures, rfl, ⟨polled, -⟩ | ⟨-, live, -⟩⟩ := turn.of_pending
  · obtain ⟨-, -, -, -, len, pos⟩ := FuturesUnordered.pollNext_pending polled
    have not_empty : FuturesUnordered.len futures ≠ 0 := by omega
    exact .inr (beq_eq_false_iff_ne.mpr not_empty)
  · exact .inl (Bool.eq_false_iff.mpr fun gone => live (Option.isNone_iff_eq_none.mp gone))

/-- Without a stream and without futures the second half returns `Ready`. -/
theorem FuturesTurn.of_over {pass : Pass (ForEachConcurrentThenTry St F Q E) (Poll (Except E Unit))}
    (turn : FuturesTurn madeProgress mid log pass) (gone : mid.stream = none)
    (empty : FuturesUnordered.len mid.futures = 0) :
    ∃ this', pass = .leave (.ready (resultOf mid.firstError)) this' := by
  cases turn with
  | yielded polled =>
      have len := FuturesUnordered.len_pollNext polled
      rw [empty, completions] at len
      omega
  | finished polled _ => exact ⟨_, rfl⟩
  | empty _ live => exact (live gone).elim
  | pending polled =>
      obtain ⟨-, -, -, -, -, pos⟩ := FuturesUnordered.pollNext_pending polled
      omega

end Halves

/-! ## The invariant -/

/-- What every step keeps, in a run with this argument for the limit. -/
structure Inv (limit : Option Nat) (t : Trace A E Fut) (place : Place)
    (this : ForEachConcurrentThenTry St F Q E) : Prop where
  limit : this.limit = limit.bind NonZeroUsize.new
  capped : ∀ n, this.limit = some n → FuturesUnordered.len this.futures ≤ n.1
  ended : this.stream = none ↔ .ready none ∈ streamAnswers t.log
  last : .ready none ∉ (streamAnswers t.log).dropLast
  cached : ¬ Returned t.answers → this.firstError = (errors t.log).head?
  /-- Once `Ready` was returned nothing is left. -/
  gone : Returned t.answers →
    this.stream = none ∧ FuturesUnordered.len this.futures = 0 ∧ this.firstError = none
  live : place = .idle → ¬ Returned t.answers → this.isTerminated = false

section Inv

variable {limit : Option Nat} {t : Trace A E Fut}
  {this mid this' : ForEachConcurrentThenTry St F Q E} {madeProgress : Bool}
  {log : List (ForEachEvent A E Fut)}

omit [TryStream St A E] [FnMut F A Fut] in
theorem Inv.new (stream : St) (limit : Option Nat) (f : F) :
    Inv limit (⟨0, 0, [], []⟩ : Trace A E Fut) .idle
      (new stream limit f : ForEachConcurrentThenTry St F Q E) where
  limit := rfl
  capped n _ := by
    rw [ForEachConcurrentThenTry.new, FuturesUnordered.len_new]
    exact Nat.zero_le _
  ended := by simp [ForEachConcurrentThenTry.new, streamAnswers]
  last := by simp [streamAnswers]
  cached _ := rfl
  gone returned := by simp [Returned] at returned
  live _ _ := rfl

omit [TryStream St A E] [FnMut F A Fut] in
theorem Inv.call (inv : Inv limit t .idle this) :
    Inv limit { t with polls := t.polls + 1 } .head this :=
  { inv with live := nofun }

/-- The first half of a pass. -/
theorem Inv.stream (inv : Inv limit t .head this) (turn : StreamTurn this madeProgress log mid)
    (passes : Nat) :
    Inv limit { t with passes := passes, log := t.log ++ log } (.middle madeProgress) mid where
  limit := turn.limit.trans inv.limit
  capped n at_n := by
    rw [turn.limit] at at_n
    have cap := inv.capped n at_n
    rcases turn.len with same | ⟨below, more⟩
    · omega
    · have room := belowLimit_iff.mp below n at_n
      omega
  ended := by
    rw [streamAnswers_append]
    rcases turn.answers with ⟨silent, same⟩ | ⟨-, live, answer, one, gone⟩
    · rw [silent, same, List.append_nil]
      exact inv.ended
    · have not_yet := mt inv.ended.mpr live
      rw [one, List.mem_append, List.mem_singleton, gone]
      simp [not_yet, eq_comm]
  last := by
    rw [streamAnswers_append]
    rcases turn.answers with ⟨silent, -⟩ | ⟨-, live, answer, one, -⟩
    · rw [silent, List.append_nil]
      exact inv.last
    · rw [one, List.dropLast_concat]
      exact mt inv.ended.mpr live
  cached not_returned := by
    rw [turn.firstError, errors_append, List.head?_append, inv.cached not_returned]
  gone returned := by
    obtain ⟨gone, rest⟩ := inv.gone returned
    obtain ⟨-, -, rfl⟩ := turn.of_gone gone
    exact ⟨gone, rest⟩
  live := nofun

omit [TryStream St A E] [FnMut F A Fut]

/-- The second half, as far as the stream and the number of futures go. -/
theorem Inv.futures {pass : Pass (ForEachConcurrentThenTry St F Q E) (Poll (Except E Unit))}
    (inv : Inv limit t (.middle madeProgress) mid) (turn : FuturesTurn madeProgress mid log pass) :
    pass.state.limit = limit.bind NonZeroUsize.new ∧
      (∀ n, pass.state.limit = some n → FuturesUnordered.len pass.state.futures ≤ n.1) ∧
      (pass.state.stream = none ↔ .ready none ∈ streamAnswers (t.log ++ log)) ∧
      .ready none ∉ (streamAnswers (t.log ++ log)).dropLast := by
  obtain ⟨answer, polled, rfl, stream, same_limit⟩ := turn.polled
  have len := FuturesUnordered.len_pollNext polled
  rw [streamAnswers_append, streamAnswers_pollNext, List.append_nil, stream, same_limit]
  refine ⟨inv.limit, fun n at_n => ?_, inv.ended, inv.last⟩
  have cap := inv.capped n at_n
  omega

theorem Inv.again (inv : Inv limit t (.middle madeProgress) mid)
    (turn : FuturesTurn madeProgress mid log (.again this')) :
    Inv limit { t with log := t.log ++ log } .head this' := by
  obtain ⟨limit, capped, ended, last⟩ := inv.futures turn
  refine ⟨limit, capped, ended, last, fun not_returned => ?_, fun returned => ?_, nofun⟩
  · rw [turn.firstError_again, errors_append, List.head?_append, inv.cached not_returned]
  · obtain ⟨gone, empty, -⟩ := inv.gone returned
    obtain ⟨_, returns⟩ := turn.of_over gone empty
    cases returns

theorem Inv.leave {answer : Poll (Except E Unit)} (inv : Inv limit t (.middle madeProgress) mid)
    (turn : FuturesTurn madeProgress mid log (.leave answer this')) :
    Inv limit { t with answers := t.answers ++ [answer], log := t.log ++ log } .idle this' := by
  obtain ⟨limit, capped, ended, last⟩ := inv.futures turn
  refine ⟨limit, capped, ended, last, fun not_returned => ?_, fun returned => ?_,
    fun _ not_returned => ?_⟩
  · rw [returned_concat, not_or] at not_returned
    cases answer with
    | pending =>
        rw [turn.firstError_pending, errors_append, List.head?_append, inv.cached not_returned.1]
    | ready result => exact (not_returned.2 ⟨result, rfl⟩).elim
  · cases answer with
    | pending =>
        rw [returned_concat] at returned
        have before := returned.resolve_right nofun
        obtain ⟨gone, empty, -⟩ := inv.gone before
        obtain ⟨_, returns⟩ := turn.of_over gone empty
        cases returns
    | ready result =>
        obtain ⟨futures, polled, gone, -, rfl, -⟩ := turn.of_ready
        exact ⟨gone, (FuturesUnordered.pollNext_none polled).2.1, rfl⟩
  · cases answer with
    | pending => exact turn.not_terminated
    | ready result => exact (not_returned ((returned_concat ..).mpr (.inr ⟨result, rfl⟩))).elim

end Inv

/-- **Run lemma.** -/
theorem Inv.steps {stream : St} {limit : Option Nat} {f : F} {t : Trace A E Fut} {place : Place}
    {this : ForEachConcurrentThenTry St F Q E}
    (steps : Steps (ForEachConcurrentThenTry.new stream limit f) t place this) :
    Inv limit t place this := by
  induction steps with
  | new => exact .new stream limit f
  | call _ ih => exact ih.call
  | @stream t this _ ih => exact ih.stream (pollStream_turn this) _
  | again _ half ih => exact ih.again (pollFutures_turn_of half)
  | leave _ half ih => exact ih.leave (pollFutures_turn_of half)

/-- What the fields of the adapter say at every point of every run. -/
structure Represents (limit : Option Nat) (init : ForEachConcurrentThenTry St F Q E) : Prop where
  /-- Calls of `poll` are runs. -/
  polls : ∀ {calls} {this : ForEachConcurrentThenTry St F Q E}, Polls poll init calls this →
    ∃ passes, Steps init ⟨calls.length, passes, calls.map Call.answer,
      calls.flatMap Call.log⟩ .idle this
  /-- So are the passes of a call that was begun. -/
  heads : ∀ {calls} {this head : ForEachConcurrentThenTry St F Q E}, Polls poll init calls this →
    Head iteration this head → ∃ t, Steps init t .head head
  /-- There are never more futures in flight than a positive limit allows. -/
  capped : ∀ {t place this}, Steps init t place this → ∀ n, 0 < n → limit = some n →
    FuturesUnordered.len this.futures ≤ n
  /-- Without a limit, or with limit 0, the guard is always open. -/
  uncapped : ∀ {t place this}, Steps init t place this →
    (this.limit = none ↔ limit = none ∨ limit = some 0) ∧
      (this.limit = none → this.belowLimit = true)
  /-- The stream is not polled while the limit is reached. -/
  guarded : ∀ {t this}, Steps init t .head this → streamAnswers this.pollStream.2.1 ≠ [] →
    ∀ n, 0 < n → limit = some n → FuturesUnordered.len this.futures < n
  /-- Nor after it has answered `None`. -/
  ended : ∀ {t place this}, Steps init t place this →
    .ready none ∉ (streamAnswers t.log).dropLast
  /-- Until the result is returned, `first_error` is the earliest error seen. -/
  cached : ∀ {t place this}, Steps init t place this → ¬ Returned t.answers →
    this.firstError = (errors t.log).head?
  /-- That is the error that is returned. -/
  delivered : ∀ {t madeProgress mid log result this}, Steps init t (.middle madeProgress) mid →
    ¬ Returned t.answers → mid.pollFutures madeProgress = (log, .leave (.ready result) this) →
    result = resultOf (errors (t.log ++ log)).head? ∧ this.firstError = none
  /-- Between two polls the adapter is terminated if and only if it has returned `Ready`. -/
  idle : ∀ {t this}, Steps init t .idle this → (this.isTerminated = true ↔ Returned t.answers)

/-- **Representation invariant.** For every stream, closure and limit. -/
theorem forEach_represents (stream : St) (limit : Option Nat) (f : F) :
    Represents limit (new stream limit f : ForEachConcurrentThenTry St F Q E) where
  polls run := Steps.of_polls run
  heads run reached := by
    obtain ⟨passes, steps⟩ := Steps.of_polls run
    exact steps.call.of_head reached
  capped {t place this} steps n pos some_n := by
    subst some_n
    have inv := Inv.steps steps
    exact inv.capped ⟨n, pos⟩ (inv.limit.trans (bind_new_of_pos pos))
  uncapped {t place this} steps := by
    refine ⟨by rw [(Inv.steps steps).limit, bind_new_eq_none], fun no_limit => ?_⟩
    rw [belowLimit_iff, no_limit]
    nofun
  guarded {t this} steps polled n pos some_n := by
    subst some_n
    rcases (pollStream_turn this).answers with ⟨silent, -⟩ | ⟨below, -⟩
    · exact (polled silent).elim
    · exact belowLimit_iff.mp below ⟨n, pos⟩ ((Inv.steps steps).limit.trans (bind_new_of_pos pos))
  ended steps := (Inv.steps steps).last
  cached steps := (Inv.steps steps).cached
  delivered {t madeProgress mid log result this} steps not_returned half := by
    obtain ⟨futures, -, -, rfl, rfl, rfl⟩ := (pollFutures_turn_of half).of_ready
    rw [(Inv.steps steps).cached not_returned, errors_append]
    exact ⟨congrArg (fun seen => resultOf (List.head? seen)) (List.append_nil _).symm, rfl⟩
  idle {t this} steps := by
    have inv := Inv.steps steps
    constructor
    · intro terminated
      by_contra not_returned
      rw [inv.live rfl not_returned] at terminated
      cases terminated
    · intro returned
      obtain ⟨gone, empty, -⟩ := inv.gone returned
      simp [isTerminated, gone, empty]

end CancelSafeFutures.ForEachConcurrentThenTry
