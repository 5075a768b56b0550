import CancelSafeFutures.Async.FutureSet
import CancelSafeFutures.Async.Loop
import CancelSafeFutures.Async.Stream

/-!
# `ForEachConcurrentThenTry`

The model of `src/stream/for_each_concurrent_then_try.rs`.  `iteration` is the body of the `loop`
in `poll`, split where the source goes from the stream (`pollStream`) to the set of futures
(`pollFutures`); `poll` is the loop.  The closure, the stream, the futures and the set are type
variables, and each call the adapter makes is recorded as a `ForEachEvent`.

`StreamTurn` and `FuturesTurn` list what the two halves of a pass can do, and
`iteration_cases` puts them together: later modules never unfold the body.
-/

namespace CancelSafeFutures

open Async

/-- `NonZeroUsize`. -/
abbrev NonZeroUsize := { n : Nat // 0 < n }

/-- `NonZeroUsize::new`. -/
def NonZeroUsize.new (n : Nat) : Option NonZeroUsize :=
  if h : 0 < n then some ⟨n, h⟩ else none

theorem bind_new_eq_none {limit : Option Nat} :
    limit.bind NonZeroUsize.new = none ↔ limit = none ∨ limit = some 0 := by
  rcases limit with _ | _ | n <;> simp [NonZeroUsize.new]

theorem bind_new_of_pos {n : Nat} (pos : 0 < n) :
    (some n).bind NonZeroUsize.new = some ⟨n, pos⟩ := by
  simp [NonZeroUsize.new, pos]

/-- The adapter's fields. -/
structure ForEachConcurrentThenTry (St F Q E : Type) where
  stream : Option St
  f : F
  futures : Q
  limit : Option NonZeroUsize
  firstError : Option E

/-- One call the adapter makes, with its answer. -/
inductive ForEachEvent (A E Fut : Type) where
  | tryPollNext (answer : Poll (Option (Except E A)))
  | apply (elem : A) (fut : Fut)
  | pollNext (answer : Poll (Option (Except E Unit)))
  deriving DecidableEq, Repr

namespace ForEachConcurrentThenTry

variable {St A E F Fut Q : Type} [TryStream St A E] [FnMut F A Fut]
  [Future Fut (Except E Unit)] [FuturesUnordered Q Fut (Except E Unit)]

/-- `ForEachConcurrentThenTry::new`.  A limit of 0 is ignored. -/
def new (stream : St) (limit : Option Nat) (f : F) : ForEachConcurrentThenTry St F Q E where
  stream := some stream
  f := f
  futures := FuturesUnordered.new
  limit := limit.bind NonZeroUsize.new
  firstError := none

/-- `FusedFuture::is_terminated`. -/
def isTerminated (this : ForEachConcurrentThenTry St F Q E) : Bool :=
  this.stream.isNone && FuturesUnordered.len this.futures == 0

/-- The guard of the stream poll: no limit, or fewer futures in flight than the limit. -/
def belowLimit (this : ForEachConcurrentThenTry St F Q E) : Bool :=
  (this.limit.map fun limit => decide (limit.1 > FuturesUnordered.len this.futures)).getD true

/-- `if this.first_error.is_none() { *this.first_error = Some(error) }`. -/
def recordError (this : ForEachConcurrentThenTry St F Q E) (error : E) :
    ForEachConcurrentThenTry St F Q E :=
  if this.firstError.isNone then { this with firstError := some error } else this

/-- `if let Err(error) = item { .. }`. -/
def recordItem (this : ForEachConcurrentThenTry St F Q E) :
    Except E Unit → ForEachConcurrentThenTry St F Q E
  | .error error => this.recordError error
  | .ok () => this

/-- `first_error.map_or(Ok(()), Err)`. -/
def resultOf : Option E → Except E Unit
  | some error => .error error
  | none => .ok ()

/-- The first half of a pass, with the value of `made_progress_this_iter` at its end. -/
def pollStream (this : ForEachConcurrentThenTry St F Q E) :
    Bool × List (ForEachEvent A E Fut) × ForEachConcurrentThenTry St F Q E :=
  if this.belowLimit then
    match this.stream with
    | some stream =>
      match TryStream.tryPollNext stream with
      | (.ready (some (.ok elem)), stream) =>
        let (fut, f) := FnMut.call this.f elem
        (true, [.tryPollNext (.ready (some (.ok elem))), .apply elem fut],
          { this with
            stream := some stream
            f := f
            futures := FuturesUnordered.push this.futures fut })
      | (.ready (some (.error error)), stream) =>
        -- the source does not count this answer as progress
        (false, [.tryPollNext (.ready (some (.error error)))],
          { this with stream := some stream }.recordError error)
      | (.ready none, _) => (false, [.tryPollNext (.ready none)], { this with stream := none })
      | (.pending, stream) => (false, [.tryPollNext .pending], { this with stream := some stream })
    | none => (false, [], this)
  else (false, [], this)

/-- `if !made_progress_this_iter { return Poll::Pending }`, and round again otherwise. -/
def endOfPass (madeProgress : Bool) (this : ForEachConcurrentThenTry St F Q E) :
    Pass (ForEachConcurrentThenTry St F Q E) (Poll (Except E Unit)) :=
  if !madeProgress then .leave .pending this else .again this

/-- The second half of a pass. -/
def pollFutures (madeProgress : Bool) (this : ForEachConcurrentThenTry St F Q E) :
    List (ForEachEvent A E Fut) × Pass (ForEachConcurrentThenTry St F Q E) (Poll (Except E Unit)) :=
  match FuturesUnordered.pollNext this.futures with
  | (.ready (some item), futures) =>
    ([.pollNext (.ready (some item))],
      endOfPass true (recordItem { this with futures := futures } item))
  | (.ready none, futures) =>
    if this.stream.isNone then
      -- `first_error.take()`
      ([.pollNext (.ready none)], .leave (.ready (resultOf this.firstError))
        { this with futures := futures, firstError := none })
    else ([.pollNext (.ready none)], endOfPass madeProgress { this with futures := futures })
  | (.pending, futures) =>
    ([.pollNext .pending], endOfPass madeProgress { this with futures := futures })

/-- One pass of the `loop` in `poll`. -/
def iteration (this : ForEachConcurrentThenTry St F Q E) :
    Run (List (ForEachEvent A E Fut) ×
      Pass (ForEachConcurrentThenTry St F Q E) (Poll (Except E Unit))) :=
  let (madeProgress, log, this) := this.pollStream
  let (log', pass) := this.pollFutures madeProgress
  .ok (log ++ log', pass)

/-- `Future::poll`, for at most `fuel` passes of its loop. -/
def poll : Nat → ForEachConcurrentThenTry St F Q E →
    Run (Poll (Except E Unit) × List (ForEachEvent A E Fut) × ForEachConcurrentThenTry St F Q E) :=
  loop iteration

theorem poll_deterministic : Deterministic (poll : Nat → ForEachConcurrentThenTry St F Q E → _) :=
  fun _ _ _ _ _ h h' => loop_unique h h'

/-! ## What a pass can do -/

/-- What the first half of a pass can do. -/
inductive StreamTurn (this : ForEachConcurrentThenTry St F Q E) :
    Bool → List (ForEachEvent A E Fut) → ForEachConcurrentThenTry St F Q E → Prop
  | skipped : (this.belowLimit = true → this.stream = none) → StreamTurn this false [] this
  | item {stream stream' elem fut f} :
      this.belowLimit = true → this.stream = some stream →
      TryStream.tryPollNext stream = (.ready (some (.ok elem)), stream') →
      FnMut.call this.f elem = (fut, f) →
      StreamTurn this true [.tryPollNext (.ready (some (.ok elem))), .apply elem fut]
        { this with
          stream := some stream', f := f, futures := FuturesUnordered.push this.futures fut }
  | error {stream stream' error} :
      this.belowLimit = true → this.stream = some stream →
      TryStream.tryPollNext stream = (.ready (some (.error error)), stream') →
      StreamTurn this false [.tryPollNext (.ready (some (.error error)))]
        ({ this with stream := some stream' }.recordError error)
  | ended {stream stream'} :
      this.belowLimit = true → this.stream = some stream →
      TryStream.tryPollNext stream = (.ready none, stream') →
      StreamTurn this false [.tryPollNext (.ready none)] { this with stream := none }
  | pending {stream stream'} :
      this.belowLimit = true → this.stream = some stream →
      TryStream.tryPollNext stream = (.pending, stream') →
      StreamTurn this false [.tryPollNext .pending] { this with stream := some stream' }

/-- What the second half can do. -/
inductive FuturesTurn (madeProgress : Bool) (this : ForEachConcurrentThenTry St F Q E) :
    List (ForEachEvent A E Fut) →
    Pass (ForEachConcurrentThenTry St F Q E) (Poll (Except E Unit)) → Prop
  | yielded {futures item} :
      FuturesUnordered.pollNext this.futures = (.ready (some item), futures) →
      FuturesTurn madeProgress this [.pollNext (.ready (some item))]
        (.again (recordItem { this with futures := futures } item))
  | finished {futures} :
      FuturesUnordered.pollNext this.futures = (.ready none, futures) → this.stream = none →
      FuturesTurn madeProgress this [.pollNext (.ready none)]
        (.leave (.ready (resultOf this.firstError))
          { this with futures := futures, firstError := none })
  | empty {futures} :
      FuturesUnordered.pollNext this.futures = (.ready none, futures) → this.stream ≠ none →
      FuturesTurn madeProgress this [.pollNext (.ready none)]
        (endOfPass madeProgress { this with futures := futures })
  | pending {futures} :
      FuturesUnordered.pollNext this.futures = (.pending, futures) →
      FuturesTurn madeProgress this [.pollNext .pending]
        (endOfPass madeProgress { this with futures := futures })

theorem pollStream_turn (this : ForEachConcurrentThenTry St F Q E) :
    StreamTurn this this.pollStream.1 this.pollStream.2.1 this.pollStream.2.2 := by
  unfold pollStream
  split
  · next below =>
      split
      · next stream live =>
          split
          · next polled => exact .item below live polled rfl
          · next polled => exact .error below live polled
          · next polled => exact .ended below live polled
          · next polled => exact .pending below live polled
      · next gone => exact .skipped fun _ => gone
  · next full => exact .skipped fun below => (full below).elim

omit [TryStream St A E] [FnMut F A Fut] in
theorem pollFutures_turn (madeProgress : Bool) (this : ForEachConcurrentThenTry St F Q E) :
    FuturesTurn madeProgress this (this.pollFutures (A := A) madeProgress).1
      (this.pollFutures (A := A) madeProgress).2 := by
  unfold pollFutures
  split
  · next polled => exact .yielded polled
  · next polled =>
      split
      · next gone => exact .finished polled (Option.isNone_iff_eq_none.mp gone)
      · next live => exact .empty polled fun gone => live (Option.isNone_iff_eq_none.mpr gone)
  · next polled => exact .pending polled

omit [TryStream St A E] [FnMut F A Fut] in
theorem pollFutures_turn_of {madeProgress : Bool} {this : ForEachConcurrentThenTry St F Q E}
    {log : List (ForEachEvent A E Fut)}
    {pass : Pass (ForEachConcurrentThenTry St F Q E) (Poll (Except E Unit))}
    (h : this.pollFutures madeProgress = (log, pass)) : FuturesTurn madeProgress this log pass := by
  have turn := pollFutures_turn (A := A) madeProgress this
  rw [h] at turn
  exact turn

/-- A pass is its two halves. -/
theorem iteration_halves {this : ForEachConcurrentThenTry St F Q E}
    {log : List (ForEachEvent A E Fut)}
    {pass : Pass (ForEachConcurrentThenTry St F Q E) (Poll (Except E Unit))}
    (h : this.iteration = .ok (log, pass)) :
    ∃ log₂, this.pollStream.2.2.pollFutures this.pollStream.1 = (log₂, pass) ∧
      log = this.pollStream.2.1 ++ log₂ := by
  obtain ⟨rfl, rfl⟩ := Prod.mk.inj (Except.ok.inj h)
  exact ⟨_, rfl, rfl⟩

/-- A pass is a turn of the stream and then a turn of the futures. -/
theorem iteration_cases {this : ForEachConcurrentThenTry St F Q E}
    {log : List (ForEachEvent A E Fut)}
    {pass : Pass (ForEachConcurrentThenTry St F Q E) (Poll (Except E Unit))}
    (h : this.iteration = .ok (log, pass)) :
    ∃ madeProgress log₁ mid log₂, StreamTurn this madeProgress log₁ mid ∧
      FuturesTurn madeProgress mid log₂ pass ∧ log = log₁ ++ log₂ := by
  obtain ⟨log₂, futures, rfl⟩ := iteration_halves h
  exact ⟨_, _, _, _, pollStream_turn this, pollFutures_turn_of futures, rfl⟩

theorem endOfPass_leave {madeProgress : Bool} {this this' : ForEachConcurrentThenTry St F Q E}
    {answer : Poll (Except E Unit)} (h : endOfPass madeProgress this = .leave answer this') :
    madeProgress = false ∧ answer = .pending ∧ this' = this := by
  cases madeProgress <;> cases h
  exact ⟨rfl, rfl, rfl⟩

theorem endOfPass_again {madeProgress : Bool} {this this' : ForEachConcurrentThenTry St F Q E}
    (h : endOfPass madeProgress this = .again this') : madeProgress = true ∧ this' = this := by
  cases madeProgress <;> cases h
  exact ⟨rfl, rfl⟩

@[simp] theorem endOfPass_state (madeProgress : Bool) (this : ForEachConcurrentThenTry St F Q E) :
    (endOfPass madeProgress this).state = this := by
  cases madeProgress <;> rfl

section FuturesTurn

variable {madeProgress : Bool} {mid this' : ForEachConcurrentThenTry St F Q E}
  {log : List (ForEachEvent A E Fut)}

omit [TryStream St A E] [FnMut F A Fut]

/-- A second half after which the loop goes round again. -/
theorem FuturesTurn.of_again (turn : FuturesTurn madeProgress mid log (.again this')) :
    (∃ item futures, FuturesUnordered.pollNext mid.futures = (.ready (some item), futures) ∧
        this' = recordItem { mid with futures := futures } item ∧
        log = [.pollNext (.ready (some item))]) ∨
      (∃ answer futures, FuturesUnordered.pollNext mid.futures = (answer, futures) ∧
        (answer = .pending ∨ (answer = .ready none ∧ mid.stream ≠ none)) ∧
        madeProgress = true ∧ this' = { mid with futures := futures } ∧
        log = [.pollNext answer]) := by
  generalize same : Pass.again this' = pass at turn
  cases turn with
  | yielded polled =>
      cases same
      exact .inl ⟨_, _, polled, rfl, rfl⟩
  | finished _ _ => cases same
  | empty polled live =>
      obtain ⟨progress, rfl⟩ := endOfPass_again same.symm
      exact .inr ⟨_, _, polled, .inr ⟨rfl, live⟩, progress, rfl, rfl⟩
  | pending polled =>
      obtain ⟨progress, rfl⟩ := endOfPass_again same.symm
      exact .inr ⟨_, _, polled, .inl rfl, progress, rfl, rfl⟩

/-- A second half that returns `Pending`. -/
theorem FuturesTurn.of_pending (turn : FuturesTurn madeProgress mid log (.leave .pending this')) :
    madeProgress = false ∧ ∃ futures, this' = { mid with futures := futures } ∧
      ((FuturesUnordered.pollNext mid.futures = (.pending, futures) ∧ log = [.pollNext .pending]) ∨
        (FuturesUnordered.pollNext mid.futures = (.ready none, futures) ∧ mid.stream ≠ none ∧
          log = [.pollNext (.ready none)])) := by
  generalize same : Pass.leave Poll.pending this' = pass at turn
  cases turn with
  | yielded _ => cases same
  | finished _ _ => cases same
  | empty polled live =>
      obtain ⟨progress, -, rfl⟩ := endOfPass_leave same.symm
      exact ⟨progress, _, rfl, .inr ⟨polled, live, rfl⟩⟩
  | pending polled =>
      obtain ⟨progress, -, rfl⟩ := endOfPass_leave same.symm
      exact ⟨progress, _, rfl, .inl ⟨polled, rfl⟩⟩

/-- A second half that returns `Ready`. -/
theorem FuturesTurn.of_ready {result : Except E Unit}
    (turn : FuturesTurn madeProgress mid log (.leave (.ready result) this')) :
    ∃ futures, FuturesUnordered.pollNext mid.futures = (.ready none, futures) ∧
      mid.stream = none ∧ result = resultOf mid.firstError ∧
      this' = { mid with futures := futures, firstError := none } ∧
      log = [.pollNext (.ready none)] := by
  generalize same : Pass.leave (Poll.ready result) this' = pass at turn
  cases turn with
  | yielded _ => cases same
  | finished polled gone =>
      cases same
      exact ⟨_, polled, gone, rfl, rfl, rfl⟩
  | empty _ _ => cases (endOfPass_leave same.symm).2.1
  | pending _ => cases (endOfPass_leave same.symm).2.1

end FuturesTurn

/-- A pass that returns `Pending`: nothing was taken from the stream and no future completed. -/
theorem leave_pending_cases {this this' : ForEachConcurrentThenTry St F Q E}
    {log : List (ForEachEvent A E Fut)}
    (h : this.iteration = .ok (log, .leave .pending this')) :
    ∃ log₁ mid futures, StreamTurn this false log₁ mid ∧ this' = { mid with futures := futures } ∧
      ((FuturesUnordered.pollNext mid.futures = (.pending, futures) ∧
          log = log₁ ++ [.pollNext .pending]) ∨
        (FuturesUnordered.pollNext mid.futures = (.ready none, futures) ∧ mid.stream ≠ none ∧
          log = log₁ ++ [.pollNext (.ready none)])) := by
  obtain ⟨madeProgress, log₁, mid, log₂, stream, turn, rfl⟩ := iteration_cases h
  obtain ⟨rfl, futures, rfl, ⟨polled, rfl⟩ | ⟨polled, live, rfl⟩⟩ := turn.of_pending
  · exact ⟨_, _, _, stream, rfl, .inl ⟨polled, rfl⟩⟩
  · exact ⟨_, _, _, stream, rfl, .inr ⟨polled, live, rfl⟩⟩

/-- A pass that returns `Ready`: the stream has ended and the set is empty. -/
theorem leave_ready_cases {this this' : ForEachConcurrentThenTry St F Q E}
    {log : List (ForEachEvent A E Fut)} {result : Except E Unit}
    (h : this.iteration = .ok (log, .leave (.ready result) this')) :
    ∃ madeProgress log₁ mid futures, StreamTurn this madeProgress log₁ mid ∧
      FuturesUnordered.pollNext mid.futures = (.ready none, futures) ∧ mid.stream = none ∧
      result = resultOf mid.firstError ∧
      this' = { mid with futures := futures, firstError := none } ∧
      log = log₁ ++ [.pollNext (.ready none)] := by
  obtain ⟨madeProgress, log₁, mid, log₂, stream, turn, rfl⟩ := iteration_cases h
  obtain ⟨futures, polled, gone, rfl, rfl, rfl⟩ := turn.of_ready
  exact ⟨_, _, _, _, stream, polled, gone, rfl, rfl, rfl⟩

/-- A pass that goes round again: an item was taken from the stream or a future completed. -/
theorem again_cases {this this' : ForEachConcurrentThenTry St F Q E}
    {log : List (ForEachEvent A E Fut)} (h : this.iteration = .ok (log, .again this')) :
    ∃ madeProgress log₁ mid, StreamTurn this madeProgress log₁ mid ∧
      ((∃ item futures, FuturesUnordered.pollNext mid.futures = (.ready (some item), futures) ∧
          this' = recordItem { mid with futures := futures } item ∧
          log = log₁ ++ [.pollNext (.ready (some item))]) ∨
        (∃ answer futures, FuturesUnordered.pollNext mid.futures = (answer, futures) ∧
          (answer = .pending ∨ (answer = .ready none ∧ mid.stream ≠ none)) ∧
          madeProgress = true ∧ this' = { mid with futures := futures } ∧
          log = log₁ ++ [.pollNext answer])) := by
  obtain ⟨madeProgress, log₁, mid, log₂, stream, turn, rfl⟩ := iteration_cases h
  refine ⟨_, _, _, stream, ?_⟩
  rcases turn.of_again with ⟨item, futures, polled, rfl, rfl⟩ |
    ⟨answer, futures, polled, which, progress, rfl, rfl⟩
  · exact .inl ⟨_, _, polled, rfl, rfl⟩
  · exact .inr ⟨_, _, polled, which, progress, rfl, rfl⟩

/-! ## Small facts about the fields -/

@[simp] theorem recordError_stream (this : ForEachConcurrentThenTry St F Q E) (error : E) :
    (this.recordError error).stream = this.stream := by
  unfold recordError
  split <;> rfl

@[simp] theorem recordError_futures (this : ForEachConcurrentThenTry St F Q E) (error : E) :
    (this.recordError error).futures = this.futures := by
  unfold recordError
  split <;> rfl

@[simp] theorem recordError_limit (this : ForEachConcurrentThenTry St F Q E) (error : E) :
    (this.recordError error).limit = this.limit := by
  unfold recordError
  split <;> rfl

@[simp] theorem recordError_f (this : ForEachConcurrentThenTry St F Q E) (error : E) :
    (this.recordError error).f = this.f := by
  unfold recordError
  split <;> rfl

/-- The cached error is the earlier one, if there is one. -/
@[simp] theorem recordError_firstError (this : ForEachConcurrentThenTry St F Q E) (error : E) :
    (this.recordError error).firstError = this.firstError.or (some error) := by
  unfold recordError
  cases h : this.firstError <;> simp [h]

@[simp] theorem recordItem_stream (this : ForEachConcurrentThenTry St F Q E)
    (item : Except E Unit) : (this.recordItem item).stream = this.stream := by
  cases item <;> simp [recordItem]

@[simp] theorem recordItem_futures (this : ForEachConcurrentThenTry St F Q E)
    (item : Except E Unit) : (this.recordItem item).futures = this.futures := by
  cases item <;> simp [recordItem]

@[simp] theorem recordItem_limit (this : ForEachConcurrentThenTry St F Q E)
    (item : Except E Unit) : (this.recordItem item).limit = this.limit := by
  cases item <;> simp [recordItem]

@[simp] theorem recordItem_f (this : ForEachConcurrentThenTry St F Q E)
    (item : Except E Unit) : (this.recordItem item).f = this.f := by
  cases item <;> simp [recordItem]

omit [TryStream St A E] [FnMut F A Fut] in
/-- The second half of a pass polls the set once, and leaves the stream and the limit alone. -/
theorem FuturesTurn.polled {madeProgress : Bool} {mid : ForEachConcurrentThenTry St F Q E}
    {log : List (ForEachEvent A E Fut)}
    {pass : Pass (ForEachConcurrentThenTry St F Q E) (Poll (Except E Unit))}
    (turn : FuturesTurn madeProgress mid log pass) :
    ∃ answer, FuturesUnordered.pollNext mid.futures = (answer, pass.state.futures) ∧
      log = [.pollNext answer] ∧ pass.state.stream = mid.stream ∧
      pass.state.limit = mid.limit := by
  cases turn with
  | yielded polled => exact ⟨_, by simpa [Pass.state] using polled, rfl, by simp [Pass.state]⟩
  | finished polled gone => exact ⟨_, polled, rfl, rfl, rfl⟩
  | empty polled live => exact ⟨_, by simpa using polled, rfl, by simp⟩
  | pending polled => exact ⟨_, by simpa using polled, rfl, by simp⟩

/-- The guard reads the limit and the number of futures in flight only. -/
theorem belowLimit_congr {this that : ForEachConcurrentThenTry St F Q E}
    (limit : this.limit = that.limit)
    (len : FuturesUnordered.len this.futures = FuturesUnordered.len that.futures) :
    this.belowLimit = that.belowLimit := by
  unfold belowLimit
  rw [limit, len]

theorem belowLimit_iff {this : ForEachConcurrentThenTry St F Q E} :
    this.belowLimit = true ↔
      ∀ n, this.limit = some n → FuturesUnordered.len this.futures < n.1 := by
  unfold belowLimit
  cases this.limit <;> simp

/-- An empty set is below every limit. -/
theorem belowLimit_of_empty {this : ForEachConcurrentThenTry St F Q E}
    (empty : FuturesUnordered.len this.futures = 0) : this.belowLimit = true := by
  rw [belowLimit_iff, empty]
  exact fun n _ => n.2

end ForEachConcurrentThenTry

end CancelSafeFutures
