import CancelSafeFutures.Async.Loop
import CancelSafeFutures.Async.Results
import CancelSafeFutures.Async.Stream

/-!
# `CollectThenTry`

The model of `src/stream/collect_then_try.rs`.  `iteration` is the body of the `loop` in `poll`;
the answers of the stream are what is recorded.

`Absorbed` is what every pass keeps: the collection holds the successes yielded so far and the
cached error is the first one yielded, whatever is yielded after it.
-/

namespace CancelSafeFutures

open Async

/-- `Extend<A>`. -/
class Extend (C : Type) (A : outParam Type) where
  extend : C → List A → C

/-- `Vec<A>` is extended at its end. -/
instance {A : Type} : Extend (List A) A := ⟨fun items more => items ++ more⟩

/-- The future's fields. -/
structure CollectThenTry (St C E : Type) where
  stream : St
  items : C
  firstError : Option E

namespace CollectThenTry

variable {St C A E : Type} [Inhabited C] [Extend C A]

omit [Extend C A] in
/-- `CollectThenTry::new`. -/
def new (stream : St) : CollectThenTry St C E where
  stream := stream
  items := default
  firstError := none

omit [Inhabited C] in
/-- The arms for an item and for an error. -/
def absorb (this : CollectThenTry St C E) : Except E A → CollectThenTry St C E
  | .ok x => { this with items := Extend.extend this.items [x] }
  | .error error =>
    if this.firstError.isNone then { this with firstError := some error } else this

omit [Extend C A] in
/-- The arm for the end of the stream: `first_error.take()`, or else `mem::take(items)`. -/
def finish (this : CollectThenTry St C E) : Pass (CollectThenTry St C E) (Poll (Except E C)) :=
  match this.firstError with
  | some error => .leave (.ready (.error error)) { this with firstError := none }
  | none => .leave (.ready (.ok this.items)) { this with items := default }

/-- One pass of the `loop` in `poll`. -/
def iteration [TryStream St A E] (this : CollectThenTry St C E) :
    Run (List (Poll (Option (Except E A))) × Pass (CollectThenTry St C E) (Poll (Except E C))) :=
  match TryStream.tryPollNext this.stream with
  | (.pending, stream) => .ok ([.pending], .leave .pending { this with stream := stream })
  | (.ready (some result), stream) =>
    .ok ([.ready (some result)], .again (absorb { this with stream := stream } result))
  | (.ready none, stream) => .ok ([.ready none], finish { this with stream := stream })

/-- `Future::poll`, for at most `fuel` passes of its loop. -/
def poll [TryStream St A E] : Nat → CollectThenTry St C E →
    Run (Poll (Except E C) × List (Poll (Option (Except E A))) × CollectThenTry St C E) :=
  loop iteration

/-- `FusedFuture::is_terminated`. -/
def isTerminated [FusedStream St] (this : CollectThenTry St C E) : Bool :=
  FusedStream.isTerminated this.stream

/-! ## What a pass keeps -/

/-- What the stream yielded, in order. -/
def yielded (log : List (Poll (Option (Except E A)))) : List (Except E A) :=
  log.filterMap fun answer => match answer with
    | .ready (some result) => some result
    | _ => none

omit [Inhabited C] in
/-- Extended by one item at a time. -/
def extendAll (items : C) (more : List A) : C :=
  more.foldl (fun items x => Extend.extend items [x]) items

/-- The value of a collection that has absorbed `results`. -/
def collected (results : List (Except E A)) : Except E C :=
  match firstErrorOf results with
  | some error => .error error
  | none => .ok (extendAll default (successes results))

/-- The state between passes holds exactly what the stream yielded so far. -/
structure Absorbed (this : CollectThenTry St C E) (results : List (Except E A)) : Prop where
  items : this.items = extendAll default (successes results)
  error : this.firstError = firstErrorOf results

section Absorb

omit [Inhabited C]

variable (this : CollectThenTry St C E) (result : Except E A)

@[simp] theorem absorb_stream : (this.absorb result).stream = this.stream := by
  cases result with
  | ok x => rfl
  | error error => cases cached : this.firstError <;> simp [absorb, cached]

@[simp] theorem absorb_items :
    (this.absorb result).items = extendAll this.items (successes [result]) := by
  cases result with
  | ok x => rfl
  | error error => cases cached : this.firstError <;> simp [absorb, cached, extendAll, successes]

/-- The cached error is the earlier one, if there is one. -/
@[simp] theorem absorb_firstError :
    (this.absorb result).firstError = this.firstError.or (firstErrorOf [result]) := by
  cases result with
  | ok x => exact Option.or_none.symm
  | error error => cases cached : this.firstError <;> simp [absorb, cached, firstErrorOf]

end Absorb

theorem Absorbed.start (stream : St) :
    Absorbed (new stream : CollectThenTry St C E) ([] : List (Except E A)) := ⟨rfl, rfl⟩

theorem Absorbed.absorb {this : CollectThenTry St C E} {results : List (Except E A)}
    (absorbed : Absorbed this results) (stream : St) (result : Except E A) :
    Absorbed (CollectThenTry.absorb { this with stream := stream } result)
      (results ++ [result]) where
  items := by
    rw [absorb_items, successes_append]
    simp only [absorbed.items, extendAll, List.foldl_append]
  error := by
    rw [absorb_firstError, firstErrorOf_append]
    simp only [absorbed.error]

/-- What is returned at the end of the stream. -/
theorem Absorbed.finish {this : CollectThenTry St C E} {results : List (Except E A)}
    (absorbed : Absorbed this results) (stream : St) :
    ∃ this', CollectThenTry.finish { this with stream := stream } =
      .leave (.ready (collected results)) this' ∧ this'.stream = stream := by
  obtain ⟨items, error⟩ := absorbed
  unfold CollectThenTry.finish collected
  rw [← items, ← error]
  cases this.firstError with
  | none => exact ⟨_, rfl, rfl⟩
  | some first => exact ⟨_, rfl, rfl⟩

/-! ## What a pass can do -/

variable [TryStream St A E]

theorem again_cases {this this' : CollectThenTry St C E} {log : List (Poll (Option (Except E A)))}
    (h : this.iteration = .ok (log, .again this')) :
    ∃ result stream, TryStream.tryPollNext this.stream = (.ready (some result), stream) ∧
      log = [.ready (some result)] ∧ this' = absorb { this with stream := stream } result := by
  unfold iteration at h
  split at h
  · cases h
  · next polled =>
      cases h
      exact ⟨_, _, polled, rfl, rfl⟩
  · unfold finish at h
    split at h <;> cases h

theorem leave_pending_cases {this this' : CollectThenTry St C E}
    {log : List (Poll (Option (Except E A)))}
    (h : this.iteration = .ok (log, .leave .pending this')) :
    ∃ stream, TryStream.tryPollNext this.stream = (.pending, stream) ∧ log = [.pending] ∧
      this' = { this with stream := stream } := by
  unfold iteration at h
  split at h
  · next polled =>
      cases h
      exact ⟨_, polled, rfl, rfl⟩
  · cases h
  · unfold finish at h
    split at h <;> cases h

theorem leave_ready_cases {this this' : CollectThenTry St C E}
    {log : List (Poll (Option (Except E A)))} {value : Except E C}
    (h : this.iteration = .ok (log, .leave (.ready value) this')) :
    ∃ stream, TryStream.tryPollNext this.stream = (.ready none, stream) ∧ log = [.ready none] ∧
      finish { this with stream := stream } = .leave (.ready value) this' := by
  unfold iteration at h
  split at h
  · cases h
  · cases h
  · next stream polled =>
      obtain ⟨rfl, left⟩ := Prod.mk.inj (Except.ok.inj h)
      exact ⟨stream, polled, rfl, left⟩

/-- A pass never panics. -/
theorem iteration_ok (this : CollectThenTry St C E) :
    ∃ r, (this.iteration : Run (List (Poll (Option (Except E A))) × _)) = .ok r := by
  unfold iteration
  split
  · exact ⟨_, rfl⟩
  · exact ⟨_, rfl⟩
  · exact ⟨_, rfl⟩

end CollectThenTry

end CancelSafeFutures
