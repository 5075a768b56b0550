import CancelSafeFutures.Future.JoinAllRuns
import CancelSafeFutures.Stream.CollectRuns
import CancelSafeFutures.Stream.ForEachConcurrentThenTry

/-!
# Polls after the first `Ready`

A future should not be polled again once it has resolved, but it can be.  `CollectThenTry` takes
its collection out only where it returns it: after an error the collection is still there, and the
next poll returns it (`collectThenTry_afterwards`).  So does `JoinAllThenTry` with more than `SMALL`
futures, whereas the slice has been replaced by an empty one (`joinAllThenTry_afterwards`).
`ForEachConcurrentThenTry` has nothing left to poll (`forEach_afterwards`).
-/

namespace CancelSafeFutures

open Async

namespace CollectThenTry

variable {St C A E : Type} [Inhabited C] [Extend C A]

/-- What is left of the collection when `value` is returned. -/
def leftOver (value : Except E C) (results : List (Except E A)) : C :=
  match value with
  | .ok _ => default
  | .error _ => extendAll default (successes results)

/-- The future has resolved, `items` is left of its collection, and `I` holds of the stream. -/
structure Spent (I : St → Prop) (items : C) (this : CollectThenTry St C E) : Prop where
  stream : I this.stream
  items : this.items = items
  error : this.firstError = none

variable [TryStream St A E] {I : St → Prop} {items : C} {this this' : CollectThenTry St C E}

/-- The pass that returns `Ready`. -/
theorem Absorbed.spent {results : List (Except E A)} {log : List (Poll (Option (Except E A)))}
    {value : Except E C} (absorbed : Absorbed this results)
    (left : this.iteration = .ok (log, .leave (.ready value) this')) :
    this'.firstError = none ∧ this'.items = leftOver value results := by
  obtain ⟨st, -, -, finish⟩ := leave_ready_cases left
  unfold CollectThenTry.finish at finish
  split at finish
  · cases finish
    exact ⟨rfl, absorbed.items⟩
  · next none =>
      cases finish
      exact ⟨none, rfl⟩

/-- The first `Ready`. -/
theorem spent_of_firstReady {stream : St} {n : Nat} {log : List (Poll (Option (Except E A)))}
    {value : Except E C} (first : FirstReady poll (new stream) n log value this) :
    this.firstError = none ∧ this.items = leftOver value (yielded log) := by
  refine FirstReady.rule (I := fun s log => Absorbed s (yielded log))
    (P := fun value log s => s.firstError = none ∧ s.items = leftOver value (yielded log))
    (.start stream) ?_ ?_ ?_ first
  · intro s log l s' absorbed again
    obtain ⟨result, st, -, rfl, rfl⟩ := again_cases again
    rw [yielded_append, yielded_item]
    exact absorbed.absorb st result
  · intro s log l s' absorbed left
    obtain ⟨st, -, rfl, rfl⟩ := leave_pending_cases left
    rw [yielded_append, yielded_pending, List.append_nil]
    exact ⟨absorbed.items, absorbed.error⟩
  · intro s log l value s' absorbed left
    have spent := absorbed.spent left
    obtain ⟨st, -, rfl, -⟩ := leave_ready_cases left
    have no_more : yielded (log ++ [.ready none]) = yielded log := by
      rw [yielded_append]
      exact List.append_nil _
    rw [no_more]
    exact spent

/-- One more poll. -/
theorem Spent.poll
    (ended : ∀ {st}, I st → ∃ st', TryStream.tryPollNext st = (.ready none, st') ∧ I st')
    (spent : Spent I items this) :
    ∃ left, CollectThenTry.poll 1 this = .ok (.ready (.ok items), [.ready none], left) ∧
      Spent I default left := by
  obtain ⟨st, polled, still⟩ := ended spent.stream
  refine ⟨{ this with stream := st, items := default }, ?_, still, rfl, spent.error⟩
  simp only [CollectThenTry.poll, loop, iteration, polled, finish, spent.error, spent.items]

/-- **Polls after the first `Ready`**, of a stream that goes on answering `None`.  An error is
returned once.  The first poll after it returns what was collected beside it, and all others
return an empty collection. -/
theorem collectThenTry_afterwards {stream : St} {n : Nat}
    {log : List (Poll (Option (Except E A)))} {value : Except E C}
    (first : FirstReady CollectThenTry.poll (new stream) n log value this)
    (fused : Fused this.stream)
    {calls : List (Call (CollectThenTry St C E) (Except E C) (Poll (Option (Except E A))))}
    (run : Polls CollectThenTry.poll this calls this') :
    (∃ r, CollectThenTry.poll 1 this' = .ok r) ∧
      ∀ (k : Nat) call, calls[k]? = some call → call.log = [.ready none] ∧
        call.answer = .ready (.ok (if k = 0 then leftOver value (yielded log) else default)) := by
  obtain ⟨error, items⟩ := spent_of_firstReady first
  have past : Spent Fused (leftOver value (yielded log)) this := ⟨fused, items, error⟩
  obtain ⟨spent, answers⟩ := run.afterwards _ _ poll_deterministic (Spent.poll Fused.poll) past
  obtain ⟨left, called, -⟩ := spent.poll Fused.poll
  exact ⟨⟨_, called⟩, answers⟩

/-- It is pending once, and fails between two items. -/
def failsBetween : Fuse (Script (Option (Except Nat Nat))) :=
  ⟨some ⟨[.ready (some (.ok 1)), .ready (some (.error 5)), .pending, .ready (some (.ok 2)),
    .ready none]⟩⟩

theorem collectThenTry_afterwards_failsBetween :
    ∃ log this, FirstReady CollectThenTry.poll
        (new failsBetween : CollectThenTry _ (List Nat) Nat) 1 log (.error 5) this ∧
      ∀ {calls this'}, Polls CollectThenTry.poll this calls this' →
        (∃ r, CollectThenTry.poll 1 this' = .ok r) ∧
          ∀ (k : Nat) call, calls[k]? = some call → call.log = [.ready none] ∧ call.answer =
            .ready (.ok (if k = 0 then leftOver (.error 5) (yielded log) else default)) := by
  obtain ⟨s₁, log₁, log₂, s₂, called₁, called₂, dropped⟩ : ∃ s₁ log₁ log₂ s₂,
      CollectThenTry.poll 3 (new failsBetween : CollectThenTry _ (List Nat) Nat) =
        .ok (.pending, log₁, s₁) ∧
      CollectThenTry.poll 2 s₁ = .ok (.ready (.error 5), log₂, s₂) ∧ s₂.stream = ⟨none⟩ :=
    ⟨_, _, _, _, rfl, rfl, rfl⟩
  have first : FirstReady CollectThenTry.poll
      (new failsBetween : CollectThenTry _ (List Nat) Nat) 1 _ (.error 5) s₂ :=
    .mk (.poll .start called₁) (by simp) called₂
  exact ⟨_, s₂, first, fun run =>
    collectThenTry_afterwards first (dropped ▸ Fuse.fused) run⟩

/-- What a call has asked of the stream. -/
theorem plays_call {fuel : Nat} {answer : Poll (Except E C)}
    {log : List (Poll (Option (Except E A)))}
    (called : CollectThenTry.poll fuel this = .ok (answer, log, this')) :
    Plays this.stream log this'.stream ∧ (.ready none ∈ log ↔ ∃ value, answer = .ready value) := by
  have loops : Loops iteration this answer log this' := Loops.of_loop called
  refine loops.rule (I := fun s log => Plays this.stream log s.stream ∧ .ready none ∉ log)
    (P := fun answer log s => Plays this.stream log s.stream ∧
      (.ready none ∈ log ↔ ∃ value, answer = .ready value)) ?_ ?_ ⟨.nil _, List.not_mem_nil⟩
  · intro s log l s' inv again
    obtain ⟨result, st, polled, rfl, rfl⟩ := again_cases again
    rw [absorb_stream]
    exact ⟨inv.1.concat polled, by simpa using inv.2⟩
  · intro s log l answer s' inv left
    cases answer with
    | pending =>
        obtain ⟨st, polled, rfl, rfl⟩ := leave_pending_cases left
        exact ⟨inv.1.concat polled, by simpa using inv.2⟩
    | ready value =>
        obtain ⟨st, polled, rfl, finish⟩ := leave_ready_cases left
        have stream : s'.stream = st := by
          unfold CollectThenTry.finish at finish
          split at finish <;> cases finish <;> rfl
        rw [stream]
        exact ⟨inv.1.concat polled, by simp⟩

/-- **`FusedFuture`.**  Over a stream that tells exactly whether it has answered `None`, the future
tells exactly whether it has answered `Ready`. -/
theorem collectThenTry_terminated_iff [FusedStream St] {stream : St}
    (tells : ∀ as st, Plays stream as st →
      (FusedStream.isTerminated st = true ↔ .ready none ∈ as))
    {calls : List (Call (CollectThenTry St C E) (Except E C) (Poll (Option (Except E A))))}
    (run : Polls CollectThenTry.poll (new stream) calls this) :
    this.isTerminated = true ↔ ∃ call ∈ calls, ∃ value, call.answer = .ready value := by
  have asked : Plays stream (calls.flatMap Call.log) this.stream ∧
      (.ready none ∈ calls.flatMap Call.log ↔
        ∃ call ∈ calls, ∃ value, call.answer = .ready value) := by
    induction run with
    | start => exact ⟨.nil _, by simp⟩
    | @poll calls s answer log s' fuel _ called ih =>
        obtain ⟨plays, resolved⟩ := plays_call called
        rw [List.flatMap_append, List.flatMap_singleton]
        refine ⟨ih.1.append plays, ?_⟩
        rw [List.mem_append, ih.2, resolved]
        simp [or_and_right, exists_or]
  exact (tells _ _ asked.1).trans asked.2

theorem collectThenTry_terminated_iff_failsBetween :
    ∃ calls this, Polls CollectThenTry.poll
        (new failsBetween : CollectThenTry _ (List Nat) Nat) calls this ∧ calls.length = 2 ∧
      (this.isTerminated = true ↔ ∃ call ∈ calls, ∃ value, call.answer = .ready value) := by
  obtain ⟨s₁, log₁, log₂, s₂, called₁, called₂⟩ : ∃ s₁ log₁ log₂ s₂,
      CollectThenTry.poll 3 (new failsBetween : CollectThenTry _ (List Nat) Nat) =
        .ok (.pending, log₁, s₁) ∧
      CollectThenTry.poll 2 s₁ = .ok (.ready (.error 5), log₂, s₂) := ⟨_, _, _, _, rfl, rfl⟩
  have run := (Polls.start.poll called₁).poll called₂
  exact ⟨_, s₂, run, rfl,
    collectThenTry_terminated_iff (fun _ _ plays => Fuse.isTerminated_iff plays) run⟩

end CollectThenTry

namespace JoinAllThenTry

variable {F Q A E : Type} [Future F (Except E A)] [FuturesOrdered Q F (Except E A)]

/-- What the first poll after the first `Ready(result)` returns, where `outs` are the outputs. -/
def remainder (sizeHint : Option Nat) (result : Except E (List A)) (outs : List (Except E A)) :
    List A :=
  match sizeHint with
  | some max => if max ≤ SMALL then [] else CollectThenTry.leftOver result outs
  | none => CollectThenTry.leftOver result outs

/-- The future has resolved, and its next poll returns `items`. -/
inductive Over : List A → JoinAllThenTry F Q A E → Prop
  | small : Over [] ⟨.small []⟩
  | big {items fut} :
      CollectThenTry.Spent FuturesOrdered.Exhausted items fut → Over items ⟨.big fut⟩

/-- One more poll. -/
theorem Over.poll [MaybeDone.Impl] {items : List A} {this : JoinAllThenTry F Q A E}
    (past : Over items this) :
    ∃ left, JoinAllThenTry.poll 1 this = .ok (.ready (.ok items), [], left) ∧ Over [] left := by
  cases past with
  | small => exact ⟨_, rfl, .small⟩
  | @big items fut spent =>
      have alike : CollectThenTry.Spent (fun q => FuturesOrdered.Exhausted q ∧
          FuturesOrdered.log q = FuturesOrdered.log fut.stream) items fut :=
        ⟨⟨spent.stream, rfl⟩, spent.items, spent.error⟩
      obtain ⟨left, called, spent'⟩ := alike.poll fun {q} still => by
        obtain ⟨q', polled, exhausted, log⟩ := still.1.poll
        exact ⟨q', polled, exhausted, log.trans still.2⟩
      refine ⟨⟨.big left⟩, ?_, .big ⟨spent'.stream.1, spent'.items, spent'.error⟩⟩
      simp only [JoinAllThenTry.poll, called, run_bind_ok, newPolls, spent'.stream.2,
        List.drop_length]

theorem Ordered.outcomes {futs : List F} {fut : CollectThenTry Q (List A) E}
    {results : List (Except E A)} (ordered : Ordered futs fut results)
    (all : results.length = futs.length) : List.Forall₂ Outcome futs results := by
  refine List.forall₂_of_length_eq_of_get all.symm fun k lt lt' => ?_
  have ready := mem_answersOf (ordered.outputs (List.getElem?_eq_getElem lt'))
  exact ((ordered.progress (List.getElem?_eq_getElem lt)).resolves_of_mem ready).2

/-- All outputs were handed out. -/
theorem Ordered.exhausted {futs : List F} {fut : CollectThenTry Q (List A) E}
    {results : List (Except E A)} (ordered : Ordered futs fut results)
    (all : results.length = futs.length) : FuturesOrdered.Exhausted fut.stream where
  yielded := by rw [ordered.yielded, all, ordered.pushed]
  members k := by
    rcases Nat.lt_or_ge k futs.length with lt | ge
    · have ready := mem_answersOf (ordered.outputs (List.getElem?_eq_getElem (all ▸ lt)))
      exact (ordered.progress (List.getElem?_eq_getElem lt)).none_of_mem ready
    · exact (ordered.fresh ge).1

/-- The call of the collecting loop that returns `Ready`. -/
theorem Ordered.past {futs : List F} {fut fut' : CollectThenTry Q (List A) E}
    {results : List (Except E A)} {fuel : Nat} {value : Except E (List A)}
    {log : List (Poll (Option (Except E A)))} (ordered : Ordered futs fut results)
    (h : fut.poll fuel = .ok (.ready value, log, fut')) :
    ∃ outs, List.Forall₂ Outcome futs outs ∧ value = collectResults outs ∧
      CollectThenTry.Spent FuturesOrdered.Exhausted (CollectThenTry.leftOver value outs) fut' := by
  have loops : Loops CollectThenTry.iteration fut (.ready value) log fut' := Loops.of_loop h
  have ends : ∀ value', Poll.ready value = .ready value' → _ := loops.rule_state
    (I := fun now => ∃ results, Ordered futs now results)
    (P := fun answer left => ∀ value, answer = .ready value →
      ∃ outs, List.Forall₂ Outcome futs outs ∧ value = collectResults outs ∧
        CollectThenTry.Spent FuturesOrdered.Exhausted (CollectThenTry.leftOver value outs) left)
    (fun ⟨_, ordered⟩ again => ⟨_, ordered.again again⟩)
    (fun {now l answer left} ⟨outs, ordered⟩ leave value ready => by
      subst ready
      obtain ⟨q, polled, -, finish⟩ := CollectThenTry.leave_ready_cases leave
      obtain ⟨all, yielded⟩ := FuturesOrdered.pollNext_none polled
      obtain ⟨left', finish', stream⟩ := ordered.absorbed.finish q
      cases finish.symm.trans finish'
      have handed_out : outs.length = futs.length :=
        ordered.yielded.symm.trans (all.trans ordered.pushed)
      have still : Ordered futs { now with stream := q } outs :=
        ordered.polled polled rfl (yielded.trans ordered.yielded) (fun at_k => .inl at_k)
          ⟨ordered.absorbed.items, ordered.absorbed.error⟩
      obtain ⟨error, items⟩ := ordered.absorbed.spent leave
      exact ⟨outs, ordered.outcomes handed_out, collected_eq outs,
        stream ▸ still.exhausted handed_out, items, error⟩)
    ⟨results, ordered⟩
  exact ends value rfl

/-- The collecting loop after any number of calls that answered `Pending`. -/
theorem big_of_polls [MaybeDone.Impl] {futs : List F}
    {calls : List (Call (JoinAllThenTry F Q A E) (Except E (List A)) (Nat × Poll (Except E A)))}
    {this : JoinAllThenTry F Q A E}
    (run : Polls JoinAllThenTry.poll ⟨.big (CollectThenTry.new (collectOrdered futs))⟩ calls this)
    (pending : ∀ call ∈ calls, call.answer = .pending) :
    ∃ fut results, this = ⟨.big fut⟩ ∧ Ordered futs fut results := by
  induction run with
  | start => exact ⟨_, [], rfl, .start futs⟩
  | @poll calls s answer log s' fuel _ called ih =>
      obtain ⟨fut, results, rfl, ordered⟩ :=
        ih fun call mem => pending call (List.mem_append_left _ mem)
      have last : answer = .pending := pending ⟨⟨.big fut⟩, answer, log, s'⟩ (by simp)
      subst last
      obtain ⟨answers, fut', called', -, rfl⟩ := poll_big called
      obtain ⟨results', ordered'⟩ := (ordered.poll called').2.1 rfl
      exact ⟨fut', results', rfl, ordered'⟩

/-- What the first `Ready` leaves of the slice. -/
theorem over_small [MaybeDone.Impl] {futs : List F} {n : Nat}
    {log : PollLog (Except E A)} {result : Except E (List A)} {this : JoinAllThenTry F Q A E}
    (first : FirstReady JoinAllThenTry.poll ⟨.small (futs.map MaybeDone.future)⟩ n log result
      this) :
    ∃ outs, List.Forall₂ Outcome futs outs ∧ result = collectResults outs ∧ Over [] this := by
  obtain @⟨calls, s, log', _, fuel, _, run, pending, ready⟩ := first
  obtain rfl := small_of_polls run pending
  rcases poll_small (Q := Q) fuel futs calls.length with
    ⟨-, called⟩ | ⟨outs, -, outcomes, -, called⟩
  · cases called.symm.trans ready
  · cases called.symm.trans ready
    exact ⟨outs, outcomes, rfl, .small⟩

/-- What it leaves of the collecting loop. -/
theorem over_big [MaybeDone.Impl] {futs : List F} {n : Nat}
    {log : PollLog (Except E A)} {result : Except E (List A)} {this : JoinAllThenTry F Q A E}
    (first : FirstReady JoinAllThenTry.poll ⟨.big (CollectThenTry.new (collectOrdered futs))⟩ n
      log result this) :
    ∃ outs, List.Forall₂ Outcome futs outs ∧ result = collectResults outs ∧
      Over (CollectThenTry.leftOver result outs) this := by
  obtain @⟨calls, s, log', _, fuel, _, run, pending, ready⟩ := first
  obtain ⟨fut, results, rfl, ordered⟩ := big_of_polls run pending
  obtain ⟨answers, fut', called, -, rfl⟩ := poll_big ready
  obtain ⟨outs, outcomes, result_eq, spent⟩ := ordered.past called
  exact ⟨outs, outcomes, result_eq, .big spent⟩

/-- **Polls after the first `Ready`.**  They do not panic, they poll no input future and they
return no error.  All return an empty list, but for the first of them if there were more than
`SMALL` futures and one has failed: that returns the outputs of those that have succeeded. -/
theorem joinAllThenTry_afterwards [MaybeDone.Impl] {sizeHint : Option Nat} {futs : List F} {n : Nat}
    {log : PollLog (Except E A)} {result : Except E (List A)} {this : JoinAllThenTry F Q A E}
    (first : FirstReady JoinAllThenTry.poll (joinAllThenTry sizeHint futs) n log result this) :
    ∃ outs, List.Forall₂ Outcome futs outs ∧ result = collectResults outs ∧
      ∀ {calls : List (Call (JoinAllThenTry F Q A E) (Except E (List A))
          (Nat × Poll (Except E A)))} {this' : JoinAllThenTry F Q A E},
        Polls JoinAllThenTry.poll this calls this' →
        (∃ r, this'.poll 1 = .ok r) ∧
          ∀ (k : Nat) call, calls[k]? = some call → call.log = [] ∧
            call.answer = .ready (.ok (if k = 0 then remainder sizeHint result outs else [])) := by
  have past : ∃ outs, List.Forall₂ Outcome futs outs ∧ result = collectResults outs ∧
      Over (remainder sizeHint result outs) this := by
    unfold joinAllThenTry at first
    cases sizeHint with
    | none => exact over_big first
    | some max =>
        simp only [remainder] at first ⊢
        split at first
        · simp only [*, if_true]
          exact over_small first
        · simp only [*, if_false]
          exact over_big first
  obtain ⟨outs, outcomes, result_eq, past⟩ := past
  refine ⟨outs, outcomes, result_eq, fun {calls this'} run => ?_⟩
  obtain ⟨past', answers⟩ := run.afterwards _ _ poll_deterministic Over.poll past
  obtain ⟨left, called, -⟩ := past'.poll
  exact ⟨⟨_, called⟩, answers⟩

/-- One future that succeeds and one that fails. -/
def oneFails : List (Script (Except Nat Nat)) := [⟨[.ready (.ok 1)]⟩, ⟨[.ready (.error 2)]⟩]

/-- Without an upper bound on the number of futures. -/
def unbounded : JoinAllThenTry (Script (Except Nat Nat))
    (WokenQueue (Script (Except Nat Nat)) (Except Nat Nat)) Nat Nat :=
  joinAllThenTry none oneFails

theorem joinAllThenTry_afterwards_oneFails :
    ∃ log this, FirstReady JoinAllThenTry.poll unbounded 0 log (.error 2) this ∧
      ∃ outs, List.Forall₂ Outcome oneFails outs ∧ .error 2 = collectResults outs ∧
        ∀ {calls this'}, Polls JoinAllThenTry.poll this calls this' →
          (∃ r, this'.poll 1 = .ok r) ∧
            ∀ (k : Nat) call, calls[k]? = some call → call.log = [] ∧
              call.answer =
                .ready (.ok (if k = 0 then remainder none (.error 2) outs else [])) := by
  obtain ⟨log, this, called⟩ : ∃ log this, unbounded.poll 3 = .ok (.ready (.error 2), log, this) :=
    ⟨_, _, rfl⟩
  have first : FirstReady JoinAllThenTry.poll unbounded 0 _ (.error 2) this :=
    .mk .start (by simp) called
  exact ⟨_, this, first, joinAllThenTry_afterwards first⟩

end JoinAllThenTry

namespace ForEachConcurrentThenTry

variable {St A E F Fut Q : Type} [TryStream St A E] [FnMut F A Fut]
  [Future Fut (Except E Unit)] [FuturesUnordered Q Fut (Except E Unit)]

/-- The adapter has resolved, and its set of futures has recorded `log`. -/
structure Done (log : PollLog (Except E Unit)) (this : ForEachConcurrentThenTry St F Q E) :
    Prop where
  stream : this.stream = none
  empty : FuturesUnordered.len this.futures = 0
  error : this.firstError = none
  log : FuturesUnordered.log this.futures = log

theorem done_of_firstReady {stream : St} {limit : Option Nat} {f : F} {n : Nat}
    {log : List (ForEachEvent A E Fut)} {result : Except E Unit}
    {this : ForEachConcurrentThenTry St F Q E}
    (first : FirstReady poll (new stream limit f) n log result this) :
    Done (FuturesUnordered.log this.futures) this := by
  refine FirstReady.rule (I := fun _ _ => True)
    (P := fun _ _ this => Done (FuturesUnordered.log this.futures) this) trivial
    (fun _ _ => trivial) (fun _ _ => trivial) ?_ first
  intro s log l result s' _ left
  obtain ⟨_, _, mid, futures, -, polled, gone, -, rfl, -⟩ := leave_ready_cases left
  exact ⟨gone, (FuturesUnordered.pollNext_none polled).2.1, rfl, rfl⟩

/-- One more poll. -/
theorem Done.poll {log : PollLog (Except E Unit)} {this : ForEachConcurrentThenTry St F Q E}
    (done : Done log this) :
    ∃ left, ForEachConcurrentThenTry.poll 1 this =
        .ok (.ready (.ok ()), [.pollNext (.ready none)], left) ∧ Done log left := by
  obtain ⟨futures, polled, empty, log_eq⟩ := FuturesUnordered.poll_empty done.empty
  refine ⟨{ this with futures := futures }, ?_, done.stream, empty, done.error,
    log_eq.trans done.log⟩
  have skipped : this.pollStream = (false, [], this) := by
    unfold pollStream
    rw [done.stream]
    split <;> rfl
  have left : this.pollFutures (A := A) false =
      ([.pollNext (.ready none)], .leave (.ready (.ok ())) { this with futures := futures }) := by
    simp only [pollFutures, polled, done.stream, done.error, Option.isNone_none, if_true, resultOf]
  simp only [ForEachConcurrentThenTry.poll, loop, iteration, skipped, left, List.nil_append]

/-- **Polls after the first `Ready`.**  Whatever that has returned, they return `Ok`, and they poll
neither the stream nor any future. -/
theorem forEach_afterwards {stream : St} {limit : Option Nat} {f : F} {n : Nat}
    {log : List (ForEachEvent A E Fut)} {result : Except E Unit}
    {this this' : ForEachConcurrentThenTry St F Q E}
    (first : FirstReady poll (new stream limit f) n log result this)
    {calls : List (Call (ForEachConcurrentThenTry St F Q E) (Except E Unit)
      (ForEachEvent A E Fut))} (run : Polls poll this calls this') :
    (∃ r, this'.poll 1 = .ok r) ∧ this'.isTerminated = true ∧
      FuturesUnordered.log this'.futures = FuturesUnordered.log this.futures ∧
      ∀ call ∈ calls, call.answer = .ready (.ok ()) ∧ call.log = [.pollNext (.ready none)] := by
  have step : ∀ {c : Unit} {s : ForEachConcurrentThenTry St F Q E},
      Done (FuturesUnordered.log this.futures) s → ∃ left,
        ForEachConcurrentThenTry.poll 1 s = .ok (.ready (.ok c), [.pollNext (.ready none)], left) ∧
          Done (FuturesUnordered.log this.futures) left := fun done => done.poll
  obtain ⟨done, answers⟩ :=
    run.afterwards () () poll_deterministic step (done_of_firstReady first)
  obtain ⟨left, called, -⟩ := done.poll
  refine ⟨⟨_, called⟩, ?_, done.log, fun call mem => ?_⟩
  · rw [isTerminated, done.stream, done.empty]
    rfl
  · obtain ⟨k, at_k⟩ := List.mem_iff_getElem?.mp mem
    exact (answers k call at_k).symm

/-- A new adapter over a stream that fails and ends. -/
def failsAtOnce : ForEachConcurrentThenTry (Script (Option (Except Nat Nat)))
    (Nat → Script (Except Nat Unit)) (WokenSet (Script (Except Nat Unit)) (Except Nat Unit)) Nat :=
  new ⟨[.ready (some (.error 7)), .ready none]⟩ none fun _ => ⟨[.ready (.ok ())]⟩

theorem forEach_afterwards_failsAtOnce :
    ∃ log this, FirstReady poll failsAtOnce 1 log (.error 7) this ∧
      ∀ {calls this'}, Polls poll this calls this' →
        (∃ r, this'.poll 1 = .ok r) ∧ this'.isTerminated = true ∧
          FuturesUnordered.log this'.futures = FuturesUnordered.log this.futures ∧
          ∀ call ∈ calls,
            call.answer = .ready (.ok ()) ∧ call.log = [.pollNext (.ready none)] := by
  obtain ⟨s₁, log₁, log₂, s₂, called₁, called₂⟩ : ∃ s₁ log₁ log₂ s₂,
      poll 1 failsAtOnce = .ok (.pending, log₁, s₁) ∧
        poll 1 s₁ = .ok (.ready (.error 7), log₂, s₂) := ⟨_, _, _, _, rfl, rfl⟩
  have first : FirstReady poll failsAtOnce 1 _ (.error 7) s₂ :=
    .mk (.poll .start called₁) (by simp) called₂
  exact ⟨_, s₂, first, fun run => forEach_afterwards first run⟩

end ForEachConcurrentThenTry

end CancelSafeFutures
