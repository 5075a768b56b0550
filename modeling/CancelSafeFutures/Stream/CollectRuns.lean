import CancelSafeFutures.Stream.CollectThenTry
import Mathlib.Data.List.Infix

/-!
# Runs of `CollectThenTry`

What the future has recorded is what its stream was asked, so `Kept` relates the state between two
polls to all that the stream has answered so far.  A call of `poll` ends at the first answer that
is no element (`poll_kept`): `Pending` if the stream is, and `Ready` with the stream's `None`.

`collectThenTry_drains` puts the calls together.  The value is that of `collected` on the elements
alone, so it does not depend on where the stream was pending.
-/

namespace CancelSafeFutures.CollectThenTry

open Async

variable {St C A E : Type} [Inhabited C] [Extend C A]

/-! ## Reading the record -/

section Yielded

omit [Inhabited C] [Extend C A]

variable (log log' : List (Poll (Option (Except E A))))

@[simp] theorem yielded_append : yielded (log ++ log') = yielded log ++ yielded log' :=
  List.filterMap_append

@[simp] theorem yielded_item (result : Except E A) :
    yielded [.ready (some result)] = [result] := rfl

@[simp] theorem yielded_pending : yielded [(.pending : Poll (Option (Except E A)))] = [] := rfl

/-- The `Pending` answers in a record. -/
def pendings : Nat := log.countP Poll.isPending

@[simp] theorem pendings_append : pendings (log ++ log') = pendings log + pendings log' :=
  List.countP_append

end Yielded

variable [TryStream St A E] {stream : St}

/-- Between two polls: the stream has been asked for `log` and has not ended, the state holds what
it yielded, and each of the `n` calls has ended in a `Pending`. -/
structure Kept (stream : St) (n : Nat) (this : CollectThenTry St C E)
    (log : List (Poll (Option (Except E A)))) : Prop where
  absorbed : Absorbed this (yielded log)
  plays : Plays stream log this.stream
  live : .ready none ∉ log
  count : pendings log = n

theorem Kept.start (stream : St) : Kept stream 0 (new stream : CollectThenTry St C E) [] :=
  ⟨.start stream, .nil stream, List.not_mem_nil, rfl⟩

/-- When the stream has ended: it was asked up to its `None`, and the value is that of all it
yielded. -/
structure Drained (stream : St) (n : Nat) (value : Except E C)
    (log : List (Poll (Option (Except E A)))) (left : St) : Prop where
  plays : Plays stream log left
  ended : ∃ answers, log = answers ++ [.ready none] ∧ .ready none ∉ answers ∧
    pendings answers = n ∧ value = collected (yielded answers)

/-! ## One pass -/

section Pass

variable {n : Nat} {this this' : CollectThenTry St C E}
  {log l : List (Poll (Option (Except E A)))}

theorem Kept.again (kept : Kept stream n this log) (step : this.iteration = .ok (l, .again this')) :
    Kept stream n this' (log ++ l) ∧ .ready none ∉ l := by
  obtain ⟨result, st, polled, rfl, rfl⟩ := again_cases step
  refine ⟨⟨?_, ?_, ?_, ?_⟩, by simp⟩
  · rw [yielded_append, yielded_item]
    exact kept.absorbed.absorb st result
  · rw [absorb_stream]
    exact kept.plays.concat polled
  · simpa using kept.live
  · rw [pendings_append, kept.count]
    rfl

theorem Kept.pending (kept : Kept stream n this log)
    (step : this.iteration = .ok (l, .leave .pending this')) :
    Kept stream (n + 1) this' (log ++ l) ∧ .ready none ∉ l := by
  obtain ⟨st, polled, rfl, rfl⟩ := leave_pending_cases step
  refine ⟨⟨?_, kept.plays.concat polled, ?_, ?_⟩, by simp⟩
  · rw [yielded_append, yielded_pending, List.append_nil]
    exact ⟨kept.absorbed.items, kept.absorbed.error⟩
  · simpa using kept.live
  · rw [pendings_append, kept.count]
    rfl

theorem Kept.ready {value : Except E C} (kept : Kept stream n this log)
    (step : this.iteration = .ok (l, .leave (.ready value) this')) :
    Drained stream n value (log ++ l) this'.stream ∧ .ready none ∈ l := by
  obtain ⟨st, polled, rfl, left⟩ := leave_ready_cases step
  obtain ⟨this'', left', same⟩ := kept.absorbed.finish st
  rw [left] at left'
  cases left'
  refine ⟨⟨?_, log, rfl, kept.live, kept.count, rfl⟩, by simp⟩
  rw [same]
  exact kept.plays.concat polled

end Pass

/-! ## One call -/

/-- How a call ends after which `log` is the whole record and `l` that of the call. -/
def Ends (stream : St) (n : Nat) (log : List (Poll (Option (Except E A))))
    (answer : Poll (Except E C)) (l : List (Poll (Option (Except E A))))
    (this : CollectThenTry St C E) : Prop :=
  match answer with
  | .pending => Kept stream (n + 1) this (log ++ l) ∧ .ready none ∉ l
  | .ready value => Drained stream n value (log ++ l) this.stream ∧ .ready none ∈ l

/-- **One call.** It goes on to the next answer of the stream that is no element. -/
theorem poll_kept {n fuel : Nat} {this this' : CollectThenTry St C E}
    {log l : List (Poll (Option (Except E A)))} {answer : Poll (Except E C)}
    (kept : Kept stream n this log) (called : poll fuel this = .ok (answer, l, this')) :
    Ends stream n log answer l this' := by
  refine Loops.rule (I := fun this l => Kept stream n this (log ++ l) ∧ .ready none ∉ l)
    (P := Ends stream n log) ?_ ?_ ⟨by simpa using kept, List.not_mem_nil⟩ (Loops.of_loop called)
  · intro this l l' this' inv step
    obtain ⟨kept', live⟩ := inv.1.again step
    rw [List.append_assoc] at kept'
    exact ⟨kept', by simp [inv.2, live]⟩
  · intro this l l' answer this' inv step
    cases answer with
    | pending =>
        obtain ⟨kept', live⟩ := inv.1.pending step
        rw [List.append_assoc] at kept'
        exact ⟨kept', by simp [inv.2, live]⟩
    | ready value =>
        obtain ⟨drained, ended⟩ := inv.1.ready step
        rw [List.append_assoc] at drained
        exact ⟨drained, List.mem_append_right _ ended⟩

/-- A call on a stream that yields `m` elements before it suspends or ends. -/
theorem poll_returns {m : Nat} {this : CollectThenTry St C E}
    (settles : SettlesIn m this.stream) : ∃ r, poll (m + 1) this = .ok r := by
  generalize source : this.stream = st at settles
  induction settles generalizing this with
  | pending polled =>
      simp only [poll, loop, iteration, source, polled]
      exact ⟨_, rfl⟩
  | ended polled =>
      simp only [poll, loop, iteration, source, polled, finish]
      cases this.firstError with
      | none => exact ⟨_, rfl⟩
      | some error => exact ⟨_, rfl⟩
  | @item m st st' result polled _ ih =>
      obtain ⟨⟨answer, l, this'⟩, rest⟩ :=
        ih (absorb_stream { this with stream := st' } result)
      refine ⟨(answer, .ready (some result) :: l, this'), ?_⟩
      unfold poll at rest ⊢
      rw [loop]
      simp only [iteration, source, polled, rest, List.singleton_append]

theorem poll_deterministic : Deterministic (poll : Nat → CollectThenTry St C E → _) :=
  fun _ _ _ _ _ h h' => loop_unique h h'

/-! ## Runs -/

/-- **Run lemma.** Any number of calls that answered `Pending`. -/
theorem kept_of_polls {calls : List (Call (CollectThenTry St C E) (Except E C) _)}
    {this : CollectThenTry St C E} (run : Polls poll (new stream) calls this)
    (pending : ∀ call ∈ calls, call.answer = .pending) :
    Kept stream calls.length this (calls.flatMap Call.log) := by
  induction run with
  | start => exact .start stream
  | @poll calls s answer l s' fuel _ called ih =>
      have kept := ih fun call mem => pending call (List.mem_append_left _ mem)
      have last : answer = .pending := pending ⟨s, answer, l, s'⟩ (by simp)
      subst last
      rw [List.length_append, List.length_singleton, List.flatMap_append, List.flatMap_singleton]
      exact (poll_kept kept called).1

/-- What is left of a stream that is known to end. -/
theorem Kept.rest {n : Nat} {this : CollectThenTry St C E}
    {log answers : List (Poll (Option (Except E A)))} {left : St} (kept : Kept stream n this log)
    (plays : Plays stream (answers ++ [.ready none]) left) :
    ∃ rest, answers = log ++ rest ∧ Plays this.stream (rest ++ [.ready none]) left := by
  rcases kept.plays.prefix_or plays with shorter | longer
  · rcases List.prefix_concat_iff.mp shorter with all | ⟨rest, rfl⟩
    · exact (kept.live (all ▸ by simp)).elim
    · rw [List.append_assoc] at plays
      obtain ⟨st, first, rest_plays⟩ := plays.of_append
      rw [← kept.plays.state_unique first] at rest_plays
      exact ⟨rest, rfl, rest_plays⟩
  · exact (kept.live (longer.subset (by simp))).elim

/-- The record of a stream that has ended is all that it was known to answer. -/
theorem Drained.log_eq {n : Nat} {value : Except E C}
    {log answers : List (Poll (Option (Except E A)))} {left left' : St}
    (drained : Drained stream n value log left)
    (plays : Plays stream (answers ++ [.ready none]) left') (live : .ready none ∉ answers) :
    log = answers ++ [.ready none] ∧ pendings answers = n ∧
      value = collected (yielded answers) := by
  obtain ⟨drained_plays, answers', rfl, live', count, value⟩ := drained
  have same : answers' = answers := by
    rcases drained_plays.prefix_or plays with shorter | longer
    · rcases List.prefix_concat_iff.mp shorter with same | inside
      · exact List.append_cancel_right same
      · exact (live (inside.subset (by simp))).elim
    · rcases List.prefix_concat_iff.mp longer with same | inside
      · exact (List.append_cancel_right same).symm
      · exact (live' (inside.subset (by simp))).elim
  subst same
  exact ⟨rfl, count, value⟩

/-- There are as many calls that answer `Pending` as the stream gives `Pending`s. -/
theorem polls_of_plays {answers : List (Poll (Option (Except E A)))} {left : St}
    (plays : Plays stream (answers ++ [.ready none]) left) (live : .ready none ∉ answers) :
    ∀ k ≤ pendings answers, ∃ calls this,
      Polls poll (new stream : CollectThenTry St C E) calls this ∧
        (∀ call ∈ calls, call.answer = .pending) ∧ calls.length = k := by
  intro k le
  induction k with
  | zero => exact ⟨[], _, .start, by simp, rfl⟩
  | succ k ih =>
      obtain ⟨calls, this, run, pending, length⟩ := ih (Nat.le_of_succ_le le)
      have kept := kept_of_polls run pending
      obtain ⟨rest, -, rest_plays⟩ := kept.rest plays
      obtain ⟨m, settles⟩ := rest_plays.settles
      obtain ⟨⟨answer, l, this'⟩, called⟩ := poll_returns settles
      have ends := poll_kept kept called
      cases answer with
      | pending =>
          refine ⟨_, this', run.poll called, ?_, by simp [length]⟩
          intro call mem
          rcases List.mem_append.mp mem with before | now
          · exact pending call before
          · rw [List.mem_singleton.mp now]
      | ready value =>
          have all := (ends.1.log_eq plays live).2.1
          omega

/-- **The first `Ready`.** It comes in the call in which the stream ends. -/
theorem firstReady_of_plays {answers : List (Poll (Option (Except E A)))} {left : St}
    (plays : Plays stream (answers ++ [.ready none]) left) (live : .ready none ∉ answers) :
    ∃ this, FirstReady poll (new stream : CollectThenTry St C E) (pendings answers)
      (answers ++ [.ready none]) (collected (yielded answers)) this := by
  obtain ⟨calls, this, run, pending, length⟩ :=
    polls_of_plays (C := C) plays live _ (Nat.le_refl _)
  have kept := kept_of_polls run pending
  obtain ⟨rest, -, rest_plays⟩ := kept.rest plays
  obtain ⟨m, settles⟩ := rest_plays.settles
  obtain ⟨⟨answer, l, this'⟩, called⟩ := poll_returns settles
  have ends := poll_kept kept called
  cases answer with
  | pending =>
      obtain ⟨rest', answers_eq, -⟩ := ends.1.rest plays
      have more := ends.1.count
      rw [answers_eq, pendings_append, more] at length
      omega
  | ready value =>
      obtain ⟨log_eq, -, value_eq⟩ := ends.1.log_eq plays live
      rw [← log_eq, ← value_eq, ← length]
      exact ⟨this', .mk run pending called⟩

/-- What `CollectThenTry` makes of a stream. -/
structure Drains (C : Type) [Inhabited C] [Extend C A] (stream : St) : Prop where
  /-- Between two polls the state holds what the stream has yielded, and the stream has not
  ended. -/
  between : ∀ {calls} {this : CollectThenTry St C E}, Polls poll (new stream) calls this →
    (∀ call ∈ calls, call.answer = .pending) →
    Absorbed this (yielded (calls.flatMap Call.log)) ∧
      Plays stream (calls.flatMap Call.log) this.stream ∧
      .ready none ∉ calls.flatMap Call.log
  /-- A call answers `Ready` if and only if the stream answers `None` in it. -/
  ready_iff : ∀ {calls} {this this' : CollectThenTry St C E} {fuel answer log},
    Polls poll (new stream) calls this → (∀ call ∈ calls, call.answer = .pending) →
    poll fuel this = .ok (answer, log, this') →
    ((∃ value, answer = .ready value) ↔ .ready none ∈ log)
  /-- It returns if the stream goes on to suspend or to end. -/
  returns : ∀ {m} {this : CollectThenTry St C E}, SettlesIn m this.stream →
    ∃ r, poll (m + 1) this = .ok r
  /-- Up to the first `Ready` the stream was asked for all its answers and no more, and the value
  is that of all its elements. -/
  resolved : ∀ {n log value} {this : CollectThenTry St C E},
    FirstReady poll (new stream) n log value this →
    ∃ answers, log = answers ++ [.ready none] ∧ .ready none ∉ answers ∧
      Plays stream log this.stream ∧ pendings answers = n ∧ value = collected (yielded answers)
  /-- A stream that ends, wherever it is pending before, is drained. -/
  resolves : ∀ {answers left}, Plays stream (answers ++ [.ready none]) left →
    .ready none ∉ answers →
    ReadyAt poll (new stream : CollectThenTry St C E) (pendings answers)
      (collected (yielded answers))

/-- **Collect everything, then sequence.** For every stream and every collection. -/
theorem collectThenTry_drains (C : Type) [Inhabited C] [Extend C A] (stream : St) :
    Drains C stream where
  between run pending := by
    have kept := kept_of_polls run pending
    exact ⟨kept.absorbed, kept.plays, kept.live⟩
  ready_iff := by
    intro calls this this' fuel answer log run pending called
    have ends := poll_kept (kept_of_polls run pending) called
    cases answer with
    | pending => simp [ends.2]
    | ready value => simp [ends.2]
  returns settles := poll_returns settles
  resolved := by
    rintro n log value this ⟨run, pending, called⟩
    have ends := poll_kept (kept_of_polls run pending) called
    obtain ⟨answers, log_eq, live, count, value_eq⟩ := ends.1.ended
    exact ⟨answers, log_eq, live, ends.1.plays, count, value_eq⟩
  resolves plays live := by
    obtain ⟨this, first⟩ := firstReady_of_plays (C := C) plays live
    exact first.readyAt poll_deterministic

/-- Items and errors with a suspension between them. -/
def mixedStream : Script (Option (Except Nat Nat)) :=
  ⟨[.ready (some (.ok 1)), .pending, .ready (some (.error 5)), .ready (some (.ok 2)),
    .ready (some (.error 10)), .ready none]⟩

theorem collectThenTry_drains_mixedStream :
    ReadyAt poll (new mixedStream : CollectThenTry _ (List Nat) Nat) 1 (.error 5) := by
  have plays : Plays mixedStream ([.ready (some (.ok 1)), .pending, .ready (some (.error 5)),
      .ready (some (.ok 2)), .ready (some (.error 10))] ++ [.ready none]) ⟨[]⟩ :=
    .cons rfl (.cons rfl (.cons rfl (.cons rfl (.cons rfl (.cons rfl (.nil _))))))
  exact (collectThenTry_drains (List Nat) mixedStream).resolves plays (by simp)

end CancelSafeFutures.CollectThenTry
