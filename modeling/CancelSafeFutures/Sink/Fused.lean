import CancelSafeFutures.Sink.FlushPhases

/-!
# Terminated futures of a sink

`is_terminated` of a `Reserve` or a `FlushReserve` reads off whether the borrow of the sink was
given away, which happens when a permit is issued and only then (`held_none_iff`).  So the two are
fused on permits (`fused_on_permit`): from the permit on they say that they are terminated and
leave the sink alone.  An error is no permit: it leaves the future in the phase it was in, and the
next poll asks the sink again (`not_fused_on_error`).
-/

namespace CancelSafeFutures

open Async

variable {Si Item E : Type}

/-- `FusedFuture::is_terminated`. -/
def SinkFuture.isTerminated : SinkFuture → Bool
  | .reserve fut => fut.isTerminated
  | .flushReserve fut => fut.isTerminated

theorem SinkFuture.isTerminated_iff {fut : SinkFuture} :
    fut.isTerminated = true ↔ fut.held = none := by
  cases fut <;> exact Option.isNone_iff_eq_none

/-- A future fused on the results that count: it is terminated once a poll has given one of them,
and then it leaves the sink alone. -/
structure FusedOn (Si : Type) {Item E : Type} [Sink Si Item E]
    (counts : Except E Permit → Prop) (start : SinkFuture) : Prop where
  terminated : ∀ {answers fut} {sink : Recorded Si Item E}, Driven start answers fut sink →
    (fut.isTerminated = true ↔ ∃ result, counts result ∧ .ready result ∈ answers)
  quiet : ∀ {answers fut} {sink : Recorded Si Item E}, Driven start answers fut sink →
    (∃ result, counts result ∧ .ready result ∈ answers) →
    ∀ sink' : Recorded Si Item E, ∃ polled, fut.poll sink' = .ok polled ∧ polled.sink = sink'

/-! ## When the borrow goes -/

variable [Sink Si Item E]

theorem ReserveTurn.held_none_iff {this : Reserve} {sink : Si}
    {polled : SinkPolled Reserve Si (Except E Permit)} (turn : ReserveTurn this sink polled) :
    polled.this.sink = none ↔
      this.sink = none ∨ ∃ permit, polled.answer = .ready (.ok permit) := by
  cases turn <;> simp

theorem FlushReserveTurn.held_none_iff {this : FlushReserve} {sink : Si}
    {polled : SinkPolled FlushReserve Si (Except E Permit)}
    (turn : FlushReserveTurn this sink polled) :
    polled.this.reserve.sink = none ↔
      this.reserve.sink = none ∨ ∃ permit, polled.answer = .ready (.ok permit) := by
  cases turn with
  | pending => simp
  | failed => simp
  | flushed _ _ turn => exact turn.held_none_iff
  | reserving _ turn => exact turn.held_none_iff

theorem SinkFuture.held_none_iff {this : SinkFuture} (sound : this.Sound) {sink : Si}
    {polled : SinkPolled SinkFuture Si (Except E Permit)} (called : this.poll sink = .ok polled) :
    polled.this.held = none ↔
      this.held = none ∨ ∃ permit, polled.answer = .ready (.ok permit) := by
  cases this with
  | reserve fut =>
      obtain ⟨polled', called', turn⟩ := fut.poll_turn sink
      rw [SinkFuture.poll, called', run_bind_ok] at called
      cases called
      exact turn.held_none_iff
  | flushReserve fut =>
      obtain ⟨polled', called', turn⟩ := FlushReserve.poll_turn sound sink
      rw [SinkFuture.poll, called', run_bind_ok] at called
      cases called
      exact turn.held_none_iff

/-- **Run lemma.** The borrow is gone if and only if a permit was issued. -/
theorem Driven.held_none_iff {start : SinkFuture} (sound : start.Sound)
    (holds : start.held ≠ none) {answers : List (Poll (Except E Permit))} {fut : SinkFuture}
    {sink : Recorded Si Item E} (run : Driven start answers fut sink) :
    fut.Sound ∧ (fut.held = none ↔ Issued answers) := by
  induction run with
  | new sink => exact ⟨sound, by simp [holds, Issued]⟩
  | @poll answers fut sink polled _ called ih =>
      obtain ⟨sound', gone⟩ := ih
      obtain ⟨polled', called', effect⟩ := SinkFuture.poll_effect sound' sink
      have next := SinkFuture.held_none_iff sound' called
      cases called.symm.trans called'
      exact ⟨effect.sound, by rw [next, gone, issued_append]⟩
  | lent sink' _ _ ih => exact ih

/-- Without the borrow a poll leaves the sink alone. -/
theorem Driven.quiet {start : SinkFuture} (sound : start.Sound) (holds : start.held ≠ none)
    {answers : List (Poll (Except E Permit))} {fut : SinkFuture} {sink : Recorded Si Item E}
    (run : Driven start answers fut sink) (issued : Issued answers) (sink' : Recorded Si Item E) :
    ∃ polled, fut.poll sink' = .ok polled ∧ polled.sink = sink' := by
  obtain ⟨sound', gone⟩ := run.held_none_iff sound holds
  obtain ⟨polled, called, effect⟩ := SinkFuture.poll_effect sound' sink'
  exact ⟨polled, called, (effect.gone (gone.mpr issued)).1⟩

/-! ## Permits and errors -/

theorem fusedOn_of_holds {start : SinkFuture} (sound : start.Sound) (holds : start.held ≠ none) :
    FusedOn Si (fun result : Except E Permit => ∃ permit, result = .ok permit) start := by
  have issued_iff : ∀ answers : List (Poll (Except E Permit)),
      (∃ result, (∃ permit, result = .ok permit) ∧ .ready result ∈ answers) ↔ Issued answers := by
    intro answers
    constructor
    · rintro ⟨_, ⟨permit, rfl⟩, mem⟩
      exact ⟨permit, mem⟩
    · rintro ⟨permit, mem⟩
      exact ⟨_, ⟨permit, rfl⟩, mem⟩
  constructor
  · intro answers fut sink run
    rw [SinkFuture.isTerminated_iff, (run.held_none_iff sound holds).2, issued_iff]
  · intro answers fut sink run issued
    exact run.quiet sound holds ((issued_iff answers).mp issued)

/-- **Fused on permits.** For every sink and every sequence of polls. -/
theorem fused_on_permit (Si : Type) {Item E : Type} [Sink Si Item E] :
    FusedOn Si (fun result : Except E Permit => ∃ permit, result = .ok permit)
        (.reserve (.new ⟨⟩)) ∧
      FusedOn Si (fun result : Except E Permit => ∃ permit, result = .ok permit)
        (.flushReserve (.new ⟨⟩)) :=
  ⟨fusedOn_of_holds trivial nofun, fusedOn_of_holds (FlushReserve.new_sound ⟨⟩) nofun⟩

/-- A sink that fails whatever is asked of it, twice. -/
def failingTwice : ScriptSink Nat Nat :=
  ⟨[.ready (.error 7), .ready (.error 8)], [], [.ready (.error 7), .ready (.error 8)]⟩

/-- An error leaves a `Reserve` not terminated, and a `FlushReserve` that has failed asks the sink
again. -/
theorem not_fused_on_error :
    ¬ FusedOn (ScriptSink Nat Nat) (fun _ => True) (.reserve (.new ⟨⟩)) ∧
      ¬ FusedOn (ScriptSink Nat Nat) (fun _ => True) (.flushReserve (.new ⟨⟩)) := by
  have resolved : ∃ result : Except Nat Permit, True ∧
      .ready result ∈ ([] ++ [.ready (.error 7)] : List (Poll (Except Nat Permit))) :=
    ⟨.error 7, trivial, List.mem_singleton.mpr rfl⟩
  constructor
  · intro fused
    have run := (Driven.new failingTwice).poll
      (show (SinkFuture.reserve (.new ⟨⟩)).poll _ = .ok ⟨.ready (.error 7), _, _⟩ from rfl)
    cases (fused.terminated run).mpr resolved
  · intro fused
    have run := (Driven.new failingTwice).poll
      (show (SinkFuture.flushReserve (.new ⟨⟩)).poll _ = .ok ⟨.ready (.error 7), _, _⟩ from rfl)
    obtain ⟨polled, called, same⟩ := fused.quiet run resolved ⟨failingTwice, []⟩
    cases called
    have called_again := congrArg (fun sink => sink.calls.length) same
    cases called_again

end CancelSafeFutures
