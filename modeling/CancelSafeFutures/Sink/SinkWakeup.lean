import CancelSafeFutures.Async.Executor
import CancelSafeFutures.Sink.Fused

/-!
# The futures of a sink in the hands of an executor

A `Reserve` or a `FlushReserve` asks the sink until it is pending, so the sink has the waker when
the future is pending.  Once it has issued its permit it does not ask any more: an executor that
polls it then is never told to do so again (`reserve_driven`).
-/

namespace CancelSafeFutures

open Async

variable {Si Item E : Type}

/-- A call on the sink as a poll of the only source. -/
def sinkPoll : SinkCall Item E → Option (Unit × Bool)
  | .pollReady answer => some ((), answer.isPending)
  | .pollFlush answer => some ((), answer.isPending)
  | .startSend _ _ => none

/-- The last call on the sink was answered `Pending`. -/
def LeftPending (calls : List (SinkCall Item E)) : Prop :=
  ∃ before call, calls = before ++ [call] ∧ sinkPoll call = some ((), true)

theorem LeftPending.lastAnswer {calls : List (SinkCall Item E)} (left : LeftPending calls) :
    lastAnswer sinkPoll () calls = some true := by
  obtain ⟨before, call, rfl, suspended⟩ := left
  rw [lastAnswer_concat, answerOf, suspended]
  rfl

namespace SinkFuture

variable [Sink Si Item E]

/-- A poll, with the calls it makes on the sink. -/
def pollOn (_fuel : Nat) (s : SinkFuture × Si) :
    Run (Poll (Except E Permit) × List (SinkCall Item E) × (SinkFuture × Si)) := do
  let polled ← s.1.poll (⟨s.2, []⟩ : Recorded Si Item E)
  .ok (polled.answer, polled.sink.calls, polled.this, polled.sink.sink)

/-- The future still holds the sink. -/
def waitsFor (s : SinkFuture × Si) (_ : Unit) : Prop := s.1.held ≠ none

theorem pollOn_deterministic :
    Deterministic (pollOn : Nat → SinkFuture × Si → Run (Poll (Except E Permit) × _)) := by
  intro fuel fuel' s r r' called called'
  rw [pollOn] at called called'
  exact Except.ok.inj (called.symm.trans called')

end SinkFuture

variable [Sink Si Item E]

/-! ## Where the waker is -/

theorem ReserveTurn.leftPending {this : Reserve} {sink : Recorded Si Item E}
    {polled : SinkPolled Reserve (Recorded Si Item E) (Except E Permit)}
    (turn : ReserveTurn this sink polled) (holds : this.sink ≠ none)
    (pending : polled.answer = .pending) : LeftPending polled.sink.calls := by
  cases turn with
  | gone gone => exact (holds gone).elim
  | pending _ answered => exact ⟨_, _, calls_pollReady answered, rfl⟩
  | failed => cases pending
  | issued => cases pending

theorem FlushReserveTurn.leftPending {this : FlushReserve} {sink : Recorded Si Item E}
    {polled : SinkPolled FlushReserve (Recorded Si Item E) (Except E Permit)}
    (turn : FlushReserveTurn this sink polled) (holds : this.reserve.sink ≠ none)
    (pending : polled.answer = .pending) : LeftPending polled.sink.calls := by
  cases turn with
  | pending _ answered => exact ⟨_, _, calls_pollFlush answered, rfl⟩
  | failed => cases pending
  | flushed _ _ turn => exact turn.leftPending holds pending
  | reserving _ turn => exact turn.leftPending holds pending

namespace SinkFuture

/-- A pending poll leaves the waker with the sink. -/
theorem leftPending {this : SinkFuture} {sink : Recorded Si Item E}
    {polled : SinkPolled SinkFuture (Recorded Si Item E) (Except E Permit)}
    (sound : this.Sound) (holds : this.held ≠ none) (called : this.poll sink = .ok polled)
    (pending : polled.answer = .pending) : LeftPending polled.sink.calls := by
  cases this with
  | reserve fut =>
      obtain ⟨polled', called', turn⟩ := fut.poll_turn sink
      rw [poll, called', run_bind_ok] at called
      cases called
      exact turn.leftPending holds pending
  | flushReserve fut =>
      obtain ⟨polled', called', turn⟩ := FlushReserve.poll_turn sound sink
      rw [poll, called', run_bind_ok] at called
      cases called
      exact turn.leftPending holds pending

/-- What a poll finds out, in terms of the calls made in it. -/
theorem pollOn_cases {s s' : SinkFuture × Si} {fuel : Nat} {answer : Poll (Except E Permit)}
    {log : List (SinkCall Item E)} (called : pollOn fuel s = .ok (answer, log, s')) :
    ∃ polled, s.1.poll (⟨s.2, []⟩ : Recorded Si Item E) = .ok polled ∧
      polled.answer = answer ∧ polled.sink.calls = log ∧ polled.this = s'.1 ∧
      polled.sink.sink = s'.2 := by
  rw [pollOn] at called
  cases outcome : s.1.poll (⟨s.2, []⟩ : Recorded Si Item E) with
  | error halt =>
      rw [outcome] at called
      cases called
  | ok polled =>
      rw [outcome, run_bind_ok] at called
      cases called
      exact ⟨polled, rfl, rfl, rfl, rfl, rfl⟩

/-- What a pending poll of a future that holds the sink keeps and leaves. -/
theorem pollOn_pending {s s' : SinkFuture × Si} {fuel : Nat} {log : List (SinkCall Item E)}
    (sound : s.1.Sound) (holds : s.1.held ≠ none)
    (called : pollOn fuel s = .ok (.pending, log, s')) :
    s'.1.Sound ∧ s'.1.held ≠ none ∧ LeftPending log := by
  obtain ⟨polled, polled_eq, answer, rfl, this, -⟩ := pollOn_cases called
  obtain ⟨polled', polled_eq', effect⟩ := poll_effect sound (⟨s.2, []⟩ : Recorded Si Item E)
  have next := held_none_iff sound polled_eq
  have left := leftPending sound holds polled_eq answer
  cases polled_eq.symm.trans polled_eq'
  refine ⟨this ▸ effect.sound, ?_, left⟩
  rw [← this]
  intro gone
  rcases next.mp gone with gone | ⟨permit, issued⟩
  · exact holds gone
  · rw [answer] at issued
    cases issued

theorem wakeful {fut : SinkFuture} (sound : fut.Sound) (holds : fut.held ≠ none) (sink : Si) :
    Wakeful pollOn sinkPoll waitsFor (fut, sink) where
  arms := by
    intro calls s fuel log s' run pending called
    have kept : s.1.Sound ∧ s.1.held ≠ none :=
      run.rule (I := fun s _ => s.1.Sound ∧ s.1.held ≠ none) (A := fun answer => answer = .pending)
        ⟨sound, holds⟩
        (fun pending before called => by
          subst pending
          obtain ⟨sound', holds', -⟩ := pollOn_pending before.1 before.2 called
          exact ⟨sound', holds'⟩)
        pending
    obtain ⟨-, -, left⟩ := pollOn_pending kept.1 kept.2 called
    exact ⟨fun _ _ => left.lastAnswer, (), left.lastAnswer⟩

/-- Without the sink a poll asks nobody. -/
theorem pollOn_gone {s s' : SinkFuture × Si} {fuel : Nat} {answer : Poll (Except E Permit)}
    {log : List (SinkCall Item E)} (sound : s.1.Sound) (gone : s.1.held = none)
    (called : pollOn fuel s = .ok (answer, log, s')) :
    answer = .pending ∧ log = [] ∧ s'.1.Sound ∧ s'.1.held = none := by
  obtain ⟨polled, polled_eq, rfl, rfl, this, -⟩ := pollOn_cases called
  obtain ⟨polled', polled_eq', effect⟩ := poll_effect sound (⟨s.2, []⟩ : Recorded Si Item E)
  cases polled_eq.symm.trans polled_eq'
  obtain ⟨same, gone', pending⟩ := effect.gone gone
  exact ⟨pending, by rw [same], this ▸ effect.sound, this ▸ gone'⟩

/-- Polled once, it sleeps for ever. -/
theorem sleeps {fut : SinkFuture} {sink : Si} (sound : fut.Sound) (gone : fut.held = none) {n : Nat}
    {calls : List (Call (SinkFuture × Si) (Except E Permit) (SinkCall Item E))}
    {t : Task (SinkFuture × Si) (Except E Permit) Unit}
    (exec : Executes pollOn sinkPoll (fut, sink) n calls t) :
    (t.fut.1.Sound ∧ t.fut.1.held = none) ∧ t.output = none ∧ t.armed = ∅ ∧
      (n = 0 ∧ t.woken = true ∨ n = 1 ∧ t.woken = false) := by
  induction exec with
  | spawn => exact ⟨⟨sound, gone⟩, rfl, rfl, .inl ⟨rfl, rfl⟩⟩
  | step _ step ih =>
      obtain ⟨⟨sound', gone'⟩, -, armed, stage⟩ := ih
      cases step with
      | poll _ woken called =>
          obtain ⟨rfl, rfl, sound'', gone''⟩ := pollOn_gone sound' gone' called
          refine ⟨⟨sound'', gone''⟩, rfl, armed, .inr ⟨?_, rfl⟩⟩
          rcases stage with ⟨rfl, -⟩ | ⟨-, asleep⟩
          · rfl
          · rw [woken] at asleep
            cases asleep
      | wake has =>
          rw [armed] at has
          exact (Finset.notMem_empty _ has).elim

end SinkFuture

open SinkFuture in
/-- **`Reserve` and `FlushReserve` in the hands of an executor.**  No wakeup is lost, whatever the
sink does, and what comes of polling the future again and again comes of polling it when it was
woken.  Only a future that has issued its permit and is polled all the same makes no more than one
move, and leaves the waker with no one. -/
theorem reserve_driven (sink : Si) (start : SinkFuture)
    (new : start = .reserve (.new ⟨⟩) ∨ start = .flushReserve (.new ⟨⟩)) :
    WellDriven (pollOn : Nat → SinkFuture × Si → _) sinkPoll waitsFor (start, sink) ∧
    ∀ {answers : List (Poll (Except E Permit))} {fut : SinkFuture} {used : Recorded Si Item E},
      Driven start answers fut used → Issued answers →
        ∀ {n calls} {t : Task (SinkFuture × Si) (Except E Permit) Unit},
          Executes pollOn sinkPoll (fut, used.sink) n calls t →
            n ≤ 1 ∧ t.output = none ∧ t.armed = ∅ := by
  have made : start.Sound ∧ start.held ≠ none := by
    rcases new with rfl | rfl
    · exact ⟨trivial, fun h => by cases h⟩
    · exact ⟨FlushReserve.new_sound ⟨⟩, fun h => by cases h⟩
  refine ⟨(wakeful made.1 made.2 sink).driven pollOn_deterministic, ?_⟩
  intro answers fut used run issued n calls t exec
  obtain ⟨sound, gone⟩ := run.held_none_iff made.1 made.2
  obtain ⟨-, output, armed, stage⟩ := sleeps sound (gone.mpr issued) exec
  exact ⟨by omega, output, armed⟩

/-- A sink that has to be flushed, and has room when it is asked a second time. -/
def roomyLater : ScriptSink Nat Nat :=
  ⟨[.pending, .ready (.ok ())], [], [.pending, .ready (.ok ())]⟩

open SinkFuture in
/-- The flush suspends, then there is no room, and the third call is the last; nothing comes of a
fourth. -/
theorem reserve_driven_roomyLater :
    Completes pollOn sinkPoll (.flushReserve (.new ⟨⟩), roomyLater) 2 (.ok ⟨⟨⟩⟩) ∧
    ∀ {n calls} {t : Task (SinkFuture × ScriptSink Nat Nat) (Except Nat Permit) Unit},
      Executes pollOn sinkPoll (.flushReserve ⟨⟨none⟩, .reserve⟩, ⟨[], [], []⟩) n calls t →
        n ≤ 1 ∧ t.output = none ∧ t.armed = ∅ := by
  have driven := reserve_driven roomyLater (.flushReserve (.new ⟨⟩)) (.inr rfl)
  constructor
  · obtain ⟨s₁, log₁, s₂, log₂, s₃, log₃, called₁, called₂, called₃⟩ :
        ∃ s₁ log₁ s₂ log₂ s₃ log₃,
          pollOn 0 (.flushReserve (.new ⟨⟩), roomyLater) = .ok (.pending, log₁, s₁) ∧
            pollOn 0 s₁ = .ok (.pending, log₂, s₂) ∧
            pollOn 0 s₂ = .ok (.ready (.ok ⟨⟨⟩⟩), log₃, s₃) :=
      ⟨_, _, _, _, _, _, rfl, rfl, rfl⟩
    have first : FirstReady pollOn (.flushReserve (.new ⟨⟩), roomyLater) 2 _ (.ok ⟨⟨⟩⟩) s₃ :=
      .mk (.poll (.poll .start called₁) called₂) (by simp) called₃
    exact driven.1.completes (first.readyAt pollOn_deterministic)
  · obtain ⟨used₁, used₂, calls, called₁, called₂, called₃⟩ :
        ∃ (used₁ used₂ : Recorded (ScriptSink Nat Nat) Nat Nat) (calls : _),
          (SinkFuture.flushReserve (.new ⟨⟩)).poll ⟨roomyLater, []⟩ =
            .ok ⟨.pending, .flushReserve (.new ⟨⟩), used₁⟩ ∧
          (SinkFuture.flushReserve (.new ⟨⟩)).poll used₁ =
            .ok ⟨.pending, .flushReserve ⟨.new ⟨⟩, .reserve⟩, used₂⟩ ∧
          (SinkFuture.flushReserve ⟨.new ⟨⟩, .reserve⟩).poll used₂ =
            .ok ⟨.ready (.ok ⟨⟨⟩⟩), .flushReserve ⟨⟨none⟩, .reserve⟩, ⟨⟨[], [], []⟩, calls⟩⟩ :=
      ⟨_, _, _, rfl, rfl, rfl⟩
    have run := (((Driven.new roomyLater).poll called₁).poll called₂).poll called₃
    intro n calls t exec
    exact driven.2 run ⟨⟨⟨⟩⟩, by simp⟩ exec

end CancelSafeFutures
