import CancelSafeFutures.Async.Sink

/-!
# `Reserve`, `FlushReserve` and `Permit`

The models of `src/sink/reserve.rs`, `src/sink/flush_reserve.rs` and `src/sink/permit.rs`.  The
sink itself is passed along; what a future or a permit holds is the exclusive borrow `SinkMut` of
it, which a `Reserve` gives away with the permit it issues.

`ReserveTurn` and `FlushReserveTurn` list what one poll can do.
-/

namespace CancelSafeFutures

open Async

/-- `&mut Si`. -/
structure SinkMut where
  deriving DecidableEq, Repr

/-- `Permit`. -/
structure Permit where
  sink : SinkMut
  deriving DecidableEq, Repr

/-- `Reserve`.  The sink is `none` once a permit has been issued. -/
structure Reserve where
  sink : Option SinkMut
  deriving DecidableEq, Repr

/-- `FlushReserveState`. -/
inductive FlushReserveState where
  | pollFlush
  | reserve
  deriving DecidableEq, Repr

/-- `FlushReserve`. -/
structure FlushReserve where
  reserve : Reserve
  state : FlushReserveState
  deriving DecidableEq, Repr

/-- The outcome of a poll: the answer, the future and the sink. -/
structure SinkPolled (σ Si β : Type) where
  answer : Poll β
  this : σ
  sink : Si

variable {Si Item E : Type} [Sink Si Item E]

namespace Reserve

/-- `Reserve::new`. -/
def new (sink : SinkMut) : Reserve := ⟨some sink⟩

/-- `Future::poll`. -/
def poll (this : Reserve) (sink : Si) : Run (SinkPolled Reserve Si (Except E Permit)) :=
  match this.sink with
  | some _ =>
    match Sink.pollReady sink with
    | (.pending, sink) => .ok ⟨.pending, this, sink⟩
    | (.ready (.error error), sink) => .ok ⟨.ready (.error error), this, sink⟩
    | (.ready (.ok ()), sink) => do
      -- `self.sink.take().unwrap()`
      let taken ← unwrap this.sink
      .ok ⟨.ready (.ok ⟨taken⟩), ⟨none⟩, sink⟩
  | none => .ok ⟨.pending, this, sink⟩

/-- `FusedFuture::is_terminated`. -/
def isTerminated (this : Reserve) : Bool := this.sink.isNone

end Reserve

namespace FlushReserve

/-- `FlushReserve::new`. -/
def new (sink : SinkMut) : FlushReserve := ⟨Reserve.new sink, .pollFlush⟩

/-- The end of `poll`, from the `debug_assert_eq!` on. -/
def pollReserve (this : FlushReserve) (sink : Si) :
    Run (SinkPolled FlushReserve Si (Except E Permit)) :=
  if this.state = .reserve then do
    let polled ← this.reserve.poll sink
    .ok ⟨polled.answer, { this with reserve := polled.this }, polled.sink⟩
  else .error (.panicked "assertion `left == right` failed")

/-- `Future::poll`. -/
def poll (this : FlushReserve) (sink : Si) :
    Run (SinkPolled FlushReserve Si (Except E Permit)) :=
  if this.state = .pollFlush then do
    let _ ← expect this.reserve.sink "PollFlush => sink must be Some"
    match Sink.pollFlush sink with
    | (.pending, sink) => .ok ⟨.pending, this, sink⟩
    | (.ready (.error error), sink) => .ok ⟨.ready (.error error), this, sink⟩
    | (.ready (.ok ()), sink) => pollReserve { this with state := .reserve } sink
  else pollReserve this sink

/-- `FusedFuture::is_terminated`. -/
def isTerminated (this : FlushReserve) : Bool := this.reserve.isTerminated

end FlushReserve

namespace Permit

/-- `Permit::feed`. -/
def feed (_ : Permit) (item : Item) (sink : Si) : Except E Unit × Si := Sink.startSend sink item

/-- `Permit::send`. -/
def send {Fl : Type} [FlushFuture Fl Si Item E] (_ : Permit) (item : Item) (sink : Si) :
    Except E Fl × Si :=
  match Sink.startSend sink item with
  | (.error error, sink) => (.error error, sink)
  | (.ok (), sink) => (.ok (FlushFuture.flush Si), sink)

end Permit

/-! ## What a poll can do -/

/-- What a poll of a `Reserve` can do. -/
inductive ReserveTurn (this : Reserve) (sink : Si) :
    SinkPolled Reserve Si (Except E Permit) → Prop
  | gone : this.sink = none → ReserveTurn this sink ⟨.pending, this, sink⟩
  | pending {sink'} :
      this.sink.isSome = true → Sink.pollReady sink = (.pending, sink') →
      ReserveTurn this sink ⟨.pending, this, sink'⟩
  | failed {sink' error} :
      this.sink.isSome = true → Sink.pollReady sink = (.ready (.error error), sink') →
      ReserveTurn this sink ⟨.ready (.error error), this, sink'⟩
  | issued {sink' permit} :
      this.sink.isSome = true → Sink.pollReady sink = (.ready (.ok ()), sink') →
      ReserveTurn this sink ⟨.ready (.ok permit), ⟨none⟩, sink'⟩

/-- A poll of a `Reserve` does not panic. -/
theorem Reserve.poll_turn (this : Reserve) (sink : Si) :
    ∃ polled, this.poll sink = .ok polled ∧ ReserveTurn this sink polled := by
  unfold poll
  cases held : this.sink with
  | none => exact ⟨_, rfl, .gone held⟩
  | some ref =>
      have some_sink : this.sink.isSome = true := by rw [held]; rfl
      simp only [unwrap, expect_some, run_bind_ok]
      split
      · next polled => exact ⟨_, rfl, .pending some_sink polled⟩
      · next polled => exact ⟨_, rfl, .failed some_sink polled⟩
      · next polled => exact ⟨_, rfl, .issued some_sink polled⟩

/-- A `FlushReserve` that has not flushed yet still holds the sink. -/
def FlushReserve.Sound (this : FlushReserve) : Prop :=
  this.state = .pollFlush → this.reserve.sink.isSome = true

theorem FlushReserve.new_sound (sink : SinkMut) : (FlushReserve.new sink).Sound := fun _ => rfl

/-- What a poll of a `FlushReserve` can do. -/
inductive FlushReserveTurn (this : FlushReserve) (sink : Si) :
    SinkPolled FlushReserve Si (Except E Permit) → Prop
  | pending {sink'} :
      this.state = .pollFlush → Sink.pollFlush sink = (.pending, sink') →
      FlushReserveTurn this sink ⟨.pending, this, sink'⟩
  | failed {sink' error} :
      this.state = .pollFlush → Sink.pollFlush sink = (.ready (.error error), sink') →
      FlushReserveTurn this sink ⟨.ready (.error error), this, sink'⟩
  | flushed {sink' polled} :
      this.state = .pollFlush → Sink.pollFlush sink = (.ready (.ok ()), sink') →
      ReserveTurn this.reserve sink' polled →
      FlushReserveTurn this sink ⟨polled.answer, ⟨polled.this, .reserve⟩, polled.sink⟩
  | reserving {polled} :
      this.state = .reserve → ReserveTurn this.reserve sink polled →
      FlushReserveTurn this sink ⟨polled.answer, ⟨polled.this, .reserve⟩, polled.sink⟩

theorem FlushReserve.pollReserve_turn (this : FlushReserve) (state : this.state = .reserve)
    (sink : Si) : ∃ polled, ReserveTurn this.reserve sink polled ∧
      this.pollReserve sink = .ok ⟨polled.answer, ⟨polled.this, .reserve⟩, polled.sink⟩ := by
  obtain ⟨polled, called, turn⟩ := this.reserve.poll_turn sink
  refine ⟨polled, turn, ?_⟩
  simp only [pollReserve, state, if_true, called, run_bind_ok]

/-- A poll of a sound `FlushReserve` does not panic. -/
theorem FlushReserve.poll_turn {this : FlushReserve} (sound : this.Sound) (sink : Si) :
    ∃ polled, this.poll sink = .ok polled ∧ FlushReserveTurn this sink polled := by
  unfold poll
  cases state : this.state with
  | pollFlush =>
      obtain ⟨ref, held⟩ := Option.isSome_iff_exists.mp (sound state)
      simp only [held, expect_some, run_bind_ok, if_true]
      split
      · next polled => exact ⟨_, rfl, .pending state polled⟩
      · next polled => exact ⟨_, rfl, .failed state polled⟩
      · next sink' flushed =>
          obtain ⟨polled, turn, called⟩ :=
            pollReserve_turn { this with state := .reserve } rfl sink'
          exact ⟨_, called, .flushed state flushed turn⟩
  | reserve =>
      obtain ⟨polled, turn, called⟩ := pollReserve_turn this state sink
      exact ⟨_, called, .reserving state turn⟩

end CancelSafeFutures
