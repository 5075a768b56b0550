import CancelSafeFutures.Async.Transition
import CancelSafeFutures.Sink.Reserve
import Mathlib.Data.List.Nodup

/-!
# Clients of a sink

A client that uses a sink through `reserve`, `flush_reserve`, `Permit::feed`, `Permit::send` and
the `Flush` future only, as a transition system.  Everything it makes holds the exclusive borrow
of the sink, so a new future is made only when nothing made before is left; any of it may be
dropped at any point, and a future may be polled again after it has resolved.

`Client.Inv` is kept by every move, and `client_contract` is what it says about the calls made on
the sink in any run.
-/

namespace CancelSafeFutures

open Async

variable {Si Item E Fl : Type}

/-- A `Reserve` or a `FlushReserve`. -/
inductive SinkFuture where
  | reserve (fut : Reserve)
  | flushReserve (fut : FlushReserve)
  deriving DecidableEq, Repr

/-- `Future::poll`. -/
def SinkFuture.poll [Sink Si Item E] (this : SinkFuture) (sink : Si) :
    Run (SinkPolled SinkFuture Si (Except E Permit)) :=
  match this with
  | .reserve fut => do
    let polled ← fut.poll sink
    .ok ⟨polled.answer, .reserve polled.this, polled.sink⟩
  | .flushReserve fut => do
    let polled ← fut.poll sink
    .ok ⟨polled.answer, .flushReserve polled.this, polled.sink⟩

/-- The borrow it holds. -/
def SinkFuture.held : SinkFuture → Option SinkMut
  | .reserve fut => fut.sink
  | .flushReserve fut => fut.reserve.sink

def SinkFuture.Sound : SinkFuture → Prop
  | .reserve _ => True
  | .flushReserve fut => fut.Sound

/-- The sink and what the client has made.  `issued` counts the permits issued, and `spent` lists,
for each `feed` or `send`, which of them it used up. -/
structure Client (Si Fl : Type) where
  sink : Si
  future : Option SinkFuture
  permit : Option Permit
  flush : Option Fl
  issued : Nat
  spent : List Nat
  panicked : Bool

/-- The moves of a client. -/
inductive ClientOp (Item : Type) where
  | reserve
  | flushReserve
  | pollFuture
  | dropFuture
  | feed (item : Item)
  | send (item : Item)
  | dropPermit
  | pollFlush
  | dropFlush
  deriving DecidableEq, Repr

namespace Client

/-- Nothing holds the borrow. -/
def idle (s : Client Si Fl) : Bool := s.future.isNone && s.permit.isNone && s.flush.isNone

/-- What a poll of the future leaves: a permit, if one was issued. -/
def received (s : Client Si Fl) (polled : SinkPolled SinkFuture Si (Except E Permit)) :
    Client Si Fl :=
  match polled.answer with
  | .ready (.ok permit) =>
    { s with
      sink := polled.sink
      future := some polled.this
      permit := some permit
      issued := s.issued + 1 }
  | _ => { s with sink := polled.sink, future := some polled.this }

/-- What `send` leaves: a future to flush the sink with, if the item was accepted. -/
def sent (s : Client Si Fl) (result : Except E Fl × Si) : Client Si Fl :=
  { s with
    sink := result.2
    permit := none
    flush := result.1.toOption
    spent := s.spent ++ [s.issued] }

variable [Sink Si Item E] [FlushFuture Fl Si Item E]

/-- One move. -/
def step (s : Client Si Fl) : ClientOp Item → Option (Client Si Fl)
  | .reserve => if s.idle then some { s with future := some (.reserve (.new ⟨⟩)) } else none
  | .flushReserve =>
    if s.idle then some { s with future := some (.flushReserve (.new ⟨⟩)) } else none
  | .pollFuture => s.future.map fun fut =>
    match fut.poll s.sink with
    | .ok polled => s.received polled
    | .error _ => { s with panicked := true }
  | .dropFuture => s.future.map fun _ => { s with future := none }
  | .feed item => s.permit.map fun permit =>
    { s with
      sink := (permit.feed item s.sink).2
      permit := none
      spent := s.spent ++ [s.issued] }
  | .send item => s.permit.map fun permit => s.sent (permit.send item s.sink)
  | .dropPermit => s.permit.map fun _ => { s with permit := none }
  | .pollFlush => s.flush.map fun flush =>
    { s with
      sink := (FlushFuture.poll flush s.sink).2.2
      flush := some (FlushFuture.poll flush s.sink).2.1 }
  | .dropFlush => s.flush.map fun _ => { s with flush := none }

end Client

/-- A client of `sink`, which was not used before. -/
def client [Sink Si Item E] [FlushFuture Fl (Recorded Si Item E) Item E] (sink : Si) :
    System (Client (Recorded Si Item E) Fl) (ClientOp Item) where
  init :=
    { sink := ⟨sink, []⟩
      future := none
      permit := none
      flush := none
      issued := 0
      spent := []
      panicked := false }
  step := Client.step

/-! ## One poll of a future -/

/-- What a poll of a future does, as far as permits are concerned. -/
structure PollEffect (this : SinkFuture) (sink : Recorded Si Item E)
    (polled : SinkPolled SinkFuture (Recorded Si Item E) (Except E Permit)) : Prop where
  sound : polled.this.Sound
  /-- It hands nothing over, and a permit comes right after a `pollReady` that allows it. -/
  calls : ∃ made, polled.sink.calls = sink.calls ++ made ∧ started made = [] ∧
    ∀ permit, polled.answer = .ready (.ok permit) →
      made.getLast? = some (.pollReady (.ready (.ok ())))
  /-- The borrow goes with the permit. -/
  issued : ∀ permit, polled.answer = .ready (.ok permit) → polled.this.held = none
  /-- Without the borrow nothing happens. -/
  gone : this.held = none →
    polled.sink = sink ∧ polled.this.held = none ∧ polled.answer = .pending

variable [Sink Si Item E]

theorem ReserveTurn.effect {this : Reserve} {sink : Recorded Si Item E}
    {polled : SinkPolled Reserve (Recorded Si Item E) (Except E Permit)}
    (turn : ReserveTurn this sink polled) :
    PollEffect (.reserve this) sink ⟨polled.answer, .reserve polled.this, polled.sink⟩ := by
  cases turn with
  | gone gone =>
      exact ⟨trivial, ⟨[], (List.append_nil _).symm, rfl, fun _ h => by cases h⟩,
        fun _ h => by (cases h), fun _ => ⟨rfl, gone, rfl⟩⟩
  | pending holds polled =>
      refine ⟨trivial, ⟨_, calls_pollReady polled, rfl, fun _ h => by cases h⟩,
        fun _ h => by (cases h), fun gone => ?_⟩
      simp only [SinkFuture.held] at gone
      simp [gone] at holds
  | failed holds polled =>
      refine ⟨trivial, ⟨_, calls_pollReady polled, rfl, fun _ h => by cases h⟩,
        fun _ h => by (cases h), fun gone => ?_⟩
      simp only [SinkFuture.held] at gone
      simp [gone] at holds
  | issued holds polled =>
      refine ⟨trivial, ⟨_, calls_pollReady polled, rfl, fun _ _ => rfl⟩, fun _ _ => rfl,
        fun gone => ?_⟩
      simp only [SinkFuture.held] at gone
      simp [gone] at holds

theorem FlushReserveTurn.effect {this : FlushReserve} {sink : Recorded Si Item E}
    {polled : SinkPolled FlushReserve (Recorded Si Item E) (Except E Permit)}
    (sound : this.Sound) (turn : FlushReserveTurn this sink polled) :
    PollEffect (.flushReserve this) sink
      ⟨polled.answer, .flushReserve polled.this, polled.sink⟩ := by
  have holds : this.state = .pollFlush → this.reserve.sink ≠ none := by
    intro state gone
    have held := sound state
    simp [gone] at held
  have reserved : ∀ reserve : Reserve, (⟨reserve, .reserve⟩ : FlushReserve).Sound := by
    intro reserve state
    cases state
  cases turn with
  | pending state polled =>
      exact ⟨sound, ⟨_, calls_pollFlush polled, rfl, fun _ h => by cases h⟩,
        fun _ h => by (cases h), fun gone => (holds state gone).elim⟩
  | failed state polled =>
      exact ⟨sound, ⟨_, calls_pollFlush polled, rfl, fun _ h => by cases h⟩,
        fun _ h => by (cases h), fun gone => (holds state gone).elim⟩
  | flushed state flushed turn =>
      obtain ⟨-, ⟨made, calls, quiet, last⟩, issued, -⟩ := turn.effect
      refine ⟨reserved _, ⟨.pollFlush (.ready (.ok ())) :: made, ?_, quiet, ?_⟩, issued,
        fun gone => (holds state gone).elim⟩
      · rw [calls, calls_pollFlush flushed, List.append_assoc]
        rfl
      · intro permit answer
        rw [List.getLast?_cons, last permit answer]
        rfl
  | reserving state turn =>
      obtain ⟨-, calls, issued, gone⟩ := turn.effect
      exact ⟨reserved _, calls, issued, gone⟩

/-- A poll of a sound future does not panic. -/
theorem SinkFuture.poll_effect {this : SinkFuture} (sound : this.Sound)
    (sink : Recorded Si Item E) : ∃ polled, this.poll sink = .ok polled ∧
      PollEffect this sink polled := by
  cases this with
  | reserve fut =>
      obtain ⟨polled, called, turn⟩ := fut.poll_turn sink
      refine ⟨_, ?_, turn.effect⟩
      simp only [poll, called, run_bind_ok]
  | flushReserve fut =>
      obtain ⟨polled, called, turn⟩ := FlushReserve.poll_turn sound sink
      refine ⟨_, ?_, turn.effect sound⟩
      simp only [poll, called, run_bind_ok]

/-! ## What every move keeps -/

namespace Client

/-- Right after `send` has handed an item over, and since then only flushed. -/
def Sent (calls : List (SinkCall Item E)) : Prop :=
  ∃ before item flushes, calls = before ++ .startSend item (.ok ()) :: flushes ∧
    ∀ call ∈ flushes, ∃ a, call = .pollFlush a

/-- What every move keeps. -/
structure Inv (s : Client (Recorded Si Item E) Fl) : Prop where
  calm : s.panicked = false
  sound : ∀ fut, s.future = some fut → fut.Sound
  conforms : Conforms s.sink.calls
  ready : s.permit.isSome = true → s.sink.calls.getLast? = some (.pollReady (.ready (.ok ())))
  flushing : s.flush.isSome = true → Sent s.sink.calls
  /-- Whoever holds a permit or a `Flush` holds the borrow. -/
  gone : s.permit.isSome = true ∨ s.flush.isSome = true →
    ∀ fut, s.future = some fut → fut.held = none
  one : s.permit.isSome = true → s.flush = none
  nodup : s.spent.Nodup
  bounded : ∀ n ∈ s.spent, n ≤ s.issued
  fresh : s.permit.isSome = true → s.issued ∉ s.spent
  count : s.spent.length = (started s.sink.calls).length

variable [FlushFuture Fl (Recorded Si Item E) Item E]

theorem Inv.init (sink : Si) :
    Inv (client sink : System (Client (Recorded Si Item E) Fl) (ClientOp Item)).init where
  calm := rfl
  sound _ h := by cases h
  conforms := .nil
  ready h := by cases h
  flushing h := by cases h
  gone h := by rcases h with h | h <;> cases h
  one h := by cases h
  nodup := List.nodup_nil
  bounded _ mem := by cases mem
  fresh h := by cases h
  count := rfl

omit [Sink Si Item E] [FlushFuture Fl (Recorded Si Item E) Item E] in
/-- A new future. -/
theorem Inv.reserve {s : Client (Recorded Si Item E) Fl} (inv : Inv s) (idle : s.idle = true)
    {fut : SinkFuture} (sound : fut.Sound) : Inv { s with future := some fut } := by
  have no_permit : s.permit = none := by simp [Client.idle] at idle; exact idle.1.2
  have no_flush : s.flush = none := by simp [Client.idle] at idle; exact idle.2
  refine { inv with sound := ?_, gone := ?_ }
  · intro fut' h
    cases h
    exact sound
  · intro held
    simp [no_permit, no_flush] at held

section PollFuture

variable {s : Client (Recorded Si Item E) Fl} {fut : SinkFuture}
  {polled : SinkPolled SinkFuture (Recorded Si Item E) (Except E Permit)}

omit [Sink Si Item E] [FlushFuture Fl (Recorded Si Item E) Item E] in
/-- A future that is polled while a permit or a `Flush` holds the borrow does nothing. -/
theorem Inv.idle_of_holder (inv : Inv s) (made : s.future = some fut)
    (effect : PollEffect fut s.sink polled)
    (holder : s.permit.isSome = true ∨ s.flush.isSome = true) :
    polled.sink = s.sink ∧ polled.this.held = none ∧ polled.answer = .pending :=
  effect.gone (inv.gone holder fut made)

omit [Sink Si Item E] [FlushFuture Fl (Recorded Si Item E) Item E] in
/-- A poll of the future, as far as it issues no permit. -/
theorem Inv.waited (inv : Inv s) (made : s.future = some fut)
    (effect : PollEffect fut s.sink polled) :
    Inv { s with sink := polled.sink, future := some polled.this } := by
  obtain ⟨calls, calls_eq, quiet, -⟩ := effect.calls
  refine
    { inv with sound := ?_, conforms := ?_, ready := ?_, flushing := ?_, gone := ?_, count := ?_ }
  · intro fut' h
    cases h
    exact effect.sound
  · rw [calls_eq]
    exact inv.conforms.append quiet
  · intro holder
    rw [(inv.idle_of_holder made effect (.inl holder)).1]
    exact inv.ready holder
  · intro holder
    rw [(inv.idle_of_holder made effect (.inr holder)).1]
    exact inv.flushing holder
  · intro holder fut' h
    cases h
    exact (inv.idle_of_holder made effect holder).2.1
  · rw [calls_eq, started_append, quiet, List.append_nil]
    exact inv.count

omit [Sink Si Item E] [FlushFuture Fl (Recorded Si Item E) Item E] in
/-- A poll that issues one. -/
theorem Inv.issue (inv : Inv s) (made : s.future = some fut)
    (effect : PollEffect fut s.sink polled) {permit : Permit}
    (answer : polled.answer = .ready (.ok permit)) :
    Inv { s with
      sink := polled.sink, future := some polled.this, permit := some permit,
      issued := s.issued + 1 } := by
  have waited := inv.waited made effect
  obtain ⟨calls, calls_eq, -, last⟩ := effect.calls
  have no_flush : s.flush = none := by
    cases held : s.flush with
    | none => rfl
    | some fl =>
        have pending := (inv.idle_of_holder made effect (.inr (by rw [held]; rfl))).2.2
        rw [answer] at pending
        cases pending
  refine ⟨waited.calm, waited.sound, waited.conforms, ?_, ?_, ?_, fun _ => no_flush,
    waited.nodup, ?_, ?_, waited.count⟩
  · intro _
    rw [calls_eq, List.getLast?_append, last permit answer]
    rfl
  · intro holder
    simp [no_flush] at holder
  · intro _ fut' h
    cases h
    exact effect.issued permit answer
  · exact fun n mem => Nat.le_succ_of_le (inv.bounded n mem)
  · exact fun _ mem => Nat.not_succ_le_self _ (inv.bounded _ mem)

omit [Sink Si Item E] [FlushFuture Fl (Recorded Si Item E) Item E] in
theorem Inv.received (inv : Inv s) (made : s.future = some fut)
    (effect : PollEffect fut s.sink polled) : Inv (s.received polled) := by
  unfold Client.received
  split
  · next permit answer => exact inv.issue made effect answer
  · exact inv.waited made effect

end PollFuture

omit [FlushFuture Fl (Recorded Si Item E) Item E] in
/-- The permit is used to hand an item over. -/
theorem Inv.startSend {s : Client (Recorded Si Item E) Fl} (inv : Inv s)
    (permit : s.permit.isSome = true) {item : Item} {answer : Except E Unit}
    {sink : Recorded Si Item E} (sent : Sink.startSend s.sink item = (answer, sink))
    {flush : Option Fl} (accepted : flush.isSome = true → answer = .ok ()) :
    Inv { s with
      sink := sink, permit := none, flush := flush, spent := s.spent ++ [s.issued] } where
  calm := inv.calm
  sound := inv.sound
  conforms := by
    rw [calls_startSend sent]
    exact inv.conforms.startSend (inv.ready permit) item answer
  ready h := by cases h
  flushing := by
    intro holder
    rw [calls_startSend sent, accepted holder]
    exact ⟨s.sink.calls, item, [], rfl, by simp⟩
  gone := fun _ => inv.gone (.inl permit)
  one h := by cases h
  nodup := by
    rw [List.nodup_append]
    refine ⟨inv.nodup, List.nodup_singleton _, fun n mem m same => ?_⟩
    rw [List.mem_singleton.mp same]
    exact fun eq => inv.fresh permit (eq ▸ mem)
  bounded := by
    intro n mem
    rcases List.mem_append.mp mem with before | now
    · exact inv.bounded n before
    · exact Nat.le_of_eq (List.mem_singleton.mp now)
  fresh h := by cases h
  count := by
    rw [calls_startSend sent, started_append, List.length_append, List.length_append, inv.count]
    rfl

omit [FlushFuture Fl (Recorded Si Item E) Item E] in
/-- A `Flush` future is polled. -/
theorem Inv.pollFlush {s : Client (Recorded Si Item E) Fl} (inv : Inv s)
    (holder : s.flush.isSome = true) {sink : Recorded Si Item E} (flushes : Flushes s.sink sink)
    (flush : Fl) : Inv { s with sink := sink, flush := some flush } := by
  obtain ⟨made, calls, all⟩ := flushes.calls
  have quiet := started_of_flushes all
  have no_permit : ¬ s.permit.isSome = true := fun permit => by
    rw [inv.one permit] at holder
    cases holder
  refine
    { inv with conforms := ?_, ready := ?_, flushing := ?_, gone := ?_, one := ?_, count := ?_ }
  · rw [calls]
    exact inv.conforms.append quiet
  · exact fun permit => (no_permit permit).elim
  · intro _
    obtain ⟨before, item, flushes, eq, all'⟩ := inv.flushing holder
    refine ⟨before, item, flushes ++ made, ?_, ?_⟩
    · rw [calls, eq, List.append_assoc]
      rfl
    · intro call mem
      rcases List.mem_append.mp mem with before | now
      · exact all' call before
      · exact all call now
  · exact fun _ => inv.gone (.inr holder)
  · exact fun permit => (no_permit permit).elim
  · rw [calls, started_append, quiet, List.append_nil]
    exact inv.count

/-- **Step lemma.** -/
theorem Inv.step {s s' : Client (Recorded Si Item E) Fl} {op : ClientOp Item} (inv : Inv s)
    (h : s.step op = some s') : Inv s' := by
  cases op with
  | reserve =>
      simp only [Client.step] at h
      split at h
      · next idle =>
          cases h
          exact inv.reserve idle trivial
      · cases h
  | flushReserve =>
      simp only [Client.step] at h
      split at h
      · next idle =>
          cases h
          exact inv.reserve idle (FlushReserve.new_sound _)
      · cases h
  | pollFuture =>
      obtain ⟨fut, made, rfl⟩ := Option.map_eq_some_iff.mp h
      obtain ⟨polled, called, effect⟩ := SinkFuture.poll_effect (inv.sound fut made) s.sink
      simp only [called]
      exact inv.received made effect
  | dropFuture =>
      obtain ⟨fut, made, rfl⟩ := Option.map_eq_some_iff.mp h
      exact { inv with sound := fun _ h => (by cases h), gone := fun _ _ h => (by cases h) }
  | feed item =>
      obtain ⟨permit, held, rfl⟩ := Option.map_eq_some_iff.mp h
      have holder : s.permit.isSome = true := by rw [held]; rfl
      cases sent : Sink.startSend s.sink item with
      | mk answer sink =>
          simp only [Permit.feed, sent]
          refine inv.startSend holder sent fun flushing => ?_
          rw [inv.one holder] at flushing
          cases flushing
  | send item =>
      obtain ⟨permit, held, rfl⟩ := Option.map_eq_some_iff.mp h
      have holder : s.permit.isSome = true := by rw [held]; rfl
      cases sent : Sink.startSend s.sink item with
      | mk answer sink =>
          cases answer with
          | error error =>
              simp only [Client.sent, Permit.send, sent]
              exact inv.startSend holder sent fun flushing => by cases flushing
          | ok accepted =>
              simp only [Client.sent, Permit.send, sent]
              exact inv.startSend holder sent fun _ => rfl
  | dropPermit =>
      obtain ⟨permit, held, rfl⟩ := Option.map_eq_some_iff.mp h
      have holder : s.permit.isSome = true := by rw [held]; rfl
      exact { inv with
        ready := fun h => (by cases h)
        gone := fun _ => inv.gone (.inl holder)
        one := fun h => (by cases h)
        fresh := fun h => (by cases h) }
  | pollFlush =>
      obtain ⟨flush, held, rfl⟩ := Option.map_eq_some_iff.mp h
      exact inv.pollFlush (by rw [held]; rfl) (FlushFuture.poll_flushes flush s.sink) _
  | dropFlush =>
      obtain ⟨flush, held, rfl⟩ := Option.map_eq_some_iff.mp h
      exact { inv with
        flushing := fun h => (by cases h)
        gone := fun _ => inv.gone (.inr (by rw [held]; rfl))
        one := fun _ => rfl }

theorem Inv.run {sink : Si} {ops : List (ClientOp Item)} {s : Client (Recorded Si Item E) Fl}
    (run : (client sink).run ops = some s) : Inv s :=
  System.run_invariant' (Inv.init sink) (fun inv h => inv.step h) run

/-- What is true of the calls a client has made, in any state it can reach. -/
structure Contract (s : Client (Recorded Si Item E) Fl) : Prop where
  /-- Every item was handed over right after the sink had answered that it is ready. -/
  conforms : Conforms s.sink.calls
  /-- A permit exists only while that answer is the last call on the sink. -/
  permit_ready : s.permit.isSome = true →
    s.sink.calls.getLast? = some (.pollReady (.ready (.ok ())))
  /-- For each item handed over there is a permit of its own. -/
  once : s.spent.length = (started s.sink.calls).length ∧ s.spent.Nodup ∧
    ∀ n ∈ s.spent, n ≤ s.issued
  /-- A `Flush` exists only after `send` has handed its item over, and then only flushes. -/
  flush_sent : s.flush.isSome = true → Sent s.sink.calls
  /-- No poll panicked. -/
  calm : s.panicked = false

/-- **Conformance.** In every run of every client of every sink. -/
theorem client_contract (sink : Si) {ops : List (ClientOp Item)}
    {s : Client (Recorded Si Item E) Fl} (run : (client sink).run ops = some s) : Contract s := by
  have inv := Inv.run run
  exact ⟨inv.conforms, inv.ready, ⟨inv.count, inv.nodup, inv.bounded⟩, inv.flushing, inv.calm⟩

/-- A sink that is ready at the second try, then accepts one item and flushes at the second try. -/
def busySink : ScriptSink Nat Nat :=
  ⟨[.pending, .ready (.ok ())], [.ok ()], [.pending, .ready (.ok ())]⟩

theorem client_contract_busySink :
    ∃ s : Client (Recorded (ScriptSink Nat Nat) Nat Nat) FlushOnce,
      (client busySink).run
        [.reserve, .pollFuture, .pollFuture, .pollFuture, .send 5, .pollFlush, .dropFlush] =
        some s ∧ Contract s := by
  have run : (client busySink : System (Client _ FlushOnce) _).run
      [.reserve, .pollFuture, .pollFuture, .pollFuture, .send 5, .pollFlush, .dropFlush] =
      some _ := rfl
  exact ⟨_, run, client_contract busySink run⟩

end Client

end CancelSafeFutures
