import CancelSafeFutures.Sink.Client

/-!
# The retry loop

The loop in the documentation of the crate: the item is kept in an `Option`, futures that reserve
room are made, polled and dropped in any way, and once there is a permit the item is taken out of
the `Option` and handed over with `feed` or `send`.

`Held` is the invariant: either the item is still in the `Option` and the sink has not seen it,
or the sink was given it once.
-/

namespace CancelSafeFutures

open Async

variable {Si Item E Fl : Type}

/-- The moves that take the item. -/
def ClientOp.takes : ClientOp Item → Bool
  | .feed _ => true
  | .send _ => true
  | _ => false

/-- The item a move hands over. -/
def ClientOp.items : ClientOp Item → List Item
  | .feed item => [item]
  | .send item => [item]
  | _ => []

/-- A move of the loop, with `item.take().unwrap()` where it hands the item over. -/
def ClientOp.fill (item : Option Item) : ClientOp Unit → Option (ClientOp Item)
  | .reserve => some .reserve
  | .flushReserve => some .flushReserve
  | .pollFuture => some .pollFuture
  | .dropFuture => some .dropFuture
  | .feed () => item.map .feed
  | .send () => item.map .send
  | .dropPermit => some .dropPermit
  | .pollFlush => some .pollFlush
  | .dropFlush => some .dropFlush

/-- The state of the loop. -/
structure RetryLoop (Si Item Fl : Type) where
  client : Client Si Fl
  item : Option Item

variable [Sink Si Item E]

/-- One move of the loop. -/
def RetryLoop.step [FlushFuture Fl Si Item E] (s : RetryLoop Si Item Fl) (op : ClientOp Unit) :
    Option (RetryLoop Si Item Fl) := do
  let move ← op.fill s.item
  let client ← s.client.step move
  some ⟨client, if op.takes then none else s.item⟩

variable [FlushFuture Fl (Recorded Si Item E) Item E]

/-- The loop, with the item `x`, over a sink that was not used before. -/
def retryLoop (sink : Si) (x : Item) :
    System (RetryLoop (Recorded Si Item E) Item Fl) (ClientOp Unit) where
  init := ⟨(client sink).init, some x⟩
  step := RetryLoop.step

/-! ## What one move hands over -/

/-- A move hands over the item it is given, and nothing else. -/
theorem Client.started_step {s s' : Client (Recorded Si Item E) Fl} {op : ClientOp Item}
    (inv : s.Inv) (h : s.step op = some s') :
    started s'.sink.calls = started s.sink.calls ++ op.items := by
  cases op with
  | reserve =>
      simp only [Client.step] at h
      split at h
      · cases h
        exact (List.append_nil _).symm
      · cases h
  | flushReserve =>
      simp only [Client.step] at h
      split at h
      · cases h
        exact (List.append_nil _).symm
      · cases h
  | pollFuture =>
      obtain ⟨fut, made, rfl⟩ := Option.map_eq_some_iff.mp h
      obtain ⟨polled, called, effect⟩ := SinkFuture.poll_effect (inv.sound fut made) s.sink
      obtain ⟨calls, calls_eq, quiet, -⟩ := effect.calls
      have sink : (s.received polled).sink = polled.sink := by
        unfold Client.received
        split <;> rfl
      simp only [called, sink, calls_eq, started_append, quiet, ClientOp.items]
  | dropFuture =>
      obtain ⟨fut, made, rfl⟩ := Option.map_eq_some_iff.mp h
      exact (List.append_nil _).symm
  | feed item =>
      obtain ⟨permit, held, rfl⟩ := Option.map_eq_some_iff.mp h
      exact started_append _ _
  | send item =>
      obtain ⟨permit, held, rfl⟩ := Option.map_eq_some_iff.mp h
      have sink : (permit.send (E := E) item s.sink : Except E Fl × _).2 =
          (Sink.startSend s.sink item).2 := by
        unfold Permit.send
        split <;> simp only [*]
      simp only [Client.sent, sink]
      exact started_append _ _
  | dropPermit =>
      obtain ⟨permit, held, rfl⟩ := Option.map_eq_some_iff.mp h
      exact (List.append_nil _).symm
  | pollFlush =>
      obtain ⟨flush, held, rfl⟩ := Option.map_eq_some_iff.mp h
      obtain ⟨made, calls, all⟩ := (FlushFuture.poll_flushes flush s.sink).calls
      simp only [calls, started_append, started_of_flushes all, ClientOp.items]
  | dropFlush =>
      obtain ⟨flush, held, rfl⟩ := Option.map_eq_some_iff.mp h
      exact (List.append_nil _).symm

/-- The moves that take the item, and those that leave it. -/
theorem RetryLoop.step_cases {s s' : RetryLoop (Recorded Si Item E) Item Fl}
    {op : ClientOp Unit} (inv : s.client.Inv) (h : s.step op = some s') :
    s'.client.Inv ∧
      ((op.takes = false ∧ s'.item = s.item ∧
          started s'.client.sink.calls = started s.client.sink.calls) ∨
        (op.takes = true ∧ ∃ x, s.item = some x ∧ s'.item = none ∧
          started s'.client.sink.calls = started s.client.sink.calls ++ [x])) := by
  simp only [RetryLoop.step, Option.bind_eq_bind, Option.bind_eq_some_iff, Option.some.injEq] at h
  obtain ⟨move, fill, client, moved, rfl⟩ := h
  have started := Client.started_step inv moved
  refine ⟨inv.step moved, ?_⟩
  cases op with
  | feed _ =>
      obtain ⟨x, item, rfl⟩ := Option.map_eq_some_iff.mp fill
      exact .inr ⟨rfl, x, item, rfl, started⟩
  | send _ =>
      obtain ⟨x, item, rfl⟩ := Option.map_eq_some_iff.mp fill
      exact .inr ⟨rfl, x, item, rfl, started⟩
  | _ =>
      cases fill
      exact .inl ⟨rfl, rfl, started.trans (List.append_nil _)⟩

/-! ## Runs -/

/-- Either the item is in the `Option` and the sink has not seen it, or the sink was given it
once. -/
def RetryLoop.Held (x : Item) (s : RetryLoop (Recorded Si Item E) Item Fl) : Prop :=
  (s.item = some x ∧ started s.client.sink.calls = []) ∨
    (s.item = none ∧ started s.client.sink.calls = [x])

theorem RetryLoop.run_held {sink : Si} {x : Item} {ops : List (ClientOp Unit)}
    {s : RetryLoop (Recorded Si Item E) Item Fl} (run : (retryLoop sink x).run ops = some s) :
    s.client.Inv ∧ s.Held x := by
  refine System.run_invariant' (I := fun s => s.client.Inv ∧ s.Held x) ?base ?step run
  case base => exact ⟨Client.Inv.init sink, .inl ⟨rfl, rfl⟩⟩
  case step =>
    intro s op s' both h
    obtain ⟨inv, held⟩ := both
    obtain ⟨inv', rest⟩ := step_cases inv h
    refine ⟨inv', ?_⟩
    rcases rest with ⟨-, item, same⟩ | ⟨-, y, was, gone, more⟩
    · unfold Held
      rw [item, same]
      exact held
    · rcases held with ⟨item, none_started⟩ | ⟨item, -⟩
      · rw [item] at was
        cases was
        rw [none_started] at more
        exact .inr ⟨gone, more⟩
      · rw [item] at was
        cases was

/-- **Cancel-safety of the loop.** At every moment of every run the item is neither lost nor
duplicated, and only `feed` and `send` change where it is: not a future, a permit or a `Flush`
that is dropped, and not an attempt that fails. -/
theorem retryLoop_exactly_once (sink : Si) (x : Item) {ops : List (ClientOp Unit)}
    {s : RetryLoop (Recorded Si Item E) Item Fl} (run : (retryLoop sink x).run ops = some s) :
    s.Held x ∧ ∀ op s', op.takes = false → (retryLoop sink x).step s op = some s' →
      s'.item = s.item ∧ started s'.client.sink.calls = started s.client.sink.calls := by
  obtain ⟨inv, held⟩ := RetryLoop.run_held run
  refine ⟨held, fun op s' leaves h => ?_⟩
  obtain ⟨-, rest⟩ := RetryLoop.step_cases inv h
  rcases rest with ⟨-, same⟩ | ⟨takes, -⟩
  · exact same
  · rw [leaves] at takes
    cases takes

/-- A sink that is ready at the second try and fails to flush at the first. -/
def failingSink : ScriptSink Nat Nat := ⟨[.pending, .ready (.ok ())], [.ok ()], [.ready (.error 3)]⟩

/-- The first attempt is dropped, the second fails and is polled again, and the item is fed. -/
theorem retryLoop_exactly_once_failingSink :
    ∃ s : RetryLoop (Recorded (ScriptSink Nat Nat) Nat Nat) Nat FlushOnce,
      (retryLoop failingSink 5).run
        [.reserve, .pollFuture, .dropFuture, .flushReserve, .pollFuture, .pollFuture, .feed ()] =
        some s ∧ s.Held 5 := by
  have run : (retryLoop failingSink 5 : System (RetryLoop _ _ FlushOnce) _).run
      [.reserve, .pollFuture, .dropFuture, .flushReserve, .pollFuture, .pollFuture, .feed ()] =
      some _ := rfl
  exact ⟨_, run, (retryLoop_exactly_once failingSink 5 run).1⟩

end CancelSafeFutures
