import CancelSafeFutures.Async.Refinement
import CancelSafeFutures.Sink.Client

/-!
# `reserve` and `flush_reserve` are cancel-safe

A `Reserve` keeps nothing of the polls that were answered `Pending`, and a `FlushReserve` only
that the sink is flushed: from then on it is a `Reserve`.  So as long as it has issued no permit,
either future can be dropped and made anew, by `reserve` once the sink is flushed, and the sink
sees the same calls (`reserve_cancel_safe`).
-/

namespace CancelSafeFutures

open Async

variable {Si Item E Fl : Type} [Sink Si Item E]

/-- The call that makes the future anew. -/
def SinkFuture.again : SinkFuture → ClientOp Item
  | .reserve _ => .reserve
  | .flushReserve fut =>
    match fut.state with
    | .pollFlush => .flushReserve
    -- the sink is flushed
    | .reserve => .reserve

namespace Client

omit [Sink Si Item E] in
/-- All that can be observed: not, which of the two a future is. -/
def observe (s : Client Si Fl) : Client Si Fl :=
  { s with future := s.future.map fun fut => .reserve ⟨fut.held⟩ }

/-- A future that has not issued a permit is dropped, and made anew. -/
inductive DropsFuture (s : Client Si Fl) : List (ClientOp Item) → Prop
  | mk {fut} :
      s.future = some fut → fut.held.isSome → DropsFuture s [.dropFuture, fut.again]

omit [Sink Si Item E] in
/-- The state with another future. -/
def withFuture (s : Client Si Fl) (fut : SinkFuture) : Client Si Fl := { s with future := some fut }

/-- The states agree, but for a `FlushReserve` on one side that has flushed the sink and is a
`Reserve` on the other. -/
inductive Alike : Client (Recorded Si Item E) Fl → Client (Recorded Si Item E) Fl → Prop
  | same {s} : Inv s → Alike s s
  | flushed {s reserve} :
      Inv s → s.future = some (.flushReserve ⟨reserve, .reserve⟩) →
      Alike s (s.withFuture (.reserve reserve))

omit [Sink Si Item E] in
theorem Alike.observe_eq {s s' : Client (Recorded Si Item E) Fl} (alike : Alike s s') :
    s.observe = s'.observe := by
  cases alike with
  | same _ => rfl
  | flushed _ made =>
      simp only [observe, withFuture, made]
      rfl

variable [FlushFuture Fl (Recorded Si Item E) Item E]

theorem Alike.refl_step {s : Client (Recorded Si Item E) Fl} (inv : Inv s) (op : ClientOp Item) :
    Option.Rel Alike (s.step op) (s.step op) := by
  cases h : s.step op with
  | none => exact .none
  | some s' => exact .some (.same (inv.step h))

/-- A poll of a `FlushReserve` that has flushed the sink is a poll of its `Reserve`. -/
theorem poll_flushed (reserve : Reserve) (sink : Si) :
    ∃ polled : SinkPolled Reserve Si (Except E Permit),
      SinkFuture.poll (.reserve reserve) sink =
        .ok ⟨polled.answer, .reserve polled.this, polled.sink⟩ ∧
      SinkFuture.poll (.flushReserve ⟨reserve, .reserve⟩) sink =
        .ok ⟨polled.answer, .flushReserve ⟨polled.this, .reserve⟩, polled.sink⟩ := by
  obtain ⟨polled, called, -⟩ := reserve.poll_turn sink
  refine ⟨polled, ?_, ?_⟩
  · simp only [SinkFuture.poll, called, run_bind_ok]
  · simp [SinkFuture.poll, FlushReserve.poll, FlushReserve.pollReserve, called]

omit [Sink Si Item E] [FlushFuture Fl (Recorded Si Item E) Item E] in
theorem received_withFuture (s : Client Si Fl) (answer : Poll (Except E Permit))
    (fut fut' : SinkFuture) (sink : Si) :
    (s.withFuture fut').received ⟨answer, fut', sink⟩ =
      (s.received ⟨answer, fut, sink⟩).withFuture fut' ∧
    (s.received ⟨answer, fut, sink⟩).future = some fut := by
  simp only [received, withFuture]
  split <;> exact ⟨rfl, rfl⟩

omit [Sink Si Item E] [FlushFuture Fl (Recorded Si Item E) Item E] in
/-- What a move does with a permit or a `Flush`. -/
theorem Alike.pass {α : Type} {s : Client (Recorded Si Item E) Fl} {reserve : Reserve}
    {holder : Option α} {next next' : α → Client (Recorded Si Item E) Fl}
    (made : s.future = some (.flushReserve ⟨reserve, .reserve⟩))
    (inv : ∀ a, holder = some a → Inv (next a)) (future : ∀ a, (next a).future = s.future)
    (same : ∀ a, next' a = (next a).withFuture (.reserve reserve)) :
    Option.Rel Alike (holder.map next) (holder.map next') := by
  cases holder with
  | none => exact .none
  | some a =>
      rw [Option.map_some, Option.map_some, same]
      exact .some (.flushed (inv a rfl) ((future a).trans made))

/-- **Step lemma.** -/
theorem Alike.step {s s' : Client (Recorded Si Item E) Fl} (op : ClientOp Item)
    (alike : Alike s s') : Option.Rel Alike (s.step op) (s'.step op) := by
  cases alike with
  | same inv => exact refl_step inv op
  | @flushed reserve inv made =>
      have kept : ∀ {next}, s.step op = some next → Inv next := fun h => inv.step h
      have busy : s.idle = false := by simp [idle, made]
      have busy' : (s.withFuture (.reserve reserve)).idle = false := by simp [idle, withFuture]
      cases op with
      | reserve | flushReserve =>
          simp only [Client.step, busy, busy', Bool.false_eq_true, if_false]
          exact .none
      | pollFuture =>
          obtain ⟨polled, called', called⟩ := poll_flushed reserve s.sink
          obtain ⟨same, future⟩ := received_withFuture s polled.answer
            (.flushReserve ⟨polled.this, .reserve⟩) (.reserve polled.this) polled.sink
          have step_eq : s.step .pollFuture = some (s.received
              ⟨polled.answer, .flushReserve ⟨polled.this, .reserve⟩, polled.sink⟩) := by
            simp only [Client.step, made, Option.map_some, called]
          have step_eq' : (s.withFuture (.reserve reserve)).step .pollFuture =
              some ((s.withFuture (.reserve polled.this)).received
                ⟨polled.answer, .reserve polled.this, polled.sink⟩) := by
            simp only [Client.step, withFuture, Option.map_some, called', received]
          rw [step_eq, step_eq', same]
          exact .some (.flushed (kept step_eq) future)
      | dropFuture =>
          have step_eq : (s.withFuture (.reserve reserve)).step .dropFuture =
              s.step .dropFuture := by
            simp [Client.step, withFuture, made]
          rw [step_eq]
          exact refl_step inv _
      | feed item =>
          refine pass made (fun permit held => kept ?_) (fun _ => rfl) fun _ => rfl
          simp only [Client.step, held, Option.map_some]
      | send item =>
          refine pass made (fun permit held => kept ?_) (fun _ => rfl) fun _ => rfl
          simp only [Client.step, held, Option.map_some]
      | dropPermit =>
          refine pass made (fun permit held => kept ?_) (fun _ => rfl) fun _ => rfl
          simp only [Client.step, held, Option.map_some]
      | pollFlush =>
          refine pass made (fun flush held => kept ?_) (fun _ => rfl) fun _ => rfl
          simp only [Client.step, held, Option.map_some]
      | dropFlush =>
          refine pass made (fun flush held => kept ?_) (fun _ => rfl) fun _ => rfl
          simp only [Client.step, held, Option.map_some]

/-- Whoever makes a future anew finds nothing in the way. -/
theorem runFrom_again {sink : Si} {s : Client (Recorded Si Item E) Fl} {fut : SinkFuture}
    (gone : s.permit.isSome = true ∨ s.flush.isSome = true → fut.held = none)
    (made : s.future = some fut) (held : fut.held.isSome) :
    (client sink).runFrom s [.dropFuture, fut.again] = some
      (match (fut.again : ClientOp Item) with
        | .flushReserve => s.withFuture (.flushReserve (.new ⟨⟩))
        | _ => s.withFuture (.reserve (.new ⟨⟩))) := by
  have no_holder : s.permit = none ∧ s.flush = none := by
    cases permit : s.permit with
    | some _ =>
        rw [gone (.inl (by rw [permit]; rfl))] at held
        cases held
    | none =>
        cases flush : s.flush with
        | some _ =>
            rw [gone (.inr (by rw [flush]; rfl))] at held
            cases held
        | none => exact ⟨rfl, rfl⟩
  obtain ⟨permit, flush⟩ := no_holder
  cases fut with
  | reserve fut =>
      simp [System.runFrom, client, Client.step, made, SinkFuture.again, idle, permit, flush,
        withFuture]
  | flushReserve fut =>
      rcases fut with ⟨reserve, _ | _⟩ <;>
        simp [System.runFrom, client, Client.step, made, SinkFuture.again, idle, permit, flush,
          withFuture]

/-- **Bisimulation.** -/
theorem alike_bisimulation (sink : Si) :
    (client sink : System (Client (Recorded Si Item E) Fl) _).Bisimulation DropsFuture Alike where
  init := .same (Inv.init sink)
  step op alike := alike.step op
  detour := by
    rintro s s' detour alike @⟨fut, made, held⟩
    have borrow : ∀ {r : Reserve}, r.sink.isSome → r = .new ⟨⟩ := by
      rintro ⟨_ | ref⟩ some_sink
      · cases some_sink
      · rfl
    cases alike with
    | @same inv =>
        refine ⟨_, runFrom_again (fun holder => inv.gone holder fut made) made held, ?_⟩
        cases fut with
        | reserve fut =>
            have same : s.withFuture (.reserve (.new ⟨⟩)) = s := by
              rw [withFuture, ← borrow held, ← made]
            simp only [SinkFuture.again, same]
            exact .same inv
        | flushReserve fut =>
            rcases fut with ⟨reserve, _ | _⟩
            · have same : s.withFuture (.flushReserve (.new ⟨⟩)) = s := by
                rw [withFuture, FlushReserve.new, ← borrow held, ← made]
              simp only [SinkFuture.again, same]
              exact .same inv
            · obtain rfl := borrow held
              exact .flushed inv made
    | @flushed reserve inv made' =>
        cases made
        obtain rfl := borrow held
        have gone : s.permit.isSome = true ∨ s.flush.isSome = true →
            (SinkFuture.reserve (.new ⟨⟩)).held = none := by
          intro holder
          have flushed := inv.gone holder _ made'
          exact flushed
        exact ⟨_, runFrom_again gone rfl held, .flushed inv made'⟩

/-- **Cancel safety.**  Whatever a client does with a sink, it makes no difference to the calls on
the sink, to the permits and to what is done with them, if futures that have not issued a permit
are dropped and made anew, anywhere and any number of times. -/
theorem reserve_cancel_safe (sink : Si) {ops ops' : List (ClientOp Item)}
    (drops : (client sink : System (Client (Recorded Si Item E) Fl) _).Detours DropsFuture
      ops ops') :
    ((client sink : System (Client (Recorded Si Item E) Fl) _).run ops').map observe =
      ((client sink).run ops).map observe :=
  drops.observe_eq (alike_bisimulation sink) Alike.observe_eq

/-- A sink that flushes at the second try, and has room at the second. -/
def slowSink : ScriptSink Nat Nat :=
  ⟨[.pending, .ready (.ok ())], [.ok ()], [.pending, .ready (.ok ())]⟩

/-- A `FlushReserve` is dropped while the sink flushes, and again when it has. -/
theorem reserve_cancel_safe_slowSink :
    ((client slowSink : System (Client _ FlushOnce) _).run
      [.flushReserve, .pollFuture, .dropFuture, .flushReserve, .pollFuture, .dropFuture, .reserve,
        .pollFuture, .feed 5]).map observe =
    ((client slowSink).run
      [.flushReserve, .pollFuture, .pollFuture, .pollFuture, .feed 5]).map observe := by
  obtain ⟨s₁, reached₁, made₁⟩ : ∃ s, (client slowSink : System (Client _ FlushOnce) _).run
      [.flushReserve, .pollFuture] = some s ∧ s.future = some (.flushReserve (.new ⟨⟩)) :=
    ⟨_, rfl, rfl⟩
  have flushing : (client slowSink : System (Client _ FlushOnce) _).Detours DropsFuture
      [.flushReserve, .pollFuture] [.flushReserve, .pollFuture, .dropFuture, .flushReserve] :=
    .detour (.move _ (.move _ .start)) reached₁ (.mk made₁ rfl)
  obtain ⟨s₂, reached₂, made₂⟩ : ∃ s, (client slowSink : System (Client _ FlushOnce) _).run
      [.flushReserve, .pollFuture, .dropFuture, .flushReserve, .pollFuture] = some s ∧
      s.future = some (.flushReserve ⟨.new ⟨⟩, .reserve⟩) := ⟨_, rfl, rfl⟩
  have flushed : (client slowSink : System (Client _ FlushOnce) _).Detours DropsFuture
      [.flushReserve, .pollFuture, .pollFuture]
      [.flushReserve, .pollFuture, .dropFuture, .flushReserve, .pollFuture, .dropFuture,
        .reserve] :=
    .detour (.move _ flushing) reached₂ (.mk made₂ rfl)
  have fed := (flushed.move .pollFuture).move (.feed 5)
  exact reserve_cancel_safe slowSink fed

end Client

end CancelSafeFutures
