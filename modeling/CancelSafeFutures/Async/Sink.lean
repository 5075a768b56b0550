import CancelSafeFutures.Async.Poll

/-!
# Sinks

A `Sink` accepts items one at a time: `pollReady` asks for room, `startSend` hands an item over
and may only be called once `pollReady` has answered `Ready(Ok(()))` for it, and `pollFlush`
pushes out what was handed over.  Nothing is assumed of the answers.

A `Recorded` sink is a sink that keeps the list of all calls made on it, so what is proved of
every sink can be stated about the calls.
-/

namespace Async

/-- `Sink<Item>` with `Error = E`. -/
class Sink (Si : Type) (Item E : outParam Type) where
  pollReady : Si → Poll (Except E Unit) × Si
  startSend : Si → Item → Except E Unit × Si
  pollFlush : Si → Poll (Except E Unit) × Si

/-- One call on a sink, with its answer. -/
inductive SinkCall (Item E : Type) where
  | pollReady (answer : Poll (Except E Unit))
  | startSend (item : Item) (answer : Except E Unit)
  | pollFlush (answer : Poll (Except E Unit))

/-- A sink and all the calls made on it. -/
structure Recorded (Si Item E : Type) where
  sink : Si
  calls : List (SinkCall Item E)

variable {Si Item E : Type}

instance [Sink Si Item E] : Sink (Recorded Si Item E) Item E where
  pollReady this :=
    let (answer, sink) := Sink.pollReady this.sink
    (answer, ⟨sink, this.calls ++ [.pollReady answer]⟩)
  startSend this item :=
    let (answer, sink) := Sink.startSend this.sink item
    (answer, ⟨sink, this.calls ++ [.startSend item answer]⟩)
  pollFlush this :=
    let (answer, sink) := Sink.pollFlush this.sink
    (answer, ⟨sink, this.calls ++ [.pollFlush answer]⟩)

section Recorded

variable [Sink Si Item E] {sink sink' : Recorded Si Item E}

theorem calls_pollReady {answer : Poll (Except E Unit)}
    (h : Sink.pollReady sink = (answer, sink')) :
    sink'.calls = sink.calls ++ [.pollReady answer] := by
  cases h
  rfl

theorem calls_startSend {item : Item} {answer : Except E Unit}
    (h : Sink.startSend sink item = (answer, sink')) :
    sink'.calls = sink.calls ++ [.startSend item answer] := by
  cases h
  rfl

theorem calls_pollFlush {answer : Poll (Except E Unit)}
    (h : Sink.pollFlush sink = (answer, sink')) :
    sink'.calls = sink.calls ++ [.pollFlush answer] := by
  cases h
  rfl

end Recorded

/-! ## Reading the calls -/

/-- The items handed over. -/
def started (calls : List (SinkCall Item E)) : List Item :=
  calls.filterMap fun call => match call with
    | .startSend item _ => some item
    | _ => none

@[simp] theorem started_append (calls calls' : List (SinkCall Item E)) :
    started (calls ++ calls') = started calls ++ started calls' :=
  List.filterMap_append

/-- Each item was handed over right after a `pollReady` that answered `Ready(Ok(()))`. -/
def Conforms (calls : List (SinkCall Item E)) : Prop :=
  ∀ before item answer after, calls = before ++ .startSend item answer :: after →
    before.getLast? = some (.pollReady (.ready (.ok ())))

theorem Conforms.nil : Conforms ([] : List (SinkCall Item E)) := by
  intro before item answer after eq
  simp at eq

/-- Calls that hand nothing over. -/
theorem Conforms.append {calls more : List (SinkCall Item E)} (conforms : Conforms calls)
    (quiet : started more = []) : Conforms (calls ++ more) := by
  intro before item answer after eq
  rcases List.append_eq_append_iff.mp eq with
    ⟨rest, before_eq, more_eq⟩ | ⟨rest, calls_eq, after_eq⟩
  · rw [more_eq, started_append] at quiet
    simp [started] at quiet
  · cases rest with
    | nil =>
        rw [List.nil_append] at after_eq
        rw [← after_eq] at quiet
        simp [started] at quiet
    | cons call rest =>
        obtain ⟨rfl, -⟩ := List.cons.inj after_eq
        exact conforms before item answer rest calls_eq

/-- An item handed over while the sink has just answered that it is ready. -/
theorem Conforms.startSend {calls : List (SinkCall Item E)} (conforms : Conforms calls)
    (ready : calls.getLast? = some (.pollReady (.ready (.ok ())))) (item : Item)
    (answer : Except E Unit) : Conforms (calls ++ [.startSend item answer]) := by
  intro before item' answer' after eq
  rcases List.append_eq_append_iff.mp eq with
    ⟨rest, before_eq, last_eq⟩ | ⟨rest, calls_eq, after_eq⟩
  · cases rest with
    | nil =>
        rw [before_eq, List.append_nil]
        exact ready
    | cons call rest => simp at last_eq
  · cases rest with
    | nil =>
        rw [List.append_nil] at calls_eq
        rw [← calls_eq]
        exact ready
    | cons call rest =>
        obtain ⟨rfl, -⟩ := List.cons.inj after_eq
        exact conforms before item' answer' rest calls_eq

/-! ## Flushing -/

/-- The calls from `sink` to `sink'` were all `pollFlush`. -/
inductive Flushes [Sink Si Item E] : Si → Si → Prop
  | refl (sink) : Flushes sink sink
  | flush {sink sink' sink'' answer} :
      Sink.pollFlush sink = (answer, sink') → Flushes sink' sink'' → Flushes sink sink''

/-- The future `flush()` returns, which does nothing to the sink but flush it. -/
class FlushFuture (Fl Si : Type) (Item E : outParam Type) [Sink Si Item E] where
  flush : Fl
  poll : Fl → Si → Poll (Except E Unit) × Fl × Si
  poll_flushes : ∀ fl sink, Flushes sink (poll fl sink).2.2

theorem Flushes.calls [Sink Si Item E] {sink sink' : Recorded Si Item E}
    (h : Flushes sink sink') :
    ∃ flushes, sink'.calls = sink.calls ++ flushes ∧
      ∀ call ∈ flushes, ∃ a, call = .pollFlush a := by
  induction h with
  | refl sink => exact ⟨[], (List.append_nil _).symm, by simp⟩
  | @flush sink sink' sink'' answer flushed _ ih =>
      obtain ⟨flushes, calls, all⟩ := ih
      refine ⟨.pollFlush answer :: flushes, ?_, ?_⟩
      · rw [calls, calls_pollFlush flushed, List.append_assoc]
        rfl
      · intro call mem
        rcases List.mem_cons.mp mem with rfl | mem
        · exact ⟨answer, rfl⟩
        · exact all call mem

theorem started_of_flushes {flushes : List (SinkCall Item E)}
    (all : ∀ call ∈ flushes, ∃ a, call = .pollFlush a) : started flushes = [] := by
  rw [started, List.filterMap_eq_nil_iff]
  intro call mem
  obtain ⟨a, rfl⟩ := all call mem
  rfl

/-! ## Sinks that follow a script -/

/-- Answers to give in order to each kind of call.  After them it is never ready, accepts
everything and has nothing to flush. -/
structure ScriptSink (Item E : Type) where
  ready : List (Poll (Except E Unit))
  start : List (Except E Unit)
  flush : List (Poll (Except E Unit))

instance : Sink (ScriptSink Item E) Item E where
  pollReady this := (this.ready.headD .pending, { this with ready := this.ready.tail })
  startSend this _ := (this.start.headD (.ok ()), { this with start := this.start.tail })
  pollFlush this := (this.flush.headD (.ready (.ok ())), { this with flush := this.flush.tail })

/-- The `Flush` future that polls `pollFlush` once in each poll. -/
inductive FlushOnce where
  | flush

instance [Sink Si Item E] : FlushFuture FlushOnce Si Item E where
  flush := .flush
  poll fl sink := ((Sink.pollFlush sink).1, fl, (Sink.pollFlush sink).2)
  poll_flushes _ _ := .flush rfl (.refl _)

end Async
