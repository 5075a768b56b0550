import CancelSafeFutures.Sink.Client

/-!
# The phases of a `FlushReserve`

`Driven start answers fut sink`: the future `start`, polled as often as one likes, has given
`answers` and has become `fut`; `sink` records the calls it has made.  Its owner polls it again
after an error and after a permit alike, and once the future has given its borrow away others may
use the sink between the polls.

A `FlushReserve` calls `poll_flush` up to the first success and then `poll_ready` up to the first
success (`Phases`), so that no item is unflushed when it issues a permit.
-/

namespace CancelSafeFutures

open Async

variable {Si Item E : Type}

/-- What the future `start` gave and became, with the calls it made on the sink. -/
inductive Driven [Sink Si Item E] (start : SinkFuture) :
    List (Poll (Except E Permit)) → SinkFuture → Recorded Si Item E → Prop
  | new (sink : Si) : Driven start [] start ⟨sink, []⟩
  | poll {answers fut sink polled} :
      Driven start answers fut sink → fut.poll sink = .ok polled →
      Driven start (answers ++ [polled.answer]) polled.this polled.sink
  | lent {answers fut sink} (sink' : Si) :
      Driven start answers fut sink → fut.held = none →
      Driven start answers fut ⟨sink', sink.calls⟩

/-- Some poll gave a permit. -/
def Issued (answers : List (Poll (Except E Permit))) : Prop :=
  ∃ permit, .ready (.ok permit) ∈ answers

theorem issued_append (answers : List (Poll (Except E Permit)))
    (answer : Poll (Except E Permit)) :
    Issued (answers ++ [answer]) ↔ Issued answers ∨ ∃ permit, answer = .ready (.ok permit) := by
  simp only [Issued, List.mem_append, List.mem_singleton, exists_or]
  exact or_congr Iff.rfl ⟨fun ⟨p, h⟩ => ⟨p, h.symm⟩, fun ⟨p, h⟩ => ⟨p, h.symm⟩⟩

/-! ## Calls of one kind -/

/-- `Ready(Ok(()))`. -/
def succeeds : Poll (Except E Unit) → Bool
  | .ready (.ok ()) => true
  | _ => false

/-- The last of these answers is `Ready(Ok(()))`. -/
def succeeded (answers : List (Poll (Except E Unit))) : Bool :=
  answers.getLast?.any succeeds

/-- No call was made after one that succeeded. -/
def UpToSuccess (answers : List (Poll (Except E Unit))) : Prop :=
  ∀ answer ∈ answers.dropLast, succeeds answer = false

@[simp] theorem succeeded_nil : succeeded ([] : List (Poll (Except E Unit))) = false := rfl

@[simp] theorem succeeded_append (answers : List (Poll (Except E Unit)))
    (answer : Poll (Except E Unit)) : succeeded (answers ++ [answer]) = succeeds answer := by
  rw [succeeded, List.getLast?_append, List.getLast?_singleton]
  rfl

theorem UpToSuccess.nil : UpToSuccess ([] : List (Poll (Except E Unit))) :=
  fun _ mem => nomatch mem

/-- A call made while none has succeeded. -/
theorem UpToSuccess.append {answers : List (Poll (Except E Unit))} (upTo : UpToSuccess answers)
    (not_yet : succeeded answers = false) (answer : Poll (Except E Unit)) :
    UpToSuccess (answers ++ [answer]) := by
  intro before mem
  rw [List.dropLast_concat] at mem
  rcases List.eq_nil_or_concat answers with rfl | ⟨rest, last, rfl⟩
  · cases mem
  · rw [List.concat_eq_append] at mem not_yet upTo
    rw [succeeded_append] at not_yet
    rcases List.mem_append.mp mem with earlier | now
    · exact upTo before (by rwa [List.dropLast_concat])
    · rw [List.mem_singleton.mp now]
      exact not_yet

/-! ## The two phases -/

/-- The future that has made these calls. -/
def FlushReserve.after (flushes readies : List (Poll (Except E Unit))) : FlushReserve where
  reserve := ⟨if succeeded readies then none else some ⟨⟩⟩
  state := if succeeded flushes then .reserve else .pollFlush

theorem FlushReserve.after_reserve {flushes readies : List (Poll (Except E Unit))} :
    (FlushReserve.after flushes readies).state = .reserve ↔ succeeded flushes = true := by
  unfold FlushReserve.after
  cases succeeded flushes <;> simp

theorem FlushReserve.after_pollFlush {flushes readies : List (Poll (Except E Unit))} :
    (FlushReserve.after flushes readies).state = .pollFlush ↔ succeeded flushes = false := by
  unfold FlushReserve.after
  cases succeeded flushes <;> simp

theorem FlushReserve.after_held {flushes readies : List (Poll (Except E Unit))} :
    (FlushReserve.after flushes readies).reserve.sink.isSome = true ↔
      succeeded readies = false := by
  unfold FlushReserve.after
  cases succeeded readies <;> simp

/-- A `FlushReserve` and the calls it has made: `poll_flush` up to the first success, then
`poll_ready` up to the first success. -/
structure FlushReserve.Phases (this : FlushReserve) (calls : List (SinkCall Item E))
    (flushes readies : List (Poll (Except E Unit))) : Prop where
  calls : calls = flushes.map .pollFlush ++ readies.map .pollReady
  flushing : UpToSuccess flushes
  reserving : UpToSuccess readies
  in_order : succeeded flushes = false → readies = []
  this : this = .after flushes readies

namespace FlushReserve.Phases

variable {this : FlushReserve} {flushes readies : List (Poll (Except E Unit))}

section State

variable {calls : List (SinkCall Item E)}

theorem new : (FlushReserve.new ⟨⟩).Phases ([] : List (SinkCall Item E)) [] [] :=
  ⟨rfl, .nil, .nil, fun _ => rfl, rfl⟩

theorem reserve_iff (phases : this.Phases calls flushes readies) :
    this.state = .reserve ↔ succeeded flushes = true := by
  rw [phases.this, FlushReserve.after_reserve]

theorem pollFlush_iff (phases : this.Phases calls flushes readies) :
    this.state = .pollFlush ↔ succeeded flushes = false := by
  rw [phases.this, FlushReserve.after_pollFlush]

theorem held_iff (phases : this.Phases calls flushes readies) :
    this.reserve.sink.isSome = true ↔ succeeded readies = false := by
  rw [phases.this, FlushReserve.after_held]

theorem of_reserve (phases : this.Phases calls flushes readies) (state : this.state = .reserve) :
    (⟨this.reserve, .reserve⟩ : FlushReserve).Phases calls flushes readies := by
  rw [← state]
  exact phases

/-- Whenever the state is `PollFlush` the `Reserve` inside holds the sink. -/
theorem sound (phases : this.Phases calls flushes readies) : this.Sound := by
  intro state
  rw [phases.held_iff, phases.in_order (phases.pollFlush_iff.mp state), succeeded_nil]

end State

variable [Sink Si Item E] {sink sink' : Recorded Si Item E}

/-- One more `poll_flush`. -/
theorem flush {answer : Poll (Except E Unit)} (phases : this.Phases sink.calls flushes readies)
    (state : this.state = .pollFlush) (called : Sink.pollFlush sink = (answer, sink')) :
    (FlushReserve.after (flushes ++ [answer]) readies).Phases sink'.calls
      (flushes ++ [answer]) readies := by
  have not_yet := phases.pollFlush_iff.mp state
  have none_yet := phases.in_order not_yet
  refine ⟨?_, phases.flushing.append not_yet answer, phases.reserving, fun _ => none_yet, rfl⟩
  rw [calls_pollFlush called, phases.calls, none_yet, List.map_nil, List.append_nil,
    List.append_nil, List.map_append]
  rfl

/-- One more `poll_ready`. -/
theorem ready {answer : Poll (Except E Unit)} (phases : this.Phases sink.calls flushes readies)
    (state : this.state = .reserve) (held : this.reserve.sink.isSome = true)
    (called : Sink.pollReady sink = (answer, sink')) :
    (FlushReserve.after flushes (readies ++ [answer])).Phases sink'.calls flushes
      (readies ++ [answer]) := by
  refine ⟨?_, phases.flushing, phases.reserving.append (phases.held_iff.mp held) answer, ?_, rfl⟩
  · rw [calls_pollReady called, phases.calls, List.map_append, List.append_assoc]
    rfl
  · intro waiting
    rw [phases.reserve_iff.mp state] at waiting
    cases waiting

/-- An answer that is no success leaves the future as it is. -/
theorem after_flush_eq {answer : Poll (Except E Unit)} {calls : List (SinkCall Item E)}
    (phases : this.Phases calls flushes readies) (state : this.state = .pollFlush)
    (no_success : succeeds answer = false) : .after (flushes ++ [answer]) readies = this := by
  rw [phases.this]
  simp [FlushReserve.after, phases.pollFlush_iff.mp state, no_success]

theorem after_ready_eq {answer : Poll (Except E Unit)} {calls : List (SinkCall Item E)}
    (phases : this.Phases calls flushes readies) (held : this.reserve.sink.isSome = true)
    (no_success : succeeds answer = false) : .after flushes (readies ++ [answer]) = this := by
  rw [phases.this]
  simp [FlushReserve.after, phases.held_iff.mp held, no_success]

/-- What a poll of the `Reserve` inside adds. -/
theorem reserveTurn {reserve : Reserve}
    {polled : SinkPolled Reserve (Recorded Si Item E) (Except E Permit)}
    (phases : (⟨reserve, .reserve⟩ : FlushReserve).Phases sink.calls flushes readies)
    (turn : ReserveTurn reserve sink polled) :
    ∃ readies', (⟨polled.this, .reserve⟩ : FlushReserve).Phases polled.sink.calls flushes readies' ∧
      (succeeded readies' = true ↔
        succeeded readies = true ∨ ∃ permit, polled.answer = .ready (.ok permit)) := by
  cases turn with
  | gone gone => exact ⟨readies, phases, by simp⟩
  | pending holds called =>
      have next := phases.ready rfl holds called
      rw [phases.after_ready_eq holds rfl] at next
      exact ⟨_, next, by simp [succeeds, phases.held_iff.mp holds]⟩
  | failed holds called =>
      have next := phases.ready rfl holds called
      rw [phases.after_ready_eq holds rfl] at next
      exact ⟨_, next, by simp [succeeds, phases.held_iff.mp holds]⟩
  | issued holds called =>
      have next := phases.ready rfl holds called
      have taken : FlushReserve.after flushes (readies ++ [.ready (.ok ())]) =
          ⟨⟨none⟩, .reserve⟩ := by
        simp [FlushReserve.after, succeeds, phases.reserve_iff.mp rfl]
      rw [taken] at next
      exact ⟨_, next, by simp [succeeds]⟩

/-- What a poll adds. -/
theorem turn {polled : SinkPolled FlushReserve (Recorded Si Item E) (Except E Permit)}
    (phases : this.Phases sink.calls flushes readies) (turn : FlushReserveTurn this sink polled) :
    ∃ flushes' readies', polled.this.Phases polled.sink.calls flushes' readies' ∧
      (succeeded readies' = true ↔
        succeeded readies = true ∨ ∃ permit, polled.answer = .ready (.ok permit)) := by
  cases turn with
  | pending state called =>
      have next := phases.flush state called
      rw [phases.after_flush_eq state rfl] at next
      exact ⟨_, _, next, by simp⟩
  | failed state called =>
      have next := phases.flush state called
      rw [phases.after_flush_eq state rfl] at next
      exact ⟨_, _, next, by simp⟩
  | flushed state called turn =>
      have next := phases.flush state called
      have moved : FlushReserve.after (flushes ++ [.ready (.ok ())]) readies =
          ⟨this.reserve, .reserve⟩ := by
        rw [phases.this]
        simp [FlushReserve.after, succeeds]
      rw [moved] at next
      obtain ⟨readies', phases', issued⟩ := next.reserveTurn turn
      exact ⟨_, readies', phases', issued⟩
  | reserving state turn =>
      obtain ⟨readies', phases', issued⟩ := phases.of_reserve state |>.reserveTurn turn
      exact ⟨_, readies', phases', issued⟩

end FlushReserve.Phases

/-- **Run lemma.** A `FlushReserve` that was polled any number of times is in one of its phases. -/
theorem Driven.phases [Sink Si Item E] {answers : List (Poll (Except E Permit))}
    {fut : SinkFuture} {sink : Recorded Si Item E}
    (run : Driven (.flushReserve (.new ⟨⟩)) answers fut sink) :
    ∃ this flushes readies, fut = .flushReserve this ∧ this.Phases sink.calls flushes readies ∧
      (Issued answers ↔ succeeded readies = true) := by
  induction run with
  | new sink => exact ⟨_, [], [], rfl, .new, by simp [Issued]⟩
  | @poll answers fut sink polled _ called ih =>
      obtain ⟨this, flushes, readies, rfl, phases, issued⟩ := ih
      obtain ⟨polled', called', turn⟩ := FlushReserve.poll_turn phases.sound sink
      rw [SinkFuture.poll, called', run_bind_ok] at called
      cases called
      obtain ⟨flushes', readies', phases', issued'⟩ := phases.turn turn
      exact ⟨_, flushes', readies', rfl, phases', by rw [issued_append, issued, issued']⟩
  | lent sink' _ _ ih => exact ih

/-! ## Nothing unflushed -/

/-- What a sink has accepted and not flushed yet: nothing once `poll_flush` has succeeded, and
`poll_ready` accepts nothing. -/
structure FlushesAll [Sink Si Item E] (unflushed : Si → List Item) : Prop where
  pollFlush : ∀ {sink sink' : Si}, Sink.pollFlush sink = (.ready (.ok ()), sink') →
    unflushed sink' = []
  pollReady : ∀ {sink sink' : Si} {answer}, Sink.pollReady sink = (answer, sink') →
    unflushed sink' ⊆ unflushed sink

section FlushesAll

variable [Sink Si Item E] {unflushed : Si → List Item}

theorem FlushesAll.pollReady_nil (all : FlushesAll unflushed) {sink sink' : Si}
    {answer : Poll (Except E Unit)} (called : Sink.pollReady sink = (answer, sink'))
    (clean : unflushed sink = []) : unflushed sink' = [] := by
  have kept := all.pollReady called
  rw [clean] at kept
  exact List.subset_nil.mp kept

theorem ReserveTurn.clean (all : FlushesAll unflushed) {this : Reserve} {sink : Si}
    {polled : SinkPolled Reserve Si (Except E Permit)} (turn : ReserveTurn this sink polled)
    (clean : this.sink.isSome = true → unflushed sink = []) :
    (polled.this.sink.isSome = true → unflushed polled.sink = []) ∧
      ∀ permit, polled.answer = .ready (.ok permit) → unflushed polled.sink = [] := by
  cases turn with
  | gone gone => exact ⟨clean, fun _ h => nomatch h⟩
  | pending holds called =>
      exact ⟨fun _ => all.pollReady_nil called (clean holds), fun _ h => nomatch h⟩
  | failed holds called =>
      exact ⟨fun _ => all.pollReady_nil called (clean holds), fun _ h => nomatch h⟩
  | issued holds called =>
      exact ⟨fun h => (nomatch h), fun _ _ => all.pollReady_nil called (clean holds)⟩

/-- A `FlushReserve` in its second phase, while it holds the sink. -/
def FlushReserve.Clean (unflushed : Si → List Item) (this : FlushReserve) (sink : Si) : Prop :=
  this.state = .reserve → this.reserve.sink.isSome = true → unflushed sink = []

theorem FlushReserveTurn.clean (all : FlushesAll unflushed) {this : FlushReserve} {sink : Si}
    {polled : SinkPolled FlushReserve Si (Except E Permit)}
    (turn : FlushReserveTurn this sink polled) (clean : this.Clean unflushed sink) :
    polled.this.Clean unflushed polled.sink ∧
      ∀ permit, polled.answer = .ready (.ok permit) → unflushed polled.sink = [] := by
  cases turn with
  | pending state called =>
      exact ⟨fun h => (nomatch state.symm.trans h), fun _ h => nomatch h⟩
  | failed state called =>
      exact ⟨fun h => (nomatch state.symm.trans h), fun _ h => nomatch h⟩
  | flushed state called turn =>
      have kept := turn.clean all fun _ => all.pollFlush called
      exact ⟨fun _ => kept.1, kept.2⟩
  | reserving state turn =>
      have kept := turn.clean all (clean state)
      exact ⟨fun _ => kept.1, kept.2⟩

/-- Whatever calls are recorded. -/
theorem FlushesAll.recorded (all : FlushesAll unflushed) :
    FlushesAll fun sink : Recorded Si Item E => unflushed sink.sink where
  pollFlush {sink sink'} called := by
    have answer : (Sink.pollFlush sink.sink).1 = .ready (.ok ()) := congrArg Prod.fst called
    have left : (Sink.pollFlush sink.sink).2 = sink'.sink :=
      congrArg (fun r => r.2.sink) called
    exact all.pollFlush (Prod.ext answer left)
  pollReady {sink sink' answer} called := by
    have left : (Sink.pollReady sink.sink).2 = sink'.sink :=
      congrArg (fun r => r.2.sink) called
    exact all.pollReady (Prod.ext rfl left)

/-- Between its polls as after them. -/
theorem Driven.clean (all : FlushesAll unflushed) {answers : List (Poll (Except E Permit))}
    {fut : SinkFuture} {sink : Recorded Si Item E}
    (run : Driven (.flushReserve (.new ⟨⟩)) answers fut sink) :
    ∀ this, fut = .flushReserve this → this.Clean unflushed sink.sink := by
  induction run with
  | new sink =>
      rintro this ⟨⟩ state
      cases state
  | @poll answers fut sink polled run called ih =>
      obtain ⟨this, flushes, readies, rfl, phases, -⟩ := run.phases
      obtain ⟨polled', called', turn⟩ := FlushReserve.poll_turn phases.sound sink
      rw [SinkFuture.poll, called', run_bind_ok] at called
      cases called
      rintro this' ⟨⟩
      exact (turn.clean all.recorded (ih this rfl)).1
  | lent sink' _ gone ih =>
      rintro this rfl _ held
      have free : this.reserve.sink = none := gone
      rw [free] at held
      cases held

end FlushesAll

/-! ## Nothing unflushed in a run of a client -/

/-- The items handed over since the last `poll_flush` that succeeded. -/
def sinceFlush (calls : List (SinkCall Item E)) : List Item :=
  calls.foldl (fun items call =>
    match call with
    | .startSend item _ => items ++ [item]
    | .pollFlush (.ready (.ok ())) => []
    | _ => items) []

theorem sinceFlush_flushesAll [Sink Si Item E] :
    FlushesAll fun sink : Recorded Si Item E => sinceFlush sink.calls where
  pollFlush called := by
    simp only [calls_pollFlush called, sinceFlush, List.foldl_append, List.foldl_cons,
      List.foldl_nil]
  pollReady called := by
    simp only [calls_pollReady called, sinceFlush, List.foldl_append, List.foldl_cons,
      List.foldl_nil]
    exact List.Subset.refl _

namespace Client

variable [Sink Si Item E] {Fl : Type} {s s' : Client (Recorded Si Item E) Fl}

/-- The `FlushReserve` of a client, in its second phase, holds a flushed sink. -/
def Flushed (s : Client (Recorded Si Item E) Fl) : Prop :=
  ∀ this, s.future = some (.flushReserve this) →
    this.Clean (fun sink => sinceFlush sink.calls) s.sink

omit [Sink Si Item E] in
/-- A future that holds nothing. -/
theorem Flushed.of_gone (gone : ∀ fut, s.future = some fut → fut.held = none)
    (same : s'.future = s.future) : s'.Flushed := by
  intro this made _ held
  have free : this.reserve.sink = none := gone (.flushReserve this) (same ▸ made)
  rw [free] at held
  cases held

theorem Flushed.poll (flushed : s.Flushed) {this : FlushReserve}
    (made : s.future = some (.flushReserve this))
    {polled : SinkPolled FlushReserve (Recorded Si Item E) (Except E Permit)}
    (turn : FlushReserveTurn this s.sink polled) :
    (s.received ⟨polled.answer, .flushReserve polled.this, polled.sink⟩).Flushed := by
  have kept := (turn.clean sinceFlush_flushesAll (flushed this made)).1
  unfold received
  split <;> (rintro this' ⟨⟩; exact kept)

theorem Flushed.step [FlushFuture Fl (Recorded Si Item E) Item E] (inv : Inv s)
    (flushed : s.Flushed) {op : ClientOp Item} (h : s.step op = some s') : s'.Flushed := by
  cases op with
  | reserve =>
      simp only [Client.step] at h
      split at h
      · cases h
        rintro this ⟨⟩
      · cases h
  | flushReserve =>
      simp only [Client.step] at h
      split at h
      · cases h
        rintro this ⟨⟩ state
        cases state
      · cases h
  | pollFuture =>
      obtain ⟨fut, made, rfl⟩ := Option.map_eq_some_iff.mp h
      cases fut with
      | reserve fut =>
          obtain ⟨polled, called, -⟩ := fut.poll_turn s.sink
          simp only [SinkFuture.poll, called, run_bind_ok, received]
          split <;> rintro this ⟨⟩
      | flushReserve fut =>
          obtain ⟨polled, called, turn⟩ := FlushReserve.poll_turn (inv.sound _ made) s.sink
          simp only [SinkFuture.poll, called, run_bind_ok]
          exact flushed.poll made turn
  | dropFuture =>
      obtain ⟨fut, made, rfl⟩ := Option.map_eq_some_iff.mp h
      rintro this ⟨⟩
  | feed item =>
      obtain ⟨permit, held, rfl⟩ := Option.map_eq_some_iff.mp h
      exact .of_gone (inv.gone (.inl (by rw [held]; rfl))) rfl
  | send item =>
      obtain ⟨permit, held, rfl⟩ := Option.map_eq_some_iff.mp h
      exact .of_gone (inv.gone (.inl (by rw [held]; rfl))) rfl
  | dropPermit =>
      obtain ⟨permit, held, rfl⟩ := Option.map_eq_some_iff.mp h
      exact .of_gone (inv.gone (.inl (by rw [held]; rfl))) rfl
  | pollFlush =>
      obtain ⟨flush, held, rfl⟩ := Option.map_eq_some_iff.mp h
      exact .of_gone (inv.gone (.inr (by rw [held]; rfl))) rfl
  | dropFlush =>
      obtain ⟨flush, held, rfl⟩ := Option.map_eq_some_iff.mp h
      exact .of_gone (inv.gone (.inr (by rw [held]; rfl))) rfl

theorem Flushed.run [FlushFuture Fl (Recorded Si Item E) Item E] {sink : Si}
    {ops : List (ClientOp Item)} (run : (client sink).run ops = some s) : s.Flushed := by
  have both : Inv s ∧ s.Flushed := by
    refine System.run_invariant' (I := fun s => Inv s ∧ s.Flushed) ⟨Inv.init sink, ?_⟩ ?_ run
    · rintro this ⟨⟩
    · intro s op s' kept h
      exact ⟨kept.1.step h, kept.2.step kept.1 h⟩
  exact both.2

end Client

/-! ## The contract -/

/-- What a `FlushReserve` over a sink of this type does. -/
structure FlushReserveContract (Si : Type) {Item E : Type} [Sink Si Item E] : Prop where
  /-- Its calls are `poll_flush` up to the first success and then `poll_ready` up to the first
  success, with which it issues the permit.  The phase it is in follows from the calls, so one
  that did not succeed leaves it in the phase in which it was made. -/
  phases : ∀ {answers fut} {sink : Recorded Si Item E},
    Driven (.flushReserve (.new ⟨⟩)) answers fut sink →
    ∃ this flushes readies, fut = .flushReserve this ∧ this.Phases sink.calls flushes readies ∧
      (Issued answers ↔ succeeded readies = true)
  /-- Until then every poll goes on with a call of the phase. -/
  resumes : ∀ {answers this} {sink : Recorded Si Item E} {polled},
    Driven (.flushReserve (.new ⟨⟩)) answers (.flushReserve this) sink → ¬ Issued answers →
    this.poll sink = .ok polled → ∃ call made, polled.sink.calls = sink.calls ++ call :: made ∧
      match this.state with
      | .pollFlush => ∃ answer, call = .pollFlush answer
      | .reserve => ∃ answer, call = .pollReady answer
  /-- No poll panics. -/
  returns : ∀ {answers fut} {sink : Recorded Si Item E},
    Driven (.flushReserve (.new ⟨⟩)) answers fut sink → ∃ polled, fut.poll sink = .ok polled
  /-- Whatever was in the sink before, nothing is unflushed when the permit is issued. -/
  flushed : ∀ {unflushed : Si → List Item}, FlushesAll unflushed →
    ∀ {answers fut} {sink : Recorded Si Item E} {polled permit},
    Driven (.flushReserve (.new ⟨⟩)) answers fut sink → fut.poll sink = .ok polled →
    polled.answer = .ready (.ok permit) → unflushed polled.sink.sink = []
  /-- Nor has a client handed anything over since the last flush that succeeded, whichever futures
  it polled and dropped before. -/
  fed : ∀ {Fl : Type} [FlushFuture Fl (Recorded Si Item E) Item E] {sink : Si} {ops}
    {s : Client (Recorded Si Item E) Fl} {this polled permit},
    (client sink).run ops = some s → s.future = some (.flushReserve this) →
    this.poll s.sink = .ok polled → polled.answer = .ready (.ok permit) →
    sinceFlush polled.sink.calls = []

section Contract

variable [Sink Si Item E] {sink : Recorded Si Item E}

/-- While it holds the sink, a poll begins with a call of the phase. -/
theorem FlushReserveTurn.resumes {this : FlushReserve}
    {polled : SinkPolled FlushReserve (Recorded Si Item E) (Except E Permit)}
    (turn : FlushReserveTurn this sink polled) (held : this.reserve.sink.isSome = true) :
    ∃ call made, polled.sink.calls = sink.calls ++ call :: made ∧
      match this.state with
      | .pollFlush => ∃ answer, call = .pollFlush answer
      | .reserve => ∃ answer, call = .pollReady answer := by
  cases turn with
  | pending state called =>
      rw [state]
      exact ⟨_, [], calls_pollFlush called, _, rfl⟩
  | failed state called =>
      rw [state]
      exact ⟨_, [], calls_pollFlush called, _, rfl⟩
  | flushed state called turn =>
      rw [state]
      obtain ⟨made, calls, -⟩ := turn.effect.calls
      refine ⟨.pollFlush (.ready (.ok ())), made, ?_, _, rfl⟩
      rw [calls, calls_pollFlush called, List.append_assoc]
      rfl
  | reserving state turn =>
      rw [state]
      cases turn with
      | gone gone =>
          rw [gone] at held
          cases held
      | pending _ called => exact ⟨_, [], calls_pollReady called, _, rfl⟩
      | failed _ called => exact ⟨_, [], calls_pollReady called, _, rfl⟩
      | issued _ called => exact ⟨_, [], calls_pollReady called, _, rfl⟩

end Contract

/-- **Permits over a flushed sink.** For every sink and every sequence of polls. -/
theorem flushReserve_contract (Si : Type) {Item E : Type} [Sink Si Item E] :
    FlushReserveContract Si where
  phases run := run.phases
  resumes := by
    intro answers this sink polled run not_issued called
    obtain ⟨_, flushes, readies, ⟨⟩, phases, issued⟩ := run.phases
    have held :=
      phases.held_iff.mpr (Bool.eq_false_iff.mpr fun done => not_issued (issued.mpr done))
    obtain ⟨polled', called', turn⟩ := FlushReserve.poll_turn phases.sound sink
    cases called.symm.trans called'
    exact turn.resumes held
  returns := by
    intro answers fut sink run
    obtain ⟨this, flushes, readies, rfl, phases, -⟩ := run.phases
    obtain ⟨polled, called, -⟩ := FlushReserve.poll_turn phases.sound sink
    exact ⟨_, by rw [SinkFuture.poll, called, run_bind_ok]⟩
  flushed := by
    intro unflushed all answers fut sink polled permit run called issued
    obtain ⟨this, flushes, readies, rfl, phases, -⟩ := run.phases
    obtain ⟨polled', called', turn⟩ := FlushReserve.poll_turn phases.sound sink
    rw [SinkFuture.poll, called', run_bind_ok] at called
    cases called
    exact (turn.clean all.recorded (run.clean all this rfl)).2 permit issued
  fed := by
    intro Fl _ sink ops s this polled permit run made called issued
    obtain ⟨polled', called', turn⟩ :=
      FlushReserve.poll_turn ((Client.Inv.run run).sound _ made) s.sink
    cases called.symm.trans called'
    exact (turn.clean sinceFlush_flushesAll (Client.Flushed.run run this made)).2 permit issued

/-- A sink that is always ready and flushes one item at a time. -/
structure OneByOne where
  buffer : List Nat

instance : Sink OneByOne Nat Nat where
  pollReady this := (.ready (.ok ()), this)
  startSend this item := (.ok (), ⟨this.buffer ++ [item]⟩)
  pollFlush this := if this.buffer = [] then (.ready (.ok ()), this) else
    (.pending, ⟨this.buffer.tail⟩)

theorem oneByOne_flushesAll : FlushesAll OneByOne.buffer where
  pollFlush {sink sink'} called := by
    change (if sink.buffer = [] then _ else _) = _ at called
    split at called
    · next empty =>
        cases called
        exact empty
    · cases called
  pollReady called := by
    cases called
    exact List.Subset.refl _

theorem flushReserve_contract_oneByOne :
    ∃ polled : SinkPolled SinkFuture (Recorded OneByOne Nat Nat) (Except Nat Permit),
      Driven (.flushReserve (.new ⟨⟩)) [.pending, .ready (.ok ⟨⟨⟩⟩)] polled.this polled.sink ∧
        polled.sink.sink.buffer = [] := by
  have called : (SinkFuture.flushReserve (.new ⟨⟩)).poll (⟨⟨[4]⟩, []⟩ : Recorded OneByOne Nat Nat) =
      .ok ⟨.pending, .flushReserve (.new ⟨⟩), ⟨⟨[]⟩, [.pollFlush .pending]⟩⟩ := rfl
  have first := (Driven.new (⟨[4]⟩ : OneByOne)).poll called
  exact ⟨_, first.poll rfl,
    (flushReserve_contract OneByOne).flushed oneByOne_flushesAll first rfl rfl⟩

end CancelSafeFutures
