import CancelSafeFutures.Stream.ForEachSteps

/-!
# The passes of `ForEachConcurrentThenTry`

A pass goes round again only if an item was taken from the stream in it or a future completed in
it.  So a call that has consumed `c` elements and completed `d` futures has made at most
`c + d + 1` passes (`poll_passes`), and as no more futures complete than items were taken, `p`
polls over a stream of `n` elements make at most `2 * n + p` (`Credit`).

An element weighs two and a future in flight one: every pass that goes round again makes the
adapter lighter (`again_lighter`), so a call returns if the stream has only finitely many elements
left (`poll_returns`).  That the stream suspends is not enough, for a future that completes sends
the loop back to it in the same call (`forEach_spins`).
-/

namespace CancelSafeFutures.ForEachConcurrentThenTry

open Async

variable {St A E F Fut Q : Type}

/-- The elements taken from the stream, items and errors alike. -/
def consumed (log : List (ForEachEvent A E Fut)) : Nat := (streamAnswers log).countP isElement

/-- The futures that completed. -/
def completed (log : List (ForEachEvent A E Fut)) : Nat := (yielded log).length

@[simp] theorem consumed_append (log log' : List (ForEachEvent A E Fut)) :
    consumed (log ++ log') = consumed log + consumed log' := by
  simp [consumed]

@[simp] theorem completed_append (log log' : List (ForEachEvent A E Fut)) :
    completed (log ++ log') = completed log + completed log' := by
  simp [completed]

/-- The passes a call may take that made these calls. -/
def passesFor (log : List (ForEachEvent A E Fut)) : Nat := consumed log + completed log + 1

/-- The same for several calls. -/
def passesForAll : List (Call (ForEachConcurrentThenTry St F Q E) (Except E Unit)
    (ForEachEvent A E Fut)) → Nat
  | [] => 0
  | call :: rest => passesFor call.log + passesForAll rest

variable [TryStream St A E] [FnMut F A Fut] [Future Fut (Except E Unit)]
  [FuturesUnordered Q Fut (Except E Unit)]

section Halves

variable {this mid : ForEachConcurrentThenTry St F Q E} {madeProgress : Bool}
  {log : List (ForEachEvent A E Fut)}

/-- The stream makes progress with an item, and each new future is one. -/
theorem StreamTurn.takes (turn : StreamTurn this madeProgress log mid) :
    completed log = 0 ∧ (madeProgress = true → 1 ≤ consumed log) ∧
      FuturesUnordered.len mid.futures ≤ FuturesUnordered.len this.futures + consumed log := by
  cases turn with
  | skipped _ => exact ⟨rfl, nofun, Nat.le_refl _⟩
  | item _ _ _ _ => exact ⟨rfl, fun _ => Nat.le_refl 1, Nat.le_of_eq (FuturesUnordered.len_push ..)⟩
  | error _ _ _ =>
      refine ⟨rfl, nofun, ?_⟩
      rw [recordError_futures]
      exact Nat.le_add_right ..
  | ended _ _ _ => exact ⟨rfl, nofun, Nat.le_refl _⟩
  | pending _ _ _ => exact ⟨rfl, nofun, Nat.le_refl _⟩

omit [TryStream St A E] [FnMut F A Fut]

/-- The futures make progress with one that completes. -/
theorem FuturesTurn.completes
    {pass : Pass (ForEachConcurrentThenTry St F Q E) (Poll (Except E Unit))}
    (turn : FuturesTurn madeProgress mid log pass) :
    consumed log = 0 ∧
      FuturesUnordered.len mid.futures = FuturesUnordered.len pass.state.futures + completed log ∧
      ((∃ this, pass = .again this) → madeProgress = true ∨ 1 ≤ completed log) := by
  obtain ⟨answer, polled, log_eq, -, -⟩ := turn.polled
  have same : completed log = completions answer := by
    rw [log_eq]
    rcases answer with (_ | item) | _ <;> rfl
  refine ⟨by rw [log_eq]; rfl, by rw [same, FuturesUnordered.len_pollNext polled], ?_⟩
  rintro ⟨this, rfl⟩
  rcases turn.of_again with ⟨item, futures, -, -, rfl⟩ | ⟨answer, futures, -, -, progress, -⟩
  · exact .inr (Nat.le_refl 1)
  · exact .inl progress

end Halves

/-! ## One call -/

/-- A pass that goes round again has taken an item or completed a future. -/
theorem again_pays {this this' : ForEachConcurrentThenTry St F Q E}
    {log : List (ForEachEvent A E Fut)} (pass : this.iteration = .ok (log, .again this')) :
    1 ≤ consumed log + completed log := by
  obtain ⟨madeProgress, log₁, mid, log₂, stream, futures, rfl⟩ := iteration_cases pass
  obtain ⟨-, item, -⟩ := stream.takes
  obtain ⟨-, -, progress⟩ := futures.completes
  rw [consumed_append, completed_append]
  rcases progress ⟨this', rfl⟩ with made | one
  · have taken := item made
    omega
  · omega

/-- **Passes of a call.** One more than the elements it took and the futures it completed are
enough. -/
theorem poll_passes {this this' : ForEachConcurrentThenTry St F Q E} {fuel : Nat}
    {answer : Poll (Except E Unit)} {log : List (ForEachEvent A E Fut)}
    (called : poll fuel this = .ok (answer, log, this')) :
    poll (passesFor log) this = .ok (answer, log, this') := by
  have loops : Loops iteration this answer log this' := Loops.of_loop called
  unfold poll
  clear called
  induction loops with
  | leave pass => rw [passesFor, loop, pass]
  | @again s s' s'' b l l' pass _ ih =>
      have pays := again_pays pass
      have enough : passesFor l' ≤ consumed (l ++ l') + completed (l ++ l') := by
        rw [passesFor, consumed_append, completed_append]
        omega
      rw [passesFor, loop, pass]
      simp only [loop_mono ih enough]

/-- At most `n` elements are still to come. -/
def Left (n : Nat) (this : ForEachConcurrentThenTry St F Q E) : Prop :=
  ∀ st, this.stream = some st → YieldsAtMost n st

/-- What the first half takes from the stream is two lighter there and one heavier in the set. -/
theorem StreamTurn.lighter {this mid : ForEachConcurrentThenTry St F Q E} {madeProgress : Bool}
    {log : List (ForEachEvent A E Fut)} {n : Nat} (turn : StreamTurn this madeProgress log mid)
    (left : Left n this) : ∃ m, Left m mid ∧
      2 * m + FuturesUnordered.len mid.futures + (if madeProgress = true then 1 else 0) ≤
        2 * n + FuturesUnordered.len this.futures := by
  cases turn with
  | skipped _ => exact ⟨n, left, Nat.le_refl _⟩
  | item below live polled called =>
      obtain ⟨m, rfl, rest⟩ := (left _ live).element polled
      refine ⟨m, fun st same => by cases same; exact rest, ?_⟩
      rw [FuturesUnordered.len_push, if_pos rfl]
      omega
  | error below live polled =>
      obtain ⟨m, rfl, rest⟩ := (left _ live).element polled
      refine ⟨m, fun st same => ?_, ?_⟩
      · rw [recordError_stream] at same
        cases same
        exact rest
      · simp only [recordError_futures, Bool.false_eq_true, if_false]
        omega
  | ended _ _ _ => exact ⟨n, nofun, Nat.le_refl _⟩
  | pending below live polled =>
      exact ⟨n, fun st same => by cases same; exact (left _ live).pending polled, Nat.le_refl _⟩

theorem again_lighter {this this' : ForEachConcurrentThenTry St F Q E}
    {log : List (ForEachEvent A E Fut)} {n : Nat} (left : Left n this)
    (pass : this.iteration = .ok (log, .again this')) : ∃ m, Left m this' ∧
      2 * m + FuturesUnordered.len this'.futures < 2 * n + FuturesUnordered.len this.futures := by
  obtain ⟨madeProgress, log₁, mid, log₂, stream, futures, rfl⟩ := iteration_cases pass
  obtain ⟨m, left', lighter⟩ := stream.lighter left
  obtain ⟨-, -, -, same, -⟩ := futures.polled
  obtain ⟨-, len, progress⟩ := futures.completes
  refine ⟨m, fun st at_st => left' st (same ▸ at_st), ?_⟩
  simp only [Pass.state] at len
  rcases progress ⟨this', rfl⟩ with made | one
  · rw [if_pos made] at lighter
    omega
  · omega

/-- **Termination.** A call returns if at most `n` elements are still to come. -/
theorem poll_returns {this : ForEachConcurrentThenTry St F Q E} {n : Nat} (left : Left n this) :
    ∃ r, poll (2 * n + FuturesUnordered.len this.futures + 1) this = .ok r := by
  refine loop_returns (W := fun w this => ∃ n, Left n this ∧
    2 * n + FuturesUnordered.len this.futures = w) (fun _ => ⟨_, rfl⟩) ?_ ⟨n, left, rfl⟩
  rintro w s log s' ⟨n, left, rfl⟩ pass
  obtain ⟨m, left', less⟩ := again_lighter left pass
  exact ⟨_, less, m, left', rfl⟩

/-! ## Runs -/

/-- What is already paid at a place: the next pass at the head of it, and after an item the pass
that follows this one. -/
def Place.paid : Place → Nat
  | .idle => 0
  | .head => 1
  | .middle madeProgress => if madeProgress = true then 1 else 0

/-- The passes of a run are paid with its polls, the elements taken and the futures completed,
which are no more than the elements. -/
structure Credit (stream : St) (t : Trace A E Fut) (place : Place)
    (this : ForEachConcurrentThenTry St F Q E) : Prop where
  plays : ∃ st, Plays stream (streamAnswers t.log) st ∧
    (this.stream = none ∨ this.stream = some st)
  futures : completed t.log + FuturesUnordered.len this.futures ≤ consumed t.log
  passes : t.passes + place.paid ≤ t.polls + consumed t.log + completed t.log

section Credit

variable {source : St} {t : Trace A E Fut} {this mid this' : ForEachConcurrentThenTry St F Q E}
  {madeProgress : Bool} {log : List (ForEachEvent A E Fut)}

omit [FnMut F A Fut] in
theorem Credit.new (stream : St) (limit : Option Nat) (f : F) :
    Credit stream (⟨0, 0, [], []⟩ : Trace A E Fut) .idle
      (new stream limit f : ForEachConcurrentThenTry St F Q E) where
  plays := ⟨stream, .nil stream, .inr rfl⟩
  futures := by
    rw [ForEachConcurrentThenTry.new, FuturesUnordered.len_new]
    exact Nat.le_refl 0
  passes := Nat.le_refl 0

omit [FnMut F A Fut] in
theorem Credit.call (credit : Credit source t .idle this) :
    Credit source { t with polls := t.polls + 1 } .head this := by
  refine ⟨credit.plays, credit.futures, ?_⟩
  have passes := credit.passes
  simp only [Place.paid] at passes ⊢
  omega

/-- What the stream goes over into. -/
theorem StreamTurn.plays {st : St} {answers : List (Poll (Option (Except E A)))}
    (turn : StreamTurn this madeProgress log mid) (plays : Plays source answers st)
    (at_st : this.stream = none ∨ this.stream = some st) :
    ∃ st', Plays source (answers ++ streamAnswers log) st' ∧
      (mid.stream = none ∨ mid.stream = some st') := by
  have here : ∀ {live}, this.stream = some live → live = st := by
    intro live held
    rcases at_st with gone | same
    · rw [gone] at held
      cases held
    · exact Option.some.inj (held.symm.trans same)
  cases turn with
  | skipped _ => exact ⟨st, by simpa [streamAnswers] using plays, at_st⟩
  | item _ live polled _ =>
      cases here live
      exact ⟨_, plays.concat polled, .inr rfl⟩
  | error _ live polled =>
      cases here live
      exact ⟨_, plays.concat polled, .inr (recordError_stream ..)⟩
  | ended _ live polled =>
      cases here live
      exact ⟨_, plays.concat polled, .inl rfl⟩
  | pending _ live polled =>
      cases here live
      exact ⟨_, plays.concat polled, .inr rfl⟩

theorem Credit.stream (credit : Credit source t .head this)
    (turn : StreamTurn this madeProgress log mid) :
    Credit source { t with passes := t.passes + 1, log := t.log ++ log } (.middle madeProgress)
      mid := by
  obtain ⟨st, plays, at_st⟩ := credit.plays
  obtain ⟨none_completed, item, len⟩ := turn.takes
  have futures := credit.futures
  have passes := credit.passes
  refine ⟨?_, ?_, ?_⟩
  · rw [streamAnswers_append]
    exact turn.plays plays at_st
  · simp only [completed_append, consumed_append]
    omega
  · simp only [Place.paid, completed_append, consumed_append] at passes ⊢
    split
    · next made =>
        have taken := item made
        omega
    · omega

omit [FnMut F A Fut]

theorem Credit.futuresTurn {pass : Pass (ForEachConcurrentThenTry St F Q E) (Poll (Except E Unit))}
    (credit : Credit source t (.middle madeProgress) mid)
    (turn : FuturesTurn madeProgress mid log pass) {place : Place}
    {answers : List (Poll (Except E Unit))}
    (paid : place.paid ≤ (if madeProgress = true then 1 else 0) + completed log) :
    Credit source { t with answers := answers, log := t.log ++ log } place pass.state := by
  obtain ⟨st, plays, at_st⟩ := credit.plays
  obtain ⟨-, -, -, same, -⟩ := turn.polled
  obtain ⟨none_consumed, len, -⟩ := turn.completes
  have futures := credit.futures
  have passes := credit.passes
  refine ⟨⟨st, ?_, same ▸ at_st⟩, ?_, ?_⟩
  · obtain ⟨answer, -, rfl, -⟩ := turn.polled
    rw [streamAnswers_append, streamAnswers_pollNext, List.append_nil]
    exact plays
  · simp only [completed_append, consumed_append]
    omega
  · rw [Place.paid] at passes
    simp only [completed_append, consumed_append]
    omega

theorem Credit.again (credit : Credit source t (.middle madeProgress) mid)
    (turn : FuturesTurn madeProgress mid log (.again this')) :
    Credit source { t with log := t.log ++ log } .head this' := by
  refine credit.futuresTurn turn ?_
  obtain ⟨-, -, progress⟩ := turn.completes
  rcases progress ⟨this', rfl⟩ with made | one
  · rw [if_pos made, Place.paid]
    omega
  · rw [Place.paid]
    omega

theorem Credit.leave {answer : Poll (Except E Unit)}
    (credit : Credit source t (.middle madeProgress) mid)
    (turn : FuturesTurn madeProgress mid log (.leave answer this')) :
    Credit source { t with answers := t.answers ++ [answer], log := t.log ++ log } .idle this' :=
  credit.futuresTurn turn (Nat.zero_le _)

end Credit

/-- **Run lemma.** -/
theorem Credit.steps {stream : St} {limit : Option Nat} {f : F} {t : Trace A E Fut} {place : Place}
    {this : ForEachConcurrentThenTry St F Q E}
    (steps : Steps (ForEachConcurrentThenTry.new stream limit f) t place this) :
    Credit stream t place this := by
  induction steps with
  | new => exact .new stream limit f
  | call _ ih => exact ih.call
  | @stream t this _ ih => exact ih.stream (pollStream_turn this)
  | again _ half ih => exact ih.again (pollFutures_turn_of half)
  | leave _ half ih => exact ih.leave (pollFutures_turn_of half)

omit [FnMut F A Fut] in
/-- No more elements than the stream has, and no more futures than elements. -/
theorem Credit.le {source : St} {t : Trace A E Fut} {place : Place}
    {this : ForEachConcurrentThenTry St F Q E} (credit : Credit source t place this) {n : Nat}
    (atMost : YieldsAtMost n source) : consumed t.log ≤ n ∧ completed t.log ≤ n := by
  obtain ⟨st, plays, -⟩ := credit.plays
  have elements : consumed t.log ≤ n := atMost _ _ plays
  have futures := credit.futures
  omega

omit [TryStream St A E] [FnMut F A Fut] [FuturesUnordered Q Fut (Except E Unit)]
  [Future Fut (Except E Unit)] in
theorem passesForAll_eq (calls : List (Call (ForEachConcurrentThenTry St F Q E) (Except E Unit)
    (ForEachEvent A E Fut))) :
    passesForAll calls =
      consumed (calls.flatMap Call.log) + completed (calls.flatMap Call.log) + calls.length := by
  induction calls with
  | nil => rfl
  | cons call calls ih =>
      rw [passesForAll, ih, List.flatMap_cons, consumed_append, completed_append,
        List.length_cons, passesFor]
      omega

/-- The passes of the loop, over a stream `source`. -/
structure Bounded (source : St) (init : ForEachConcurrentThenTry St F Q E) : Prop where
  /-- A call returns if the stream has at most `n` elements left. -/
  returns : ∀ {this : ForEachConcurrentThenTry St F Q E} {n},
    (∀ st, this.stream = some st → YieldsAtMost n st) →
    ∃ r, poll (2 * n + FuturesUnordered.len this.futures + 1) this = .ok r
  /-- One pass more than the elements it took and the futures it completed are enough for it. -/
  call : ∀ {this this' : ForEachConcurrentThenTry St F Q E} {fuel answer log},
    poll fuel this = .ok (answer, log, this') →
    poll (consumed log + completed log + 1) this = .ok (answer, log, this')
  /-- All calls together take at most two passes for an element and one for a call. -/
  calls : ∀ {calls} {this : ForEachConcurrentThenTry St F Q E} {n}, Polls poll init calls this →
    YieldsAtMost n source →
    (∀ call ∈ calls, poll (passesFor call.log) call.before =
      .ok (call.answer, call.log, call.after)) ∧
      passesForAll calls ≤ 2 * n + calls.length
  /-- Also when the last of them has not returned. -/
  run : ∀ {t place} {this : ForEachConcurrentThenTry St F Q E} {n}, Steps init t place this →
    YieldsAtMost n source → t.passes ≤ 2 * n + t.polls

/-- **Bounded passes.** For every stream, closure and limit. -/
theorem forEach_bounded (stream : St) (limit : Option Nat) (f : F) :
    Bounded stream (new stream limit f : ForEachConcurrentThenTry St F Q E) where
  returns left := poll_returns left
  call called := poll_passes called
  calls {calls this n} run atMost := by
    constructor
    · intro call mem
      obtain ⟨fuel, called⟩ := run.call mem
      exact poll_passes called
    · obtain ⟨passes, steps⟩ := Steps.of_polls run
      obtain ⟨elements, futures⟩ := (Credit.steps steps).le atMost
      rw [passesForAll_eq]
      simp only at elements futures
      omega
  run {t place this n} steps atMost := by
    have credit := Credit.steps steps
    obtain ⟨elements, futures⟩ := credit.le atMost
    have passes := credit.passes
    omega

/-- An item, a suspension and an error. -/
def shortStream : Script (Option (Except Nat Nat)) :=
  ⟨[.ready (some (.ok 1)), .pending, .ready (some (.error 9)), .ready none]⟩

/-- Its future suspends once and fails. -/
def shortFuture (n : Nat) : Script (Except Nat Unit) := ⟨[.pending, .ready (.error n)]⟩

/-- One future at a time. -/
def shortAdapter : ForEachConcurrentThenTry (Script (Option (Except Nat Nat)))
    (Nat → Script (Except Nat Unit)) (WokenSet (Script (Except Nat Unit)) (Except Nat Unit)) Nat :=
  new shortStream (some 1) shortFuture

/-- Four elements at most are left in the script. -/
theorem forEach_bounded_oneAtATime : ∃ r, poll (2 * 4 + 0 + 1) shortAdapter = .ok r := by
  have left : ∀ st, shortAdapter.stream = some st → YieldsAtMost 4 st := by
    intro st live
    obtain rfl := Option.some.inj live
    exact Script.yieldsAtMost _
  exact (forEach_bounded shortStream (some 1) shortFuture).returns left

/-! ## A call that does not return -/

/-- A stream that suspends after every element, and never ends. -/
structure Restless where
  polled : Nat

instance : TryStream Restless Nat Nat where
  tryPollNext this :=
    (if this.polled % 2 = 0 then .ready (some (.ok this.polled)) else .pending, ⟨this.polled + 1⟩)

/-- It has at most one element before it suspends, whatever it was asked before. -/
theorem restless_settles (k : Nat) : ∃ n, SettlesIn n (⟨k⟩ : Restless) := by
  have suspends : ∀ k, k % 2 ≠ 0 → SettlesIn 0 (⟨k⟩ : Restless) := by
    intro k odd
    have polled : TryStream.tryPollNext (⟨k⟩ : Restless) = (.pending, ⟨k + 1⟩) := by
      simp [TryStream.tryPollNext, odd]
    exact .pending polled
  by_cases even : k % 2 = 0
  · have polled : TryStream.tryPollNext (⟨k⟩ : Restless) = (.ready (some (.ok k)), ⟨k + 1⟩) := by
      simp [TryStream.tryPollNext, even]
    exact ⟨1, .item polled (suspends (k + 1) (by omega))⟩
  · exact ⟨0, suspends k even⟩

/-- Every future suspends once. -/
def restlessFuture (_ : Nat) : Script (Except Nat Unit) := ⟨[.pending, .ready (.ok ())]⟩

abbrev RestlessAdapter := ForEachConcurrentThenTry Restless (Nat → Script (Except Nat Unit))
  (WokenSet (Script (Except Nat Unit)) (Except Nat Unit)) Nat

/-- After `j` elements, whose futures have completed. -/
structure Turned (j : Nat) (this : RestlessAdapter) : Prop where
  stream : this.stream = some ⟨2 * j⟩
  f : this.f = restlessFuture
  limit : this.limit = none
  slots : this.futures.slots = List.replicate j none

/-- In one pass an element is taken and its future suspends; in the next the stream suspends and
the future completes. -/
theorem Turned.again {j : Nat} {this : RestlessAdapter} (turned : Turned j this) :
    ∃ log mid log' this', this.iteration = .ok (log, .again mid) ∧
      mid.iteration = .ok (log', .again this') ∧ Turned (j + 1) this' := by
  obtain ⟨stream, f, ⟨slots, polls⟩, limit, firstError⟩ := this
  obtain ⟨rfl, rfl, rfl, rfl⟩ := turned
  have takes : TryStream.tryPollNext (⟨2 * j⟩ : Restless) =
      (.ready (some (.ok (2 * j))), ⟨2 * j + 1⟩) := by
    simp [TryStream.tryPollNext]
  have suspends : TryStream.tryPollNext (⟨2 * j + 1⟩ : Restless) = (.pending, ⟨2 * (j + 1)⟩) := by
    simp [TryStream.tryPollNext, Nat.add_mod]
    omega
  obtain ⟨polls₁, waits⟩ : ∃ polls₁, FuturesUnordered.pollNext (FuturesUnordered.push
      (⟨List.replicate j none, polls⟩ : WokenSet (Script (Except Nat Unit)) (Except Nat Unit))
      (restlessFuture (2 * j))) =
      (.pending, ⟨List.replicate j none ++ [some ⟨[.ready (.ok ())]⟩], polls₁⟩) :=
    WokenSet.pollNext_last_pending rfl rfl
  obtain ⟨polls₂, completes⟩ : ∃ polls₂, FuturesUnordered.pollNext
      (⟨List.replicate j none ++ [some ⟨[.ready (.ok ())]⟩], polls₁⟩ :
        WokenSet (Script (Except Nat Unit)) (Except Nat Unit)) =
      (.ready (some (.ok ())), ⟨List.replicate (j + 1) none, polls₂⟩) :=
    WokenSet.pollNext_last_ready rfl rfl
  have takes_pass : ∃ log, iteration (⟨some ⟨2 * j⟩, restlessFuture,
      ⟨List.replicate j none, polls⟩, none, firstError⟩ : RestlessAdapter) =
      .ok (log, .again ⟨some ⟨2 * j + 1⟩, restlessFuture,
        ⟨List.replicate j none ++ [some ⟨[.ready (.ok ())]⟩], polls₁⟩, none, firstError⟩) := by
    simp only [iteration, pollStream, belowLimit, Option.map_none, Option.getD_none, if_true,
      takes, FnMut.call, pollFutures, waits]
    exact ⟨_, rfl⟩
  have suspends_pass : ∃ log, iteration (⟨some ⟨2 * j + 1⟩, restlessFuture,
      ⟨List.replicate j none ++ [some ⟨[.ready (.ok ())]⟩], polls₁⟩, none, firstError⟩ :
        RestlessAdapter) =
      .ok (log, .again ⟨some ⟨2 * (j + 1)⟩, restlessFuture,
        ⟨List.replicate (j + 1) none, polls₂⟩, none, firstError⟩) := by
    simp only [iteration, pollStream, belowLimit, Option.map_none, Option.getD_none, if_true,
      suspends, pollFutures, completes]
    exact ⟨_, rfl⟩
  obtain ⟨log, first⟩ := takes_pass
  obtain ⟨log', second⟩ := suspends_pass
  exact ⟨log, _, log', _, first, second, rfl, rfl, rfl, rfl⟩

/-- **No return.** The stream has at most one element at any time before it suspends, and yet the
first call goes on for ever: a future completes while the stream is suspended, and the loop asks
the stream again. -/
theorem forEach_spins :
    (∀ k, ∃ n, SettlesIn n (⟨k⟩ : Restless)) ∧
      ∀ fuel, poll fuel (new ⟨0⟩ none restlessFuture : RestlessAdapter) = .error .outOfFuel := by
  refine ⟨restless_settles, fun fuel => ?_⟩
  have spins : ∀ fuel j this, Turned j this → loop iteration fuel this = .error .outOfFuel := by
    intro fuel
    induction fuel using Nat.strongRecOn with
    | ind fuel ih =>
        intro j this turned
        obtain ⟨log, mid, log', this', pass, pass', turned'⟩ := turned.again
        rcases fuel with _ | _ | fuel
        · rfl
        · simp only [loop, pass]
        · simp only [loop, pass, pass', ih fuel (by omega) (j + 1) this' turned']
  exact spins fuel 0 _ ⟨rfl, rfl, rfl, rfl⟩

end CancelSafeFutures.ForEachConcurrentThenTry
