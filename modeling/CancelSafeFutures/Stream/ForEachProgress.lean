import CancelSafeFutures.Stream.ForEachSequential
import Mathlib.Data.Prod.Lex

/-!
# `ForEachConcurrentThenTry` comes to an end

A call that returns `Pending` has met a suspension or an error of the stream or a suspension of a
future, or else the set of futures has polled none of its members (`isIdle`).  Over a stream that
ends, with futures that resolve, there are so many suspensions and errors and no more: that is how
many calls return `Pending` without being idle, and every call returns.

The idle calls come to an end as well, unless the adapter is `Stuck`: nothing is left of its calls
but a poll of the set, and the set is dormant.  So wherever calls lead, the adapter becomes ready
or gets stuck (`forEach_resolves`).
-/

namespace CancelSafeFutures.ForEachConcurrentThenTry

open Async

variable {St A E F Fut Q : Type}

/-- An answer of the stream that is no progress, and not its end. -/
def isStall : Poll (Option (Except E A)) → Bool
  | .pending => true
  | .ready (some (.error _)) => true
  | _ => false

variable [Future Fut (Except E Unit)] [FuturesUnordered Q Fut (Except E Unit)]

/-- How often the futures of a set have answered `Pending`. -/
def waits (futures : Q) : Nat :=
  (FuturesUnordered.log futures).countP fun p => p.2.isPending

/-- The stream did not stall in the call, and no future answered `Pending`. -/
def isIdle (call : Call (ForEachConcurrentThenTry St F Q E) (Except E Unit)
    (ForEachEvent A E Fut)) : Bool :=
  (streamAnswers call.log).countP isStall == 0 &&
    waits call.after.futures == waits call.before.futures

/-- A stall or a suspension makes a call other than idle. -/
theorem not_idle_of_spent
    {call : Call (ForEachConcurrentThenTry St F Q E) (Except E Unit) (ForEachEvent A E Fut)}
    (spent : 0 < (streamAnswers call.log).countP isStall ∨
      waits call.before.futures < waits call.after.futures) : isIdle call = false := by
  rw [isIdle, Bool.and_eq_false_iff]
  rcases spent with stalled | waited
  · exact .inl (beq_eq_false_iff_ne.mpr (Nat.ne_of_gt stalled))
  · exact .inr (beq_eq_false_iff_ne.mpr (Nat.ne_of_gt waited))

theorem waits_pollNext {futures futures' : Q} {answer : Poll (Option (Except E Unit))}
    (polled : FuturesUnordered.pollNext futures = (answer, futures')) :
    waits futures ≤ waits futures' := by
  have grows : ∀ polls,
      FuturesUnordered.log futures' = FuturesUnordered.log futures ++ polls →
        waits futures ≤ waits futures' := by
    intro polls record
    rw [waits, waits, record, List.countP_append]
    exact Nat.le_add_right ..
  rcases answer with (_ | item) | _
  · obtain ⟨-, -, record⟩ := FuturesUnordered.pollNext_none polled
    exact grows [] (record.trans (List.append_nil _).symm)
  · obtain ⟨waits, k, -, record, -⟩ := FuturesUnordered.pollNext_some polled
    exact grows _ (record.trans (List.append_assoc ..))
  · obtain ⟨waits, -, record, -⟩ := FuturesUnordered.pollNext_pending polled
    exact grows _ record

theorem waits_prompt (prompt : FuturesUnordered.Prompt Q) {futures futures' : Q}
    (polled : FuturesUnordered.pollNext futures = (.pending, futures')) :
    waits futures < waits futures' := by
  obtain ⟨polls, pending, record, -⟩ := FuturesUnordered.pollNext_pending polled
  have all : polls.countP (fun p => p.2.isPending) = polls.length := by
    rw [List.countP_eq_length]
    intro p mem
    rw [pending p mem]
    rfl
  have some_poll : polls ≠ [] := by
    rintro rfl
    exact prompt polled (record.trans (List.append_nil _))
  have pos := List.length_pos_iff.mpr some_poll
  rw [waits, waits, record, List.countP_append, all]
  omega

variable [TryStream St A E] [FnMut F A Fut]

/-! ## One call -/

section Passes

variable {this mid this' : ForEachConcurrentThenTry St F Q E} {madeProgress : Bool}
  {log : List (ForEachEvent A E Fut)}

/-- The first half polls no future. -/
theorem StreamTurn.waits (turn : StreamTurn this madeProgress log mid) :
    waits mid.futures = waits this.futures := by
  cases turn with
  | item _ _ _ _ =>
      exact congrArg (List.countP _) (FuturesUnordered.log_push ..)
  | error _ _ _ => exact congrArg ForEachConcurrentThenTry.waits (recordError_futures ..)
  | _ => rfl

theorem waits_pass {pass : Pass (ForEachConcurrentThenTry St F Q E) (Poll (Except E Unit))}
    (passed : this.iteration = .ok (log, pass)) :
    waits this.futures ≤ waits pass.state.futures := by
  obtain ⟨madeProgress, log₁, mid, log₂, stream, futures, rfl⟩ := iteration_cases passed
  obtain ⟨answer, polled, -⟩ := futures.polled
  rw [← stream.waits]
  exact waits_pollNext polled

/-- With no future in flight and without progress the stream has stalled, or it is gone. -/
theorem StreamTurn.stalls (turn : StreamTurn this false log mid)
    (empty : FuturesUnordered.len mid.futures = 0) (live : mid.stream ≠ none) :
    0 < (streamAnswers log).countP isStall := by
  generalize no_progress : false = madeProgress at turn
  cases turn with
  | skipped full => exact (live (full (belowLimit_of_empty empty))).elim
  | item _ _ _ _ => cases no_progress
  | error _ _ _ => exact Nat.zero_lt_one
  | ended _ _ _ => exact (live rfl).elim
  | pending _ _ _ => exact Nat.zero_lt_one

/-- The pass that returns `Pending`. -/
theorem spends_pass (prompt : FuturesUnordered.Prompt Q)
    (passed : this.iteration = .ok (log, .leave .pending this')) :
    0 < (streamAnswers log).countP isStall ∨ waits this.futures < waits this'.futures := by
  obtain ⟨log₁, mid, futures, stream, rfl, ⟨polled, -⟩ | ⟨polled, live, rfl⟩⟩ :=
    leave_pending_cases passed
  · right
    rw [← stream.waits]
    exact waits_prompt prompt polled
  · left
    rw [streamAnswers_append, streamAnswers_pollNext, List.append_nil]
    exact stream.stalls (FuturesUnordered.pollNext_none polled).1 live

theorem waits_call {fuel : Nat} {answer : Poll (Except E Unit)}
    (called : poll fuel this = .ok (answer, log, this')) :
    waits this.futures ≤ waits this'.futures :=
  Loops.rule_state (I := fun s => waits this.futures ≤ waits s.futures)
    (P := fun _ s => waits this.futures ≤ waits s.futures)
    (fun le passed => Nat.le_trans le (waits_pass passed))
    (fun le passed => Nat.le_trans le (waits_pass passed)) (Nat.le_refl _) (Loops.of_loop called)

/-- A call that returns `Pending` is not idle if the set is prompt. -/
theorem not_idle (prompt : FuturesUnordered.Prompt Q) {fuel : Nat}
    (called : poll fuel this = .ok (.pending, log, this')) :
    isIdle ⟨this, .pending, log, this'⟩ = false := by
  have loops : Loops iteration this .pending log this' := Loops.of_loop called
  have spends : Poll.pending = .pending → 0 < (streamAnswers ([] ++ log)).countP isStall ∨
      waits this.futures < waits this'.futures := loops.rule
    (I := fun s _ => waits this.futures ≤ waits s.futures)
    (P := fun answer log s => answer = .pending → 0 < (streamAnswers log).countP isStall ∨
      waits this.futures < waits s.futures)
    (fun le passed => Nat.le_trans le (waits_pass passed))
    (fun {s log l b s'} le passed answer => by
      subst answer
      rcases spends_pass prompt passed with stalled | waited
      · left
        rw [streamAnswers_append, List.countP_append]
        omega
      · exact .inr (Nat.lt_of_le_of_lt le waited))
    (Nat.le_refl _)
  exact not_idle_of_spent (spends rfl)

end Passes

/-- The stream still gives these answers, if it is there, and then ends. -/
def Ending (rest : List (Poll (Option (Except E A)))) (this : ForEachConcurrentThenTry St F Q E) :
    Prop :=
  ∀ st, this.stream = some st → ∃ st', Plays st (rest ++ [.ready none]) st'

/-- An answer that is not the end of the stream is the first of those to come. -/
theorem Ending.next {rest : List (Poll (Option (Except E A)))}
    {this : ForEachConcurrentThenTry St F Q E} (ending : Ending rest this) {st st' : St}
    {answer : Poll (Option (Except E A))} (live : this.stream = some st)
    (polled : TryStream.tryPollNext st = (answer, st')) (not_end : answer ≠ .ready none) :
    ∃ rest', rest = answer :: rest' ∧ ∃ st'', Plays st' (rest' ++ [.ready none]) st'' := by
  obtain ⟨last, plays⟩ := ending st live
  cases rest with
  | nil =>
      cases plays with
      | cons first _ =>
          rw [polled] at first
          exact (not_end (congrArg Prod.fst first)).elim
  | cons a rest =>
      cases plays with
      | cons first later =>
          rw [polled] at first
          cases first
          exact ⟨rest, rfl, last, later⟩

/-- How much there is to do without a stall or a suspension: an element is two as heavy as a future
in flight, and a stream that is there as heavy as one. -/
def weight (rest : List (Poll (Option (Except E A)))) (this : ForEachConcurrentThenTry St F Q E) :
    Nat :=
  2 * rest.countP isElement + FuturesUnordered.len this.futures +
    (if this.stream.isSome then 1 else 0)

/-- The first half. -/
theorem StreamTurn.nearer {this mid : ForEachConcurrentThenTry St F Q E} {madeProgress : Bool}
    {log : List (ForEachEvent A E Fut)} {rest : List (Poll (Option (Except E A)))}
    (turn : StreamTurn this madeProgress log mid) (ending : Ending rest this) :
    ∃ rest', Ending rest' mid ∧
      weight rest' mid + (if madeProgress = true then 1 else 0) ≤ weight rest this := by
  cases turn with
  | skipped _ => exact ⟨rest, ending, Nat.le_refl _⟩
  | item below live polled called =>
      obtain ⟨rest', rfl, plays⟩ := ending.next live polled (by simp)
      refine ⟨rest', fun st same => by cases same; exact plays, ?_⟩
      rw [weight, weight, FuturesUnordered.len_push, List.countP_cons, isElement, live]
      simp only [if_true, Option.isSome_some]
      omega
  | error below live polled =>
      obtain ⟨rest', rfl, plays⟩ := ending.next live polled (by simp)
      refine ⟨rest', fun st same => ?_, ?_⟩
      · rw [recordError_stream] at same
        cases same
        exact plays
      · rw [weight, weight, recordError_futures, recordError_stream, List.countP_cons, isElement,
          live]
        simp only [Bool.false_eq_true, if_false, if_true, Option.isSome_some]
        omega
  | ended below live _ =>
      refine ⟨rest, fun st live => ?_, ?_⟩
      · simp at live
      · rw [weight, weight, live]
        exact Nat.le_succ _
  | pending below live polled =>
      obtain ⟨rest', rfl, plays⟩ := ending.next live polled (by simp)
      refine ⟨rest', fun st same => by cases same; exact plays, ?_⟩
      rw [weight, weight, live, List.countP_cons]
      exact Nat.le_refl _

omit [FnMut F A Fut] in
/-- The second half, which leaves the stream alone. -/
theorem FuturesTurn.nearer {mid : ForEachConcurrentThenTry St F Q E} {madeProgress : Bool}
    {log : List (ForEachEvent A E Fut)} {rest : List (Poll (Option (Except E A)))}
    {pass : Pass (ForEachConcurrentThenTry St F Q E) (Poll (Except E Unit))}
    (turn : FuturesTurn madeProgress mid log pass) (ending : Ending rest mid) :
    Ending rest pass.state ∧ weight rest pass.state ≤ weight rest mid ∧
      ((∃ this, pass = .again this) → madeProgress = true ∨
        weight rest pass.state < weight rest mid) := by
  obtain ⟨-, -, -, same, -⟩ := turn.polled
  obtain ⟨-, len, progress⟩ := turn.completes
  simp only [weight, same]
  refine ⟨fun st at_st => ending st (same ▸ at_st), by omega, fun again => ?_⟩
  exact (progress again).imp_right fun one => by omega

/-- A pass after which the loop goes round again. -/
theorem Ending.again {rest : List (Poll (Option (Except E A)))}
    {this this' : ForEachConcurrentThenTry St F Q E} {log : List (ForEachEvent A E Fut)}
    (ending : Ending rest this) (pass : this.iteration = .ok (log, .again this')) :
    ∃ rest', Ending rest' this' ∧ weight rest' this' < weight rest this := by
  obtain ⟨madeProgress, log₁, mid, log₂, stream, futures, rfl⟩ := iteration_cases pass
  obtain ⟨rest', ending', nearer⟩ := stream.nearer ending
  obtain ⟨ending'', no_heavier, lighter⟩ := futures.nearer ending'
  refine ⟨rest', ending'', ?_⟩
  simp only [Pass.state] at no_heavier lighter
  rcases lighter ⟨this', rfl⟩ with made | lighter
  · rw [if_pos made] at nearer
    omega
  · omega

/-- And any other. -/
theorem Ending.leave {rest : List (Poll (Option (Except E A)))}
    {this this' : ForEachConcurrentThenTry St F Q E} {log : List (ForEachEvent A E Fut)}
    {answer : Poll (Except E Unit)} (ending : Ending rest this)
    (pass : this.iteration = .ok (log, .leave answer this')) :
    ∃ rest', Ending rest' this' ∧ weight rest' this' ≤ weight rest this := by
  obtain ⟨madeProgress, log₁, mid, log₂, stream, futures, rfl⟩ := iteration_cases pass
  obtain ⟨rest', ending', nearer⟩ := stream.nearer ending
  obtain ⟨ending'', no_heavier, -⟩ := futures.nearer ending'
  exact ⟨rest', ending'', Nat.le_trans no_heavier (Nat.le_trans (Nat.le_add_right ..) nearer)⟩

/-- **Termination of a call.** -/
theorem Ending.poll_returns {rest : List (Poll (Option (Except E A)))}
    {this : ForEachConcurrentThenTry St F Q E} (ending : Ending rest this) :
    ∃ fuel r, poll fuel this = .ok r := by
  refine ⟨_, loop_returns (W := fun w this => ∃ rest, Ending rest this ∧ weight rest this = w)
    (fun _ => ⟨_, rfl⟩) ?_ ⟨rest, ending, rfl⟩⟩
  rintro w s log s' ⟨rest, ending, rfl⟩ pass
  obtain ⟨rest', ending', lighter⟩ := ending.again pass
  exact ⟨_, lighter, rest', ending', rfl⟩

/-! ## Idle calls -/

section Idle

variable {this this' : ForEachConcurrentThenTry St F Q E} {log : List (ForEachEvent A E Fut)}
  {rest : List (Poll (Option (Except E A)))}

/-- There is nothing for a call to do but to poll the set, and the set is dormant. -/
def Stuck (this : ForEachConcurrentThenTry St F Q E) : Prop :=
  (this.belowLimit = true → this.stream = none) ∧ FuturesUnordered.Dormant this.futures

/-- The adapter when it has polled its set. -/
def polledSet (this : ForEachConcurrentThenTry St F Q E) : ForEachConcurrentThenTry St F Q E :=
  { this with futures := (FuturesUnordered.pollNext this.futures).2 }

/-- It stays so. -/
theorem Stuck.poll (stuck : Stuck this) :
    poll 1 this = .ok (.pending, [.pollNext .pending], this.polledSet) ∧ Stuck this.polledSet := by
  obtain ⟨full, dormant⟩ := stuck
  have stream : this.pollStream = (false, [], this) := by
    unfold pollStream
    split
    · next below => rw [full below]
    · rfl
  have polled : FuturesUnordered.pollNext this.futures = (.pending, this.polledSet.futures) :=
    Prod.ext dormant.silent.1 rfl
  have same : this.polledSet.belowLimit = this.belowLimit :=
    belowLimit_congr rfl dormant.silent.len
  refine ⟨?_, fun below => full (same ▸ below), dormant.next⟩
  simp only [ForEachConcurrentThenTry.poll, loop, iteration, stream, pollFutures, polled]
  rfl

/-- A pass that returns `Pending` has met a stall or a suspension, or there is less to do after it,
or it has done nothing but to poll a silent set. -/
theorem pending_pass (rest : List (Poll (Option (Except E A))))
    (pass : this.iteration = .ok (log, .leave .pending this')) :
    0 < (streamAnswers log).countP isStall ∨ waits this.futures < waits this'.futures ∨
      (∃ rest', Ending rest' this' ∧ weight rest' this' < weight rest this) ∨
      (this.belowLimit = true → this.stream = none) ∧ FuturesUnordered.Silent this.futures ∧
        this' = this.polledSet := by
  obtain ⟨log₁, mid, futures, stream, rfl, ⟨polled, rfl⟩ | ⟨polled, live, rfl⟩⟩ :=
    leave_pending_cases pass
  · rw [streamAnswers_append, streamAnswers_pollNext, List.append_nil]
    obtain ⟨polls, pending, record, -, len, -⟩ := FuturesUnordered.pollNext_pending polled
    generalize no_progress : false = madeProgress at stream
    cases stream with
    | item _ _ _ _ => cases no_progress
    | error _ _ _ => exact .inl Nat.zero_lt_one
    | pending _ _ _ => exact .inl Nat.zero_lt_one
    | ended below live ended =>
        right; right; left
        refine ⟨rest, fun st live => by simp at live, ?_⟩
        rw [weight, weight, live, len]
        exact Nat.lt_succ_self _
    | skipped full =>
        right
        cases polls with
        | nil =>
            rw [List.append_nil] at record
            refine .inr (.inr ⟨full, ?_, ?_⟩)
            · rw [FuturesUnordered.Silent, polled]
              exact ⟨rfl, record⟩
            · rw [polledSet, polled]
        | cons first polls =>
            left
            rw [waits, waits, record, List.countP_append, List.countP_cons,
              pending first List.mem_cons_self, Poll.isPending, if_pos rfl]
            omega
  · left
    rw [streamAnswers_append, streamAnswers_pollNext, List.append_nil]
    exact stream.stalls (FuturesUnordered.pollNext_none polled).1 live

/-- So it is with a call. -/
theorem Ending.pending_call (ending : Ending rest this) {fuel : Nat}
    (called : poll fuel this = .ok (.pending, log, this')) :
    isIdle ⟨this, .pending, log, this'⟩ = false ∨
      (∃ rest', Ending rest' this' ∧ weight rest' this' < weight rest this) ∨
      (this.belowLimit = true → this.stream = none) ∧ FuturesUnordered.Silent this.futures ∧
        this' = this.polledSet := by
  have loops : Loops iteration this .pending log this' := Loops.of_loop called
  generalize pending : Poll.pending = answer at loops
  cases loops with
  | leave left =>
      subst pending
      rcases pending_pass rest left with stalled | waited | nearer | silent
      · exact .inl (not_idle_of_spent (.inl stalled))
      · exact .inl (not_idle_of_spent (.inr waited))
      · exact .inr (.inl nearer)
      · exact .inr (.inr silent)
  | @again _ s _ _ _ _ again later =>
      obtain ⟨rest', ending', lighter⟩ := ending.again again
      have no_heavier : ∃ rest'', Ending rest'' this' ∧ weight rest'' this' ≤ weight rest' s :=
        later.rule_state
          (I := fun this => ∃ rest'', Ending rest'' this ∧ weight rest'' this ≤ weight rest' s)
          (P := fun _ this => ∃ rest'', Ending rest'' this ∧ weight rest'' this ≤ weight rest' s)
          (fun inv pass => by
            obtain ⟨rest'', ending'', le⟩ := inv
            obtain ⟨rest₃, ending₃, less⟩ := ending''.again pass
            exact ⟨rest₃, ending₃, Nat.le_trans (Nat.le_of_lt less) le⟩)
          (fun inv pass => by
            obtain ⟨rest'', ending'', le⟩ := inv
            obtain ⟨rest₃, ending₃, le'⟩ := ending''.leave pass
            exact ⟨rest₃, ending₃, Nat.le_trans le' le⟩)
          ⟨rest', ending', Nat.le_refl _⟩
      obtain ⟨rest'', ending'', le⟩ := no_heavier
      exact .inr (.inl ⟨rest'', ending'', Nat.lt_of_le_of_lt le lighter⟩)

/-- After finitely many further calls the adapter is ready or stuck. -/
def Settles (this : ForEachConcurrentThenTry St F Q E) : Prop :=
  (∃ m log result this', FirstReady poll this m log result this') ∨
    ∃ more this', Polls poll this more this' ∧ (∀ call ∈ more, call.answer = .pending) ∧
      Stuck this'

theorem Settles.of_pending {fuel : Nat} (called : poll fuel this = .ok (.pending, log, this'))
    (settles : Settles this') : Settles this := by
  rcases settles with ⟨m, log', result, this'', ready⟩ | ⟨more, this'', run, pending, stuck⟩
  · exact .inl ⟨_, _, result, this'', ready.cons called⟩
  · exact .inr ⟨_, this'', run.cons called, List.forall_mem_cons.mpr ⟨rfl, pending⟩, stuck⟩

end Idle

/-! ## Runs -/

omit [TryStream St A E] [Future Fut (Except E Unit)] in
/-- The futures for the first elements are the first futures. -/
theorem Spawns.of_append {f f'' : F} {elems elems' all : List (Except E A)} {futs : List Fut}
    (spawns : Spawns f all futs f'') (same : all = elems ++ elems') :
    ∃ futs₁ futs₂ f', Spawns f elems futs₁ f' ∧ futs = futs₁ ++ futs₂ := by
  induction spawns generalizing elems' with
  | nil =>
      obtain ⟨rfl, rfl⟩ := List.append_eq_nil_iff.mp same.symm
      exact ⟨[], [], _, .nil, rfl⟩
  | @error f' elems₀ futs error before ih =>
      rcases elems'.eq_nil_or_concat with rfl | ⟨elems', last, rfl⟩
      · rw [List.append_nil] at same
        subst same
        exact ⟨futs, [], _, before.error, (List.append_nil _).symm⟩
      · rw [List.concat_eq_append, ← List.append_assoc] at same
        exact ih (List.append_inj' same rfl).1
  | @item f' f'' elems₀ futs elem fut before called ih =>
      rcases elems'.eq_nil_or_concat with rfl | ⟨elems', last, rfl⟩
      · rw [List.append_nil] at same
        subst same
        exact ⟨_, [], _, before.item called, (List.append_nil _).symm⟩
      · rw [List.concat_eq_append, ← List.append_assoc] at same
        obtain ⟨futs₁, futs₂, f₁, spawns₁, rfl⟩ := ih (List.append_inj' same rfl).1
        exact ⟨futs₁, _, f₁, spawns₁, List.append_assoc ..⟩

section Runs

variable {stream st : St} {limit : Option Nat} {f f' : F} {futs : List Fut} {n : Nat}
  {as : List (Poll (Option (Except E A)))} {this this' : ForEachConcurrentThenTry St F Q E}
  {log log' : List (ForEachEvent A E Fut)}
  {calls : List (Call (ForEachConcurrentThenTry St F Q E) (Except E Unit) (ForEachEvent A E Fut))}

theorem Looped.call {fuel : Nat} (looped : Looped limit f this log)
    (called : poll fuel this = .ok (.pending, log', this')) :
    Looped limit f this' (log ++ log') := by
  have loops : Loops iteration this .pending log' this' := Loops.of_loop called
  have left := loops.rule (I := Looped limit f)
    (P := fun answer log this => answer = .pending → Looped limit f this log)
    Looped.again
    (fun looped left answer => by
      subst answer
      exact looped.leavePending left)
    looped
  exact left rfl

theorem Looped.polls
    (run : Polls poll (ForEachConcurrentThenTry.new stream limit f) calls this)
    (pending : ∀ call ∈ calls, call.answer = .pending) :
    Looped limit f this (calls.flatMap Call.log) :=
  run.rule (I := Looped limit f) (A := (· = .pending)) (.new stream limit f)
    (fun answer looped called => by
      subst answer
      exact looped.call called)
    pending

/-- Every call that is not idle is paid for. -/
theorem spent_calls (run : Polls poll (new stream limit f) calls this) :
    calls.countP (fun call => !isIdle call) ≤
      (streamAnswers (calls.flatMap Call.log)).countP isStall + waits this.futures := by
  induction run with
  | start => exact Nat.zero_le _
  | @poll calls this answer log this' fuel _ called ih =>
      have more := waits_call called
      rw [List.countP_append, List.countP_singleton, List.flatMap_append, List.flatMap_singleton,
        streamAnswers_append, List.countP_append]
      cases idle : isIdle ⟨this, answer, log, this'⟩ with
      | true =>
          simp only [Bool.not_true, Bool.false_eq_true, if_false]
          omega
      | false =>
          rw [isIdle, Bool.and_eq_false_iff] at idle
          simp only [beq_eq_false_iff_ne] at idle
          simp only [Bool.not_false, if_true]
          omega

/-- The answers there were of a stream that ends. -/
theorem answers_prefix (run : Polls poll (new stream limit f : ForEachConcurrentThenTry St F Q E)
      calls this) (ends : Plays stream (as ++ [.ready none]) st) :
    streamAnswers (calls.flatMap Call.log) <+: as ++ [.ready none] := by
  obtain ⟨passes, steps⟩ := Steps.of_polls run
  obtain ⟨here, plays, -⟩ := (Credit.steps steps).plays
  rcases plays.prefix_or ends with le | ⟨more, same⟩
  · exact le
  · rcases more.eq_nil_or_concat with rfl | ⟨more, last, rfl⟩
    · rw [List.append_nil] at same
      exact ⟨[], by rw [List.append_nil, same]⟩
    · have only_last := (Inv.steps steps).last
      simp only at same
      rw [← same, List.concat_eq_append, ← List.append_assoc, List.dropLast_concat] at only_last
      simp at only_last

/-- There are no more stalls and suspensions than the stream and the futures have. -/
theorem spent_le (run : Polls poll (new stream limit f) calls this)
    (pending : ∀ call ∈ calls, call.answer = .pending)
    (ends : Plays stream (as ++ [.ready none]) st) (spawns : Spawns f (elements as) futs f')
    (total : SuspendFor futs n) :
    (streamAnswers (calls.flatMap Call.log)).countP isStall + waits this.futures ≤
      as.countP isStall + n := by
  obtain ⟨rest, answers⟩ := answers_prefix run ends
  have looped := Looped.polls run pending
  have stalls : (streamAnswers (calls.flatMap Call.log)).countP isStall ≤ as.countP isStall := by
    have all := congrArg (List.countP isStall) answers
    rw [List.countP_append, List.countP_append] at all
    simp only [List.countP_singleton, isStall, Bool.false_eq_true, if_false] at all
    omega
  -- the futures that were made are the first of all there will be
  have elems : elements as =
      elements (streamAnswers (calls.flatMap Call.log)) ++ elements rest := by
    rw [← elements_append, answers, elements_append]
    exact (List.append_nil _).symm
  obtain ⟨futs₁, futs₂, f₁, spawns₁, rfl⟩ := spawns.of_append elems
  obtain ⟨rfl, -⟩ := spawns₁.unique looped.spawns rfl
  have kept := looped.kept
  have known : ∀ p ∈ FuturesUnordered.log this.futures,
      p.1 < (spawned (calls.flatMap Call.log) ++ futs₂).length := by
    intro p mem
    by_contra beyond
    rw [List.length_append, kept.count] at beyond
    have silent := (kept.fresh (k := p.1) (by omega)).2
    have heard := mem_answersOf mem
    rw [silent] at heard
    cases heard
  have each : ∀ k fut, (spawned (calls.flatMap Call.log) ++ futs₂)[k]? = some fut →
      ∃ member, Progress fut (answersOf k (FuturesUnordered.log this.futures)) member := by
    intro k fut at_k
    rcases Nat.lt_or_ge k (spawned (calls.flatMap Call.log)).length with made | later
    · rw [List.getElem?_append_left made] at at_k
      exact ⟨_, kept.progress at_k⟩
    · rw [(kept.fresh (kept.count ▸ later)).2]
      exact ⟨_, .start fut⟩
  have suspended := total.suspensions_le each
  rw [suspensions_eq known] at suspended
  exact Nat.add_le_add stalls suspended

/-- What is left of the stream. -/
theorem ending_calls (run : Polls poll (new stream limit f) calls this)
    (ends : Plays stream (as ++ [.ready none]) st) : ∃ rest, Ending rest this := by
  obtain ⟨rest, answers⟩ := answers_prefix run ends
  obtain ⟨passes, steps⟩ := Steps.of_polls run
  obtain ⟨here, plays, at_here⟩ := (Credit.steps steps).plays
  simp only at plays
  rcases at_here with gone | live
  · exact ⟨[], by simp [Ending, gone]⟩
  · rcases rest.eq_nil_or_concat with rfl | ⟨rest, last, rfl⟩
    · -- the stream has ended
      rw [List.append_nil] at answers
      have ended := (Inv.steps steps).ended
      simp only [answers, live] at ended
      simp at ended
    · rw [List.concat_eq_append, ← List.append_assoc] at answers
      obtain ⟨before, same⟩ := List.append_inj' answers rfl
      cases same
      rw [← before, List.append_assoc] at ends
      obtain ⟨here', plays', later⟩ := ends.of_append
      obtain rfl := plays.state_unique plays'
      refine ⟨rest, fun st at_st => ?_⟩
      rw [live] at at_st
      cases at_st
      exact ⟨_, later⟩

/-- Calls that are not idle. -/
theorem notIdle_le (run : Polls poll (new stream limit f) calls this)
    (pending : ∀ call ∈ calls, call.answer = .pending)
    (ends : Plays stream (as ++ [.ready none]) st) (spawns : Spawns f (elements as) futs f')
    (total : SuspendFor futs n) :
    calls.countP (fun call => !isIdle call) ≤ as.countP isStall + n :=
  Nat.le_trans (spent_calls run) (spent_le run pending ends spawns total)

/-- With a prompt set they are all the calls there are. -/
theorem notIdle_eq (prompt : FuturesUnordered.Prompt Q)
    (run : Polls poll (new stream limit f) calls this)
    (pending : ∀ call ∈ calls, call.answer = .pending) :
    calls.countP (fun call => !isIdle call) = calls.length := by
  rw [List.countP_eq_length]
  rintro ⟨s, answer, log, s'⟩ mem
  obtain ⟨fuel, called⟩ := run.call mem
  obtain rfl : answer = .pending := pending _ mem
  rw [not_idle prompt called]
  rfl

omit [TryStream St A E] [FnMut F A Fut] in
theorem notIdle_concat
    (calls : List (Call (ForEachConcurrentThenTry St F Q E) (Except E Unit)
      (ForEachEvent A E Fut)))
    (call : Call (ForEachConcurrentThenTry St F Q E) (Except E Unit) (ForEachEvent A E Fut)) :
    (calls ++ [call]).countP (fun call => !isIdle call) =
      calls.countP (fun call => !isIdle call) + bif isIdle call then 0 else 1 := by
  rw [List.countP_append, List.countP_singleton]
  cases isIdle call <;> rfl

/-- What there is to come: calls that are not idle, then what there is to do without a stall or a
suspension, then polls of the set before it stirs. -/
def toCome (n : Nat)
    (calls : List (Call (ForEachConcurrentThenTry St F Q E) (Except E Unit)
      (ForEachEvent A E Fut)))
    (rest : List (Poll (Option (Except E A)))) (this : ForEachConcurrentThenTry St F Q E)
    (k : Nat) : Nat ×ₗ Nat ×ₗ Nat :=
  toLex (n - calls.countP fun call => !isIdle call, toLex (weight rest this, k))

/-- Each further call makes it less. -/
theorem settles_of_stirs (ends : Plays stream (as ++ [.ready none]) st)
    (spawns : Spawns f (elements as) futs f') (total : SuspendFor futs n)
    (run : Polls poll (new stream limit f) calls this)
    (pending : ∀ call ∈ calls, call.answer = .pending)
    {rest : List (Poll (Option (Except E A)))} (ending : Ending rest this) (k : Nat)
    (stirs : FuturesUnordered.Dormant this.futures ∨
      ¬ FuturesUnordered.Silent (FuturesUnordered.afterPolls this.futures k)) :
    Settles this := by
  obtain ⟨w, measured⟩ : ∃ w, w = toCome (as.countP isStall + n) calls rest this k := ⟨_, rfl⟩
  induction w using WellFoundedLT.induction generalizing calls this rest k with
  | ind w ih =>
      subst measured
      obtain ⟨fuel, ⟨answer, log, this'⟩, called⟩ := ending.poll_returns
      cases answer with
      | ready result =>
          exact .inl ⟨0, _, result, this', .mk .start (List.forall_mem_nil _) called⟩
      | pending =>
          refine .of_pending called ?_
          have run' := run.poll called
          have pending' : ∀ call ∈ calls ++ [⟨this, .pending, log, this'⟩],
              call.answer = .pending :=
            List.forall_mem_append.mpr ⟨pending, List.forall_mem_singleton.mpr rfl⟩
          have count := notIdle_concat calls ⟨this, .pending, log, this'⟩
          obtain ⟨k', stirs'⟩ := FuturesUnordered.dormant_or this'.futures
          cases idle : isIdle ⟨this, .pending, log, this'⟩ with
          | false =>
              rw [idle, cond_false] at count
              have few := notIdle_le run' pending' ends spawns total
              obtain ⟨rest', ending'⟩ := ending_calls run' ends
              refine ih _ ?_ run' pending' ending' k' stirs' rfl
              exact Prod.Lex.toLex_lt_toLex.mpr (.inl (by omega))
          | true =>
              rw [idle, cond_true, Nat.add_zero] at count
              have idly := (ending.pending_call called).resolve_left (by simp [idle])
              rcases idly with ⟨rest', ending', lighter⟩ | ⟨full, silent, rfl⟩
              · refine ih _ ?_ run' pending' ending' k' stirs' rfl
                rw [toCome, toCome, count]
                exact Prod.Lex.toLex_lt_toLex.mpr
                  (.inr ⟨rfl, Prod.Lex.toLex_lt_toLex.mpr (.inl lighter)⟩)
              · rcases stirs with dormant | awake
                · have stuck : Stuck this := ⟨full, dormant⟩
                  exact .inr ⟨[], _, .start, List.forall_mem_nil _, stuck.poll.2⟩
                · cases k with
                  | zero => exact (awake silent).elim
                  | succ k =>
                      have ending' : Ending rest this.polledSet := ending
                      refine ih _ ?_ run' pending' ending' k (.inr awake) rfl
                      have same : weight rest this.polledSet = weight rest this := by
                        rw [weight, weight, polledSet, silent.len]
                      rw [toCome, toCome, count, same]
                      exact Prod.Lex.toLex_lt_toLex.mpr (.inr ⟨rfl,
                        Prod.Lex.toLex_lt_toLex.mpr (.inr ⟨rfl, Nat.lt_succ_self k⟩)⟩)

theorem settles_calls (ends : Plays stream (as ++ [.ready none]) st)
    (spawns : Spawns f (elements as) futs f') (total : SuspendFor futs n)
    (run : Polls poll (new stream limit f) calls this)
    (pending : ∀ call ∈ calls, call.answer = .pending) : Settles this := by
  obtain ⟨rest, ending⟩ := ending_calls run ends
  obtain ⟨k, stirs⟩ := FuturesUnordered.dormant_or this.futures
  exact settles_of_stirs ends spawns total run pending ending k stirs

end Runs

/-- What becomes of an adapter whose stream and futures stall or suspend `n` times in all. -/
structure Resolving (init : ForEachConcurrentThenTry St F Q E) (n : Nat) : Prop where
  /-- Every call returns. -/
  returns : ∀ {calls} {this : ForEachConcurrentThenTry St F Q E}, Polls poll init calls this →
    ∃ fuel r, poll fuel this = .ok r
  /-- No more than `n` calls return `Pending` and are not idle. -/
  spends : ∀ {calls} {this : ForEachConcurrentThenTry St F Q E}, Polls poll init calls this →
    (∀ call ∈ calls, call.answer = .pending) → calls.countP (fun call => !isIdle call) ≤ n
  /-- From every state, finitely many further calls make the adapter ready or stuck. -/
  settles : ∀ {calls} {this : ForEachConcurrentThenTry St F Q E}, Polls poll init calls this →
    (∀ call ∈ calls, call.answer = .pending) → Settles this
  /-- If its set stirs in every state, they make it ready. -/
  ready : (∀ {calls} {this : ForEachConcurrentThenTry St F Q E}, Polls poll init calls this →
      (∀ call ∈ calls, call.answer = .pending) → ¬ FuturesUnordered.Dormant this.futures) →
    ∀ {calls} {this : ForEachConcurrentThenTry St F Q E}, Polls poll init calls this →
      (∀ call ∈ calls, call.answer = .pending) →
      ∃ m log result this', FirstReady poll this m log result this'
  /-- And with a set that answers `Pending` only if it has polled some future, at most `n` calls in
  all return `Pending`. -/
  prompt : FuturesUnordered.Prompt Q → ∀ {calls} {this : ForEachConcurrentThenTry St F Q E},
    Polls poll init calls this → (∀ call ∈ calls, call.answer = .pending) →
    ∃ m, calls.length + m ≤ n ∧ ∃ log result this', FirstReady poll this m log result this'
  /-- An adapter that is stuck stays so: each call is one poll of the set, and polls no future. -/
  stuck : ∀ {this : ForEachConcurrentThenTry St F Q E}, Stuck this →
    ∃ this', poll 1 this = .ok (.pending, [.pollNext .pending], this') ∧
      FuturesUnordered.log this'.futures = FuturesUnordered.log this.futures ∧ Stuck this'

/-- **The end is reached.** For a stream that comes to an end, and futures that resolve. -/
theorem forEach_resolves (stream : St) (limit : Option Nat) (f : F)
    {as : List (Poll (Option (Except E A)))} {st : St} {futs : List Fut} {f' : F} {n : Nat}
    (ends : Plays stream (as ++ [.ready none]) st) (spawns : Spawns f (elements as) futs f')
    (total : SuspendFor futs n) :
    Resolving (new stream limit f : ForEachConcurrentThenTry St F Q E)
      (as.countP isStall + n) where
  returns run := by
    obtain ⟨rest, ending⟩ := ending_calls run ends
    exact ending.poll_returns
  spends run pending := notIdle_le run pending ends spawns total
  settles run pending := settles_calls ends spawns total run pending
  ready stirs {calls this} run pending := by
    refine (settles_calls ends spawns total run pending).resolve_right ?_
    rintro ⟨more, this', run', pending', -, dormant⟩
    exact stirs (run.trans run') (List.forall_mem_append.mpr ⟨pending, pending'⟩) dormant
  prompt prompt {calls this} run pending := by
    have few : ∀ {more} {this' : ForEachConcurrentThenTry St F Q E}, Polls poll this more this' →
        (∀ call ∈ more, call.answer = .pending) →
        calls.length + more.length ≤ as.countP isStall + n := by
      intro more this' run' pending'
      have all := List.forall_mem_append.mpr ⟨pending, pending'⟩
      rw [← List.length_append, ← notIdle_eq prompt (run.trans run') all]
      exact notIdle_le (run.trans run') all ends spawns total
    have bounded : ∀ {more} {this' : ForEachConcurrentThenTry St F Q E},
        Polls poll this more this' → (∀ call ∈ more, call.answer = .pending) →
        more.length ≤ as.countP isStall + n - calls.length :=
      fun run' pending' => Nat.le_sub_of_add_le' (few run' pending')
    obtain ⟨m, le, ready⟩ := FirstReady.exists_of_bounded
      (fun run' _ => by
        obtain ⟨rest, ending⟩ := ending_calls (run.trans run') ends
        exact ending.poll_returns) bounded
    have none_yet := few .start (List.forall_mem_nil _)
    rw [List.length_nil] at none_yet
    exact ⟨m, by omega, ready⟩
  stuck stuck := ⟨_, stuck.poll.1, stuck.2.silent.2, stuck.poll.2⟩

/-- The stream suspends once and fails once, the future suspends once, and is woken three polls
after it was polled. -/
theorem forEach_resolves_shortStream :
    ∃ m log result this, FirstReady poll (new shortStream (some 1) shortFuture :
      ForEachConcurrentThenTry _ _
        (Napping 3 (WokenSet (Script (Except Nat Unit)) (Except Nat Unit))) Nat)
      m log result this := by
  have ends : Plays shortStream
      ([.ready (some (.ok 1)), .pending, .ready (some (.error 9))] ++ [.ready none]) ⟨[]⟩ :=
    .cons rfl (.cons rfl (.cons rfl (.cons rfl (.nil _))))
  have spawns : Spawns shortFuture [.ok 1, .error 9] [shortFuture 1] shortFuture :=
    .error (.item .nil rfl)
  have resolves : Resolves (shortFuture 1) 1 (.error 1) :=
    ⟨(PendingFor.zero _).succ rfl, rfl⟩
  exact (forEach_resolves shortStream (some 1) shortFuture ends spawns
    (.concat .nil resolves)).ready (fun _ _ => Napping.not_dormant WokenSet.prompt _) .start
    (List.forall_mem_nil _)

end CancelSafeFutures.ForEachConcurrentThenTry
