import CancelSafeFutures.Future.JoinAllThenTry

/-!
# Runs of `JoinAllThenTry`

`Between` is the state of a `JoinAllThenTry` between two calls, for either of its kinds.  The run
lemma `Between.run` carries it from `joinAllThenTry` through any number of calls that answer
`Pending`, and `Between.ready` reads off what the first `Ready` returns.

`joinAllThenTry_agree`: both kinds return the same, whatever the iterator said about its length
and whatever the schedule.
-/

namespace CancelSafeFutures.JoinAllThenTry

open Async

variable {F Q A E : Type} [Future F (Except E A)] [FuturesOrdered Q F (Except E A)]

/-- After `n` calls that answered `Pending`, having recorded `log`. -/
inductive Between (futs : List F) :
    Nat → PollLog (Except E A) → JoinAllThenTry F Q A E → Prop
  | small {n log} :
      (∀ k, answersOf k log =
        (futs[k]?.map fun fut => MaybeDone.innerAnswers fut n).getD []) →
      Between futs n log ⟨.small (elemsAfter futs n)⟩
  | big {n fut results} :
      Ordered futs fut results → Between futs n (FuturesOrdered.log fut.stream) ⟨.big fut⟩

theorem Between.start (sizeHint : Option Nat) (futs : List F) :
    Between futs 0 [] (joinAllThenTry sizeHint futs : JoinAllThenTry F Q A E) := by
  have small : Between futs 0 [] (⟨.small (futs.map MaybeDone.future)⟩ :
      JoinAllThenTry F Q A E) := by
    refine .small fun k => ?_
    cases futs[k]? with
    | none => rfl
    | some fut => rfl
  have big : Between futs 0 []
      (⟨.big (CollectThenTry.new (collectOrdered futs))⟩ : JoinAllThenTry F Q A E) := by
    have started := Between.big (n := 0) (Ordered.start (Q := Q) futs)
    have silent : FuturesOrdered.log (collectOrdered futs : Q) = [] :=
      (collectOrdered_spec futs).2.2.1
    rw [CollectThenTry.new] at started ⊢
    rwa [silent] at started
  unfold joinAllThenTry
  split
  · split
    · exact small
    · exact big
  · exact big

/-- The polls of one more call on the slice. -/
theorem answersOf_call {futs : List F} {n : Nat} {log : PollLog (Except E A)}
    (before : ∀ k, answersOf k log =
      (futs[k]?.map fun fut => MaybeDone.innerAnswers fut n).getD []) (k : Nat) :
    answersOf k (log ++ pollsIn n 0 futs) =
      (futs[k]?.map fun fut => MaybeDone.innerAnswers fut (n + 1)).getD [] := by
  have now := answersOf_pollsIn n 0 k futs
  rw [Nat.zero_add] at now
  rw [answersOf_append, before, now]
  cases futs[k]? with
  | none => rfl
  | some fut => exact (MaybeDone.innerAnswers_succ fut n).symm

/-- What the record of a set and its new polls make together. -/
theorem append_newPolls {q q' : Q}
    (grows : FuturesOrdered.log q <+: FuturesOrdered.log q') :
    FuturesOrdered.log q ++ newPolls q q' = FuturesOrdered.log q' :=
  List.prefix_iff_eq_append.mp grows

/-- One call that answers `Pending`. -/
theorem Between.pending [MaybeDone.Impl] {futs : List F} {n fuel : Nat}
    {log log' : PollLog (Except E A)}
    {this this' : JoinAllThenTry F Q A E} (between : Between futs n log this)
    (h : this.poll fuel = .ok (.pending, log', this')) :
    Between futs (n + 1) (log ++ log') this' := by
  cases between with
  | small before =>
      rcases poll_small (Q := Q) fuel futs n with ⟨-, called⟩ | ⟨outs, -, -, -, called⟩
      · cases called.symm.trans h
        exact .small (answersOf_call before)
      · cases called.symm.trans h
  | big ordered =>
      obtain ⟨answers, fut', called, rfl, rfl⟩ := poll_big h
      obtain ⟨grows, waits, -⟩ := ordered.poll called
      obtain ⟨results', ordered'⟩ := waits rfl
      rw [append_newPolls grows]
      exact .big ordered'

/-- The call that answers `Ready`. -/
theorem Between.ready [MaybeDone.Impl] {futs : List F} {n fuel : Nat}
    {log log' : PollLog (Except E A)}
    {this this' : JoinAllThenTry F Q A E} {result : Except E (List A)}
    (between : Between futs n log this)
    (h : this.poll fuel = .ok (.ready result, log', this')) :
    JoinedAll futs (log ++ log') result := by
  cases between with
  | small before =>
      rcases poll_small (Q := Q) fuel futs n with ⟨-, called⟩ | ⟨outs, -, outcomes, done, called⟩
      · cases called.symm.trans h
      · cases called.symm.trans h
        refine ⟨⟨outs, outcomes, rfl⟩, ?_, ?_⟩
        · intro k fut at_k
          rw [answersOf_call before, at_k]
          exact done fut (List.mem_of_getElem? at_k)
        · intro k le
          rw [answersOf_call before, List.getElem?_eq_none le]
          rfl
  | big ordered =>
      obtain ⟨answers, fut', called, rfl, rfl⟩ := poll_big h
      obtain ⟨grows, -, joined⟩ := ordered.poll called
      rw [append_newPolls grows]
      exact joined result rfl

theorem Between.run [MaybeDone.Impl] {sizeHint : Option Nat} {futs : List F}
    {calls : List (Call (JoinAllThenTry F Q A E) (Except E (List A)) (Nat × Poll (Except E A)))}
    {this : JoinAllThenTry F Q A E}
    (run : Polls poll (joinAllThenTry sizeHint futs) calls this)
    (pending : ∀ call ∈ calls, call.answer = .pending) :
    Between futs calls.length (calls.flatMap Call.log) this := by
  induction run with
  | start => exact .start sizeHint futs
  | @poll calls s answer log s' fuel _ step ih =>
      have before := ih fun call mem => pending call (List.mem_append_left _ mem)
      have last : answer = .pending := pending ⟨s, answer, log, s'⟩ (by simp)
      subst last
      rw [List.length_append, List.flatMap_append, List.flatMap_singleton]
      exact before.pending step

/-- The slice after any number of calls that answered `Pending`. -/
theorem small_of_polls [MaybeDone.Impl] {futs : List F}
    {calls : List (Call (JoinAllThenTry F Q A E) (Except E (List A)) (Nat × Poll (Except E A)))}
    {this : JoinAllThenTry F Q A E}
    (run : Polls poll ⟨.small (futs.map MaybeDone.future)⟩ calls this)
    (pending : ∀ call ∈ calls, call.answer = .pending) :
    this = ⟨.small (elemsAfter futs calls.length)⟩ := by
  induction run with
  | start => rfl
  | @poll calls s answer log s' fuel _ called ih =>
      have before := ih fun call mem => pending call (List.mem_append_left _ mem)
      have last : answer = .pending := pending ⟨s, answer, log, s'⟩ (by simp)
      subst last before
      rw [List.length_append, List.length_singleton]
      rcases poll_small (Q := Q) fuel futs calls.length with ⟨-, called'⟩ | ⟨_, -, -, -, called'⟩
      · cases called.symm.trans called'
        rfl
      · cases called.symm.trans called'

/-! ## What is true between calls -/

theorem Between.kept {futs : List F} {n : Nat} {log : PollLog (Except E A)}
    {this : JoinAllThenTry F Q A E} (between : Between futs n log this) : Kept futs log this := by
  cases between with
  | small before =>
      constructor
      · intro k fut at_k
        have held : held (⟨.small (elemsAfter futs n)⟩ : JoinAllThenTry F Q A E) k =
            (MaybeDone.afterPolls fut n).held := by
          simp only [held, elemsAfter, List.getElem?_map, at_k, Option.map_some, Option.bind_some]
        rw [before, at_k, held]
        exact MaybeDone.progress_afterPolls fut n
      · intro k le
        rw [before, List.getElem?_eq_none le]
        rfl
  | big ordered => exact ⟨ordered.progress, fun le => (ordered.fresh le).2⟩

/-- The next call panics for no fuel that is enough, and some fuel is enough. -/
theorem Between.returns [MaybeDone.Impl] {futs : List F} {n : Nat} {log : PollLog (Except E A)}
    {this : JoinAllThenTry F Q A E} (between : Between futs n log this) :
    ∃ enough, ∀ fuel, enough ≤ fuel → ∃ r, this.poll fuel = .ok r := by
  cases between with
  | small before =>
      refine ⟨0, fun fuel _ => ?_⟩
      rcases poll_small (Q := Q) fuel futs n with ⟨-, called⟩ | ⟨outs, -, -, -, called⟩
      · exact ⟨_, called⟩
      · exact ⟨_, called⟩
  | @big fut results ordered =>
      -- each pass hands out one more of the outputs
      have bounded : ∃ r, loop CollectThenTry.iteration _ fut = .ok r :=
        loop_terminates (I := fun _ => True)
          (fun now => FuturesOrdered.pushed now.stream - FuturesOrdered.yielded now.stream)
          (fun _ => CollectThenTry.iteration_ok _)
          (by
            intro now log next _ again
            obtain ⟨result, q, polled, -, rfl⟩ := CollectThenTry.again_cases again
            obtain ⟨-, yielded, more⟩ := FuturesOrdered.pollNext_some polled
            have pushed := FuturesOrdered.pushed_pollNext now.stream
            have answered : FuturesOrdered.pollNext now.stream = (.ready (some result), q) := polled
            rw [answered] at pushed
            refine ⟨trivial, ?_⟩
            rw [CollectThenTry.absorb_stream]
            simp only [pushed, yielded]
            omega)
          trivial
      obtain ⟨⟨answer, answers, fut'⟩, called⟩ := bounded
      refine ⟨FuturesOrdered.pushed fut.stream - FuturesOrdered.yielded fut.stream + 1,
        fun fuel le => ?_⟩
      have called' : fut.poll fuel = .ok (answer, answers, fut') := loop_mono called le
      refine ⟨(answer, newPolls fut.stream fut'.stream, ⟨.big fut'⟩), ?_⟩
      simp only [poll, called', run_bind_ok]

/-- A call on the slice polls each future that is unfinished once, and no other. -/
theorem Between.once [MaybeDone.Impl] {futs : List F} {n fuel : Nat}
    {log log' : PollLog (Except E A)}
    {elems : List (MaybeDone F (Except E A))} {this' : JoinAllThenTry F Q A E}
    {answer : Poll (Except E (List A))} {k : Nat} {fut : F}
    (between : Between futs n log (⟨.small elems⟩ : JoinAllThenTry F Q A E))
    (h : poll fuel (⟨.small elems⟩ : JoinAllThenTry F Q A E) = .ok (answer, log', this'))
    (at_k : futs[k]? = some fut) :
    (PendingFor fut n → answersOf k log' = [Async.answer fut n]) ∧
      (¬ PendingFor fut n → answersOf k log' = []) := by
  cases between with
  | small before =>
      have recorded : log' = pollsIn n 0 futs := by
        rcases poll_small (Q := Q) fuel futs n with ⟨-, called⟩ | ⟨outs, -, -, -, called⟩
        · cases called.symm.trans h
          rfl
        · cases called.symm.trans h
          rfl
      have polls := answersOf_pollsIn n 0 k futs
      rw [Nat.zero_add, at_k, Option.bind_some, ← recorded] at polls
      constructor
      · intro waits
        rw [polls, MaybeDone.innerAnswer_of_pendingFor waits]
        rfl
      · intro finished
        rcases MaybeDone.pendingFor_or_resolves fut n with waits | ⟨m, out, lt, resolves⟩
        · exact (finished waits).elim
        · rw [polls, MaybeDone.innerAnswer_of_resolves resolves lt]
          rfl

/-! ## Agreement -/

/-- What is true of every run of `joinAllThenTry sizeHint futs` up to its first `Ready`. -/
structure Joins [MaybeDone.Impl] (Q : Type) [FuturesOrdered Q F (Except E A)]
    (sizeHint : Option Nat) (futs : List F) : Prop where
  /-- No input is dropped before it has completed, or polled after that. -/
  kept : ∀ {calls} {this : JoinAllThenTry F Q A E},
    Polls poll (joinAllThenTry sizeHint futs) calls this →
    (∀ call ∈ calls, call.answer = .pending) → Kept futs (calls.flatMap Call.log) this
  /-- The next call returns, so it does not panic. -/
  returns : ∀ {calls} {this : JoinAllThenTry F Q A E},
    Polls poll (joinAllThenTry sizeHint futs) calls this →
    (∀ call ∈ calls, call.answer = .pending) →
    ∃ enough, ∀ fuel, enough ≤ fuel → ∃ r, this.poll fuel = .ok r
  /-- On the slice, the next call polls each unfinished future once, and no other. -/
  once : ∀ {calls} {elems : List (MaybeDone F (Except E A))} {fuel answer log k fut}
    {this' : JoinAllThenTry F Q A E},
    Polls poll (joinAllThenTry sizeHint futs) calls
      (⟨.small elems⟩ : JoinAllThenTry F Q A E) →
    (∀ call ∈ calls, call.answer = .pending) →
    poll fuel (⟨.small elems⟩ : JoinAllThenTry F Q A E) = .ok (answer, log, this') →
    futs[k]? = some fut →
    (PendingFor fut calls.length → answersOf k log = [Async.answer fut calls.length]) ∧
      (¬ PendingFor fut calls.length → answersOf k log = [])
  /-- The first `Ready` comes after every input has completed, with the collected result. -/
  ready : ∀ {n log result} {this : JoinAllThenTry F Q A E},
    FirstReady poll (joinAllThenTry sizeHint futs) n log result this → JoinedAll futs log result

theorem joins [MaybeDone.Impl] (sizeHint : Option Nat) (futs : List F) : Joins Q sizeHint futs where
  kept run pending := (Between.run run pending).kept
  returns run pending := (Between.run run pending).returns
  once run pending call at_k := (Between.run run pending).once call at_k
  ready first := by
    obtain ⟨run, pending, last⟩ := first
    exact (Between.run run pending).ready last

/-- **The two kinds agree.** For lists of futures with the same outcomes, which may complete in
different orders, the first `Ready` carries the same value whatever the iterators said about their
lengths. -/
theorem joinAllThenTry_agree [MaybeDone.Impl] (sizeHint sizeHint' : Option Nat)
    (futs futs' : List F) :
    Joins Q sizeHint futs ∧ Joins Q sizeHint' futs' ∧
      ∀ {outs}, List.Forall₂ Outcome futs outs → List.Forall₂ Outcome futs' outs →
        ∀ {n n' log log' result result'} {this this' : JoinAllThenTry F Q A E},
          FirstReady poll (joinAllThenTry sizeHint futs) n log result this →
          FirstReady poll (joinAllThenTry sizeHint' futs') n' log' result' this' →
          result = collectResults outs ∧ result' = collectResults outs := by
  refine ⟨joins sizeHint futs, joins sizeHint' futs', ?_⟩
  intro outs outcomes outcomes' n n' log log' result result' this this' first first'
  have functional : Relator.RightUnique fun (fut : F) (out : Except E A) => Outcome fut out :=
    fun _ _ _ => Outcome.unique
  obtain ⟨found, found_outcomes, rfl⟩ := ((joins sizeHint futs).ready first).result
  obtain ⟨found', found_outcomes', rfl⟩ := ((joins sizeHint' futs').ready first').result
  have same : found = outs := List.right_unique_forall₂' functional found_outcomes outcomes
  have same' : found' = outs := List.right_unique_forall₂' functional found_outcomes' outcomes'
  exact ⟨congrArg collectResults same, congrArg collectResults same'⟩

/-- A set of two futures of which the second fails first in time, and a slice of two futures of
which the first does. -/
theorem joinAllThenTry_agree_example :
    ∃ (result result' : Except Nat (List Nat)),
      (∃ (log : _) (this : JoinAllThenTry (Script (Except Nat Nat))
          (WokenQueue (Script (Except Nat Nat)) (Except Nat Nat)) Nat Nat),
        FirstReady poll (joinAllThenTry none
          [⟨[.pending, .ready (.error 1)]⟩, ⟨[.ready (.error 2)]⟩]) 1 log result this) ∧
      (∃ (log : _) (this : JoinAllThenTry (Script (Except Nat Nat))
          (WokenQueue (Script (Except Nat Nat)) (Except Nat Nat)) Nat Nat),
        FirstReady poll (joinAllThenTry (some 2)
          [⟨[.ready (.error 1)]⟩, ⟨[.pending, .ready (.error 2)]⟩]) 1 log result' this) ∧
      result = .error 1 ∧ result' = .error 1 := by
  have first : FirstReady poll (joinAllThenTry none
      [⟨[.pending, .ready (.error 1)]⟩, ⟨[.ready (.error 2)]⟩] :
      JoinAllThenTry (Script (Except Nat Nat))
        (WokenQueue (Script (Except Nat Nat)) (Except Nat Nat)) Nat Nat) 1 _ _ _ :=
    .mk (.poll .start (show poll 3 _ = _ from rfl)) (by simp) (show poll 3 _ = _ from rfl)
  have first' : FirstReady poll (joinAllThenTry (some 2)
      [⟨[.ready (.error 1)]⟩, ⟨[.pending, .ready (.error 2)]⟩] :
      JoinAllThenTry (Script (Except Nat Nat))
        (WokenQueue (Script (Except Nat Nat)) (Except Nat Nat)) Nat Nat) 1 _ _ _ :=
    .mk (.poll .start (show poll 1 _ = _ from rfl)) (by simp) (show poll 1 _ = _ from rfl)
  have early : ∀ out : Except Nat Nat, Outcome (⟨[.ready out]⟩ : Script (Except Nat Nat)) out :=
    fun _ => ⟨0, .zero _, rfl⟩
  have late : ∀ out : Except Nat Nat,
      Outcome (⟨[.pending, .ready out]⟩ : Script (Except Nat Nat)) out :=
    fun _ => ⟨1, (PendingFor.zero _).succ rfl, rfl⟩
  have agree := (joinAllThenTry_agree none (some 2) _ _).2.2
    (.cons (late (.error 1)) (.cons (early (.error 2)) .nil))
    (.cons (early (.error 1)) (.cons (late (.error 2)) .nil)) first first'
  exact ⟨_, _, ⟨_, _, first⟩, ⟨_, _, first'⟩, agree⟩

end CancelSafeFutures.JoinAllThenTry
