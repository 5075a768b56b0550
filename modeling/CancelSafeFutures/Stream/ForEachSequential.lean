import CancelSafeFutures.Stream.ForEachBound

/-!
# `ForEachConcurrentThenTry` and the loop it stands for

`OneByOne` is the loop that takes the elements of a stream one after another and awaits the future
of each before it takes the next.  The adapter runs futures side by side, in an order that is up to
the set of futures, and yet it fails exactly if that loop does, with an error that loop sees; one
future at a time, with the error that loop sees first (`forEach_refines_loop`).  So whether it
fails depends on the stream and on the closure, and not on the limit or on the set of futures
(`forEach_schedule`).
-/

namespace CancelSafeFutures.ForEachConcurrentThenTry

open Async

/-! ## The loop -/

section Loop

variable {A E F Fut : Type}

/-- The elements among the answers of a stream. -/
def elements (answers : List (Poll (Option (Except E A)))) : List (Except E A) :=
  answers.filterMap fun answer => match answer with
    | .ready (some element) => some element
    | _ => none

/-- The errors among some results. -/
def errorsAmong {B : Type} (results : List (Except E B)) : List E :=
  results.filterMap fun result => match result with
    | .error error => some error
    | .ok _ => none

@[simp] theorem elements_append (as bs : List (Poll (Option (Except E A)))) :
    elements (as ++ bs) = elements as ++ elements bs :=
  List.filterMap_append

@[simp] theorem errorsAmong_append {B : Type} (as bs : List (Except E B)) :
    errorsAmong (as ++ bs) = errorsAmong as ++ errorsAmong bs :=
  List.filterMap_append

variable [FnMut F A Fut]

/-- The futures a closure returns for the items among some elements, in order. -/
inductive Spawns : F → List (Except E A) → List Fut → F → Prop
  | nil {f} : Spawns f [] [] f
  | error {f f' elems futs error} :
      Spawns f elems futs f' → Spawns f (elems ++ [.error error]) futs f'
  | item {f f' f'' elems futs elem fut} :
      Spawns f elems futs f' → FnMut.call f' elem = (fut, f'') →
      Spawns f (elems ++ [.ok elem]) (futs ++ [fut]) f''

theorem Spawns.unique {f f₁ f₂ : F} {elems elems' : List (Except E A)} {futs futs' : List Fut}
    (spawns : Spawns f elems futs f₁) (spawns' : Spawns f elems' futs' f₂)
    (same : elems = elems') : futs = futs' ∧ f₁ = f₂ := by
  induction spawns generalizing elems' futs' f₂ with
  | nil =>
      cases spawns' with
      | nil => exact ⟨rfl, rfl⟩
      | error _ => simp at same
      | item _ _ => simp at same
  | error _ ih =>
      cases spawns' with
      | nil => simp at same
      | error before' => exact ih before' (List.append_inj' same rfl).1
      | item _ _ => cases (List.append_inj' same rfl).2
  | item _ called ih =>
      cases spawns' with
      | nil => simp at same
      | error _ => cases (List.append_inj' same rfl).2
      | item before' called' =>
          obtain ⟨same, last⟩ := List.append_inj' same rfl
          obtain ⟨rfl, rfl⟩ := ih before' same
          cases last
          rw [called] at called'
          cases called'
          exact ⟨rfl, rfl⟩

variable [Future Fut (Except E Unit)]

/-- The loop, over the elements it has taken so far, with the errors it has seen. -/
inductive OneByOne : F → List (Except E A) → List E → F → Prop
  | nil {f} : OneByOne f [] [] f
  | error {f f' elems seen error} :
      OneByOne f elems seen f' → OneByOne f (elems ++ [.error error]) (seen ++ [error]) f'
  | item {f f' f'' elems seen elem fut n result} :
      OneByOne f elems seen f' → FnMut.call f' elem = (fut, f'') → Resolves fut n result →
      OneByOne f (elems ++ [.ok elem]) (seen ++ errorsAmong [result]) f''

/-- The errors are determined by the closure and the elements. -/
theorem OneByOne.unique {f f₁ f₂ : F} {elems elems' : List (Except E A)} {seen seen' : List E}
    (loop : OneByOne f elems seen f₁) (loop' : OneByOne f elems' seen' f₂)
    (same : elems = elems') : seen = seen' ∧ f₁ = f₂ := by
  induction loop generalizing elems' seen' f₂ with
  | nil =>
      cases loop' with
      | nil => exact ⟨rfl, rfl⟩
      | error _ => simp at same
      | item _ _ _ => simp at same
  | error _ ih =>
      cases loop' with
      | nil => simp at same
      | error before' =>
          obtain ⟨same, last⟩ := List.append_inj' same rfl
          obtain ⟨rfl, rfl⟩ := ih before' same
          cases last
          exact ⟨rfl, rfl⟩
      | item _ _ _ => cases (List.append_inj' same rfl).2
  | item _ called resolves ih =>
      cases loop' with
      | nil => simp at same
      | error _ => cases (List.append_inj' same rfl).2
      | item before' called' resolves' =>
          obtain ⟨same, last⟩ := List.append_inj' same rfl
          obtain ⟨rfl, rfl⟩ := ih before' same
          cases last
          rw [called] at called'
          cases called'
          obtain ⟨-, rfl⟩ := resolves.unique resolves'
          exact ⟨rfl, rfl⟩

/-- Where the futures resolve, the loop sees the errors of the elements and of their results. -/
theorem Spawns.oneByOne {f f' : F} {elems : List (Except E A)} {futs : List Fut}
    {results : Nat → List (Except E Unit)} (spawns : Spawns f elems futs f')
    (resolve : ∀ k fut, futs[k]? = some fut →
      ∃ n result, Resolves fut n result ∧ results k = [result]) :
    ∃ seen, OneByOne f elems seen f' ∧
      (errorsAmong elems ++ errorsAmong ((List.range futs.length).flatMap results)).Perm seen := by
  induction spawns with
  | nil => exact ⟨[], .nil, .nil⟩
  | @error f' elems futs error _ ih =>
      obtain ⟨seen, loop, perm⟩ := ih resolve
      refine ⟨_, loop.error, ?_⟩
      rw [errorsAmong_append, List.append_assoc]
      refine (List.perm_append_comm.append_left _).trans ?_
      rw [← List.append_assoc]
      exact perm.append_right [error]
  | @item f' f'' elems futs elem fut _ called ih =>
      obtain ⟨seen, loop, perm⟩ := ih fun k fut at_k => by
        refine resolve k fut ?_
        rw [List.getElem?_append_left (List.getElem?_eq_some_iff.mp at_k).1]
        exact at_k
      obtain ⟨n, result, resolves, last⟩ := resolve futs.length fut List.getElem?_concat_length
      refine ⟨_, loop.item called resolves, ?_⟩
      have item : errorsAmong [(.ok elem : Except E A)] = [] := rfl
      rw [errorsAmong_append, item, List.append_nil, List.length_append, List.length_singleton,
        List.range_succ, List.flatMap_append, List.flatMap_singleton, last, errorsAmong_append,
        ← List.append_assoc]
      exact perm.append_right (errorsAmong [result])

end Loop

/-! ## The errors of a run -/

section Errors

variable {A E Fut : Type}

/-- The loop of the adapter saw the errors of the elements and of the results, in some order. -/
theorem errors_perm (log : List (ForEachEvent A E Fut)) :
    (errors log).Perm
      (errorsAmong (elements (streamAnswers log)) ++ errorsAmong (yielded log)) := by
  induction log with
  | nil => exact .nil
  | cons event log ih =>
      rcases event with ((_ | (error | elem)) | _) | _ | ((_ | (error | _)) | _)
      · exact ih
      · exact ih.cons error
      · exact ih
      · exact ih
      · exact ih
      · exact ih
      · exact (ih.cons error).trans List.perm_middle.symm
      · exact ih
      · exact ih

end Errors

variable {St A E F Fut Q : Type} [TryStream St A E] [FnMut F A Fut]
  [Future Fut (Except E Unit)] [FuturesUnordered Q Fut (Except E Unit)]

/-! ## One pass -/

section Halves

variable {this mid : ForEachConcurrentThenTry St F Q E} {madeProgress : Bool}
  {log log' : List (ForEachEvent A E Fut)} {f : F}

/-- The first half keeps the futures those of the closure. -/
theorem StreamTurn.spawns (turn : StreamTurn this madeProgress log' mid)
    (spawns : Spawns f (elements (streamAnswers log)) (spawned log) this.f) :
    Spawns f (elements (streamAnswers (log ++ log'))) (spawned (log ++ log')) mid.f := by
  rw [streamAnswers_append, elements_append, spawned_append]
  cases turn with
  | skipped _ =>
      rw [show spawned ([] : List (ForEachEvent A E Fut)) = [] from rfl, List.append_nil]
      simpa [streamAnswers, elements] using spawns
  | item _ _ _ called => exact spawns.item called
  | error _ _ _ =>
      rw [recordError_f]
      simpa [streamAnswers, elements, spawned] using spawns.error
  | ended _ _ _ => simpa [streamAnswers, elements, spawned] using spawns
  | pending _ _ _ => simpa [streamAnswers, elements, spawned] using spawns

omit [TryStream St A E] [FnMut F A Fut] in
/-- The second half does not call the closure. -/
theorem FuturesTurn.same_f {pass : Pass (ForEachConcurrentThenTry St F Q E) (Poll (Except E Unit))}
    (turn : FuturesTurn madeProgress mid log pass) : pass.state.f = mid.f := by
  cases turn with
  | yielded _ => exact recordItem_f ..
  | finished _ _ => rfl
  | empty _ _ => rw [endOfPass_state]
  | pending _ => rw [endOfPass_state]

/-- One future at a time: the loop is between two elements, or it awaits the future of the last. -/
inductive Single (f : F) (this : ForEachConcurrentThenTry St F Q E)
    (log : List (ForEachEvent A E Fut)) : Prop
  | between :
      FuturesUnordered.len this.futures = 0 →
      OneByOne f (elements (streamAnswers log)) (errors log) this.f → Single f this log
  | awaiting {elems elem f' fut k} :
      FuturesUnordered.len this.futures = 1 →
      elements (streamAnswers log) = elems ++ [.ok elem] → OneByOne f elems (errors log) f' →
      FnMut.call f' elem = (fut, this.f) → (spawned log)[k]? = some fut →
      (∀ j ≠ k, FuturesUnordered.members this.futures j = none) → Single f this log

/-- With limit 1 the stream is polled with nothing in flight only. -/
theorem Single.stream (single : Single f this log) (kept : Kept this log)
    (one : this.limit = some ⟨1, Nat.one_pos⟩) (turn : StreamTurn this madeProgress log' mid) :
    Single f mid (log ++ log') := by
  have alone : this.belowLimit = true → FuturesUnordered.len this.futures = 0 ∧
      OneByOne f (elements (streamAnswers log)) (errors log) this.f := by
    intro below
    have less : FuturesUnordered.len this.futures < 1 := belowLimit_iff.mp below _ one
    cases single with
    | between empty loop => exact ⟨empty, loop⟩
    | awaiting full _ _ _ _ _ => omega
  cases turn with
  | skipped _ =>
      rw [List.append_nil]
      exact single
  | @item stream stream' elem fut f' below _ _ called =>
      obtain ⟨empty, loop⟩ := alone below
      have no_members := (FuturesUnordered.len_eq_zero _).mp empty
      have len : FuturesUnordered.len (FuturesUnordered.push this.futures fut) = 1 := by
        rw [FuturesUnordered.len_push, empty]
      have taken : elements (streamAnswers
          (log ++ [.tryPollNext (.ready (some (.ok elem))), .apply elem fut])) =
          elements (streamAnswers log) ++ [.ok elem] := by
        rw [streamAnswers_append, elements_append]
        rfl
      have no_error : errors (log ++ [.tryPollNext (.ready (some (.ok elem))), .apply elem fut]) =
          errors log := by
        rw [errors_append]
        exact List.append_nil _
      have last : (spawned (log ++ [.tryPollNext (.ready (some (.ok elem))), .apply elem fut]))[
          FuturesUnordered.pushed this.futures]? = some fut := by
        rw [spawned_append, ← kept.count]
        exact List.getElem?_concat_length
      refine .awaiting len taken (by rw [no_error]; exact loop) called last fun j ne => ?_
      rw [FuturesUnordered.members_push, Function.update_of_ne ne]
      exact no_members j
  | error below _ _ =>
      obtain ⟨empty, loop⟩ := alone below
      refine .between (by rw [recordError_futures, empty]) ?_
      rw [recordError_f, streamAnswers_append, elements_append, errors_append]
      exact loop.error
  | ended below _ _ =>
      obtain ⟨empty, loop⟩ := alone below
      refine .between empty ?_
      rw [streamAnswers_append, elements_append, errors_append]
      simpa [streamAnswers, elements, errors] using loop
  | pending below _ _ =>
      obtain ⟨empty, loop⟩ := alone below
      refine .between empty ?_
      rw [streamAnswers_append, elements_append, errors_append]
      simpa [streamAnswers, elements, errors] using loop

omit [TryStream St A E] in
/-- The set polls the one future there is, and when it completes the loop goes on. -/
theorem Single.futures {answer : Poll (Option (Except E Unit))}
    {this' : ForEachConcurrentThenTry St F Q E} (single : Single f this log) (kept : Kept this log)
    (polled : FuturesUnordered.pollNext this.futures = (answer, this'.futures))
    (same : this'.f = this.f) : Single f this' (log ++ [.pollNext answer]) := by
  have len := FuturesUnordered.len_pollNext polled
  have elems : elements (streamAnswers (log ++ [.pollNext answer])) =
      elements (streamAnswers log) := by
    rw [streamAnswers_append, streamAnswers_pollNext, List.append_nil]
  have spawned_eq : spawned (log ++ [.pollNext answer]) = spawned log := by
    rw [spawned_append]
    exact List.append_nil _
  cases single with
  | between empty loop =>
      rcases answer with (_ | result) | _
      · obtain ⟨-, empty', -⟩ := FuturesUnordered.pollNext_none polled
        refine .between empty' ?_
        rw [elems, errors_append, same]
        simpa [errors] using loop
      · rw [completions] at len
        omega
      · obtain ⟨-, -, -, -, -, pos⟩ := FuturesUnordered.pollNext_pending polled
        omega
  | @awaiting before elem f' fut k full taken loop called at_k others =>
      rcases answer with (_ | result) | _
      · obtain ⟨empty, -, -⟩ := FuturesUnordered.pollNext_none polled
        omega
      · obtain ⟨waits, j, -, -, serves, len⟩ := FuturesUnordered.pollNext_some polled
        have mem := mem_answersOf (List.mem_append_right waits (List.mem_singleton_self (j,
          Poll.ready result)))
        have the_one : j = k := by
          by_contra ne
          rw [(serves.absent (others j ne)).1] at mem
          cases mem
        subst the_one
        have progress := serves.progress (kept.progress at_k)
        obtain ⟨-, n, resolves⟩ := progress.resolves_of_mem (List.mem_append_right _ mem)
        refine .between (by omega) ?_
        have seen : errors (log ++ [.pollNext (.ready (some result))]) =
            errors log ++ errorsAmong [result] := by
          rw [errors_append]
          cases result <;> rfl
        rw [elems, taken, seen, same]
        exact loop.item called resolves
      · obtain ⟨waits, -, -, serves, len, -⟩ := FuturesUnordered.pollNext_pending polled
        have no_error : errors (log ++ [.pollNext .pending]) = errors log := by
          rw [errors_append]
          exact List.append_nil _
        refine .awaiting (by omega) (elems.trans taken) (by rw [no_error]; exact loop)
          (by rw [same]; exact called) (by rw [spawned_eq]; exact at_k) fun j ne => ?_
        exact (serves.absent (others j ne)).2

end Halves

/-! ## Runs -/

/-- What every pass keeps of a run with this closure and this argument for the limit. -/
structure Looped (limit : Option Nat) (f : F) (this : ForEachConcurrentThenTry St F Q E)
    (log : List (ForEachEvent A E Fut)) : Prop where
  kept : Kept this log
  spawns : Spawns f (elements (streamAnswers log)) (spawned log) this.f
  same_limit : this.limit = limit.bind NonZeroUsize.new
  single : limit = some 1 → Single f this log

/-- What the loop that takes one element after another has to do with a run of the adapter. -/
structure Stands (limit : Option Nat) (f : F) (log : List (ForEachEvent A E Fut)) (seen : List E) :
    Prop where
  loop : ∃ f', OneByOne f (elements (streamAnswers log)) seen f'
  spawns : ∃ f', Spawns f (elements (streamAnswers log)) (spawned log) f'
  perm : (errors log).Perm seen
  single : limit = some 1 → errors log = seen

section Looped

variable {limit : Option Nat} {f : F} {this this' : ForEachConcurrentThenTry St F Q E}
  {log log' : List (ForEachEvent A E Fut)}

omit [TryStream St A E] in
theorem Looped.new (stream : St) (limit : Option Nat) (f : F) :
    Looped limit f (new stream limit f : ForEachConcurrentThenTry St F Q E)
      ([] : List (ForEachEvent A E Fut)) where
  kept := .start stream limit f
  spawns := .nil
  same_limit := rfl
  single _ := .between FuturesUnordered.len_new .nil

/-- A pass, when `Kept` is known at its end. -/
theorem Looped.pass {pass : Pass (ForEachConcurrentThenTry St F Q E) (Poll (Except E Unit))}
    (looped : Looped limit f this log) (passed : this.iteration = .ok (log', pass)) :
    Spawns f (elements (streamAnswers (log ++ log'))) (spawned (log ++ log')) pass.state.f ∧
      pass.state.limit = limit.bind NonZeroUsize.new ∧
      (limit = some 1 → Single f pass.state (log ++ log')) := by
  obtain ⟨madeProgress, log₁, mid, log₂, stream, futures, rfl⟩ := iteration_cases passed
  obtain ⟨answer, polled, rfl, -, same_limit⟩ := futures.polled
  have same_f := futures.same_f
  rw [← List.append_assoc]
  refine ⟨?_, ?_, fun one => ?_⟩
  · have spawns := stream.spawns looped.spawns
    rw [streamAnswers_append, streamAnswers_pollNext, List.append_nil, same_f, spawned_append]
    simpa [spawned] using spawns
  · rw [same_limit, stream.limit, looped.same_limit]
  · have limit_one : this.limit = some ⟨1, Nat.one_pos⟩ := by
      rw [looped.same_limit, one]
      rfl
    exact ((looped.single one).stream looped.kept limit_one stream).futures
      (looped.kept.streamTurn stream) polled same_f

theorem Looped.again (looped : Looped limit f this log)
    (passed : this.iteration = .ok (log', .again this')) : Looped limit f this' (log ++ log') := by
  obtain ⟨spawns, same_limit, single⟩ := looped.pass passed
  exact ⟨looped.kept.again passed, spawns, same_limit, single⟩

theorem Looped.leavePending (looped : Looped limit f this log)
    (passed : this.iteration = .ok (log', .leave .pending this')) :
    Looped limit f this' (log ++ log') := by
  obtain ⟨spawns, same_limit, single⟩ := looped.pass passed
  exact ⟨looped.kept.leavePending passed, spawns, same_limit, single⟩

/-- The pass that returns `Ready`. -/
theorem Looped.ready {result : Except E Unit} (looped : Looped limit f this log)
    (passed : this.iteration = .ok (log', .leave (.ready result) this')) :
    ∃ seen, Stands limit f (log ++ log') seen ∧
      result = resultOf (errors (log ++ log')).head? := by
  have ran := looped.kept.leaveReady passed
  obtain ⟨spawns, -, single⟩ := looped.pass passed
  have resolve : ∀ k fut, (spawned (log ++ log'))[k]? = some fut →
      ∃ n result, Resolves fut n result ∧
        readies (answersOf k (FuturesUnordered.log this'.futures)) = [result] := by
    intro k fut at_k
    obtain ⟨n, result, resolves, answers⟩ := ran.completed k fut at_k
    rw [answers]
    exact ⟨n, result, resolves, readies_replicate n result⟩
  obtain ⟨seen, loop, perm⟩ := spawns.oneByOne resolve
  have known : ∀ p ∈ FuturesUnordered.log this'.futures, p.1 < (spawned (log ++ log')).length := by
    intro p mem
    by_contra beyond
    have silent := ran.no_others p.1 (Nat.le_of_not_lt beyond)
    have heard := mem_answersOf mem
    rw [silent] at heard
    cases heard
  have all : (errors (log ++ log')).Perm seen := by
    refine (errors_perm _).trans (.trans (List.Perm.append_left _ ?_) perm)
    rw [ran.seen]
    exact (outputs_perm known).filterMap _
  refine ⟨seen, ⟨⟨_, loop⟩, ⟨_, spawns⟩, all, fun one => ?_⟩, ran.result⟩
  cases single one with
  | between _ loop' => exact (loop'.unique loop rfl).1
  | awaiting full _ _ _ _ _ =>
      obtain ⟨_, _, _, _, _, polled, _, _, rfl, _⟩ := leave_ready_cases passed
      have empty := (FuturesUnordered.pollNext_none polled).2.1
      exact absurd (empty.symm.trans full) Nat.zero_ne_one

/-- **Run lemma.** Up to the first `Ready`. -/
theorem Looped.run {stream : St} {result : Except E Unit} {n : Nat}
    (run : FirstReady poll (ForEachConcurrentThenTry.new stream limit f) n log result this) :
    ∃ seen, Stands limit f log seen ∧ result = resultOf (errors log).head? :=
  FirstReady.rule (I := Looped limit f)
    (P := fun result log _ => ∃ seen, Stands limit f log seen ∧
      result = resultOf (errors log).head?)
    (.new stream limit f) Looped.again Looped.leavePending Looped.ready run

/-- The stream is polled up to its first `None`, and not beyond. -/
theorem streamAnswers_of_firstReady {stream : St} {result : Except E Unit} {n : Nat}
    (run : FirstReady poll (ForEachConcurrentThenTry.new stream limit f) n log result this) :
    ∃ before st, streamAnswers log = before ++ [.ready none] ∧ .ready none ∉ before ∧
      Plays stream (before ++ [.ready none]) st := by
  obtain ⟨polls, -, called⟩ := run
  obtain ⟨passes, steps⟩ := Steps.of_polls (polls.poll called)
  rw [List.flatMap_append, List.flatMap_singleton] at steps
  obtain ⟨st, plays, -⟩ := (Credit.steps steps).plays
  have inv := Inv.steps steps
  have ended := inv.ended.mp (inv.gone ⟨result, by simp⟩).1
  obtain ⟨answer, same⟩ : ∃ answer, streamAnswers _ = _ ++ [answer] :=
    ⟨_, (List.dropLast_append_getLast (List.ne_nil_of_mem ended)).symm⟩
  have last : answer = .ready none := by
    rw [same] at ended
    rcases List.mem_append.mp ended with before | last
    · exact (inv.last before).elim
    · exact (List.mem_singleton.mp last).symm
  subst last
  exact ⟨_, st, same, inv.last, same ▸ plays⟩

end Looped

/-! ## The loop and the limit -/

/-- What the adapter returns, over a stream and a closure, is what the loop finds. -/
structure RefinesLoop (stream : St) (limit : Option Nat) (f : F)
    (log : List (ForEachEvent A E Fut)) (result : Except E Unit) : Prop where
  /-- The stream was polled up to its first `None`, and not beyond. -/
  stream : ∃ before st, streamAnswers log = before ++ [.ready none] ∧ .ready none ∉ before ∧
    Plays stream (before ++ [.ready none]) st
  /-- Over its elements the loop sees some errors: the adapter returns `Ok` if there are none, one
  of them if there are any, and the first of them with one future at a time. -/
  loop : ∃ seen f', OneByOne f (elements (streamAnswers log)) seen f' ∧
    (result = .ok () ↔ seen = []) ∧ (∀ error, result = .error error → error ∈ seen) ∧
    (limit = some 1 → result = resultOf seen.head?)

omit [TryStream St A E] [FnMut F A Fut] [Future Fut (Except E Unit)] in
theorem resultOf_head_ok {seen : List E} : resultOf seen.head? = .ok () ↔ seen = [] := by
  cases seen with
  | nil => exact ⟨fun _ => rfl, fun _ => rfl⟩
  | cons error seen => exact ⟨nofun, nofun⟩

omit [TryStream St A E] [FnMut F A Fut] [Future Fut (Except E Unit)] in
theorem mem_of_resultOf_head {seen : List E} {error : E}
    (h : resultOf seen.head? = .error error) : error ∈ seen := by
  cases seen with
  | nil => cases h
  | cons first seen =>
      cases h
      exact List.mem_cons_self

/-- **Refinement.** Whatever the limit and the set of futures, the adapter fails if and only if the
loop that awaits one future after another does, with an error of that loop. -/
theorem forEach_refines_loop (stream : St) (limit : Option Nat) (f : F)
    {this : ForEachConcurrentThenTry St F Q E} {log : List (ForEachEvent A E Fut)}
    {result : Except E Unit} {n : Nat}
    (run : FirstReady poll (new stream limit f) n log result this) :
    RefinesLoop stream limit f log result := by
  obtain ⟨seen, ⟨⟨f', loop⟩, -, perm, single⟩, rfl⟩ := Looped.run run
  refine ⟨streamAnswers_of_firstReady run, seen, f', loop, ?_, ?_, ?_⟩
  · rw [resultOf_head_ok]
    constructor
    · intro none_seen
      rw [none_seen] at perm
      exact perm.nil_eq.symm
    · rintro rfl
      exact perm.eq_nil
  · intro error failed
    exact perm.mem_iff.mp (mem_of_resultOf_head failed)
  · intro one
    rw [single one]

/-- Two items. -/
def twoItems : Script (Option (Except Nat Nat)) :=
  ⟨[.ready (some (.ok 3)), .ready (some (.ok 1)), .ready none]⟩

/-- A future that fails, after as many polls as it is told. -/
def twoFailures (n : Nat) : Script (Except Nat Unit) :=
  ⟨List.replicate n .pending ++ [.ready (.error n)]⟩

theorem forEach_refines_loop_twoFailures :
    ∃ log : List (ForEachEvent Nat Nat (Script (Except Nat Unit))),
      RefinesLoop twoItems none twoFailures log (.error 1) := by
  have run : ∃ log this, FirstReady poll
      (new twoItems none twoFailures :
        ForEachConcurrentThenTry _ _ (WokenSet (Script (Except Nat Unit)) (Except Nat Unit)) Nat)
      0 log (.error 1) this :=
    ⟨_, _, .mk .start (by simp) (show poll 9 _ = _ from rfl)⟩
  obtain ⟨log, this, run⟩ := run
  exact ⟨log, forEach_refines_loop _ _ _ run⟩

/-- What two runs over the same stream have in common. -/
structure Agree (limit limit' : Option Nat) (log log' : List (ForEachEvent A E Fut))
    (result result' : Except E Unit) : Prop where
  /-- They get the same answers from the stream, -/
  stream : streamAnswers log = streamAnswers log'
  /-- have the same futures made, in the same order, -/
  spawned : spawned log = spawned log'
  /-- and fail together. -/
  fails : result = .ok () ↔ result' = .ok ()
  /-- One future at a time, they return the same error. -/
  single : limit = some 1 → limit' = some 1 → result = result'

omit [TryStream St A E] [FnMut F A Fut] [Future Fut (Except E Unit)] in
/-- Of two sequences that end at the first `a` in them neither is a proper prefix of the other. -/
theorem eq_of_prefix_of_first {α : Type} {a : α} {as bs : List α} (not_mem : a ∉ bs)
    (le : as ++ [a] <+: bs ++ [a]) : as = bs := by
  obtain ⟨rest, same⟩ := le
  rcases rest.eq_nil_or_concat with rfl | ⟨rest, last, rfl⟩
  · rw [List.append_nil] at same
    exact (List.append_inj' same rfl).1
  · rw [List.concat_eq_append, ← List.append_assoc] at same
    rw [← (List.append_inj' same rfl).1] at not_mem
    simp at not_mem

/-- **Schedules.** Two runs over the same stream and closure, with different limits and different
sets of futures, agree on whether there is an error. -/
theorem forEach_schedule {Q' : Type} [FuturesUnordered Q' Fut (Except E Unit)] (stream : St)
    (limit limit' : Option Nat) (f : F) {this : ForEachConcurrentThenTry St F Q E}
    {this' : ForEachConcurrentThenTry St F Q' E} {log log' : List (ForEachEvent A E Fut)}
    {result result' : Except E Unit} {n n' : Nat}
    (run : FirstReady poll (new stream limit f) n log result this)
    (run' : FirstReady poll (new stream limit' f) n' log' result' this') :
    Agree limit limit' log log' result result' := by
  obtain ⟨before, st, answers, not_before, plays⟩ := streamAnswers_of_firstReady run
  obtain ⟨before', st', answers', not_before', plays'⟩ := streamAnswers_of_firstReady run'
  have same : streamAnswers log = streamAnswers log' := by
    rw [answers, answers']
    rcases plays.prefix_or plays' with le | le
    · rw [eq_of_prefix_of_first not_before' le]
    · rw [eq_of_prefix_of_first not_before le]
  obtain ⟨seen, ⟨⟨_, loop⟩, ⟨_, spawns⟩, perm, single⟩, rfl⟩ := Looped.run run
  obtain ⟨seen', ⟨⟨_, loop'⟩, ⟨_, spawns'⟩, perm', single'⟩, rfl⟩ := Looped.run run'
  obtain ⟨rfl, -⟩ := loop.unique loop' (congrArg elements same)
  refine ⟨same, (spawns.unique spawns' (congrArg elements same)).1, ?_, ?_⟩
  · rw [resultOf_head_ok, resultOf_head_ok]
    have both := perm.trans perm'.symm
    constructor
    · intro none_seen
      rw [none_seen] at both
      exact both.nil_eq.symm
    · intro none_seen
      rw [none_seen] at both
      exact both.eq_nil
  · intro one one'
    rw [single one, single' one']

/-- One future at a time, and all of them at once: the error is another, and yet there is one. -/
theorem forEach_schedule_twoFailures :
    ∃ log log' : List (ForEachEvent Nat Nat (Script (Except Nat Unit))),
      Agree (some 1) none log log' (.error 3) (.error 1) := by
  have run : ∃ log this, FirstReady poll
      (new twoItems (some 1) twoFailures :
        ForEachConcurrentThenTry _ _ (WokenSet (Script (Except Nat Unit)) (Except Nat Unit)) Nat)
      2 log (.error 3) this :=
    ⟨_, _, .mk (.poll (.poll .start (show poll 9 _ = _ from rfl)) (show poll 9 _ = _ from rfl))
      (by simp) (show poll 9 _ = _ from rfl)⟩
  have run' : ∃ log this, FirstReady poll
      (new twoItems none twoFailures :
        ForEachConcurrentThenTry _ _ (WokenSet (Script (Except Nat Unit)) (Except Nat Unit)) Nat)
      0 log (.error 1) this :=
    ⟨_, _, .mk .start (by simp) (show poll 9 _ = _ from rfl)⟩
  obtain ⟨log, this, run⟩ := run
  obtain ⟨log', this', run'⟩ := run'
  exact ⟨log, log', forEach_schedule _ _ _ _ run run'⟩

end CancelSafeFutures.ForEachConcurrentThenTry
