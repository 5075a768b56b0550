import CancelSafeFutures.Async.MaybeDone
import CancelSafeFutures.Async.Woken
import CancelSafeFutures.Stream.CollectThenTry
import Mathlib.Data.List.Forall2
import Mathlib.Data.List.Induction

/-!
# `JoinAllThenTry`

The model of `src/future/join_all_then_try.rs`.  Up to `SMALL` futures are kept in a slice of
`MaybeDone`s and all polled in every call; more go into a `FuturesOrdered` that is collected by
`CollectThenTry`.  Which of the two is used depends on what the iterator says about its length.
The record of a call is the polls of input futures made in it, by index.

* `Kept`: what is true between polls, whichever way is used.
* `JoinedAll`: what is true when the first `Ready` is returned.
* `poll_small`: one call on the slice.
* `Ordered`: what the loop over the ordered set keeps, and `Ordered.poll`, one call of it.
-/

namespace CancelSafeFutures

open Async

/-- `SMALL`. -/
def SMALL : Nat := 30

/-- `JoinAllKindThenTry`. -/
inductive JoinAllKindThenTry (F Q A E : Type) where
  | small (elems : List (MaybeDone F (Except E A)))
  | big (fut : CollectThenTry Q (List A) E)

/-- The future's field. -/
structure JoinAllThenTry (F Q A E : Type) where
  kind : JoinAllKindThenTry F Q A E

variable {F Q A E : Type} [Future F (Except E A)] [FuturesOrdered Q F (Except E A)]

/-- A `FuturesOrdered` is a stream of the outputs. -/
instance : TryStream Q A E := ⟨FuturesOrdered.pollNext⟩

/-- `collect::<FuturesOrdered<_>>()`. -/
def collectOrdered (futs : List F) : Q :=
  futs.foldl FuturesOrdered.pushBack FuturesOrdered.new

/-- `join_all_then_try`, where `sizeHint` is the upper bound in the iterator's `size_hint`. -/
def joinAllThenTry (sizeHint : Option Nat) (futs : List F) : JoinAllThenTry F Q A E :=
  match sizeHint with
  | some max =>
    if max ≤ SMALL then ⟨.small (futs.map MaybeDone.future)⟩
    else ⟨.big (CollectThenTry.new (collectOrdered futs))⟩
  | none => ⟨.big (CollectThenTry.new (collectOrdered futs))⟩

namespace JoinAllThenTry

/-- What the loop over the elements leaves. -/
structure Scanned (F Out : Type) where
  /-- `state` is `FinalState::Pending`. -/
  isPending : Bool
  polls : PollLog Out
  elems : List (MaybeDone F Out)

/-- The loop over the elements from index `i` on. -/
def pollElems {Out : Type} [MaybeDone.Impl] [Future F Out] :
    Nat → List (MaybeDone F Out) → Run (Scanned F Out)
  | _, [] => .ok ⟨false, [], []⟩
  | i, elem :: rest => do
    let polled ← elem.poll
    let scanned ← pollElems (i + 1) rest
    .ok ⟨polled.answer.isPending || scanned.isPending,
      polled.inner.toList.map (fun answer => (i, answer)) ++ scanned.polls,
      polled.this :: scanned.elems⟩

/-- `iter_pin_mut(elems).map(|e| e.take_output().unwrap()).collect()`, which stops at the first
error. -/
def takeResults [MaybeDone.Impl] : List (MaybeDone F (Except E A)) → Run (Except E (List A))
  | [] => .ok (.ok [])
  | elem :: rest => do
    let output ← unwrap elem.takeOutput.1
    match output with
    | .error error => .ok (.error error)
    | .ok value =>
      let results ← takeResults rest
      match results with
      | .ok values => .ok (.ok (value :: values))
      | .error error => .ok (.error error)

/-- The polls of members made between two states of a set. -/
def newPolls (q q' : Q) : PollLog (Except E A) :=
  (FuturesOrdered.log q').drop (FuturesOrdered.log q).length

/-- `Future::poll`. -/
def poll [MaybeDone.Impl] (fuel : Nat) (this : JoinAllThenTry F Q A E) :
    Run (Poll (Except E (List A)) × PollLog (Except E A) × JoinAllThenTry F Q A E) :=
  match this.kind with
  | .small elems => do
    let scanned ← pollElems 0 elems
    if scanned.isPending then .ok (.pending, scanned.polls, ⟨.small scanned.elems⟩)
    else
      -- `mem::replace(elems, Box::pin([]))`
      let results ← takeResults scanned.elems
      .ok (.ready results, scanned.polls, ⟨.small []⟩)
  | .big fut => do
    let (answer, _, fut') ← fut.poll fuel
    .ok (answer, newPolls fut.stream fut'.stream, ⟨.big fut'⟩)

/-- The input future number `k`, if it is still held. -/
def held (this : JoinAllThenTry F Q A E) (k : Nat) : Option F :=
  match this.kind with
  | .small elems => elems[k]?.bind MaybeDone.held
  | .big fut => FuturesOrdered.members fut.stream k

/-- Between polls each input future is held after as many `Pending` answers as were recorded, or
it was polled to its completion, and nothing else was polled. -/
structure Kept (futs : List F) (log : PollLog (Except E A)) (this : JoinAllThenTry F Q A E) :
    Prop where
  progress : ∀ {k fut}, futs[k]? = some fut → Progress fut (answersOf k log) (this.held k)
  no_others : ∀ {k}, futs.length ≤ k → answersOf k log = []

/-- What is true where the first `Ready(result)` is returned. -/
structure JoinedAll (futs : List F) (log : PollLog (Except E A)) (result : Except E (List A)) :
    Prop where
  /-- All successes in input order, or else the error of the first input that failed. -/
  result : ∃ outs, List.Forall₂ Outcome futs outs ∧ result = collectResults outs
  completed : ∀ {k fut}, futs[k]? = some fut → RunToCompletion fut (answersOf k log)
  no_others : ∀ {k}, futs.length ≤ k → answersOf k log = []

/-! ## The slice -/

section Small

variable {Out : Type} [Future F Out]

/-- The slice after `n` calls. -/
def elemsAfter (futs : List F) (n : Nat) : List (MaybeDone F Out) :=
  futs.map fun fut => MaybeDone.afterPolls fut n

/-- The polls of the futures from index `i` on in call number `n`. -/
def pollsIn (n : Nat) : Nat → List F → PollLog Out
  | _, [] => []
  | i, fut :: rest =>
    (MaybeDone.innerAnswer fut n).toList.map (fun answer => (i, answer)) ++
      pollsIn n (i + 1) rest

theorem pollElems_elemsAfter [MaybeDone.Impl] (i n : Nat) (futs : List F) :
    pollElems i (elemsAfter futs n) = .ok
      ⟨!(elemsAfter futs (n + 1)).all MaybeDone.isDone, pollsIn n i futs,
        elemsAfter futs (n + 1)⟩ := by
  induction futs generalizing i with
  | nil => rfl
  | cons fut rest ih =>
      have first := MaybeDone.poll_afterPolls fut n
      have rest_eq := ih (i + 1)
      simp only [elemsAfter, List.map_cons, pollElems] at rest_eq ⊢
      rw [first, rest_eq]
      simp only [List.all_cons, Bool.not_and, pollsIn]
      cases (MaybeDone.afterPolls fut (n + 1)).isDone <;> rfl

/-- Other indices are not polled. -/
theorem answersOf_pollsIn_of_lt {n i k : Nat} {futs : List F} (lt : k < i) :
    answersOf k (pollsIn n i futs) = [] := by
  induction futs generalizing i with
  | nil => rfl
  | cons fut rest ih =>
      rw [pollsIn, answersOf_append, ih (Nat.lt_succ_of_lt lt), List.append_nil]
      cases MaybeDone.innerAnswer fut n with
      | none => rfl
      | some answer => exact answersOf_cons_ne (Nat.ne_of_gt lt)

/-- Future number `k` is polled once if it is still unfinished, and not otherwise. -/
theorem answersOf_pollsIn (n i k : Nat) (futs : List F) :
    answersOf (i + k) (pollsIn n i futs) =
      (futs[k]?.bind fun fut => MaybeDone.innerAnswer fut n).toList := by
  induction futs generalizing i k with
  | nil => rfl
  | cons fut rest ih =>
      rw [pollsIn, answersOf_append]
      cases k with
      | zero =>
          rw [Nat.add_zero, answersOf_pollsIn_of_lt (Nat.lt_succ_self i), List.append_nil]
          cases h : MaybeDone.innerAnswer fut n with
          | none => simp [h]
          | some answer => simp [h]
      | succ k =>
          have later : i + (k + 1) = i + 1 + k := by omega
          rw [later, ih]
          cases MaybeDone.innerAnswer fut n with
          | none => rfl
          | some answer =>
              rw [Option.toList_some, List.map_singleton,
                answersOf_cons_ne (Nat.ne_of_lt (by omega))]
              rfl

end Small

/-- All elements are done exactly when all futures have resolved. -/
theorem forall₂_of_all_isDone {futs : List F} {n : Nat}
    (finished : (elemsAfter futs n).all MaybeDone.isDone = true) :
    ∃ outs, List.Forall₂ Outcome futs outs ∧ elemsAfter futs n = outs.map MaybeDone.done ∧
      ∀ fut ∈ futs, RunToCompletion fut (MaybeDone.innerAnswers fut n) := by
  induction futs with
  | nil => exact ⟨[], .nil, rfl, fun _ mem => by cases mem⟩
  | cons fut rest ih =>
      simp only [elemsAfter, List.map_cons, List.all_cons, Bool.and_eq_true] at finished
      obtain ⟨m, out, lt, resolves⟩ := MaybeDone.isDone_afterPolls.mp finished.1
      obtain ⟨outs, outcomes, elems, completed⟩ := ih finished.2
      refine ⟨out :: outs, .cons ⟨m, resolves⟩ outcomes, ?_, ?_⟩
      · rw [elemsAfter, List.map_cons, MaybeDone.afterPolls_of_resolves resolves lt, ← elemsAfter,
          elems, List.map_cons]
      · intro fut' mem
        rcases List.mem_cons.mp mem with rfl | mem
        · exact ⟨m, out, resolves, MaybeDone.innerAnswers_of_resolves resolves lt⟩
        · exact completed fut' mem

omit [Future F (Except E A)] in
/-- Taking the outputs never finds one missing. -/
theorem takeResults_done [MaybeDone.Impl] (outs : List (Except E A)) :
    takeResults (outs.map (MaybeDone.done (F := F))) = .ok (collectResults outs) := by
  induction outs with
  | nil => rfl
  | cons out rest ih =>
      cases out with
      | error error =>
          simp only [List.map_cons, takeResults, MaybeDone.takeOutput_done, unwrap, expect_some,
            run_bind_ok, collectResults]
      | ok value =>
          simp only [List.map_cons, takeResults, MaybeDone.takeOutput_done, unwrap, expect_some,
            run_bind_ok, ih, collectResults]
          cases collectResults rest <;> rfl

/-- A call on the slice after `n` calls: `Pending` while some future is unfinished, and the
collected results once none is. -/
theorem poll_small [MaybeDone.Impl] (fuel : Nat) (futs : List F) (n : Nat) :
    ((elemsAfter futs (n + 1)).all MaybeDone.isDone = false ∧
      poll fuel (⟨.small (elemsAfter futs n)⟩ : JoinAllThenTry F Q A E) =
        .ok (.pending, pollsIn n 0 futs, ⟨.small (elemsAfter futs (n + 1))⟩)) ∨
    ∃ outs, (elemsAfter futs (n + 1)).all MaybeDone.isDone = true ∧
      List.Forall₂ Outcome futs outs ∧
      (∀ fut ∈ futs, RunToCompletion fut (MaybeDone.innerAnswers fut (n + 1))) ∧
      poll fuel (⟨.small (elemsAfter futs n)⟩ : JoinAllThenTry F Q A E) =
        .ok (.ready (collectResults outs), pollsIn n 0 futs, ⟨.small []⟩) := by
  have scanned := pollElems_elemsAfter 0 n futs
  cases finished : (elemsAfter futs (n + 1)).all MaybeDone.isDone with
  | false =>
      refine .inl ⟨rfl, ?_⟩
      simp only [poll, scanned, finished, run_bind_ok, Bool.not_false, if_true]
  | true =>
      obtain ⟨outs, outcomes, elems, completed⟩ := forall₂_of_all_isDone finished
      refine .inr ⟨outs, rfl, outcomes, completed, ?_⟩
      simp only [poll, scanned, finished, run_bind_ok, Bool.not_true, Bool.false_eq_true, if_false]
      rw [elems, takeResults_done, run_bind_ok]

/-- A call of the big kind is a call of the collecting loop. -/
theorem poll_big [MaybeDone.Impl] {fuel : Nat} {fut : CollectThenTry Q (List A) E}
    {answer : Poll (Except E (List A))} {log : PollLog (Except E A)}
    {this' : JoinAllThenTry F Q A E}
    (h : poll fuel (⟨.big fut⟩ : JoinAllThenTry F Q A E) = .ok (answer, log, this')) :
    ∃ answers fut', fut.poll fuel = .ok (answer, answers, fut') ∧
      log = newPolls fut.stream fut'.stream ∧ this' = ⟨.big fut'⟩ := by
  simp only [poll] at h
  cases called : fut.poll fuel with
  | error halt =>
      rw [called] at h
      cases h
  | ok r =>
      obtain ⟨answer', answers, fut'⟩ := r
      rw [called, run_bind_ok] at h
      cases h
      exact ⟨answers, fut', rfl, rfl, rfl⟩

theorem poll_deterministic [MaybeDone.Impl] :
    Deterministic (poll (F := F) (Q := Q) (A := A) (E := E)) := by
  intro fuel fuel' this r r' h h'
  obtain ⟨kind⟩ := this
  cases kind with
  | small elems => exact Except.ok.inj (h.symm.trans h')
  | big fut =>
      obtain ⟨answer, log, left⟩ := r
      obtain ⟨answer', log', left'⟩ := r'
      obtain ⟨answers, fut₁, called, rfl, rfl⟩ := poll_big h
      obtain ⟨answers', fut₂, called', rfl, rfl⟩ := poll_big h'
      cases loop_unique called called'
      rfl

/-! ## The ordered set -/

/-- The set right after it was collected. -/
theorem collectOrdered_spec (futs : List F) :
    FuturesOrdered.pushed (collectOrdered futs : Q) = futs.length ∧
      FuturesOrdered.yielded (collectOrdered futs : Q) = 0 ∧
      FuturesOrdered.log (collectOrdered futs : Q) = [] ∧
      ∀ k, FuturesOrdered.members (collectOrdered futs : Q) k = futs[k]? := by
  induction futs using List.reverseRecOn with
  | nil =>
      exact ⟨FuturesOrdered.pushed_new, FuturesOrdered.yielded_new, FuturesOrdered.log_new,
        FuturesOrdered.members_new⟩
  | append_singleton futs fut ih =>
      obtain ⟨pushed, yielded, log, members⟩ := ih
      have last : (collectOrdered (futs ++ [fut]) : Q) =
          FuturesOrdered.pushBack (collectOrdered futs) fut := by
        rw [collectOrdered, List.foldl_append]
        rfl
      rw [last, FuturesOrdered.pushed_pushBack, FuturesOrdered.yielded_pushBack,
        FuturesOrdered.log_pushBack, FuturesOrdered.members_pushBack, pushed]
      refine ⟨by rw [List.length_append, List.length_singleton], yielded, log, fun k => ?_⟩
      rcases Nat.lt_trichotomy k futs.length with lt | rfl | gt
      · rw [Function.update_of_ne (Nat.ne_of_lt lt), List.getElem?_append_left lt, members]
      · rw [Function.update_self, List.getElem?_concat_length]
      · rw [Function.update_of_ne (Nat.ne_of_gt gt), members,
          List.getElem?_eq_none (Nat.le_of_lt gt), List.getElem?_eq_none]
        rw [List.length_append, List.length_singleton]
        exact gt

/-- What every pass of the collecting loop keeps: `results` are the outputs handed out so far. -/
structure Ordered (futs : List F) (fut : CollectThenTry Q (List A) E)
    (results : List (Except E A)) : Prop where
  pushed : FuturesOrdered.pushed fut.stream = futs.length
  yielded : FuturesOrdered.yielded fut.stream = results.length
  progress : ∀ {k input}, futs[k]? = some input →
    Progress input (answersOf k (FuturesOrdered.log fut.stream))
      (FuturesOrdered.members fut.stream k)
  fresh : ∀ {k}, futs.length ≤ k → FuturesOrdered.members fut.stream k = none ∧
    answersOf k (FuturesOrdered.log fut.stream) = []
  outputs : ∀ {k out}, results[k]? = some out →
    (k, .ready out) ∈ FuturesOrdered.log fut.stream
  absorbed : CollectThenTry.Absorbed fut results

theorem Ordered.start (futs : List F) :
    Ordered futs (CollectThenTry.new (collectOrdered futs : Q) : CollectThenTry Q (List A) E)
      [] := by
  obtain ⟨pushed, yielded, log, members⟩ := collectOrdered_spec (Q := Q) futs
  refine ⟨pushed, yielded, ?_, ?_, ?_, CollectThenTry.Absorbed.start _⟩
  · intro k input at_k
    simp only [CollectThenTry.new, log, members, at_k]
    exact Progress.start input
  · intro k le
    simp only [CollectThenTry.new, log, members, List.getElem?_eq_none le]
    exact ⟨trivial, rfl⟩
  · intro k out at_k
    cases at_k

/-- One poll of the set, whatever it answers. -/
theorem Ordered.polled {futs : List F} {fut fut' : CollectThenTry Q (List A) E}
    {results results' : List (Except E A)} {answer : Poll (Option (Except E A))} {q : Q}
    (ordered : Ordered futs fut results) (polled : FuturesOrdered.pollNext fut.stream = (answer, q))
    (stream : fut'.stream = q) (yielded : FuturesOrdered.yielded q = results'.length)
    (outputs : ∀ {k out}, results'[k]? = some out →
      results[k]? = some out ∨ (k, .ready out) ∈ FuturesOrdered.log q)
    (absorbed : CollectThenTry.Absorbed fut' results') : Ordered futs fut' results' := by
  have pushed := FuturesOrdered.pushed_pollNext fut.stream
  obtain ⟨polls, record, serves⟩ := FuturesOrdered.log_pollNext fut.stream
  simp only [polled] at pushed record serves
  subst stream
  refine ⟨pushed.trans ordered.pushed, yielded, ?_, ?_, ?_, absorbed⟩
  · intro k input at_k
    rw [record, answersOf_append]
    exact serves.progress (ordered.progress at_k)
  · intro k le
    obtain ⟨gone, silent⟩ := ordered.fresh le
    obtain ⟨silent', gone'⟩ := serves.absent gone
    rw [record, answersOf_append, silent, silent']
    exact ⟨gone', rfl⟩
  · intro k out at_k
    rcases outputs at_k with before | now
    · rw [record]
      exact List.mem_append_left _ (ordered.outputs before)
    · exact now

theorem Ordered.again {futs : List F} {fut fut' : CollectThenTry Q (List A) E}
    {results : List (Except E A)} {log : List (Poll (Option (Except E A)))}
    (ordered : Ordered futs fut results) (h : fut.iteration = .ok (log, .again fut')) :
    Ordered futs fut' (results ++ CollectThenTry.yielded log) := by
  obtain ⟨result, q, polled, rfl, rfl⟩ := CollectThenTry.again_cases h
  obtain ⟨output, yielded, -⟩ := FuturesOrdered.pollNext_some polled
  have one : CollectThenTry.yielded [.ready (some result)] = [result] := rfl
  rw [one]
  refine ordered.polled polled (CollectThenTry.absorb_stream ..) ?_ ?_
    (ordered.absorbed.absorb q result)
  · rw [yielded, ordered.yielded, List.length_append, List.length_singleton]
  · intro k out at_k
    rcases Nat.lt_or_ge k results.length with earlier | later
    · rw [List.getElem?_append_left earlier] at at_k
      exact .inl at_k
    · have last : k = results.length := by
        have bound := (List.getElem?_eq_some_iff.mp at_k).1
        rw [List.length_append, List.length_singleton] at bound
        omega
      subst last
      rw [List.getElem?_concat_length] at at_k
      cases at_k
      rw [ordered.yielded] at output
      exact .inr output

theorem Ordered.leavePending {futs : List F} {fut fut' : CollectThenTry Q (List A) E}
    {results : List (Except E A)} {log : List (Poll (Option (Except E A)))}
    (ordered : Ordered futs fut results)
    (h : fut.iteration = .ok (log, .leave .pending fut')) :
    Ordered futs fut' (results ++ CollectThenTry.yielded log) := by
  obtain ⟨q, polled, rfl, rfl⟩ := CollectThenTry.leave_pending_cases h
  have yielded := (FuturesOrdered.pollNext_pending polled).2
  have none_yielded : results ++ CollectThenTry.yielded [.pending] = results :=
    List.append_nil results
  rw [none_yielded]
  exact ordered.polled polled rfl (yielded.trans ordered.yielded) (fun at_k => .inl at_k)
    ⟨ordered.absorbed.items, ordered.absorbed.error⟩

/-- Once all outputs were handed out, every future was driven to its completion. -/
theorem Ordered.joined {futs : List F} {fut : CollectThenTry Q (List A) E}
    {results : List (Except E A)} (ordered : Ordered futs fut results)
    (all : results.length = futs.length) :
    JoinedAll futs (FuturesOrdered.log fut.stream) (collectResults results) := by
  have finished : ∀ {k input out}, futs[k]? = some input → results[k]? = some out →
      RunToCompletion input (answersOf k (FuturesOrdered.log fut.stream)) ∧ Outcome input out :=
    fun at_k out_k =>
      (ordered.progress at_k).resolves_of_mem (mem_answersOf (ordered.outputs out_k))
  refine ⟨⟨results, ?_, rfl⟩, ?_, fun le => (ordered.fresh le).2⟩
  · refine List.forall₂_of_length_eq_of_get all.symm fun k lt lt' => ?_
    exact (finished (List.getElem?_eq_getElem lt) (List.getElem?_eq_getElem lt')).2
  · intro k input at_k
    have lt : k < results.length := all ▸ (List.getElem?_eq_some_iff.mp at_k).1
    exact (finished at_k (List.getElem?_eq_getElem lt)).1

/-! ## Calls of the collecting loop -/

/-- The value of the collecting loop over a list is the collected result. -/
theorem collected_eq (results : List (Except E A)) :
    CollectThenTry.collected (C := List A) results = collectResults results := by
  have all : ∀ items more : List A, CollectThenTry.extendAll items more = items ++ more := by
    intro items more
    induction more generalizing items with
    | nil => exact (List.append_nil items).symm
    | cons x more ih => exact (ih (items ++ [x])).trans (List.append_assoc ..)
  rw [collectResults_eq, CollectThenTry.collected, all]
  rfl

/-- The set only adds to its record. -/
theorem log_grows {q q' : Q} {answer : Poll (Option (Except E A))}
    (polled : FuturesOrdered.pollNext q = (answer, q')) :
    FuturesOrdered.log q <+: FuturesOrdered.log q' := by
  obtain ⟨polls, record, -⟩ := FuturesOrdered.log_pollNext q
  rw [polled] at record
  exact ⟨polls, record.symm⟩

/-- The pass that returns `Ready`: every output was handed out. -/
theorem Ordered.leaveReady {futs : List F} {fut fut' : CollectThenTry Q (List A) E}
    {results : List (Except E A)} {log : List (Poll (Option (Except E A)))}
    {value : Except E (List A)} (ordered : Ordered futs fut results)
    (h : fut.iteration = .ok (log, .leave (.ready value) fut')) :
    FuturesOrdered.log fut.stream <+: FuturesOrdered.log fut'.stream ∧
      JoinedAll futs (FuturesOrdered.log fut'.stream) value := by
  obtain ⟨q, polled, -, finish⟩ := CollectThenTry.leave_ready_cases h
  obtain ⟨all, yielded⟩ := FuturesOrdered.pollNext_none polled
  obtain ⟨left, finish', stream⟩ := ordered.absorbed.finish q
  cases finish.symm.trans finish'
  have still : Ordered futs { fut with stream := q } results :=
    ordered.polled polled rfl (yielded.trans ordered.yielded) (fun at_k => .inl at_k)
      ⟨ordered.absorbed.items, ordered.absorbed.error⟩
  have joined := still.joined (ordered.yielded.symm.trans (all.trans ordered.pushed))
  rw [stream, collected_eq]
  exact ⟨log_grows polled, joined⟩

/-- A call of the collecting loop. -/
theorem Ordered.poll {futs : List F} {fut fut' : CollectThenTry Q (List A) E}
    {results : List (Except E A)} {fuel : Nat} {answer : Poll (Except E (List A))}
    {log : List (Poll (Option (Except E A)))} (ordered : Ordered futs fut results)
    (h : fut.poll fuel = .ok (answer, log, fut')) :
    FuturesOrdered.log fut.stream <+: FuturesOrdered.log fut'.stream ∧
      (answer = .pending → ∃ results', Ordered futs fut' results') ∧
      ∀ value, answer = .ready value → JoinedAll futs (FuturesOrdered.log fut'.stream) value := by
  have loops : Loops CollectThenTry.iteration fut answer log fut' := Loops.of_loop h
  refine loops.rule_state
    (I := fun now => FuturesOrdered.log fut.stream <+: FuturesOrdered.log now.stream ∧
      ∃ results, Ordered futs now results)
    (P := fun answer left => FuturesOrdered.log fut.stream <+: FuturesOrdered.log left.stream ∧
      (answer = .pending → ∃ results', Ordered futs left results') ∧
      ∀ value, answer = .ready value → JoinedAll futs (FuturesOrdered.log left.stream) value)
    ?again ?leave ⟨List.prefix_rfl, results, ordered⟩
  case again =>
    intro now log next inv again
    obtain ⟨longer, results, ordered⟩ := inv
    obtain ⟨result, q, polled, -, same⟩ := CollectThenTry.again_cases again
    refine ⟨longer.trans ?_, _, ordered.again again⟩
    rw [same, CollectThenTry.absorb_stream]
    exact log_grows polled
  case leave =>
    intro now log b left inv leave
    obtain ⟨longer, results, ordered⟩ := inv
    cases b with
    | pending =>
        obtain ⟨q, polled, -, same⟩ := CollectThenTry.leave_pending_cases leave
        refine ⟨longer.trans ?_, fun _ => ⟨_, ordered.leavePending leave⟩, fun _ h => by cases h⟩
        rw [same]
        exact log_grows polled
    | ready value =>
        obtain ⟨stream, joined⟩ := ordered.leaveReady leave
        exact ⟨longer.trans stream, fun h => by (cases h), fun value' same => by
          cases same
          exact joined⟩

end JoinAllThenTry

end CancelSafeFutures
