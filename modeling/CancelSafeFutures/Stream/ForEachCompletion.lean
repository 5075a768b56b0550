import CancelSafeFutures.Async.Woken
import CancelSafeFutures.Stream.ForEachConcurrentThenTry

/-!
# `ForEachConcurrentThenTry` runs everything to completion

`Kept log this` is what every pass keeps: which items the closure was applied to, what became of
each future it returned, and which error is cached, all read off the record of the calls made so
far.  At the pass that returns `Ready` the set is empty and the stream has ended, and `Kept`
turns into `RanEverything`.
-/

namespace CancelSafeFutures.ForEachConcurrentThenTry

open Async

variable {St A E F Fut Q : Type} [Future Fut (Except E Unit)]
  [FuturesUnordered Q Fut (Except E Unit)]

/-! ## Reading the record -/

/-- The `Ok` items the stream yielded, in stream order. -/
def okItems (log : List (ForEachEvent A E Fut)) : List A :=
  log.filterMap fun event => match event with
    | .tryPollNext (.ready (some (.ok elem))) => some elem
    | _ => none

/-- The items the closure was applied to, in order. -/
def applied (log : List (ForEachEvent A E Fut)) : List A :=
  log.filterMap fun event => match event with
    | .apply elem _ => some elem
    | _ => none

/-- The futures the closure returned, in order. -/
def spawned (log : List (ForEachEvent A E Fut)) : List Fut :=
  log.filterMap fun event => match event with
    | .apply _ fut => some fut
    | _ => none

/-- What the set of futures yielded, in order. -/
def yielded (log : List (ForEachEvent A E Fut)) : List (Except E Unit) :=
  log.filterMap fun event => match event with
    | .pollNext (.ready (some item)) => some item
    | _ => none

/-- The errors of the stream and of the futures, in the order in which the loop saw them. -/
def errors (log : List (ForEachEvent A E Fut)) : List E :=
  log.filterMap fun event => match event with
    | .tryPollNext (.ready (some (.error error))) => some error
    | .pollNext (.ready (some (.error error))) => some error
    | _ => none

section Reading

omit [Future Fut (Except E Unit)]

variable {log log' : List (ForEachEvent A E Fut)}

@[simp] theorem okItems_append : okItems (log ++ log') = okItems log ++ okItems log' :=
  List.filterMap_append

@[simp] theorem applied_append : applied (log ++ log') = applied log ++ applied log' :=
  List.filterMap_append

@[simp] theorem spawned_append : spawned (log ++ log') = spawned log ++ spawned log' :=
  List.filterMap_append

@[simp] theorem yielded_append : yielded (log ++ log') = yielded log ++ yielded log' :=
  List.filterMap_append

@[simp] theorem errors_append : errors (log ++ log') = errors log ++ errors log' :=
  List.filterMap_append

end Reading

/-- What every pass keeps. -/
structure Kept (this : ForEachConcurrentThenTry St F Q E) (log : List (ForEachEvent A E Fut)) :
    Prop where
  items : applied log = okItems log
  count : (spawned log).length = FuturesUnordered.pushed this.futures
  progress : ∀ {k fut}, (spawned log)[k]? = some fut →
    Progress fut (answersOf k (FuturesUnordered.log this.futures))
      (FuturesUnordered.members this.futures k)
  fresh : ∀ {k}, FuturesUnordered.pushed this.futures ≤ k →
    FuturesUnordered.members this.futures k = none ∧
      answersOf k (FuturesUnordered.log this.futures) = []
  seen : yielded log = outputs (FuturesUnordered.log this.futures)
  cached : this.firstError = (errors log).head?
  ended : this.stream = none → .tryPollNext (.ready none) ∈ log

/-- What is true where the adapter returns `Ready(result)`, `log` being the record of the run. -/
structure RanEverything (this : ForEachConcurrentThenTry St F Q E)
    (log : List (ForEachEvent A E Fut)) (result : Except E Unit) : Prop where
  /-- The stream has returned `None`. -/
  ended : .tryPollNext (.ready none) ∈ log
  /-- The closure was applied to each `Ok` item once, in stream order. -/
  items : applied log = okItems log
  /-- Each future the closure returned was polled up to its completion and not beyond. -/
  completed : ∀ k fut, (spawned log)[k]? = some fut →
    RunToCompletion fut (answersOf k (FuturesUnordered.log this.futures))
  /-- Nothing else was polled. -/
  no_others : ∀ k, (spawned log).length ≤ k →
    answersOf k (FuturesUnordered.log this.futures) = []
  /-- The outputs of the futures are what the loop saw. -/
  seen : yielded log = outputs (FuturesUnordered.log this.futures)
  /-- The first error seen, from the stream or from a future, is returned. -/
  result : result = resultOf (errors log).head?

theorem Kept.start (stream : St) (limit : Option Nat) (f : F) :
    Kept (new stream limit f : ForEachConcurrentThenTry St F Q E)
      ([] : List (ForEachEvent A E Fut)) where
  items := rfl
  count := FuturesUnordered.pushed_new.symm
  progress h := by cases h
  fresh _ := ⟨FuturesUnordered.members_new _,
    congrArg (answersOf _) (FuturesUnordered.log_new (Q := Q))⟩
  seen := (congrArg outputs (FuturesUnordered.log_new (Q := Q))).symm
  cached := rfl
  ended h := by cases h

/-! ## One pass -/

/-- A new future joins the set. -/
theorem Kept.push {this : ForEachConcurrentThenTry St F Q E}
    {log : List (ForEachEvent A E Fut)} (kept : Kept this log) {stream' : St} {elem : A}
    {fut : Fut} {f : F} :
    Kept { this with
        stream := some stream', f := f, futures := FuturesUnordered.push this.futures fut }
      (log ++ [.tryPollNext (.ready (some (.ok elem))), .apply elem fut]) where
  items := by
    rw [applied_append, okItems_append, kept.items]
    rfl
  count := by
    rw [spawned_append, List.length_append, kept.count, FuturesUnordered.pushed_push]
    rfl
  progress := by
    intro k fut' at_k
    have spawned_eq : spawned (log ++ [.tryPollNext (.ready (some (.ok elem))), .apply elem fut]) =
        spawned log ++ [fut] := spawned_append
    rw [spawned_eq] at at_k
    rw [FuturesUnordered.log_push, FuturesUnordered.members_push]
    rcases Nat.lt_or_ge k (spawned log).length with earlier | later
    · rw [List.getElem?_append_left earlier] at at_k
      rw [Function.update_of_ne (by rw [← kept.count]; exact Nat.ne_of_lt earlier)]
      exact kept.progress at_k
    · have last : k = (spawned log).length := by
        have := (List.getElem?_eq_some_iff.mp at_k).1
        simp only [List.length_append, List.length_singleton] at this
        omega
      subst last
      rw [List.getElem?_concat_length] at at_k
      cases at_k
      rw [kept.count, Function.update_self, (kept.fresh (Nat.le_refl _)).2]
      exact Progress.start fut
  fresh := by
    intro k le
    rw [FuturesUnordered.pushed_push] at le
    rw [FuturesUnordered.log_push, FuturesUnordered.members_push,
      Function.update_of_ne (by omega)]
    exact kept.fresh (by omega)
  seen := by
    rw [yielded_append, FuturesUnordered.log_push, ← kept.seen]
    exact List.append_nil _
  cached := by
    rw [errors_append]
    exact kept.cached.trans (congrArg List.head? (List.append_nil _).symm)
  ended h := by cases h

/-- A pass over the stream that touches no future. -/
theorem Kept.quiet {this mid : ForEachConcurrentThenTry St F Q E}
    {log : List (ForEachEvent A E Fut)} {answer : Poll (Option (Except E A))}
    (kept : Kept this log) (futures : mid.futures = this.futures)
    (no_item : okItems ([.tryPollNext answer] : List (ForEachEvent A E Fut)) = [])
    (cached : mid.firstError =
      this.firstError.or (errors ([.tryPollNext answer] : List (ForEachEvent A E Fut))).head?)
    (ended : mid.stream = none → answer = .ready none) :
    Kept mid (log ++ [.tryPollNext answer]) where
  items := by
    rw [applied_append, okItems_append, no_item, kept.items]
    rfl
  count := by
    rw [spawned_append, futures, ← kept.count]
    exact congrArg List.length (List.append_nil _)
  progress := by
    intro k fut at_k
    rw [futures]
    rw [spawned_append] at at_k
    exact kept.progress ((List.append_nil (spawned log)) ▸ at_k)
  fresh := futures ▸ kept.fresh
  seen := by
    rw [yielded_append, futures, ← kept.seen]
    exact List.append_nil _
  cached := by rw [errors_append, List.head?_append, ← kept.cached, cached]
  ended gone := by simp [ended gone]

/-- The turn of the futures: the set served its members, and the loop saw what they put out. -/
theorem Kept.served {this this' : ForEachConcurrentThenTry St F Q E}
    {log : List (ForEachEvent A E Fut)} {answer : Poll (Option (Except E Unit))}
    {polls : PollLog (Except E Unit)} (kept : Kept this log)
    (stream : this'.stream = this.stream)
    (pushed : FuturesUnordered.pushed this'.futures = FuturesUnordered.pushed this.futures)
    (record : FuturesUnordered.log this'.futures = FuturesUnordered.log this.futures ++ polls)
    (serves : Serves (FuturesUnordered.members this.futures) polls
      (FuturesUnordered.members this'.futures))
    (seen : yielded ([.pollNext answer] : List (ForEachEvent A E Fut)) = outputs polls)
    (cached : this'.firstError =
      this.firstError.or (errors ([.pollNext answer] : List (ForEachEvent A E Fut))).head?) :
    Kept this' (log ++ [.pollNext answer]) where
  items := by
    rw [applied_append, okItems_append, kept.items]
    rfl
  count := by
    rw [spawned_append, pushed, ← kept.count]
    exact congrArg List.length (List.append_nil _)
  progress := by
    intro k fut at_k
    rw [record, answersOf_append]
    rw [spawned_append] at at_k
    exact serves.progress (kept.progress ((List.append_nil (spawned log)) ▸ at_k))
  fresh := by
    intro k le
    rw [pushed] at le
    obtain ⟨gone, silent⟩ := kept.fresh le
    obtain ⟨silent', gone'⟩ := serves.absent gone
    rw [record, answersOf_append, silent, silent']
    exact ⟨gone', rfl⟩
  seen := by rw [yielded_append, record, outputs_append, kept.seen, seen]
  cached := by rw [cached, errors_append, List.head?_append, kept.cached]
  ended h := List.mem_append_left _ (kept.ended (stream ▸ h))

/-- A completed future was yielded. -/
theorem Kept.pollSome {this : ForEachConcurrentThenTry St F Q E} {futures : Q}
    {log : List (ForEachEvent A E Fut)} {item : Except E Unit} (kept : Kept this log)
    (polled : FuturesUnordered.pollNext this.futures = (.ready (some item), futures)) :
    Kept (recordItem { this with futures := futures } item)
      (log ++ [.pollNext (.ready (some item))]) := by
  obtain ⟨waits, k, pending, record, serves, -⟩ := FuturesUnordered.pollNext_some polled
  have pushed := FuturesUnordered.pushed_pollNext this.futures
  rw [polled] at pushed
  refine kept.served (by simp) (by simpa using pushed) (by simpa using record)
    (by simpa using serves) ?_ ?_
  · rw [outputs_append, outputs_of_pending pending]
    rfl
  · cases item <;> simp [recordItem, errors]

/-- No future completed. -/
theorem Kept.pollPending {this : ForEachConcurrentThenTry St F Q E} {futures : Q}
    {log : List (ForEachEvent A E Fut)} (kept : Kept this log)
    (polled : FuturesUnordered.pollNext this.futures = (.pending, futures)) :
    Kept { this with futures := futures } (log ++ [.pollNext .pending]) := by
  obtain ⟨waits, pending, record, serves, -⟩ := FuturesUnordered.pollNext_pending polled
  have pushed := FuturesUnordered.pushed_pollNext this.futures
  rw [polled] at pushed
  refine kept.served rfl pushed record serves ?_ ?_
  · rw [outputs_of_pending pending]
    rfl
  · simp [errors]

/-- The set was empty, and still is. -/
theorem Kept.pollNone {this : ForEachConcurrentThenTry St F Q E} {futures : Q}
    {log : List (ForEachEvent A E Fut)} (kept : Kept this log)
    (polled : FuturesUnordered.pollNext this.futures = (.ready none, futures)) :
    Kept { this with futures := futures } (log ++ [.pollNext (.ready none)]) := by
  obtain ⟨empty, empty', record⟩ := FuturesUnordered.pollNext_none polled
  have pushed := FuturesUnordered.pushed_pollNext this.futures
  rw [polled] at pushed
  have members : FuturesUnordered.members futures = FuturesUnordered.members this.futures := by
    funext k
    rw [(FuturesUnordered.len_eq_zero _).mp empty, (FuturesUnordered.len_eq_zero _).mp empty']
  refine kept.served rfl pushed (record.trans (List.append_nil _).symm) ?_ rfl ?_
  · rw [members]
    exact .nil
  · simp [errors]

/-! ## Passes, calls and runs -/

variable [TryStream St A E] [FnMut F A Fut]

/-- The turn of the stream. -/
theorem Kept.streamTurn {this mid : ForEachConcurrentThenTry St F Q E} {madeProgress : Bool}
    {log log₁ : List (ForEachEvent A E Fut)} (kept : Kept this log)
    (turn : StreamTurn this madeProgress log₁ mid) : Kept mid (log ++ log₁) := by
  cases turn with
  | skipped _ => simpa using kept
  | item _ _ _ _ => exact kept.push
  | error _ _ _ => exact kept.quiet (by simp) rfl (by simp [errors]) (by simp)
  | ended _ _ _ => exact kept.quiet rfl rfl (by simp [errors]) fun _ => rfl
  | pending _ _ _ => exact kept.quiet rfl rfl (by simp [errors]) fun h => by cases h

theorem Kept.again {this this' : ForEachConcurrentThenTry St F Q E}
    {log l : List (ForEachEvent A E Fut)} (kept : Kept this log)
    (h : this.iteration = .ok (l, .again this')) : Kept this' (log ++ l) := by
  obtain ⟨madeProgress, log₁, mid, turn, rest⟩ := again_cases h
  have kept := kept.streamTurn turn
  rcases rest with ⟨item, futures, polled, rfl, rfl⟩ |
    ⟨answer, futures, polled, rfl | ⟨rfl, -⟩, -, rfl, rfl⟩
  · rw [← List.append_assoc]
    exact kept.pollSome polled
  · rw [← List.append_assoc]
    exact kept.pollPending polled
  · rw [← List.append_assoc]
    exact kept.pollNone polled

theorem Kept.leavePending {this this' : ForEachConcurrentThenTry St F Q E}
    {log l : List (ForEachEvent A E Fut)} (kept : Kept this log)
    (h : this.iteration = .ok (l, .leave .pending this')) : Kept this' (log ++ l) := by
  obtain ⟨log₁, mid, futures, turn, rfl, rest⟩ := leave_pending_cases h
  have kept := kept.streamTurn turn
  rcases rest with ⟨polled, rfl⟩ | ⟨polled, -, rfl⟩
  · rw [← List.append_assoc]
    exact kept.pollPending polled
  · rw [← List.append_assoc]
    exact kept.pollNone polled

/-- The pass that returns `Ready`. -/
theorem Kept.leaveReady {this this' : ForEachConcurrentThenTry St F Q E}
    {log l : List (ForEachEvent A E Fut)} {result : Except E Unit} (kept : Kept this log)
    (h : this.iteration = .ok (l, .leave (.ready result) this')) :
    RanEverything this' (log ++ l) result := by
  obtain ⟨madeProgress, log₁, mid, futures, turn, polled, gone, rfl, rfl, rfl⟩ :=
    leave_ready_cases h
  rw [← List.append_assoc]
  have kept := (kept.streamTurn turn).pollNone polled
  have empty := (FuturesUnordered.len_eq_zero _).mp (FuturesUnordered.pollNext_none polled).2.1
  refine ⟨kept.ended gone, kept.items, ?_, ?_, kept.seen, ?_⟩
  · intro k fut at_k
    have progress := kept.progress at_k
    rw [empty] at progress
    exact progress.completed_of_none
  · intro k le
    rw [kept.count] at le
    exact (kept.fresh le).2
  · rw [← kept.cached]

/-- What a call keeps when it returns `Pending`. -/
theorem Kept.poll {fuel : Nat} {this this' : ForEachConcurrentThenTry St F Q E}
    {log l : List (ForEachEvent A E Fut)} (kept : Kept this log)
    (h : this.poll fuel = .ok (.pending, l, this')) : Kept this' (log ++ l) := by
  have loops : Loops iteration this .pending l this' := Loops.of_loop h
  have left := loops.rule (I := Kept)
    (P := fun answer log this => answer = .pending → Kept this log)
    (fun kept again => kept.again again)
    (fun kept left answer => by
      subst answer
      exact kept.leavePending left)
    kept
  exact left rfl

/-- **Nothing is lost.** At the first poll that returns `Ready`, the stream has ended, the closure
was applied once to each of its items in order, each future was driven to its completion, and
the result is the first error seen. -/
theorem forEach_runs_everything (stream : St) (limit : Option Nat) (f : F)
    {this : ForEachConcurrentThenTry St F Q E} {log : List (ForEachEvent A E Fut)}
    {result : Except E Unit} {n : Nat}
    (run : FirstReady poll (new stream limit f) n log result this) :
    RanEverything this log result := by
  obtain ⟨polls, pending, last⟩ := run
  have kept := polls.rule (I := Kept) (A := (· = .pending)) (Kept.start stream limit f)
    (fun answer kept call => by
      subst answer
      exact kept.poll call)
    pending
  have loops : Loops iteration _ (.ready result) _ this := Loops.of_loop last
  have left := loops.rule (I := Kept)
    (P := fun answer log this => answer = .ready result → RanEverything this log result)
    (fun kept again => kept.again again)
    (fun kept left answer => by
      subst answer
      exact kept.leaveReady left)
    kept
  exact left rfl

/-- A stream that suspends and fails, and a future that fails after it. -/
theorem forEach_runs_everything_example :
    ∃ (this : ForEachConcurrentThenTry (Script (Option (Except Nat Nat)))
        (Nat → Script (Except Nat Unit))
        (WokenSet (Script (Except Nat Unit)) (Except Nat Unit)) Nat)
      (log : List (ForEachEvent Nat Nat (Script (Except Nat Unit)))),
      RanEverything this log (.error 9) :=
  ⟨_, _, forEach_runs_everything
    (⟨[.ready (some (.ok 1)), .pending, .ready (some (.error 9)), .ready none]⟩ :
      Script (Option (Except Nat Nat)))
    none (fun n => ⟨[.pending, .pending, .ready (.error n)]⟩)
    (.mk (.poll .start (show poll 2 _ = _ from rfl)) (by simp) (show poll 2 _ = _ from rfl))⟩

end CancelSafeFutures.ForEachConcurrentThenTry
