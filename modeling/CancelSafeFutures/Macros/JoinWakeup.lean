import CancelSafeFutures.Async.Executor
import CancelSafeFutures.Future.JoinAllRuns
import CancelSafeFutures.Macros.JoinAgreement

/-!
# Wakeups of the joins

`join_then_try!` and the slice of `join_all_then_try` poll all their futures in every call, with
the one waker there is.  So a call that answers `Pending` leaves the waker with every future that
is unfinished, and an executor that polls only what was woken takes the join to the result of
polling it again and again (`joins_driven`).
-/

namespace CancelSafeFutures

open Async

namespace JoinThenTry

variable {N : Nat} {F A : Fin N → Type} {E : Type} [∀ i, Future (F i) (Except E (A i))]

/-- A poll of a branch as a poll of a source. -/
def branchPoll (visit : Visit A E) : Option (Fin N × Bool) :=
  visit.2.map fun answer => (visit.1, answer.isPending)

/-- Branch `i` is unfinished. -/
def waitsFor (this : JoinThenTry F A E) (i : Fin N) : Prop := (this.futures i).held.isSome = true

omit [∀ i, Future (F i) (Except E (A i))] in
theorem lastAnswer_eq (i : Fin N) (log : List (Visit A E)) :
    lastAnswer branchPoll i log = ((answersIn i log).map Poll.isPending).getLast? := by
  unfold lastAnswer
  congr 1
  induction log with
  | nil => rfl
  | cons visit log ih =>
      obtain ⟨j, answer⟩ := visit
      unfold answersIn at ih ⊢
      rw [List.flatMap_cons, List.map_append, ← ih, List.filterMap_cons]
      by_cases same : j = i
      · subst same
        cases answer <;> simp [answerOf, branchPoll]
      · cases answer <;> simp [answerOf, branchPoll, same]

/-- An unfinished branch was polled. -/
theorem lastAnswer_visits (futs : (i : Fin N) → F i) (k : Nat) {i : Fin N}
    (unfinished : (MaybeDone.afterPolls (futs i) (k + 1) :
      MaybeDone (F i) (Except E (A i))).isDone = false) :
    lastAnswer branchPoll i (visits (A := A) (E := E) futs k) = some true := by
  rw [lastAnswer_eq, answersIn_visits, MaybeDone.innerAnswer_of_unfinished unfinished]
  rfl

theorem wakeful [MaybeDone.Impl] (pos : 0 < N) (futs : (i : Fin N) → F i) :
    Wakeful poll branchPoll waitsFor (new futs : JoinThenTry F A E) where
  arms := by
    intro calls this fuel log this' run pending called
    obtain rfl := state_of_polls pos run pending
    rcases poll_stateAfter (A := A) (E := E) futs calls.length pos (Nat.le_refl 2) with
      ⟨⟨i, waiting⟩, called'⟩ | ⟨outs, left, -, called'⟩
    · cases poll_deterministic _ _ _ _ _ called called'
      refine ⟨fun j waits => lastAnswer_visits futs _ (MaybeDone.isDone_of_held waits), i, ?_⟩
      rw [unfinished, Bool.not_eq_true'] at waiting
      exact lastAnswer_visits futs _ waiting
    · cases poll_deterministic _ _ _ _ _ called called'

end JoinThenTry

namespace JoinAllThenTry

variable {F Q A E : Type} [Future F (Except E A)] [FuturesOrdered Q F (Except E A)]

/-- A poll of an input future as a poll of a source. -/
def memberPoll (p : Nat × Poll (Except E A)) : Option (Nat × Bool) := some (p.1, p.2.isPending)

/-- Input future number `k` is unfinished. -/
def waitsFor (this : JoinAllThenTry F Q A E) (k : Nat) : Prop := (this.held k).isSome = true

theorem lastAnswer_eq (k : Nat) (log : PollLog (Except E A)) :
    lastAnswer memberPoll k log = ((answersOf k log).map Poll.isPending).getLast? := by
  rw [lastAnswer, answersOf, List.map_filterMap]
  congr 2
  funext p
  by_cases same : p.1 = k
  · simp [answerOf, memberPoll, same]
  · simp [answerOf, memberPoll, same]

/-- An unfinished future was polled. -/
theorem lastAnswer_pollsIn {futs : List F} {n k : Nat} {fut : F} (at_k : futs[k]? = some fut)
    (unfinished : (MaybeDone.afterPolls fut (n + 1) : MaybeDone F (Except E A)).isDone = false) :
    lastAnswer memberPoll k (pollsIn n 0 futs : PollLog (Except E A)) = some true := by
  have polled := answersOf_pollsIn n 0 k futs
  rw [Nat.zero_add] at polled
  rw [lastAnswer_eq, polled, at_k, Option.bind_some,
    MaybeDone.innerAnswer_of_unfinished unfinished]
  rfl

theorem small_wakeful [MaybeDone.Impl] (futs : List F) :
    Wakeful poll memberPoll waitsFor
      (⟨.small (futs.map MaybeDone.future)⟩ : JoinAllThenTry F Q A E) where
  arms := by
    intro calls this fuel log this' run pending called
    obtain rfl := small_of_polls run pending
    rcases poll_small (Q := Q) fuel futs calls.length with
      ⟨waiting, called'⟩ | ⟨_, -, -, -, called'⟩
    · cases called.symm.trans called'
      constructor
      · intro k waits
        simp only [waitsFor, held, elemsAfter, List.getElem?_map] at waits
        cases at_k : futs[k]? with
        | none =>
            rw [at_k] at waits
            cases waits
        | some fut =>
            rw [at_k] at waits
            exact lastAnswer_pollsIn at_k (MaybeDone.isDone_of_held waits)
      · obtain ⟨elem, mem, unfinished⟩ := List.all_eq_false.mp waiting
        obtain ⟨fut, input, rfl⟩ := List.mem_map.mp mem
        obtain ⟨k, at_k⟩ := List.mem_iff_getElem?.mp input
        exact ⟨k, lastAnswer_pollsIn at_k (Bool.eq_false_iff.mpr unfinished)⟩
    · cases called.symm.trans called'

end JoinAllThenTry

/-- **The joins in the hands of an executor.** No wakeup is lost, whatever the futures do, and what
comes of polling the join again and again comes of polling it when it was woken. -/
theorem joins_driven [MaybeDone.Impl] (N : Nat) (pos : 0 < N) :
    (∀ {F A : Fin N → Type} {E : Type} [∀ i, Future (F i) (Except E (A i))]
      (futs : (i : Fin N) → F i),
      WellDriven JoinThenTry.poll JoinThenTry.branchPoll JoinThenTry.waitsFor
        (JoinThenTry.new futs : JoinThenTry F A E)) ∧
    (∀ {F A E Q : Type} [Future F (Except E A)] [FuturesOrdered Q F (Except E A)] (max : Nat)
      (futs : List F), max ≤ SMALL →
      WellDriven JoinAllThenTry.poll JoinAllThenTry.memberPoll JoinAllThenTry.waitsFor
        (joinAllThenTry (some max) futs : JoinAllThenTry F Q A E)) := by
  constructor
  · intro F A E _ futs
    exact (JoinThenTry.wakeful pos futs).driven JoinThenTry.poll_deterministic
  · intro F A E Q _ _ max futs small
    rw [joinAllThenTry, if_pos small]
    exact (JoinAllThenTry.small_wakeful futs).driven JoinAllThenTry.poll_deterministic

open JoinThenTry in
/-- The branch that suspends wakes the task, and the second call is the last. -/
theorem joins_driven_twoBranches :
    Completes JoinThenTry.poll branchPoll
      (JoinThenTry.new twoBranches : JoinThenTry _ (fun _ => Nat) Nat) 1 (.error 2) ∧
    Completes JoinAllThenTry.poll JoinAllThenTry.memberPoll
      (joinAllThenTry (some 2) (List.ofFn twoBranches) : JoinAllThenTry _
        (WokenQueue (Script (Except Nat Nat)) (Except Nat Nat)) Nat Nat) 1 (.error 2) := by
  have resolves : ∀ i, Resolves (twoBranches i) (1 - i.1) (twoOutcomes i) :=
    Fin.forall_fin_two.mpr ⟨⟨(PendingFor.zero _).succ rfl, rfl⟩, ⟨PendingFor.zero _, rfl⟩⟩
  have driven := joins_driven 2 (by decide)
  exact ⟨(driven.1 twoBranches).completes (joinsAt (by decide) resolves).ready,
    (driven.2 2 (List.ofFn twoBranches) (by decide)).completes (small_readyAt resolves)⟩

end CancelSafeFutures
