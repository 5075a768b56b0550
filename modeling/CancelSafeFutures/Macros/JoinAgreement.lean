import CancelSafeFutures.Future.JoinAllThenTry
import CancelSafeFutures.Macros.JoinThenTry
import Mathlib.Data.Finset.Lattice.Fold
import Mathlib.Data.Fintype.Basic
import Mathlib.Order.Lattice.Nat

/-!
# `join_then_try!` is a plain join

Over `N` futures that resolve after `n i` polls to `outs i`, the expansion of `join_then_try!` is
first `Ready` in poll number `Finset.univ.sup n`, the one in which the last branch completes,
with the outputs in listed order or the error of the first branch listed that failed
(`joinsAt`).  The slice of `join_all_then_try` over the same futures does the same
(`small_readyAt`).
-/

namespace CancelSafeFutures.JoinThenTry

open Async

variable {N : Nat} {F A : Fin N → Type} {E : Type} [∀ i, Future (F i) (Except E (A i))]

/-! ## Reading the record -/

/-- What the future of branch `i` answered. -/
def answersIn (i : Fin N) (log : List (Visit A E)) : List (Poll (Except E (A i))) :=
  log.flatMap fun visit => if same : visit.1 = i then (same ▸ visit.2).toList else []

theorem answersIn_map_visit (futs : (i : Fin N) → F i) (k : Nat) (i : Fin N)
    {is : List (Fin N)} (nodup : is.Nodup) :
    answersIn i (is.map (visit (A := A) (E := E) futs k)) =
      if i ∈ is then (MaybeDone.innerAnswer (futs i) k).toList else [] := by
  induction is with
  | nil => rfl
  | cons j is ih =>
      obtain ⟨fresh, nodup⟩ := List.nodup_cons.mp nodup
      have rest := ih nodup
      unfold answersIn at rest ⊢
      rw [List.map_cons, List.flatMap_cons, rest]
      by_cases same : j = i
      · subst same
        simp [visit, fresh]
      · simp [visit, same, Ne.symm same]

theorem answersIn_visits (futs : (i : Fin N) → F i) (k : Nat) (i : Fin N) :
    answersIn i (visits (A := A) (E := E) futs k) =
      (MaybeDone.innerAnswer (futs i) k).toList := by
  rw [visits, answersIn_map_visit futs k i (order_nodup N (k % N)),
    if_pos (mem_order N (k % N) i)]

/-- The answers of branch `i` in the first `k` calls are those of its `MaybeDone`. -/
theorem answersIn_calls (futs : (i : Fin N) → F i) (k : Nat) (i : Fin N) :
    answersIn i ((List.range k).flatMap (visits (A := A) (E := E) futs)) =
      MaybeDone.innerAnswers (futs i) k := by
  rw [answersIn, List.flatMap_assoc, MaybeDone.innerAnswers]
  exact List.flatMap_congr fun j _ => answersIn_visits futs j i

/-! ## Runs -/

/-- The state after any number of calls that answered `Pending`. -/
theorem state_of_polls [MaybeDone.Impl] (pos : 0 < N) {futs : (i : Fin N) → F i}
    {calls : List (Call (JoinThenTry F A E) (Except E ((i : Fin N) → A i)) (Visit A E))}
    {this : JoinThenTry F A E} (run : Polls poll (new futs) calls this)
    (pending : ∀ call ∈ calls, call.answer = .pending) :
    this = stateAfter futs calls.length := by
  induction run with
  | start => exact new_eq_stateAfter futs
  | @poll calls s answer log s' fuel _ step ih =>
      have before := ih fun call mem => pending call (List.mem_append_left _ mem)
      have last : answer = .pending := pending ⟨s, answer, log, s'⟩ (by simp)
      subst last before
      rw [List.length_append, List.length_singleton]
      rcases poll_stateAfter (A := A) (E := E) futs calls.length pos (Nat.le_refl 2) with
        ⟨-, called⟩ | ⟨outs, left, -, called⟩
      · exact congrArg (fun r => r.2.2) (poll_deterministic _ _ _ _ _ step called)
      · cases poll_deterministic _ _ _ _ _ step called

/-- Every call up to the first `Ready` returns. -/
theorem returns_of_pending [MaybeDone.Impl] (pos : 0 < N) {futs : (i : Fin N) → F i}
    {calls : List (Call (JoinThenTry F A E) (Except E ((i : Fin N) → A i)) (Visit A E))}
    {this : JoinThenTry F A E} (run : Polls poll (new futs) calls this)
    (pending : ∀ call ∈ calls, call.answer = .pending) {fuel : Nat} (enough : 2 ≤ fuel) :
    ∃ r, this.poll fuel = .ok r := by
  rw [state_of_polls pos run pending]
  rcases poll_stateAfter (A := A) (E := E) futs _ pos enough with
    ⟨-, called⟩ | ⟨outs, left, -, called⟩
  · exact ⟨_, called⟩
  · exact ⟨_, called⟩

/-- The run up to the first `Ready`. -/
theorem firstReady [MaybeDone.Impl] (pos : 0 < N) {futs : (i : Fin N) → F i} {n : Fin N → Nat}
    {outs : (i : Fin N) → Except E (A i)} (resolves : ∀ i, Resolves (futs i) (n i) (outs i)) :
    ∃ this : JoinThenTry F A E, FirstReady poll (new futs) (Finset.univ.sup n)
      ((List.range (Finset.univ.sup n + 1)).flatMap (visits futs)) (collectBranches outs) this := by
  have waits : ∀ k < Finset.univ.sup n, poll 2 (stateAfter futs k : JoinThenTry F A E) =
      .ok (.pending, visits futs k, stateAfter futs (k + 1)) := by
    intro k lt
    rcases poll_stateAfter (A := A) (E := E) futs k pos (Nat.le_refl 2) with
      ⟨-, called⟩ | ⟨outs', left, finished, -⟩
    · exact called
    · have all_done : Finset.univ.sup n ≤ k := Finset.sup_le fun i _ => by
        obtain ⟨m, le, resolves'⟩ := finished i
        rw [((resolves i).unique resolves').1]
        exact le
      omega
  rcases poll_stateAfter (A := A) (E := E) futs (Finset.univ.sup n) pos (Nat.le_refl 2) with
    ⟨⟨i, waiting⟩, -⟩ | ⟨outs', left, finished, called⟩
  · have le : n i ≤ Finset.univ.sup n := Finset.le_sup (Finset.mem_univ i)
    rw [unfinished, MaybeDone.afterPolls_of_resolves (resolves i) (Nat.lt_succ_of_le le)] at waiting
    cases waiting
  · have same : outs' = outs := funext fun i => by
      obtain ⟨m, -, resolves'⟩ := finished i
      exact ((resolves' ).unique (resolves i)).2
    subst same
    rw [new_eq_stateAfter]
    exact ⟨left, FirstReady.of_states waits called⟩

/-- What `join_then_try!` does with futures that resolve after `n i` polls to `outs i`. -/
structure JoinsAt [MaybeDone.Impl] (futs : (i : Fin N) → F i) (n : Fin N → Nat)
    (outs : (i : Fin N) → Except E (A i)) : Prop where
  /-- Every call up to the first `Ready` returns, so it does not panic. -/
  returns : ∀ {calls} {this : JoinThenTry F A E}, Polls poll (new futs) calls this →
    (∀ call ∈ calls, call.answer = .pending) → ∀ fuel, 2 ≤ fuel → ∃ r, this.poll fuel = .ok r
  /-- The first `Ready` comes in the poll in which the last branch completes. -/
  ready : ReadyAt poll (new futs : JoinThenTry F A E) (Finset.univ.sup n) (collectBranches outs)
  /-- No branch is polled after it has completed. -/
  completed : ∀ {m log result} {this : JoinThenTry F A E},
    FirstReady poll (new futs) m log result this →
    ∀ i, answersIn i log = List.replicate (n i) .pending ++ [.ready (outs i)]

theorem joinsAt [MaybeDone.Impl] (pos : 0 < N) {futs : (i : Fin N) → F i} {n : Fin N → Nat}
    {outs : (i : Fin N) → Except E (A i)} (resolves : ∀ i, Resolves (futs i) (n i) (outs i)) :
    JoinsAt futs n outs where
  returns run pending fuel enough := returns_of_pending pos run pending enough
  ready := by
    obtain ⟨this, first⟩ := firstReady pos resolves
    exact first.readyAt poll_deterministic
  completed run i := by
    obtain ⟨this, first⟩ := firstReady pos resolves
    obtain ⟨-, rfl, -, -⟩ := run.unique poll_deterministic first
    rw [answersIn_calls]
    exact MaybeDone.innerAnswers_of_resolves (resolves i)
      (Nat.lt_succ_of_le (Finset.le_sup (Finset.mem_univ i)))

/-! ## Branches of one type -/

section OneType

variable {F A E : Type}

/-- For branches of one type the tuple is collected like a list. -/
theorem collectBranches_ofFn {N : Nat} (outs : Fin N → Except E A) :
    (collectBranches outs).map List.ofFn = collectResults (List.ofFn outs) := by
  induction N with
  | zero => rfl
  | succ N ih =>
      have rest := ih fun i => outs i.succ
      rw [List.ofFn_succ, collectBranches]
      cases outs 0 with
      | error error => rfl
      | ok value =>
          rw [collectResults, ← rest]
          cases collectBranches fun i => outs i.succ with
          | error error => rfl
          | ok values => simp [Except.map, List.ofFn_succ]

variable {Q : Type} [Future F (Except E A)] [FuturesOrdered Q F (Except E A)]

/-- The slice of `join_all_then_try` is first `Ready` in the same poll, with the same result. -/
theorem small_readyAt [MaybeDone.Impl] {N : Nat} {futs : Fin N → F} {n : Fin N → Nat}
    {outs : Fin N → Except E A}
    (resolves : ∀ i, Resolves (futs i) (n i) (outs i)) :
    ReadyAt JoinAllThenTry.poll
      (⟨.small ((List.ofFn futs).map MaybeDone.future)⟩ : JoinAllThenTry F Q A E)
      (Finset.univ.sup n) ((collectBranches outs).map List.ofFn) := by
  have done_iff : ∀ k, (JoinAllThenTry.elemsAfter (List.ofFn futs) (k + 1) :
      List (MaybeDone F (Except E A))).all MaybeDone.isDone = true ↔
      Finset.univ.sup n ≤ k := by
    intro k
    rw [JoinAllThenTry.elemsAfter, List.all_map, List.all_eq_true, Finset.sup_le_iff]
    simp only [List.forall_mem_ofFn_iff, Function.comp_apply, MaybeDone.isDone_afterPolls,
      Finset.mem_univ, forall_const]
    refine forall_congr' fun i => ?_
    constructor
    · intro finished
      obtain ⟨m, out, lt, resolves'⟩ := finished
      rw [((resolves i).unique resolves').1]
      exact Nat.le_of_lt_succ lt
    · exact fun le => ⟨n i, outs i, Nat.lt_succ_of_le le, resolves i⟩
  have outcomes : List.Forall₂ Outcome (List.ofFn futs) (List.ofFn outs) := by
    refine List.forall₂_of_length_eq_of_get (by simp) fun k lt lt' => ?_
    simp only [List.get_ofFn]
    exact ⟨_, resolves _⟩
  have functional : Relator.RightUnique fun (fut : F) (out : Except E A) => Outcome fut out :=
    fun _ _ _ => Outcome.unique
  have waits : ∀ k < Finset.univ.sup n, JoinAllThenTry.poll 0
      (⟨.small (JoinAllThenTry.elemsAfter (List.ofFn futs) k)⟩ : JoinAllThenTry F Q A E) =
      .ok (.pending, JoinAllThenTry.pollsIn k 0 (List.ofFn futs),
        ⟨.small (JoinAllThenTry.elemsAfter (List.ofFn futs) (k + 1))⟩) := by
    intro k lt
    rcases JoinAllThenTry.poll_small (Q := Q) 0 (List.ofFn futs) k with
      ⟨-, called⟩ | ⟨_, finished, -⟩
    · exact called
    · have := (done_iff k).mp finished
      omega
  have ready : JoinAllThenTry.poll 0 (⟨.small (JoinAllThenTry.elemsAfter (List.ofFn futs)
      (Finset.univ.sup n))⟩ : JoinAllThenTry F Q A E) =
      .ok (.ready ((collectBranches outs).map List.ofFn),
        JoinAllThenTry.pollsIn (Finset.univ.sup n) 0 (List.ofFn futs), ⟨.small []⟩) := by
    rcases JoinAllThenTry.poll_small (Q := Q) 0 (List.ofFn futs) (Finset.univ.sup n) with
      ⟨unfinished, -⟩ | ⟨found, -, found_outcomes, -, called⟩
    · rw [(done_iff _).mpr (Nat.le_refl _)] at unfinished
      cases unfinished
    · rw [collectBranches_ofFn,
        List.right_unique_forall₂' functional outcomes found_outcomes]
      exact called
  exact (FirstReady.of_states waits ready).readyAt JoinAllThenTry.poll_deterministic

end OneType

/-- **A plain join.** For `N ≥ 1` branches, whatever their types and however their futures are
pending, the first `Ready` comes in the poll in which the last branch completes, with the result
in listed order; over branches of one type it is the poll and the result of the slice of
`join_all_then_try` on the same list. -/
theorem joinThenTry_is_join [MaybeDone.Impl] (N : Nat) (pos : 0 < N) :
    (∀ {F A : Fin N → Type} {E : Type} [∀ i, Future (F i) (Except E (A i))]
      (futs : (i : Fin N) → F i) (n : Fin N → Nat) (outs : (i : Fin N) → Except E (A i)),
      (∀ i, Resolves (futs i) (n i) (outs i)) → JoinsAt futs n outs) ∧
    (∀ {F A E Q : Type} [Future F (Except E A)] [FuturesOrdered Q F (Except E A)] (max : Nat)
      (futs : Fin N → F) (n : Fin N → Nat) (outs : Fin N → Except E A), max ≤ SMALL →
      (∀ i, Resolves (futs i) (n i) (outs i)) →
      ReadyAt JoinAllThenTry.poll
        (joinAllThenTry (some max) (List.ofFn futs) : JoinAllThenTry F Q A E)
        (Finset.univ.sup n) ((collectBranches outs).map List.ofFn)) := by
  constructor
  · intro F A E _ futs n outs resolves
    exact joinsAt pos resolves
  · intro F A E Q _ _ max futs n outs small resolves
    rw [joinAllThenTry, if_pos small]
    exact small_readyAt resolves

/-- A branch that suspends once and succeeds, and one that fails at once. -/
def twoBranches : Fin 2 → Script (Except Nat Nat)
  | 0 => ⟨[.pending, .ready (.ok 1)]⟩
  | 1 => ⟨[.ready (.error 2)]⟩

def twoOutcomes : Fin 2 → Except Nat Nat
  | 0 => .ok 1
  | 1 => .error 2

theorem joinThenTry_is_join_twoBranches :
    JoinsAt (F := fun _ => Script (Except Nat Nat)) (A := fun _ => Nat) twoBranches
      (fun i => 1 - i.1) twoOutcomes ∧
    ReadyAt JoinAllThenTry.poll
      (joinAllThenTry (some 2) (List.ofFn twoBranches) : JoinAllThenTry _
        (WokenQueue (Script (Except Nat Nat)) (Except Nat Nat)) Nat Nat)
      (Finset.univ.sup fun i : Fin 2 => 1 - i.1)
      ((collectBranches (A := fun _ => Nat) twoOutcomes).map List.ofFn) := by
  have resolves : ∀ i, Resolves (twoBranches i) (1 - i.1) (twoOutcomes i) :=
    Fin.forall_fin_two.mpr ⟨⟨(PendingFor.zero _).succ rfl, rfl⟩, ⟨PendingFor.zero _, rfl⟩⟩
  have agrees := joinThenTry_is_join 2 (by decide)
  exact ⟨agrees.1 twoBranches _ twoOutcomes resolves,
    agrees.2 2 twoBranches _ twoOutcomes (by decide) resolves⟩

end CancelSafeFutures.JoinThenTry
