import CancelSafeFutures.Async.Loop
import CancelSafeFutures.Async.MaybeDone
import CancelSafeFutures.Async.Results
import Mathlib.Data.Fin.Tuple.Basic
import Mathlib.Data.List.FinRange
import Mathlib.Data.List.Rotate

/-!
# `join_then_try!`

The model of the `poll_fn` closure that `src/macros/join_then_try.rs` expands to, for `N` branches
with futures and outputs of their own types.  `branch i` is the code repeated for branch `i`,
`iteration` the body of the `loop`, in which the branches stand one after another, and `poll` the
closure.  The record of a call is the branches polled in it, each with what its future answered if
it was polled.

`poll_stateAfter` is one call after `k` calls: it polls every branch once, starting with branch
`k % N`.
-/

namespace CancelSafeFutures

open Async

variable {N : Nat} {F A : Fin N → Type} {E : Type}

/-- What the closure captures. -/
structure JoinThenTry (F A : Fin N → Type) (E : Type) where
  futures : (i : Fin N) → MaybeDone (F i) (Except E (A i))
  skipNextTime : Nat

/-- The futures and the variables of one call. -/
structure JoinLocals (F A : Fin N → Type) (E : Type) where
  futures : (i : Fin N) → MaybeDone (F i) (Except E (A i))
  isPending : Bool
  toRun : Nat
  skip : Nat

/-- A poll of a branch, with the answer of the future inside if there was one. -/
abbrev Visit (A : Fin N → Type) (E : Type) := (i : Fin N) × Option (Poll (Except E (A i)))

/-- `n -= 1` on a `u32`. -/
def decrement (n : Nat) : Run Nat :=
  if n = 0 then .error (.panicked "attempt to subtract with overflow") else .ok (n - 1)

@[simp] theorem decrement_succ (n : Nat) : decrement (n + 1) = .ok n := rfl

namespace JoinThenTry

/-- `join_then_try!` over the futures `futs`, before the first poll. -/
def new (futs : (i : Fin N) → F i) : JoinThenTry F A E where
  futures i := .future (futs i)
  skipNextTime := 0

/-- The code for branch `i` in the body of the loop. -/
def branch [MaybeDone.Impl] [∀ i, Future (F i) (Except E (A i))] (i : Fin N)
    (s : JoinLocals F A E) : Run (List (Visit A E) × Pass (JoinLocals F A E) Unit) :=
  if s.skip = 0 then
    if s.toRun = 0 then
      -- every future has been polled
      .ok ([], .leave () s)
    else do
      let toRun ← decrement s.toRun
      let polled ← (s.futures i).poll
      .ok ([⟨i, polled.inner⟩], .again
        { s with
          futures := Function.update s.futures i polled.this
          isPending := s.isPending || polled.answer.isPending
          toRun := toRun })
  else do
    let skip ← decrement s.skip
    .ok ([], .again { s with skip := skip })

/-- The body of the `loop`. -/
def iteration [MaybeDone.Impl] [∀ i, Future (F i) (Except E (A i))] :
    JoinLocals F A E → Run (List (Visit A E) × Pass (JoinLocals F A E) Unit) :=
  inTurn ((List.finRange N).map branch)

/-- What taking the outputs leaves. -/
structure Taken (F A : Fin N → Type) (E : Type) where
  result : Except E ((i : Fin N) → A i)
  futures : (i : Fin N) → MaybeDone (F i) (Except E (A i))

/-- The tuple of the outputs, branch by branch, left at the first error. -/
def takeOutputs [MaybeDone.Impl] : {N : Nat} → {F A : Fin N → Type} →
    ((i : Fin N) → MaybeDone (F i) (Except E (A i))) → Run (Taken F A E)
  | 0, _, _, futures => .ok ⟨.ok fun i => i.elim0, futures⟩
  | _ + 1, _, _, futures => do
    let output ← expect (futures 0).takeOutput.1 "expected completed future"
    let first := (futures 0).takeOutput.2
    match output with
    | .error error => .ok ⟨.error error, Fin.cons first fun i => futures i.succ⟩
    | .ok value =>
      let taken ← takeOutputs fun i => futures i.succ
      match taken.result with
      | .error error => .ok ⟨.error error, Fin.cons first taken.futures⟩
      | .ok values => .ok ⟨.ok (Fin.cons value values), Fin.cons first taken.futures⟩

/-- `if skip + 1 == COUNT { 0 } else { skip + 1 }`. -/
def nextSkip (count skip : Nat) : Nat := if skip + 1 = count then 0 else skip + 1

/-- The closure, for at most `fuel` passes of its loop. -/
def poll [MaybeDone.Impl] [∀ i, Future (F i) (Except E (A i))] (fuel : Nat)
    (this : JoinThenTry F A E) :
    Run (Poll (Except E ((i : Fin N) → A i)) × List (Visit A E) × JoinThenTry F A E) :=
  let skip := this.skipNextTime
  let skipNextTime := nextSkip N skip
  match loop iteration fuel ⟨this.futures, false, N, skip⟩ with
  | .error halt => .error halt
  | .ok ((), log, left) =>
    if left.isPending then .ok (.pending, log, ⟨left.futures, skipNextTime⟩)
    else do
      let taken ← takeOutputs left.futures
      .ok (.ready taken.result, log, ⟨taken.futures, skipNextTime⟩)

/-! ## One pass -/

variable [∀ i, Future (F i) (Except E (A i))]

/-- The branches in the middle of call number `k`, those in `done` having been polled in it. -/
def visited (futs : (i : Fin N) → F i) (k : Nat) (done : List (Fin N)) (i : Fin N) :
    MaybeDone (F i) (Except E (A i)) :=
  MaybeDone.afterPolls (futs i) (if i ∈ done then k + 1 else k)

/-- What is recorded of branch `i` in call number `k`. -/
def visit (futs : (i : Fin N) → F i) (k : Nat) (i : Fin N) : Visit A E :=
  ⟨i, MaybeDone.innerAnswer (futs i) k⟩

/-- Branch `i` is still pending at the end of call number `k`. -/
def unfinished (A : Fin N → Type) (E : Type) [∀ i, Future (F i) (Except E (A i))]
    (futs : (i : Fin N) → F i) (k : Nat) (i : Fin N) : Bool :=
  !(MaybeDone.afterPolls (futs i) (k + 1) : MaybeDone (F i) (Except E (A i))).isDone

/-- Branches that are skipped. -/
theorem inTurn_skip [MaybeDone.Impl] (is : List (Fin N)) (s : JoinLocals F A E)
    (le : is.length ≤ s.skip) :
    inTurn (is.map branch) s = .ok ([], .again { s with skip := s.skip - is.length }) := by
  induction is generalizing s with
  | nil => rfl
  | cons i is ih =>
      obtain ⟨m, skip⟩ : ∃ m, s.skip = m + 1 := ⟨s.skip - 1, by simp at le; omega⟩
      have rest := ih { s with skip := m } (by simp at le ⊢; omega)
      have this_branch : branch i s = .ok ([], .again { s with skip := m }) := by
        simp only [branch, skip, Nat.add_one_ne_zero, if_false, decrement_succ, run_bind_ok]
      simp only [List.map_cons, inTurn, this_branch, rest, skip, List.length_cons, List.nil_append,
        Nat.add_sub_add_right]

/-- One more branch polled. -/
theorem visited_update (futs : (i : Fin N) → F i) (k : Nat) (done : List (Fin N)) (i : Fin N) :
    Function.update (visited (A := A) (E := E) futs k done) i
      (MaybeDone.afterPolls (futs i) (k + 1)) = visited futs k (done ++ [i]) := by
  funext j
  unfold visited
  by_cases same : j = i
  · subst same
    simp
  · rw [Function.update_of_ne same]
    simp [same]

/-- Branches that are run. -/
theorem inTurn_run [MaybeDone.Impl] (futs : (i : Fin N) → F i) (k : Nat)
    (is done : List (Fin N)) (pending : Bool) (toRun : Nat) (nodup : (done ++ is).Nodup)
    (le : is.length ≤ toRun) :
    inTurn (is.map branch) (⟨visited futs k done, pending, toRun, 0⟩ : JoinLocals F A E) =
      .ok (is.map (visit futs k), .again ⟨visited futs k (done ++ is),
        pending || is.any (unfinished A E futs k), toRun - is.length, 0⟩) := by
  induction is generalizing done pending toRun with
  | nil => simp [inTurn]
  | cons i is ih =>
      obtain ⟨m, rfl⟩ : ∃ m, toRun = m + 1 := ⟨toRun - 1, by simp at le; omega⟩
      have fresh : i ∉ done := by
        intro mem
        exact (List.disjoint_of_nodup_append nodup) mem (List.mem_cons_self ..)
      have this_branch : branch i (⟨visited futs k done, pending, m + 1, 0⟩ : JoinLocals F A E) =
          .ok ([visit futs k i], .again ⟨visited futs k (done ++ [i]),
            pending || unfinished A E futs k i, m, 0⟩) := by
        have here : visited futs k done i =
            (MaybeDone.afterPolls (futs i) k : MaybeDone (F i) (Except E (A i))) := by
          simp [visited, fresh]
        have polled := MaybeDone.poll_afterPolls (futs i) k (F := F i)
        simp only [branch, if_true, Nat.add_one_ne_zero, if_false, decrement_succ, run_bind_ok,
          here, polled, visited_update, visit, unfinished]
        cases (MaybeDone.afterPolls (futs i) (k + 1) : MaybeDone (F i) (Except E (A i))).isDone <;>
          rfl
      have rest := ih (done ++ [i]) (pending || unfinished A E futs k i) m
        (by simpa using nodup) (by simp at le; omega)
      simp only [List.map_cons, inTurn, this_branch, rest, List.length_cons, List.append_assoc,
        List.singleton_append, List.any_cons, Bool.or_assoc, Nat.add_sub_add_right]

/-! ## The loop -/

/-- The order in which a call polls the branches that skips the first `skip` of them. -/
def order (N skip : Nat) : List (Fin N) := (List.finRange N).rotate skip

theorem order_eq {N skip : Nat} (lt : skip < N) :
    order N skip = (List.finRange N).drop skip ++ (List.finRange N).take skip :=
  List.rotate_eq_drop_append_take (by rw [List.length_finRange]; exact Nat.le_of_lt lt)

theorem order_nodup (N skip : Nat) : (order N skip).Nodup :=
  List.nodup_rotate.mpr (List.nodup_finRange N)

theorem mem_order (N skip : Nat) (i : Fin N) : i ∈ order N skip :=
  List.mem_rotate.mpr (List.mem_finRange i)

omit [∀ i, Future (F i) (Except E (A i))] in
theorem length_take_finRange {skip : Nat} (lt : skip < N) :
    ((List.finRange N).take skip).length = skip := by
  rw [List.length_take, List.length_finRange, Nat.min_eq_left (Nat.le_of_lt lt)]

/-- With nothing to skip and nothing left to run, the code for any branch breaks. -/
theorem inTurn_breaks [MaybeDone.Impl] (is : List (Fin N)) (pos : 0 < is.length)
    {s : JoinLocals F A E} (no_skip : s.skip = 0) (none_left : s.toRun = 0) :
    inTurn (is.map branch) s = .ok ([], .leave () s) := by
  obtain ⟨i, is, rfl⟩ := List.exists_cons_of_length_pos pos
  have at_branch : branch i s = .ok ([], .leave () s) := by
    simp only [branch, no_skip, none_left, if_true]
  simp only [List.map_cons, inTurn, at_branch]

/-- The first pass skips the first branches and runs the others. -/
theorem iteration_first [MaybeDone.Impl] {s : JoinLocals F A E} (lt : s.skip < N) :
    iteration s = inTurn (((List.finRange N).drop s.skip).map branch) { s with skip := 0 } := by
  have skipped := inTurn_skip ((List.finRange N).take s.skip) s
    (Nat.le_of_eq (length_take_finRange lt))
  rw [length_take_finRange lt, Nat.sub_self] at skipped
  conv_lhs => rw [iteration, ← List.take_append_drop s.skip (List.finRange N), List.map_append]
  simp only [inTurn_append_eq, skipped, List.nil_append]
  split
  · next fails => exact fails.symm
  · next rested => exact rested.symm

/-- The second pass runs the first branches, and breaks at the next. -/
theorem loop_of_halves [MaybeDone.Impl] {s s₁ s₂ : JoinLocals F A E} {fuel : Nat}
    {log₁ log₂ : List (Visit A E)} (lt : s.skip < N) (enough : 2 ≤ fuel)
    (first : inTurn (((List.finRange N).drop s.skip).map branch) { s with skip := 0 } =
      .ok (log₁, .again s₁))
    (second : inTurn (((List.finRange N).take s.skip).map branch) s₁ = .ok (log₂, .again s₂))
    (no_skip : s₂.skip = 0) (none_left : s₂.toRun = 0) :
    loop iteration fuel s = .ok ((), log₁ ++ log₂, s₂) := by
  have first_pass : iteration s = .ok (log₁, .again s₁) := by
    rw [iteration_first lt, first]
  have breaks := inTurn_breaks ((List.finRange N).drop s.skip)
    (by rw [List.length_drop, List.length_finRange]; omega) no_skip none_left
  have second_pass : iteration s₁ = .ok (log₂, .leave () s₂) := by
    rw [iteration, ← List.take_append_drop s.skip (List.finRange N), List.map_append,
      inTurn_append second breaks, List.append_nil]
  obtain ⟨fuel, rfl⟩ : ∃ m, fuel = m + 2 := ⟨fuel - 2, by omega⟩
  simp only [loop, first_pass, second_pass]

/-- A branch that fails in the first pass, or in the second, fails the loop. -/
theorem loop_error_of_first [MaybeDone.Impl] {s : JoinLocals F A E} {fuel : Nat} {halt : Halt}
    (lt : s.skip < N) (enough : 2 ≤ fuel)
    (fails : inTurn (((List.finRange N).drop s.skip).map branch) { s with skip := 0 } =
      .error halt) :
    loop iteration fuel s = .error halt := by
  have first_pass : iteration s = .error halt := by rw [iteration_first lt, fails]
  obtain ⟨fuel, rfl⟩ : ∃ m, fuel = m + 1 := ⟨fuel - 1, by omega⟩
  simp only [loop, first_pass]

theorem loop_error_of_second [MaybeDone.Impl] {s s₁ : JoinLocals F A E} {fuel : Nat}
    {log₁ : List (Visit A E)} {halt : Halt} (lt : s.skip < N) (enough : 2 ≤ fuel)
    (first : inTurn (((List.finRange N).drop s.skip).map branch) { s with skip := 0 } =
      .ok (log₁, .again s₁))
    (fails : inTurn (((List.finRange N).take s.skip).map branch) s₁ = .error halt) :
    loop iteration fuel s = .error halt := by
  have first_pass : iteration s = .ok (log₁, .again s₁) := by
    rw [iteration_first lt, first]
  have second_pass : iteration s₁ = .error halt := by
    rw [iteration, ← List.take_append_drop s.skip (List.finRange N), List.map_append]
    simp only [inTurn_append_eq, fails]
  obtain ⟨fuel, rfl⟩ : ∃ m, fuel = m + 2 := ⟨fuel - 2, by omega⟩
  simp only [loop, first_pass, second_pass]

/-- **The loop** is left in its second pass, after every branch was polled once. -/
theorem loop_iteration [MaybeDone.Impl] (futs : (i : Fin N) → F i) (k : Nat) {skip fuel : Nat}
    (lt : skip < N) (enough : 2 ≤ fuel) :
    loop iteration fuel (⟨visited futs k [], false, N, skip⟩ : JoinLocals F A E) =
      .ok ((), (order N skip).map (visit futs k), ⟨visited futs k (order N skip),
        (order N skip).any (unfinished A E futs k), 0, 0⟩) := by
  have nodup := order_nodup N skip
  rw [order_eq lt] at nodup ⊢
  have before_length := length_take_finRange lt
  have rest_length : ((List.finRange N).drop skip).length = N - skip := by
    rw [List.length_drop, List.length_finRange]
  have first := inTurn_run futs k ((List.finRange N).drop skip) [] false N (E := E) (A := A) (by
    rw [List.nil_append]
    exact (List.nodup_append.mp nodup).1) (by omega)
  rw [rest_length, List.nil_append, Bool.false_or, Nat.sub_sub_self (Nat.le_of_lt lt)] at first
  have second := inTurn_run futs k ((List.finRange N).take skip) ((List.finRange N).drop skip)
    (((List.finRange N).drop skip).any (unfinished A E futs k)) skip nodup
    (Nat.le_of_eq before_length)
  rw [before_length, Nat.sub_self] at second
  rw [List.map_append, List.any_append]
  exact loop_of_halves lt enough first second rfl rfl

/-! ## One call -/

/-- The outputs of all branches, or the error of the first one listed that failed. -/
def collectBranches : {N : Nat} → {A : Fin N → Type} →
    ((i : Fin N) → Except E (A i)) → Except E ((i : Fin N) → A i)
  | 0, _, _ => .ok fun i => i.elim0
  | _ + 1, _, outs =>
    match outs 0, collectBranches fun i => outs i.succ with
    | .error error, _ => .error error
    | .ok _, .error error => .error error
    | .ok value, .ok values => .ok (Fin.cons value values)

omit [∀ i, Future (F i) (Except E (A i))] in
/-- Taking the outputs never finds one missing. -/
theorem takeOutputs_done [MaybeDone.Impl] (outs : (i : Fin N) → Except E (A i)) :
    ∃ futures, takeOutputs (fun i => (.done (outs i) : MaybeDone (F i) (Except E (A i)))) =
      .ok ⟨collectBranches outs, futures⟩ := by
  induction N with
  | zero => exact ⟨_, rfl⟩
  | succ N ih =>
      obtain ⟨futures, rest⟩ := ih (F := fun i => F i.succ) fun i => outs i.succ
      unfold takeOutputs collectBranches
      simp only [MaybeDone.takeOutput_done, expect_some, run_bind_ok, rest]
      cases outs 0 with
      | error error => exact ⟨_, rfl⟩
      | ok value =>
          cases collectBranches fun i => outs i.succ with
          | error error => exact ⟨_, rfl⟩
          | ok values => exact ⟨_, rfl⟩

/-- The closure after `k` calls that answered `Pending`. -/
def stateAfter (futs : (i : Fin N) → F i) (k : Nat) : JoinThenTry F A E where
  futures i := MaybeDone.afterPolls (futs i) k
  skipNextTime := k % N

theorem new_eq_stateAfter (futs : (i : Fin N) → F i) :
    (new futs : JoinThenTry F A E) = stateAfter futs 0 := by
  unfold new stateAfter
  rw [Nat.zero_mod]
  rfl

/-- The record of call number `k`. -/
def visits (futs : (i : Fin N) → F i) (k : Nat) : List (Visit A E) :=
  (order N (k % N)).map (visit futs k)

theorem nextSkip_mod (k : Nat) (pos : 0 < N) : nextSkip N (k % N) = (k + 1) % N := by
  have lt := Nat.mod_lt k pos
  have step : (k + 1) % N = (k % N + 1) % N := (Nat.mod_add_mod k N 1).symm
  rw [step, nextSkip]
  split
  · next wraps => rw [wraps, Nat.mod_self]
  · next stays => exact (Nat.mod_eq_of_lt (by omega)).symm

/-- **One call.** It polls every branch once, starting with branch `k % N`, and answers `Pending`
while one of them is unfinished. -/
theorem poll_stateAfter [MaybeDone.Impl] (futs : (i : Fin N) → F i) (k : Nat) {fuel : Nat}
    (pos : 0 < N) (enough : 2 ≤ fuel) :
    ((∃ i, unfinished A E futs k i = true) ∧
      poll fuel (stateAfter futs k : JoinThenTry F A E) =
        .ok (.pending, visits futs k, stateAfter futs (k + 1))) ∨
    ∃ (outs : (i : Fin N) → Except E (A i)) (left : JoinThenTry F A E),
      (∀ i, ∃ n, n ≤ k ∧ Resolves (futs i) n (outs i)) ∧
      poll fuel (stateAfter futs k : JoinThenTry F A E) =
        .ok (.ready (collectBranches outs), visits futs k, left) := by
  have looped := loop_iteration (A := A) (E := E) futs k (Nat.mod_lt k pos) enough
  have start : visited (A := A) (E := E) futs k [] = fun i => MaybeDone.afterPolls (futs i) k :=
    rfl
  have ends : visited (A := A) (E := E) futs k (order N (k % N)) =
      fun i => MaybeDone.afterPolls (futs i) (k + 1) := by
    funext i
    rw [visited, if_pos (mem_order N (k % N) i)]
  rw [start, ends] at looped
  simp only [poll, stateAfter, looped, nextSkip_mod k pos]
  cases waiting : (order N (k % N)).any (unfinished A E futs k) with
  | true =>
      obtain ⟨i, -, unfinished⟩ := List.any_eq_true.mp waiting
      exact .inl ⟨⟨i, unfinished⟩, rfl⟩
  | false =>
      have finished : ∀ i, ∃ out n, n ≤ k ∧ Resolves (futs i) n out := by
        intro i
        have done := List.any_eq_false.mp waiting i (mem_order N (k % N) i)
        rw [unfinished, Bool.not_eq_true, Bool.not_eq_false'] at done
        obtain ⟨n, out, lt, resolves⟩ := MaybeDone.isDone_afterPolls.mp done
        exact ⟨out, n, Nat.le_of_lt_succ lt, resolves⟩
      choose outs finished using finished
      have done : (fun i => (MaybeDone.afterPolls (futs i) (k + 1) :
          MaybeDone (F i) (Except E (A i)))) = fun i => .done (outs i) := by
        funext i
        obtain ⟨n, le, resolves⟩ := finished i
        exact MaybeDone.afterPolls_of_resolves resolves (Nat.lt_succ_of_le le)
      obtain ⟨futures, taken⟩ := takeOutputs_done (F := F) outs
      refine .inr ⟨outs, ⟨futures, (k + 1) % N⟩, finished, ?_⟩
      rw [done]
      simp only [Bool.false_eq_true, if_false, taken, run_bind_ok]
      rfl

theorem poll_deterministic [MaybeDone.Impl] : Deterministic (poll (F := F) (A := A) (E := E)) := by
  intro fuel fuel' this r r' h h'
  unfold poll at h h'
  simp only at h h'
  split at h
  · cases h
  · next called =>
      split at h'
      · cases h'
      · next called' =>
          cases loop_unique called called'
          exact Except.ok.inj (h.symm.trans h')

end JoinThenTry

end CancelSafeFutures
