import CancelSafeFutures.Macros.JoinAgreement

/-!
# The rotation of `join_then_try!`

The two counters of the closure, apart from what the futures answer.  A call takes `skip` from
`skip_next_time` and polls the branches from number `skip` on and then those before it
(`loop_counts`); the next call starts one branch later, round and round
(`skipNextTime_of_polls`).  Neither counter is decremented at zero: a call that fails does so in
the `poll` of a branch.
-/

namespace CancelSafeFutures.JoinThenTry

open Async

variable {N : Nat} {F A : Fin N → Type} {E : Type} [∀ i, Future (F i) (Except E (A i))]

/-! ## The counters in one pass -/

/-- The failure of a poll of some branch. -/
def PollFails (F A : Fin N → Type) (E : Type) [∀ i, Future (F i) (Except E (A i))]
    [MaybeDone.Impl] (halt : Halt) : Prop :=
  ∃ (i : Fin N) (fut : MaybeDone (F i) (Except E (A i))), fut.poll = .error halt

/-- Whatever its future answers, a branch that is not skipped is polled. -/
theorem branch_counts [MaybeDone.Impl] (i : Fin N) {s : JoinLocals F A E} {toRun : Nat}
    (no_skip : s.skip = 0) (some_left : s.toRun = toRun + 1) :
    (∃ inner s', branch i s = .ok ([⟨i, inner⟩], .again s') ∧ s'.skip = 0 ∧ s'.toRun = toRun) ∨
      ∃ halt, branch i s = .error halt ∧ PollFails F A E halt := by
  cases polled : (s.futures i).poll with
  | error halt =>
      refine .inr ⟨halt, ?_, i, s.futures i, polled⟩
      simp only [branch, no_skip, some_left, if_true, Nat.add_one_ne_zero, if_false,
        decrement_succ, run_bind_ok, polled, run_bind_error]
  | ok outcome =>
      refine .inl ⟨outcome.inner, ⟨Function.update s.futures i outcome.this,
        s.isPending || outcome.answer.isPending, toRun, 0⟩, ?_, rfl, rfl⟩
      simp only [branch, no_skip, some_left, if_true, Nat.add_one_ne_zero, if_false,
        decrement_succ, run_bind_ok, polled]

/-- So are several, one after another. -/
theorem inTurn_counts [MaybeDone.Impl] (is : List (Fin N)) {s : JoinLocals F A E}
    (no_skip : s.skip = 0) (le : is.length ≤ s.toRun) :
    (∃ log s', inTurn (is.map branch) s = .ok (log, .again s') ∧ log.map Sigma.fst = is ∧
      s'.skip = 0 ∧ s'.toRun = s.toRun - is.length) ∨
      ∃ halt, inTurn (is.map branch) s = .error halt ∧ PollFails F A E halt := by
  induction is generalizing s with
  | nil => exact .inl ⟨[], s, rfl, rfl, no_skip, rfl⟩
  | cons i is ih =>
      rw [List.length_cons] at le
      obtain ⟨toRun, some_left⟩ : ∃ m, s.toRun = m + 1 := ⟨s.toRun - 1, by omega⟩
      rcases branch_counts i no_skip some_left with
        ⟨inner, s', this_branch, no_skip', left⟩ | ⟨halt, fails, poll_fails⟩
      · rcases ih no_skip' (by omega) with
          ⟨log, s'', rest, visited, no_skip'', left'⟩ | ⟨halt, fails, poll_fails⟩
        · refine .inl ⟨⟨i, inner⟩ :: log, s'', ?_, ?_, no_skip'', ?_⟩
          · simp only [List.map_cons, inTurn, this_branch, rest, List.singleton_append]
          · rw [List.map_cons, visited]
          · rw [left', left, some_left, List.length_cons, Nat.add_sub_add_right]
        · exact .inr ⟨halt, by simp only [List.map_cons, inTurn, this_branch, fails], poll_fails⟩
      · exact .inr ⟨halt, by simp only [List.map_cons, inTurn, fails], poll_fails⟩

/-! ## The counters in one call -/

/-- Where the loop is entered in a call. -/
def enter (this : JoinThenTry F A E) : JoinLocals F A E :=
  ⟨this.futures, false, N, this.skipNextTime⟩

/-- **The counters of the loop.** It ends within two passes, having polled every branch once,
unless the poll of a branch fails. -/
theorem loop_counts [MaybeDone.Impl] {this : JoinThenTry F A E} {fuel : Nat}
    (lt : this.skipNextTime < N) (enough : 2 ≤ fuel) :
    (∃ log left, loop iteration fuel this.enter = .ok ((), log, left) ∧
      log.map Sigma.fst = order N this.skipNextTime) ∨
      ∃ halt, loop iteration fuel this.enter = .error halt ∧ PollFails F A E halt := by
  have before_length := length_take_finRange lt
  have rest_length : ((List.finRange N).drop this.skipNextTime).length =
      N - this.skipNextTime := by
    rw [List.length_drop, List.length_finRange]
  rcases inTurn_counts ((List.finRange N).drop this.skipNextTime)
      (s := { this.enter with skip := 0 }) rfl (by rw [rest_length]; exact Nat.sub_le ..) with
    ⟨log₁, s₁, first, visited₁, no_skip₁, left₁⟩ | ⟨halt, fails, poll_fails⟩
  · have some_left : s₁.toRun = this.skipNextTime := by
      rw [left₁, rest_length]
      exact Nat.sub_sub_self (Nat.le_of_lt lt)
    rcases inTurn_counts ((List.finRange N).take this.skipNextTime) no_skip₁
        (by rw [before_length, some_left]) with
      ⟨log₂, s₂, second, visited₂, no_skip₂, left₂⟩ | ⟨halt, fails, poll_fails⟩
    · refine .inl ⟨log₁ ++ log₂, s₂, loop_of_halves lt enough first second no_skip₂ ?_, ?_⟩
      · rw [left₂, some_left, before_length, Nat.sub_self]
      · rw [List.map_append, visited₁, visited₂, order_eq lt]
    · exact .inr ⟨halt, loop_error_of_second lt enough first fails, poll_fails⟩
  · exact .inr ⟨halt, loop_error_of_first lt enough fails, poll_fails⟩

/-- A call that returns has been through the loop and has moved `skip_next_time` on. -/
theorem counts_of_poll [MaybeDone.Impl] {this this' : JoinThenTry F A E} {fuel : Nat}
    {answer : Poll (Except E ((i : Fin N) → A i))} {log : List (Visit A E)}
    (lt : this.skipNextTime < N) (called : this.poll fuel = .ok (answer, log, this')) :
    log.map Sigma.fst = order N this.skipNextTime ∧
      this'.skipNextTime = nextSkip N this.skipNextTime := by
  obtain ⟨left, looped, next⟩ : ∃ left, loop iteration fuel this.enter = .ok ((), log, left) ∧
      this'.skipNextTime = nextSkip N this.skipNextTime := by
    unfold poll at called
    simp only at called
    split at called
    · cases called
    · next left looped =>
        split at called
        · cases called
          exact ⟨_, looped, rfl⟩
        · cases taken : takeOutputs left.futures with
          | error halt =>
              rw [taken] at called
              cases called
          | ok taken' =>
              rw [taken] at called
              cases called
              exact ⟨_, looped, rfl⟩
  rcases loop_counts lt (Nat.le_max_right fuel 2) with
    ⟨log', left', looped', visited⟩ | ⟨halt, fails, -⟩
  · cases loop_unique looped looped'
    exact ⟨visited, next⟩
  · rw [loop_mono looped (Nat.le_max_left fuel 2)] at fails
    cases fails

/-! ## Runs -/

/-- Call number `k` skips `k % N` branches. -/
theorem skipNextTime_of_polls [MaybeDone.Impl] (pos : 0 < N) {futs : (i : Fin N) → F i}
    {calls : List (Call (JoinThenTry F A E) (Except E ((i : Fin N) → A i)) (Visit A E))}
    {this : JoinThenTry F A E} (run : Polls poll (new futs) calls this) :
    this.skipNextTime = calls.length % N := by
  induction run with
  | start => exact (Nat.zero_mod N).symm
  | poll _ called ih =>
      rw [(counts_of_poll (by rw [ih]; exact Nat.mod_lt _ pos) called).2, ih, nextSkip_mod _ pos,
        List.length_append, List.length_singleton]

/-- The branches from number `skip` on, and then those before it. -/
theorem order_val {skip : Nat} (lt : skip < N) :
    (order N skip).map Fin.val = List.range' skip (N - skip) ++ List.range skip := by
  rw [order_eq lt, List.map_append, List.map_drop, List.map_take, List.map_coe_finRange_eq_range,
    List.take_range, Nat.min_eq_left (Nat.le_of_lt lt), List.range_eq_range', List.drop_range',
    Nat.zero_add, Nat.mul_one, List.range_eq_range']

/-- What the counters make of the polls of `join_then_try!` over `futs`. -/
structure Rotates [MaybeDone.Impl] (A : Fin N → Type) (E : Type)
    [∀ i, Future (F i) (Except E (A i))] (futs : (i : Fin N) → F i) : Prop where
  /-- Call number `k` polls branch `k % N` and those after it, and then those before it. -/
  visits : ∀ {calls} {this : JoinThenTry F A E}, Polls poll (new futs) calls this →
    ∀ {k call}, calls[k]? = some call →
      call.log.map (fun visit => visit.1.val) =
        List.range' (k % N) (N - k % N) ++ List.range (k % N)
  /-- Up to the first `Ready` every call returns within two passes of the loop. -/
  returns : ∀ {calls} {this : JoinThenTry F A E}, Polls poll (new futs) calls this →
    (∀ call ∈ calls, call.answer = .pending) → ∀ fuel, 2 ≤ fuel → ∃ r, this.poll fuel = .ok r
  /-- Whatever was answered before, two passes are enough for the loop, and only the poll of a
  branch fails it: no counter is decremented at zero. -/
  loops : ∀ {calls} {this : JoinThenTry F A E}, Polls poll (new futs) calls this →
    ∀ fuel, 2 ≤ fuel → (∃ r, loop iteration fuel this.enter = .ok r) ∨
      ∃ halt, loop iteration fuel this.enter = .error halt ∧ PollFails F A E halt
  /-- `skip_next_time` is the number of a branch. -/
  below : ∀ {calls} {this : JoinThenTry F A E}, Polls poll (new futs) calls this →
    this.skipNextTime < N

/-- **Rotation.** Over any `N ≥ 1` branches, call number `k` polls every one of them exactly once,
starting with branch `k % N` and going round, in two passes of the loop. -/
theorem joinThenTry_rotates [MaybeDone.Impl] (N : Nat) (pos : 0 < N) {F A : Fin N → Type}
    {E : Type} [∀ i, Future (F i) (Except E (A i))] (futs : (i : Fin N) → F i) :
    Rotates A E futs where
  visits run k call at_k := by
    obtain ⟨before, fuel, called⟩ := run.take at_k
    have skip : call.before.skipNextTime = k % N := by
      rw [skipNextTime_of_polls pos before, List.length_take,
        Nat.min_eq_left (Nat.le_of_lt (List.getElem?_eq_some_iff.mp at_k).1)]
    have lt : k % N < N := Nat.mod_lt k pos
    have order := (counts_of_poll (by rw [skip]; exact lt) called).1
    rw [← order_val lt, ← skip, ← order, List.map_map]
    rfl
  returns run pending fuel enough := returns_of_pending pos run pending enough
  loops run fuel enough := by
    rcases loop_counts (by rw [skipNextTime_of_polls pos run]; exact Nat.mod_lt _ pos) enough with
      ⟨log, left, looped, -⟩ | fails
    · exact .inl ⟨_, looped⟩
    · exact .inr fails
  below run := by
    rw [skipNextTime_of_polls pos run]
    exact Nat.mod_lt _ pos

/-- Branches that suspend twice, once and not at all. -/
def threeBranches : Fin 3 → Script (Except Nat Nat)
  | 0 => ⟨[.pending, .pending, .ready (.ok 1)]⟩
  | 1 => ⟨[.pending, .ready (.error 2)]⟩
  | 2 => ⟨[.ready (.ok 3)]⟩

theorem joinThenTry_rotates_threeBranches :
    Rotates (fun _ => Nat) Nat threeBranches :=
  joinThenTry_rotates 3 (by decide) threeBranches

end CancelSafeFutures.JoinThenTry
