import CancelSafeFutures.Async.FutureSet

/-!
# `MaybeDone`

A `MaybeDone` is a future that keeps its output until it is taken.  It may be polled after it has
completed, but not after its output was taken.

* `MaybeDone.Impl`: the operations `poll` and `takeOutput`, as a contract.
* `MaybeDone.afterPolls fut k`: what has become of `fut` after `k` polls of its `MaybeDone`.
* `MaybeDone.innerAnswer fut k`: what `fut` itself answers in poll number `k`, if it is still
  polled there.
-/

namespace Async

/-- A future, its output, or neither. -/
inductive MaybeDone (F Out : Type) where
  | future (fut : F)
  | done (output : Out)
  | gone
  deriving DecidableEq, Repr

namespace MaybeDone

variable {F Out : Type}

/-- The outcome of one poll. -/
structure Polled (F Out : Type) where
  answer : Poll Unit
  /-- What the future inside answered, if it was polled. -/
  inner : Option (Poll Out)
  this : MaybeDone F Out

/-- The operations of a `MaybeDone`, with what they are documented to do.  What a poll does once
the output was taken is left open. -/
class Impl where
  poll {F Out : Type} [Future F Out] : MaybeDone F Out → Run (Polled F Out)
  takeOutput {F Out : Type} : MaybeDone F Out → Option Out × MaybeDone F Out
  poll_ready : ∀ {F Out : Type} [Future F Out] {fut fut' : F} {output : Out},
    Future.poll fut = (.ready output, fut') →
    poll (.future fut) = .ok ⟨.ready (), some (.ready output), .done output⟩
  poll_pending : ∀ {F Out : Type} [Future F Out] {fut fut' : F},
    Future.poll fut = (.pending, fut') →
    poll (.future fut : MaybeDone F Out) = .ok ⟨.pending, some .pending, .future fut'⟩
  poll_done : ∀ {F Out : Type} [Future F Out] (output : Out),
    poll (.done output : MaybeDone F Out) = .ok ⟨.ready (), none, .done output⟩
  takeOutput_done : ∀ {F Out : Type} (output : Out),
    takeOutput (.done output : MaybeDone F Out) = (some output, .gone)

/-- `MaybeDone::poll`. -/
def poll [Impl] [Future F Out] (this : MaybeDone F Out) : Run (Polled F Out) := Impl.poll this

/-- `MaybeDone::take_output`. -/
def takeOutput [Impl] (this : MaybeDone F Out) : Option Out × MaybeDone F Out :=
  Impl.takeOutput this

theorem takeOutput_done [Impl] (output : Out) :
    (.done output : MaybeDone F Out).takeOutput = (some output, .gone) :=
  Impl.takeOutput_done output

def isDone : MaybeDone F Out → Bool
  | .done _ => true
  | _ => false

/-- The future inside, if it is still there. -/
def held : MaybeDone F Out → Option F
  | .future fut => some fut
  | _ => none

theorem isDone_of_held {this : MaybeDone F Out} (unfinished : this.held.isSome = true) :
    this.isDone = false := by
  cases this with
  | done output => cases unfinished
  | _ => rfl

variable [Future F Out]

/-- The `MaybeDone` of `fut` after `k` polls. -/
def afterPolls (fut : F) : Nat → MaybeDone F Out
  | 0 => .future fut
  | k + 1 =>
    match afterPolls fut k with
    | .future fut =>
      match Future.poll fut with
      | (.ready output, _) => .done output
      | (.pending, fut) => .future fut
    | this => this

/-- The answer of the future inside in poll number `k`, counting from zero. -/
def innerAnswer (fut : F) (k : Nat) : Option (Poll Out) :=
  match (afterPolls fut k : MaybeDone F Out) with
  | .future fut => some (Future.poll fut).1
  | _ => none

/-! ## Which state a poll finds -/

theorem afterPolls_succ {fut cur : F} {k : Nat} (held : afterPolls fut k = .future cur) :
    afterPolls fut (k + 1) =
      match Future.poll cur with
      | (.ready output, _) => .done output
      | (.pending, next) => .future next := by
  rw [afterPolls, held]

theorem afterPolls_of_pendingFor {fut : F} {k : Nat} (waits : PendingFor fut k) :
    afterPolls fut k = .future (after fut k) := by
  induction k with
  | zero => rfl
  | succ k ih =>
      have before := ih fun j lt => waits j (Nat.lt_succ_of_lt lt)
      have last : (Future.poll (after fut k)).1 = .pending := waits k (Nat.lt_succ_self k)
      have polled : Future.poll (after fut k) = (.pending, (Future.poll (after fut k)).2) :=
        Prod.ext last rfl
      rw [afterPolls_succ before, after_succ, polled]

theorem afterPolls_of_resolves {fut : F} {n k : Nat} {out : Out} (resolves : Resolves fut n out)
    (lt : n < k) : afterPolls fut k = .done out := by
  induction k with
  | zero => exact (Nat.not_lt_zero n lt).elim
  | succ k ih =>
      rcases Nat.lt_succ_iff_lt_or_eq.mp lt with earlier | rfl
      · rw [afterPolls, ih earlier]
      · have last : (Future.poll (after fut n)).1 = .ready out := resolves.ready
        have polled : Future.poll (after fut n) = (.ready out, (Future.poll (after fut n)).2) :=
          Prod.ext last rfl
        rw [afterPolls_succ (afterPolls_of_pendingFor resolves.pending), polled]

/-- Every future is either still pending or has resolved. -/
theorem pendingFor_or_resolves (fut : F) (k : Nat) :
    PendingFor fut k ∨ ∃ n out, n < k ∧ Resolves fut n out := by
  induction k with
  | zero => exact .inl (.zero fut)
  | succ k ih =>
      rcases ih with waits | ⟨n, out, lt, resolves⟩
      · cases last : answer fut k with
        | pending => exact .inl (waits.succ last)
        | ready out => exact .inr ⟨k, out, Nat.lt_succ_self k, waits, last⟩
      · exact .inr ⟨n, out, Nat.lt_succ_of_lt lt, resolves⟩

theorem isDone_afterPolls {fut : F} {k : Nat} :
    (afterPolls fut k : MaybeDone F Out).isDone = true ↔ ∃ n out, n < k ∧ Resolves fut n out := by
  constructor
  · intro finished
    rcases pendingFor_or_resolves fut k with waits | resolved
    · rw [afterPolls_of_pendingFor waits] at finished
      cases finished
    · exact resolved
  · rintro ⟨n, out, lt, resolves⟩
    rw [afterPolls_of_resolves resolves lt]
    rfl

theorem innerAnswer_of_pendingFor {fut : F} {k : Nat} (waits : PendingFor fut k) :
    innerAnswer fut k = some (answer fut k) := by
  rw [innerAnswer, afterPolls_of_pendingFor waits]
  rfl

theorem innerAnswer_of_resolves {fut : F} {n k : Nat} {out : Out} (resolves : Resolves fut n out)
    (lt : n < k) : innerAnswer fut k = none := by
  rw [innerAnswer, afterPolls_of_resolves resolves lt]

/-- A future that is unfinished after a poll was polled in it. -/
theorem innerAnswer_of_unfinished {fut : F} {k : Nat}
    (unfinished : (afterPolls fut (k + 1) : MaybeDone F Out).isDone = false) :
    innerAnswer fut k = some (.pending : Poll Out) := by
  rcases pendingFor_or_resolves fut (k + 1) with waits | resolved
  · have last : answer fut k = .pending := waits k (Nat.lt_succ_self k)
    rw [innerAnswer_of_pendingFor fun j lt => waits j (Nat.lt_succ_of_lt lt), last]
  · rw [isDone_afterPolls.mpr resolved] at unfinished
    cases unfinished

/-- **One poll.** It answers `Ready` if the future has completed by its end, and it never finds
the output taken. -/
theorem poll_afterPolls [Impl] (fut : F) (k : Nat) :
    (afterPolls fut k).poll = .ok
      ⟨if (afterPolls fut (k + 1) : MaybeDone F Out).isDone then .ready () else .pending,
        innerAnswer fut k, afterPolls fut (k + 1)⟩ := by
  rcases pendingFor_or_resolves fut k with waits | ⟨n, out, lt, resolves⟩
  · have held := afterPolls_of_pendingFor waits
    rw [innerAnswer_of_pendingFor waits, afterPolls_succ held, held, answer, poll]
    cases polled : Future.poll (after fut k) with
    | mk answer fut' =>
        cases answer with
        | ready output => exact Impl.poll_ready polled
        | pending => exact Impl.poll_pending polled
  · rw [innerAnswer_of_resolves resolves lt, afterPolls_of_resolves resolves lt,
      afterPolls_of_resolves resolves (Nat.lt_succ_of_lt lt)]
    exact Impl.poll_done out

/-! ## All answers of the future inside -/

/-- The answers of the future inside in the first `k` polls. -/
def innerAnswers (fut : F) (k : Nat) : List (Poll Out) :=
  (List.range k).flatMap fun j => (innerAnswer fut j).toList

theorem innerAnswers_succ (fut : F) (k : Nat) :
    innerAnswers fut (k + 1) = innerAnswers fut k ++ (innerAnswer fut k).toList := by
  simp [innerAnswers, List.range_succ]

theorem innerAnswers_of_pendingFor {fut : F} {k : Nat} (waits : PendingFor fut k) :
    innerAnswers fut k = List.replicate k .pending := by
  induction k with
  | zero => rfl
  | succ k ih =>
      have before : PendingFor fut k := fun j lt => waits j (Nat.lt_succ_of_lt lt)
      have last : answer fut k = .pending := waits k (Nat.lt_succ_self k)
      rw [innerAnswers_succ, ih before, innerAnswer_of_pendingFor before, last,
        List.replicate_succ']
      rfl

/-- A future that resolves is polled up to its `Ready` and not beyond. -/
theorem innerAnswers_of_resolves {fut : F} {n k : Nat} {out : Out} (resolves : Resolves fut n out)
    (lt : n < k) : innerAnswers fut k = List.replicate n .pending ++ [.ready out] := by
  induction k with
  | zero => exact (Nat.not_lt_zero n lt).elim
  | succ k ih =>
      rw [innerAnswers_succ]
      rcases Nat.lt_succ_iff_lt_or_eq.mp lt with earlier | rfl
      · rw [ih earlier, innerAnswer_of_resolves resolves earlier]
        exact List.append_nil _
      · rw [innerAnswers_of_pendingFor resolves.pending,
          innerAnswer_of_pendingFor resolves.pending, resolves.ready]
        rfl

/-- What has become of a future inside a `MaybeDone`. -/
theorem progress_afterPolls (fut : F) (k : Nat) :
    Progress fut (innerAnswers fut k) (afterPolls fut k).held := by
  rcases pendingFor_or_resolves fut k with waits | ⟨n, out, lt, resolves⟩
  · rw [innerAnswers_of_pendingFor waits, afterPolls_of_pendingFor waits]
    exact .inFlight waits
  · rw [innerAnswers_of_resolves resolves lt, afterPolls_of_resolves resolves lt]
    exact .completed ⟨n, out, resolves, rfl⟩

/-- An implementation.  A poll after the output was taken panics. -/
instance : Impl where
  poll
    | .future fut =>
      match Future.poll fut with
      | (.ready output, _) => .ok ⟨.ready (), some (.ready output), .done output⟩
      | (.pending, fut) => .ok ⟨.pending, some .pending, .future fut⟩
    | .done output => .ok ⟨.ready (), none, .done output⟩
    | .gone => .error (.panicked "MaybeDone polled after value taken")
  takeOutput
    | .done output => (some output, .gone)
    | this => (none, this)
  poll_ready polled := by simp only [polled]
  poll_pending polled := by simp only [polled]
  poll_done _ := rfl
  takeOutput_done _ := rfl

end MaybeDone

end Async
