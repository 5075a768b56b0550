import CancelSafeFutures.Async.Poll
import Mathlib.Logic.Function.Basic

/-!
# Sets of futures

`FuturesUnordered` and `FuturesOrdered` own a number of futures, poll those that were woken, in
any order, and hand their outputs out: in the order of completion, or in the order of insertion.
Neither is given a body here.  Each is a class of the operations together with the contract the
operations are documented to keep, so a statement over the class is a statement about every
scheduling of the members.

Members are named by the order in which they were pushed.  `members q k` is the future number `k`
while it is in flight, and `log q` is the record of all polls of members so far.  The contract is
stated with `Serves`: the set only polls members in flight, each answer is the member's own, and
a member leaves the set exactly when it answers `Ready`.
-/

namespace Async

/-- Polls of members, in order: which member was polled and what it answered. -/
abbrev PollLog (Out : Type) := List (Nat × Poll Out)

/-- The answers of member `k`. -/
def answersOf {Out : Type} (k : Nat) (log : PollLog Out) : List (Poll Out) :=
  log.filterMap fun p => if p.1 = k then some p.2 else none

/-- The outputs of the members that completed, in the order in which they did. -/
def outputs {Out : Type} (log : PollLog Out) : List Out :=
  log.filterMap fun p => match p.2 with
    | .ready out => some out
    | .pending => none

section Logs

variable {Out : Type} {k : Nat} {log log' : PollLog Out}

@[simp] theorem answersOf_nil : answersOf k ([] : PollLog Out) = [] := rfl

@[simp] theorem answersOf_append :
    answersOf k (log ++ log') = answersOf k log ++ answersOf k log' :=
  List.filterMap_append

@[simp] theorem answersOf_cons_self {a : Poll Out} :
    answersOf k ((k, a) :: log) = a :: answersOf k log := by
  simp [answersOf]

theorem answersOf_cons_ne {j : Nat} {a : Poll Out} (h : j ≠ k) :
    answersOf k ((j, a) :: log) = answersOf k log := by
  simp [answersOf, h]

@[simp] theorem outputs_append : outputs (log ++ log') = outputs log ++ outputs log' :=
  List.filterMap_append

theorem mem_answersOf {a : Poll Out} (h : (k, a) ∈ log) : a ∈ answersOf k log :=
  List.mem_filterMap.mpr ⟨(k, a), h, by simp⟩

/-- Polls that were all answered `Pending` put out nothing. -/
theorem outputs_of_pending (h : ∀ p ∈ log, p.2 = .pending) : outputs log = [] := by
  rw [outputs, List.filterMap_eq_nil_iff]
  intro p mem
  rw [h p mem]

/-- The outputs among some answers. -/
def readies (answers : List (Poll Out)) : List Out :=
  answers.filterMap fun answer => match answer with
    | .ready out => some out
    | .pending => none

theorem readies_replicate (n : Nat) (out : Out) :
    readies (List.replicate n .pending ++ [.ready out]) = [out] := by
  have waits : readies (List.replicate n (.pending : Poll Out)) = [] := by
    rw [readies, List.filterMap_eq_nil_iff]
    intro answer mem
    rw [List.eq_of_mem_replicate mem]
  rw [readies, List.filterMap_append]
  exact congrArg (· ++ [out]) waits

/-- One element more at the front of one of several lists is one more of all of them. -/
theorem flatMap_perm_cons {α : Type} {ks : List Nat} {g g' : Nat → List α} {k : Nat} {a : α}
    (nodup : ks.Nodup) (mem : k ∈ ks) (at_k : g' k = a :: g k) (others : ∀ j ≠ k, g' j = g j) :
    (ks.flatMap g').Perm (a :: ks.flatMap g) := by
  induction ks with
  | nil => cases mem
  | cons j ks ih =>
      obtain ⟨not_mem, nodup⟩ := List.nodup_cons.mp nodup
      rw [List.flatMap_cons, List.flatMap_cons]
      by_cases same : j = k
      · subst same
        have rest : ks.flatMap g' = ks.flatMap g := by
          refine List.flatMap_congr fun i later => others i ?_
          rintro rfl
          exact not_mem later
        rw [at_k, rest, List.cons_append]
      · rw [others j same]
        have later := ih nodup ((List.mem_cons.mp mem).resolve_left (Ne.symm same))
        exact (later.append_left (g j)).trans List.perm_middle

/-- The outputs, member by member. -/
theorem outputs_perm {n : Nat} (known : ∀ p ∈ log, p.1 < n) :
    (outputs log).Perm ((List.range n).flatMap fun k => readies (answersOf k log)) := by
  induction log with
  | nil =>
      have none_ready : (List.range n).flatMap (fun k => readies (answersOf k ([] : PollLog Out))) =
          [] := List.flatMap_eq_nil_iff.mpr fun _ _ => rfl
      rw [none_ready]
      exact .nil
  | cons p log ih =>
      obtain ⟨j, answer⟩ := p
      have rest := ih fun p mem => known p (List.mem_cons_of_mem _ mem)
      have others : ∀ k, k ≠ j → answersOf k ((j, answer) :: log) = answersOf k log :=
        fun k ne => answersOf_cons_ne (Ne.symm ne)
      cases answer with
      | pending =>
          have same : ∀ k, readies (answersOf k ((j, .pending) :: log)) =
              readies (answersOf k log) := by
            intro k
            by_cases eq : k = j
            · subst eq
              rw [answersOf_cons_self]
              rfl
            · rw [others k eq]
          simp only [same]
          exact rest
      | ready out =>
          have first : outputs ((j, .ready out) :: log) = out :: outputs log := rfl
          rw [first]
          refine (rest.cons out).trans (flatMap_perm_cons List.nodup_range
            (List.mem_range.mpr (known _ List.mem_cons_self)) ?_ ?_).symm
          · rw [answersOf_cons_self]
            rfl
          · intro k ne
            rw [others k ne]

/-- How often the first `n` members answered `Pending`. -/
def suspensions (n : Nat) (log : PollLog Out) : Nat :=
  log.countP fun p => decide (p.1 < n) && p.2.isPending

/-- The suspensions, member by member. -/
theorem suspensions_succ (n : Nat) (log : PollLog Out) :
    suspensions (n + 1) log = suspensions n log + (answersOf n log).countP Poll.isPending := by
  induction log with
  | nil => rfl
  | cons p log ih =>
      obtain ⟨k, answer⟩ := p
      simp only [suspensions, List.countP_cons] at ih ⊢
      rcases Nat.lt_trichotomy k n with earlier | rfl | later
      · have below : k < n + 1 := Nat.lt_succ_of_lt earlier
        rw [answersOf_cons_ne (Nat.ne_of_lt earlier), ih]
        simp only [earlier, below]
        omega
      · rw [answersOf_cons_self, List.countP_cons, ih]
        simp
        omega
      · have not_below : ¬ k < n + 1 := by omega
        have beyond : ¬ k < n := by omega
        rw [answersOf_cons_ne (Nat.ne_of_gt later), ih]
        simp only [not_below, beyond]
        omega

/-- If there are no other members these are all. -/
theorem suspensions_eq {n : Nat} (known : ∀ p ∈ log, p.1 < n) :
    suspensions n log = log.countP fun p => p.2.isPending := by
  refine List.countP_congr fun p mem => ?_
  rw [decide_eq_true (known p mem), Bool.true_and]

end Logs

section Serves

variable {F Out : Type} [Future F Out]

/-- From the members `m`, the polls in `log` lead to the members `m'`. -/
inductive Serves : (Nat → Option F) → PollLog Out → (Nat → Option F) → Prop
  | nil {m} : Serves m [] m
  | pending {m m' k fut fut' log} :
      m k = some fut → Future.poll fut = (.pending, fut') →
      Serves (Function.update m k (some fut')) log m' → Serves m ((k, .pending) :: log) m'
  | ready {m m' k fut fut' out log} :
      m k = some fut → Future.poll fut = (.ready out, fut') →
      Serves (Function.update m k none) log m' → Serves m ((k, .ready out) :: log) m'

/-- What has become of a future that was handed over: it is still in flight after some `Pending`
answers, or it was polled up to its first `Ready` and is gone. -/
inductive Progress (fut : F) : List (Poll Out) → Option F → Prop
  | inFlight {n} : PendingFor fut n →
      Progress fut (List.replicate n .pending) (some (after fut n))
  | completed {answers} : RunToCompletion fut answers → Progress fut answers none

theorem Progress.start (fut : F) : Progress fut [] (some fut) := .inFlight (n := 0) (.zero fut)

theorem Progress.none_of_mem {fut : F} {answers : List (Poll Out)} {member : Option F} {out : Out}
    (h : Progress fut answers member) (mem : .ready out ∈ answers) : member = none := by
  cases h with
  | inFlight _ => cases List.eq_of_mem_replicate mem
  | completed _ => rfl

theorem Progress.completed_of_none {fut : F} {answers : List (Poll Out)}
    (h : Progress fut answers none) : RunToCompletion fut answers := by
  cases h with
  | completed done => exact done

/-- A future that has answered `Ready` was polled up to that answer and not beyond. -/
theorem Progress.resolves_of_mem {fut : F} {answers : List (Poll Out)} {member : Option F}
    {out : Out} (h : Progress fut answers member) (mem : .ready out ∈ answers) :
    RunToCompletion fut answers ∧ ∃ n, Resolves fut n out := by
  cases h with
  | inFlight _ => cases List.eq_of_mem_replicate mem
  | completed done =>
      obtain ⟨n, out', resolves, rfl⟩ := done
      rcases List.mem_append.mp mem with waits | last
      · cases List.eq_of_mem_replicate waits
      · cases List.mem_singleton.mp last
        exact ⟨⟨n, out, resolves, rfl⟩, n, resolves⟩

/-- A member that is not in flight is not polled, and does not come back. -/
theorem Serves.absent {m m' : Nat → Option F} {log : PollLog Out} {k : Nat}
    (h : Serves m log m') (gone : m k = none) : answersOf k log = [] ∧ m' k = none := by
  induction h with
  | nil => exact ⟨rfl, gone⟩
  | @pending m m' j fut fut' log held _ _ ih =>
      have ne : j ≠ k := by
        rintro rfl
        rw [gone] at held
        cases held
      rw [answersOf_cons_ne ne]
      exact ih (by rw [Function.update_of_ne ne.symm, gone])
  | @ready m m' j fut fut' out log held _ _ ih =>
      have ne : j ≠ k := by
        rintro rfl
        rw [gone] at held
        cases held
      rw [answersOf_cons_ne ne]
      exact ih (by rw [Function.update_of_ne ne.symm, gone])

/-- One poll of a future in flight. -/
theorem Progress.poll_pending {fut cur next : F} {answers : List (Poll Out)}
    (h : Progress fut answers (some cur)) (step : Future.poll cur = (.pending, next)) :
    Progress fut (answers ++ [.pending]) (some next) := by
  cases h with
  | @inFlight n waits =>
      rw [← List.replicate_succ', ← after_succ_of_poll step]
      exact .inFlight (waits.succ (answer_eq_of_poll step))

theorem Progress.poll_ready {fut cur next : F} {answers : List (Poll Out)} {out : Out}
    (h : Progress fut answers (some cur)) (step : Future.poll cur = (.ready out, next)) :
    Progress fut (answers ++ [.ready out]) none := by
  cases h with
  | @inFlight n waits => exact .completed ⟨n, out, ⟨waits, answer_eq_of_poll step⟩, rfl⟩

/-- **Serving a member.** The answers recorded for member `k` extend those it gave before, and
its state is the one those answers leave it in. -/
theorem Serves.progress {m m' : Nat → Option F} {log : PollLog Out} {k : Nat} {fut : F}
    {before : List (Poll Out)} (h : Serves m log m') (p : Progress fut before (m k)) :
    Progress fut (before ++ answersOf k log) (m' k) := by
  induction h generalizing before with
  | nil => simpa using p
  | @pending m m' j cur next log held step _ ih =>
      by_cases same : j = k
      · subst same
        rw [answersOf_cons_self, List.append_cons]
        apply ih
        rw [Function.update_self]
        rw [held] at p
        exact p.poll_pending step
      · rw [answersOf_cons_ne same]
        apply ih
        rwa [Function.update_of_ne (Ne.symm same)]
  | @ready m m' j cur next out log held step _ ih =>
      by_cases same : j = k
      · subst same
        rw [answersOf_cons_self, List.append_cons]
        apply ih
        rw [Function.update_self]
        rw [held] at p
        exact p.poll_ready step
      · rw [answersOf_cons_ne same]
        apply ih
        rwa [Function.update_of_ne (Ne.symm same)]

/-- Where there is no member nothing is polled. -/
theorem Serves.of_none {m m' : Nat → Option F} {log : PollLog Out} (h : Serves m log m')
    (none : ∀ k, m k = none) : log = [] ∧ m' = m := by
  cases h with
  | nil => exact ⟨rfl, rfl⟩
  | pending held _ _ =>
      rw [none] at held
      cases held
  | ready held _ _ =>
      rw [none] at held
      cases held

theorem Serves.trans {m m' m'' : Nat → Option F} {log log' : PollLog Out}
    (h : Serves m log m') (h' : Serves m' log' m'') : Serves m (log ++ log') m'' := by
  induction h with
  | nil => exact h'
  | pending held step _ ih => exact .pending held step (ih h')
  | ready held step _ ih => exact .ready held step (ih h')

/-- A future that will resolve does not suspend more often than before its output. -/
theorem Progress.suspensions_le {fut : F} {answers : List (Poll Out)} {member : Option F}
    {n : Nat} {out : Out} (h : Progress fut answers member) (resolves : Resolves fut n out) :
    answers.countP Poll.isPending ≤ n := by
  cases h with
  | @inFlight m waits =>
      rw [List.countP_replicate, Poll.isPending, if_pos rfl]
      by_contra more
      have ready := resolves.ready.symm.trans (waits n (Nat.lt_of_not_le more))
      cases ready
  | completed done =>
      obtain ⟨m, out', resolves', rfl⟩ := done
      obtain ⟨rfl, -⟩ := resolves.unique resolves'
      rw [List.countP_append, List.countP_replicate]
      exact Nat.le_refl _

/-- Awaited one after another, the futures suspend `n` times in all. -/
inductive SuspendFor : List F → Nat → Prop
  | nil : SuspendFor [] 0
  | concat {futs n fut m out} :
      SuspendFor futs n → Resolves fut m out → SuspendFor (futs ++ [fut]) (n + m)

/-- Polled in any order, they do not suspend more often. -/
theorem SuspendFor.suspensions_le {futs : List F} {n : Nat} {log : PollLog Out}
    (total : SuspendFor futs n)
    (each : ∀ k fut, futs[k]? = some fut → ∃ member, Progress fut (answersOf k log) member) :
    suspensions futs.length log ≤ n := by
  induction total with
  | nil => simp [suspensions]
  | @concat futs n fut m out _ resolves ih =>
      have before := ih fun k fut at_k => by
        refine each k fut ?_
        rw [List.getElem?_append_left (List.getElem?_eq_some_iff.mp at_k).1]
        exact at_k
      obtain ⟨member, last⟩ := each futs.length fut List.getElem?_concat_length
      have few := last.suspensions_le resolves
      rw [List.length_append, List.length_singleton, suspensions_succ]
      omega

end Serves

/-! ## The contracts -/

/-- `FuturesUnordered` over futures of type `F`. -/
class FuturesUnordered (Q : Type) (F Out : outParam Type) [Future F Out] where
  new : Q
  push : Q → F → Q
  len : Q → Nat
  pollNext : Q → Poll (Option Out) × Q
  /-- The futures in flight, by order of insertion. -/
  members : Q → Nat → Option F
  /-- How many futures were ever pushed. -/
  pushed : Q → Nat
  /-- All polls of members so far. -/
  log : Q → PollLog Out
  members_new : ∀ k, members new k = none
  pushed_new : pushed new = 0
  log_new : log new = []
  members_push : ∀ q fut, members (push q fut) = Function.update (members q) (pushed q) (some fut)
  pushed_push : ∀ q fut, pushed (push q fut) = pushed q + 1
  log_push : ∀ q fut, log (push q fut) = log q
  len_new : len new = 0
  len_push : ∀ q fut, len (push q fut) = len q + 1
  len_eq_zero : ∀ q, len q = 0 ↔ ∀ k, members q k = none
  pushed_pollNext : ∀ q, pushed (pollNext q).2 = pushed q
  /-- `Ready(Some(output))`: members were polled until one completed, and it has left. -/
  pollNext_some : ∀ {q out q'}, pollNext q = (.ready (some out), q') →
    ∃ waits k, (∀ p ∈ waits, p.2 = .pending) ∧ log q' = log q ++ waits ++ [(k, .ready out)] ∧
      Serves (members q) (waits ++ [(k, .ready out)]) (members q') ∧ len q = len q' + 1
  /-- `Ready(None)` is the answer of the empty set, and only of it. -/
  pollNext_none : ∀ {q q'}, pollNext q = (.ready none, q') →
    len q = 0 ∧ len q' = 0 ∧ log q' = log q
  /-- `Pending`: no member completed, and there is one. -/
  pollNext_pending : ∀ {q q'}, pollNext q = (.pending, q') →
    ∃ waits, (∀ p ∈ waits, p.2 = .pending) ∧ log q' = log q ++ waits ∧
      Serves (members q) waits (members q') ∧ len q' = len q ∧ 0 < len q

/-- A set that polls some member before it answers `Pending`, as one that polls only those that were
woken does not. -/
def FuturesUnordered.Prompt (Q : Type) {F Out : Type} [Future F Out] [FuturesUnordered Q F Out] :
    Prop :=
  ∀ {q q' : Q}, pollNext q = (.pending, q') → log q' ≠ log q

section Silence

variable {Q F Out : Type} [Future F Out] [FuturesUnordered Q F Out] {q : Q}

/-- The set after `n` calls of `pollNext`. -/
def FuturesUnordered.afterPolls (q : Q) : Nat → Q
  | 0 => q
  | n + 1 => afterPolls (pollNext q).2 n

/-- The next call answers `Pending` and polls no member. -/
def FuturesUnordered.Silent (q : Q) : Prop :=
  (pollNext q).1 = .pending ∧ log (pollNext q).2 = log q

/-- So do all calls to come: no member is woken any more. -/
def FuturesUnordered.Dormant (q : Q) : Prop := ∀ n, Silent (afterPolls q n)

theorem FuturesUnordered.Dormant.silent (dormant : Dormant q) : Silent q := dormant 0

theorem FuturesUnordered.Dormant.next (dormant : Dormant q) : Dormant (pollNext q).2 :=
  fun n => dormant (n + 1)

/-- A set is dormant, or stirs after so many polls. -/
theorem FuturesUnordered.dormant_or (q : Q) :
    ∃ n, Dormant q ∨ ¬ Silent (afterPolls q n) := by
  by_cases dormant : Dormant q
  · exact ⟨0, .inl dormant⟩
  · obtain ⟨n, stirs⟩ := not_forall.mp dormant
    exact ⟨n, .inr stirs⟩

/-- No member leaves then. -/
theorem FuturesUnordered.Silent.len (silent : Silent q) : len (pollNext q).2 = len q := by
  rcases polled : pollNext q with ⟨answer, q'⟩
  obtain ⟨pending, -⟩ := silent
  rw [polled] at pending
  cases pending
  obtain ⟨-, -, -, -, same, -⟩ := pollNext_pending polled
  exact same

theorem FuturesUnordered.Prompt.not_silent (prompt : Prompt Q) : ¬ Silent q := by
  rintro ⟨pending, silent⟩
  exact prompt (Prod.ext pending rfl) silent

end Silence

/-- How many futures completed in a call of `pollNext`. -/
def completions {Out : Type} : Poll (Option Out) → Nat
  | .ready (some _) => 1
  | _ => 0

/-- The futures in flight are those there were, less the one that completed. -/
theorem FuturesUnordered.len_pollNext {Q F Out : Type} [Future F Out] [FuturesUnordered Q F Out]
    {q q' : Q} {answer : Poll (Option Out)} (polled : pollNext q = (answer, q')) :
    len q = len q' + completions answer := by
  rcases answer with (_ | out) | _
  · obtain ⟨empty, empty', -⟩ := pollNext_none polled
    rw [empty, empty']
    rfl
  · obtain ⟨-, -, -, -, -, len⟩ := pollNext_some polled
    exact len
  · obtain ⟨-, -, -, -, len, -⟩ := pollNext_pending polled
    exact len.symm

/-- The empty set has nothing to poll, and stays empty. -/
theorem FuturesUnordered.poll_empty {Q F Out : Type} [Future F Out] [FuturesUnordered Q F Out]
    {q : Q} (empty : len q = 0) :
    ∃ q', pollNext q = (.ready none, q') ∧ len q' = 0 ∧ log q' = log q := by
  rcases polled : pollNext q with ⟨(_ | out) | _, q'⟩
  · exact ⟨q', rfl, (pollNext_none polled).2⟩
  · obtain ⟨-, -, -, -, -, len⟩ := pollNext_some polled
    omega
  · obtain ⟨-, -, -, -, -, pos⟩ := pollNext_pending polled
    omega

/-- `FuturesOrdered` over futures of type `F`. -/
class FuturesOrdered (Q : Type) (F Out : outParam Type) [Future F Out] where
  new : Q
  pushBack : Q → F → Q
  pollNext : Q → Poll (Option Out) × Q
  members : Q → Nat → Option F
  pushed : Q → Nat
  log : Q → PollLog Out
  /-- How many outputs were handed out. -/
  yielded : Q → Nat
  members_new : ∀ k, members new k = none
  pushed_new : pushed new = 0
  log_new : log new = []
  yielded_new : yielded new = 0
  members_pushBack : ∀ q fut,
    members (pushBack q fut) = Function.update (members q) (pushed q) (some fut)
  pushed_pushBack : ∀ q fut, pushed (pushBack q fut) = pushed q + 1
  log_pushBack : ∀ q fut, log (pushBack q fut) = log q
  yielded_pushBack : ∀ q fut, yielded (pushBack q fut) = yielded q
  pushed_pollNext : ∀ q, pushed (pollNext q).2 = pushed q
  log_pollNext : ∀ q, ∃ polls, log (pollNext q).2 = log q ++ polls ∧
    Serves (members q) polls (members (pollNext q).2)
  /-- The outputs come in the order of insertion, each after its future completed. -/
  pollNext_some : ∀ {q out q'}, pollNext q = (.ready (some out), q') →
    (yielded q, .ready out) ∈ log q' ∧ yielded q' = yielded q + 1 ∧ yielded q < pushed q
  /-- `Ready(None)` once every output was handed out. -/
  pollNext_none : ∀ {q q'}, pollNext q = (.ready none, q') →
    yielded q = pushed q ∧ yielded q' = yielded q
  pollNext_pending : ∀ {q q'}, pollNext q = (.pending, q') →
    yielded q < pushed q ∧ yielded q' = yielded q

/-- All that was pushed has completed and was handed out. -/
structure FuturesOrdered.Exhausted {Q F Out : Type} [Future F Out] [FuturesOrdered Q F Out]
    (q : Q) : Prop where
  yielded : yielded q = pushed q
  members : ∀ k, members q k = none

/-- It stays so, and the set has nothing to poll. -/
theorem FuturesOrdered.Exhausted.poll {Q F Out : Type} [Future F Out] [FuturesOrdered Q F Out]
    {q : Q} (exhausted : Exhausted q) :
    ∃ q', pollNext q = (.ready none, q') ∧ Exhausted q' ∧ log q' = log q := by
  obtain ⟨polls, record, serves⟩ := log_pollNext q
  obtain ⟨rfl, same⟩ := serves.of_none exhausted.members
  have pushed := pushed_pollNext q
  rcases polled : pollNext q with ⟨(_ | out) | _, q'⟩
  · rw [polled] at record same pushed
    have yielded := (pollNext_none polled).2
    refine ⟨q', rfl, ⟨?_, fun k => same ▸ exhausted.members k⟩, by rw [record, List.append_nil]⟩
    rw [yielded, pushed, exhausted.yielded]
  · exact absurd exhausted.yielded (Nat.ne_of_lt (pollNext_some polled).2.2)
  · exact absurd exhausted.yielded (Nat.ne_of_lt (pollNext_pending polled).1)

end Async
