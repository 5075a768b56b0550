import CancelSafeFutures.Async.Poll
import Mathlib.Logic.Relation

/-!
# Loops that suspend

The body of a `poll` is often `loop { .. }`, left by a `break` or a `return`.  `loop body fuel s`
runs `body` for at most `fuel` passes and collects what the passes record; `Loops` is the same
without the bound, as a relation, and is what proofs are by induction on.

* `Head body s head`: a pass of the loop entered at `s` begins in `head`.
* `Loops.rule`: an invariant of the passes holds where the loop is left.
* `loop_returns`, `loop_terminates`: a weight, or a measure, that decreases with every pass bounds
  the passes needed.
* `Polls poll init calls s`: calls of `poll` made one after another lead from `init` to `s`, and
  `FirstReady` ends such a sequence of `Pending` answers with the first `Ready`.
-/

namespace Async

variable {σ β ε : Type}

/-- What a pass through a loop body leads to: round again, or out of the loop. -/
inductive Pass (σ β : Type) where
  | again (state : σ)
  | leave (value : β) (state : σ)

/-- Where a pass ends. -/
def Pass.state {σ β : Type} : Pass σ β → σ
  | .again s => s
  | .leave _ s => s

/-- At most `fuel` passes of `body`, with all they record. -/
def loop (body : σ → Run (List ε × Pass σ β)) : Nat → σ → Run (β × List ε × σ)
  | 0, _ => .error .outOfFuel
  | fuel + 1, s =>
    match body s with
    | .error halt => .error halt
    | .ok (log, .leave b s') => .ok (b, log, s')
    | .ok (log, .again s') =>
      match loop body fuel s' with
      | .error halt => .error halt
      | .ok (b, log', s'') => .ok (b, log ++ log', s'')

/-- Statements one after another, up to one that leaves the loop they are the body of. -/
def inTurn : List (σ → Run (List ε × Pass σ β)) → σ → Run (List ε × Pass σ β)
  | [], s => .ok ([], .again s)
  | stmt :: rest, s =>
    match stmt s with
    | .error halt => .error halt
    | .ok (log, .leave b s') => .ok (log, .leave b s')
    | .ok (log, .again s') =>
      match inTurn rest s' with
      | .error halt => .error halt
      | .ok (log', pass) => .ok (log ++ log', pass)

/-- What follows a list of statements runs where they go on. -/
theorem inTurn_append_eq (stmts rest : List (σ → Run (List ε × Pass σ β))) (s : σ) :
    inTurn (stmts ++ rest) s =
      match inTurn stmts s with
      | .error halt => .error halt
      | .ok (log, .leave b s') => .ok (log, .leave b s')
      | .ok (log, .again s') =>
        match inTurn rest s' with
        | .error halt => .error halt
        | .ok (log', pass) => .ok (log ++ log', pass) := by
  induction stmts generalizing s with
  | nil =>
      simp only [List.nil_append, inTurn]
      cases inTurn rest s <;> rfl
  | cons stmt stmts ih =>
      rw [List.cons_append, inTurn, inTurn]
      rcases stmt s with halt | ⟨log, s' | ⟨b, s'⟩⟩
      · rfl
      · simp only [ih]
        rcases inTurn stmts s' with halt | ⟨log', s'' | ⟨b, s''⟩⟩
        · rfl
        · cases rested : inTurn rest s'' with
          | error halt => simp only [rested]
          | ok outcome => simp only [rested, List.append_assoc]
        · rfl
      · rfl

theorem inTurn_append {stmts rest : List (σ → Run (List ε × Pass σ β))} {s s' : σ}
    {log log' : List ε} {pass : Pass σ β} (first : inTurn stmts s = .ok (log, .again s'))
    (second : inTurn rest s' = .ok (log', pass)) :
    inTurn (stmts ++ rest) s = .ok (log ++ log', pass) := by
  simp only [inTurn_append_eq, first, second]

/-- The loop entered at `s` is left in `s'` with value `b`, having recorded `log`. -/
inductive Loops (body : σ → Run (List ε × Pass σ β)) : σ → β → List ε → σ → Prop
  | leave {s s' b log} : body s = .ok (log, .leave b s') → Loops body s b log s'
  | again {s s' s'' b log log'} :
      body s = .ok (log, .again s') → Loops body s' b log' s'' →
      Loops body s b (log ++ log') s''

variable {body : σ → Run (List ε × Pass σ β)}

theorem Loops.of_loop {fuel : Nat} {s s' : σ} {b : β} {log : List ε}
    (h : loop body fuel s = .ok (b, log, s')) : Loops body s b log s' := by
  induction fuel generalizing s b log s' with
  | zero => cases h
  | succ fuel ih =>
      rw [loop] at h
      split at h
      · cases h
      · next left =>
          cases h
          exact .leave left
      · next again =>
          split at h
          · cases h
          · next rest =>
              cases h
              exact .again again (ih rest)

/-- Fuel that was enough stays enough. -/
theorem loop_mono {fuel fuel' : Nat} {s : σ} {r : β × List ε × σ}
    (h : loop body fuel s = .ok r) (le : fuel ≤ fuel') : loop body fuel' s = .ok r := by
  induction fuel generalizing fuel' s r with
  | zero => cases h
  | succ fuel ih =>
      obtain ⟨fuel', rfl⟩ : ∃ k, fuel' = k + 1 := ⟨fuel' - 1, by omega⟩
      rw [loop] at h ⊢
      split at h
      · cases h
      · exact h
      · split at h
        · cases h
        · next rest =>
            simp only [ih rest (Nat.le_of_succ_le_succ le)]
            exact h

/-- The loop has at most one result. -/
theorem loop_unique {fuel fuel' : Nat} {s : σ} {r r' : β × List ε × σ}
    (h : loop body fuel s = .ok r) (h' : loop body fuel' s = .ok r') : r = r' := by
  have same := (loop_mono h (Nat.le_max_left fuel fuel')).symm.trans
    (loop_mono h' (Nat.le_max_right fuel fuel'))
  cases same
  rfl

/-- The states in which the passes of a loop begin. -/
def Head (body : σ → Run (List ε × Pass σ β)) : σ → σ → Prop :=
  Relation.ReflTransGen fun s s' => ∃ log, body s = .ok (log, .again s')

/-- A loop that is left has no head other than its first state, or goes on from its second. -/
theorem Head.cases {s s' head : σ} {log : List ε} (again : body s = .ok (log, .again s'))
    (h : Head body s head) : head = s ∨ Head body s' head := by
  rcases Relation.ReflTransGen.cases_head h with rfl | ⟨next, ⟨log', step⟩, rest⟩
  · exact .inl rfl
  · rw [again] at step
    cases step
    exact .inr rest

theorem Head.eq_of_leave {s s' head : σ} {b : β} {log : List ε}
    (left : body s = .ok (log, .leave b s')) (h : Head body s head) : head = s := by
  rcases Relation.ReflTransGen.cases_head h with rfl | ⟨next, ⟨log', step⟩, _⟩
  · rfl
  · rw [left] at step
    cases step

/-- **Loop rule.** `I` relates the state at the head of a pass to all that was recorded so far. -/
theorem Loops.rule {I : σ → List ε → Prop} {P : β → List ε → σ → Prop}
    (again : ∀ {s log l s'}, I s log → body s = .ok (l, .again s') → I s' (log ++ l))
    (leave : ∀ {s log l b s'}, I s log → body s = .ok (l, .leave b s') → P b (log ++ l) s')
    {s s' : σ} {b : β} {log log' : List ε} (inv : I s log) (h : Loops body s b log' s') :
    P b (log ++ log') s' := by
  induction h generalizing log with
  | leave left => exact leave inv left
  | again step _ ih =>
      rw [← List.append_assoc]
      exact ih (again inv step)

/-- The rule for what does not depend on the record. -/
theorem Loops.rule_state {I : σ → Prop} {P : β → σ → Prop}
    (again : ∀ {s l s'}, I s → body s = .ok (l, .again s') → I s')
    (leave : ∀ {s l b s'}, I s → body s = .ok (l, .leave b s') → P b s')
    {s s' : σ} {b : β} {log : List ε} (inv : I s) (h : Loops body s b log s') : P b s' := by
  induction h with
  | leave left => exact leave inv left
  | again step _ ih => exact ih (again inv step)

/-- A loop that cannot panic and each of whose passes makes the state lighter is left after at most
one pass more than the state weighs.  A state may have several weights. -/
theorem loop_returns {W : Nat → σ → Prop} (safe : ∀ {w s}, W w s → ∃ r, body s = .ok r)
    (lighter : ∀ {w s log s'}, W w s → body s = .ok (log, .again s') → ∃ w' < w, W w' s')
    {w : Nat} {s : σ} (weighs : W w s) : ∃ r, loop body (w + 1) s = .ok r := by
  induction w using Nat.strongRecOn generalizing s with
  | ind w ih =>
      obtain ⟨⟨log, pass⟩, step⟩ := safe weighs
      cases pass with
      | leave b s' => exact ⟨(b, log, s'), by rw [loop, step]⟩
      | again s' =>
          obtain ⟨w', less, weighs'⟩ := lighter weighs step
          obtain ⟨⟨b, log', s''⟩, rest⟩ := ih w' less weighs'
          refine ⟨(b, log ++ log', s''), ?_⟩
          rw [loop, step]
          simp only [loop_mono rest (Nat.succ_le_of_lt less)]

/-- A measure that decreases with every pass bounds the passes needed. -/
theorem loop_terminates {I : σ → Prop} (measure : σ → Nat)
    (safe : ∀ {s}, I s → ∃ r, body s = .ok r)
    (decreases : ∀ {s log s'}, I s → body s = .ok (log, .again s') → I s' ∧ measure s' < measure s)
    {s : σ} (inv : I s) : ∃ r, loop body (measure s + 1) s = .ok r := by
  refine loop_returns (W := fun w s => I s ∧ measure s = w) (fun weighs => safe weighs.1) ?_
    ⟨inv, rfl⟩
  rintro w s log s' ⟨inv, rfl⟩ step
  obtain ⟨inv', less⟩ := decreases inv step
  exact ⟨measure s', less, inv', rfl⟩

/-! ## Polls one after another -/

/-- One call of `poll`: the states before and after it, its answer and what it recorded. -/
structure Call (σ β ε : Type) where
  before : σ
  answer : Poll β
  log : List ε
  after : σ

/-- The calls made one after another lead from `init` to `s`.  The number of passes a call may
take is not bounded. -/
inductive Polls (poll : Nat → σ → Run (Poll β × List ε × σ)) (init : σ) :
    List (Call σ β ε) → σ → Prop
  | start : Polls poll init [] init
  | poll {calls s answer log s' fuel} :
      Polls poll init calls s → poll fuel s = .ok (answer, log, s') →
      Polls poll init (calls ++ [⟨s, answer, log, s'⟩]) s'

/-- The first call that answers `Ready` is call number `n`, counting from zero.  It answers
`Ready b` and leaves `s`; `log` is all that was recorded up to its end. -/
inductive FirstReady (poll : Nat → σ → Run (Poll β × List ε × σ)) (init : σ) :
    Nat → List ε → β → σ → Prop
  | mk {calls s log s' fuel b} :
      Polls poll init calls s → (∀ call ∈ calls, call.answer = .pending) →
      poll fuel s = .ok (.ready b, log, s') →
      FirstReady poll init calls.length (calls.flatMap Call.log ++ log) b s'

/-- **Poll rule.** A property of the state and of all that was recorded, kept by every call with
an allowed answer. -/
theorem Polls.rule {poll : Nat → σ → Run (Poll β × List ε × σ)} {init : σ}
    {I : σ → List ε → Prop} {A : Poll β → Prop} (base : I init [])
    (step : ∀ {s log fuel answer log' s'}, A answer → I s log →
      poll fuel s = .ok (answer, log', s') → I s' (log ++ log'))
    {calls : List (Call σ β ε)} {s : σ} (h : Polls poll init calls s)
    (all : ∀ call ∈ calls, A call.answer) : I s (calls.flatMap Call.log) := by
  induction h with
  | start => exact base
  | @poll calls s answer log s' fuel _ step_eq ih =>
      rw [List.flatMap_append, List.flatMap_singleton]
      exact step (all ⟨s, answer, log, s'⟩ (by simp))
        (ih fun call mem => all call (List.mem_append_left _ mem)) step_eq

/-- The calls before call number `k` lead to the state it is made in. -/
theorem Polls.take {poll : Nat → σ → Run (Poll β × List ε × σ)} {init : σ}
    {calls : List (Call σ β ε)} {s : σ} (h : Polls poll init calls s) {k : Nat}
    {call : Call σ β ε} (at_k : calls[k]? = some call) :
    Polls poll init (calls.take k) call.before ∧
      ∃ fuel, poll fuel call.before = .ok (call.answer, call.log, call.after) := by
  induction h with
  | start => cases at_k
  | @poll calls s answer log s' fuel before step ih =>
      rcases Nat.lt_or_ge k calls.length with earlier | later
      · rw [List.getElem?_append_left earlier] at at_k
        rw [List.take_append_of_le_length (Nat.le_of_lt earlier)]
        exact ih at_k
      · have last : k = calls.length := by
          have bound := (List.getElem?_eq_some_iff.mp at_k).1
          rw [List.length_append, List.length_singleton] at bound
          omega
        subst last
        rw [List.getElem?_concat_length] at at_k
        cases at_k
        rw [List.take_left]
        exact ⟨before, fuel, step⟩

/-- Calls after calls. -/
theorem Polls.trans {poll : Nat → σ → Run (Poll β × List ε × σ)} {s s' s'' : σ}
    {calls calls' : List (Call σ β ε)} (first : Polls poll s calls s')
    (rest : Polls poll s' calls' s'') : Polls poll s (calls ++ calls') s'' := by
  induction rest with
  | start =>
      rw [List.append_nil]
      exact first
  | poll _ called ih =>
      rw [← List.append_assoc]
      exact ih.poll called

/-- One call more, at the beginning. -/
theorem Polls.cons {poll : Nat → σ → Run (Poll β × List ε × σ)} {fuel : Nat} {s s' s'' : σ}
    {answer : Poll β} {log : List ε} {calls : List (Call σ β ε)}
    (first : poll fuel s = .ok (answer, log, s')) (rest : Polls poll s' calls s'') :
    Polls poll s (⟨s, answer, log, s'⟩ :: calls) s'' :=
  .trans (.poll .start first) rest

/-- A call more that is answered `Pending` is one more before the first `Ready`. -/
theorem FirstReady.cons {poll : Nat → σ → Run (Poll β × List ε × σ)} {fuel n : Nat}
    {s s' s'' : σ} {log log' : List ε} {b : β} (first : poll fuel s = .ok (.pending, log, s'))
    (rest : FirstReady poll s' n log' b s'') :
    FirstReady poll s (n + 1) (log ++ log') b s'' := by
  obtain ⟨run, waits, last⟩ := rest
  have all := FirstReady.mk (run.cons first) (List.forall_mem_cons.mpr ⟨rfl, waits⟩) last
  rw [List.length_cons, List.flatMap_cons, List.append_assoc] at all
  exact all

/-- Every call of a sequence is a call of `poll`. -/
theorem Polls.call {poll : Nat → σ → Run (Poll β × List ε × σ)} {init : σ}
    {calls : List (Call σ β ε)} {s : σ} (h : Polls poll init calls s) {call : Call σ β ε}
    (mem : call ∈ calls) :
    ∃ fuel, poll fuel call.before = .ok (call.answer, call.log, call.after) := by
  obtain ⟨k, at_k⟩ := List.mem_iff_getElem?.mp mem
  exact (h.take at_k).2

/-- A call with its answer read in another way. -/
def Call.mapAnswer {γ : Type} (read : Poll β → Poll γ) (call : Call σ β ε) : Call σ γ ε :=
  ⟨call.before, read call.answer, call.log, call.after⟩

/-- Two ways to poll that agree, but for how the answer is read, wherever calls lead make the same
calls. -/
theorem Polls.map_iff {γ : Type} {poll : Nat → σ → Run (Poll β × List ε × σ)}
    {poll' : Nat → σ → Run (Poll γ × List ε × σ)} {read : Poll β → Poll γ} {I : σ → Prop}
    {init : σ} (base : I init)
    (kept : ∀ {fuel s answer log s'}, I s → poll fuel s = .ok (answer, log, s') → I s')
    (agree : ∀ {fuel s}, I s →
      poll' fuel s = (poll fuel s).map fun (answer, log, s') => (read answer, log, s'))
    {calls : List (Call σ γ ε)} {s : σ} :
    Polls poll' init calls s ↔
      ∃ calls₀, Polls poll init calls₀ s ∧ calls = calls₀.map (Call.mapAnswer read) := by
  have holds : ∀ {calls₀ s}, Polls poll init calls₀ s → I s := by
    intro calls₀ s run
    induction run with
    | start => exact base
    | poll _ called ih => exact kept ih called
  constructor
  · intro run
    induction run with
    | start => exact ⟨[], .start, rfl⟩
    | @poll calls s answer' log s' fuel _ called ih =>
        obtain ⟨calls₀, run₀, rfl⟩ := ih
        rw [agree (holds run₀)] at called
        cases called₀ : poll fuel s with
        | error halt =>
            rw [called₀] at called
            cases called
        | ok outcome =>
            obtain ⟨answer, log₀, s₀⟩ := outcome
            rw [called₀] at called
            cases called
            refine ⟨calls₀ ++ [⟨s, answer, log, s'⟩], run₀.poll called₀, ?_⟩
            rw [List.map_append, List.map_singleton]
            rfl
  · rintro ⟨calls₀, run₀, rfl⟩
    induction run₀ with
    | start => exact .start
    | @poll calls₀ s answer log s' fuel before called₀ ih =>
        rw [List.map_append, List.map_singleton]
        have called : poll' fuel s = .ok (read answer, log, s') := by
          rw [agree (holds before), called₀]
          rfl
        exact ih.poll called

/-- The fuel decides whether there is a result, not which. -/
def Deterministic (poll : Nat → σ → Run (Poll β × List ε × σ)) : Prop :=
  ∀ fuel fuel' s r r', poll fuel s = .ok r → poll fuel' s = .ok r' → r = r'

theorem Polls.unique {poll : Nat → σ → Run (Poll β × List ε × σ)} {init : σ}
    (det : Deterministic poll) {calls calls' : List (Call σ β ε)} {s s' : σ}
    (h : Polls poll init calls s) (h' : Polls poll init calls' s')
    (same : calls.length = calls'.length) : calls = calls' ∧ s = s' := by
  induction h generalizing calls' s' with
  | start =>
      cases h' with
      | start => exact ⟨rfl, rfl⟩
      | poll _ _ => simp at same
  | poll _ step ih =>
      cases h' with
      | start => simp at same
      | poll before' step' =>
          have same_before := ih before' (by simpa using same)
          obtain ⟨rfl, rfl⟩ := same_before
          cases det _ _ _ _ _ step step'
          exact ⟨rfl, rfl⟩

/-- **Polls after the end.** Once a future answers `Ready` to every poll, `value c` to the first of
them and `value c₀` from then on. -/
theorem Polls.afterwards {γ : Type} {poll : Nat → σ → Run (Poll β × List ε × σ)}
    {Over : γ → σ → Prop} {value : γ → β} {record : List ε} (c c₀ : γ)
    (det : Deterministic poll)
    (step : ∀ {c s}, Over c s →
      ∃ left, poll 1 s = .ok (.ready (value c), record, left) ∧ Over c₀ left)
    {s s' : σ} (past : Over c s) {calls : List (Call σ β ε)} (run : Polls poll s calls s') :
    Over (if calls = [] then c else c₀) s' ∧
      ∀ (k : Nat) call, calls[k]? = some call →
        call.log = record ∧ call.answer = .ready (value (if k = 0 then c else c₀)) := by
  induction run with
  | start => exact ⟨past, fun k call at_k => by cases at_k⟩
  | @poll calls s answer log s' fuel _ called ih =>
      obtain ⟨now, before⟩ := ih
      obtain ⟨left, called', past'⟩ := step now
      cases det _ _ _ _ _ called called'
      refine ⟨?_, fun k call at_k => ?_⟩
      · rw [if_neg (by simp)]
        exact past'
      · rcases Nat.lt_trichotomy k calls.length with earlier | rfl | later
        · rw [List.getElem?_append_left earlier] at at_k
          exact before k call at_k
        · rw [List.getElem?_concat_length] at at_k
          cases at_k
          simp only [List.length_eq_zero_iff, and_self]
        · rw [List.getElem?_eq_none (by simp; omega)] at at_k
          cases at_k

/-- **First-ready rule.** For a future whose `poll` is a loop: an invariant of the passes that is
kept by those that return `Pending` as well, up to the pass that returns `Ready`. -/
theorem FirstReady.rule {body : σ → Run (List ε × Pass σ (Poll β))} {init : σ}
    {I : σ → List ε → Prop} {P : β → List ε → σ → Prop} (base : I init [])
    (again : ∀ {s log l s'}, I s log → body s = .ok (l, .again s') → I s' (log ++ l))
    (pending : ∀ {s log l s'}, I s log → body s = .ok (l, .leave .pending s') → I s' (log ++ l))
    (ready : ∀ {s log l b s'}, I s log → body s = .ok (l, .leave (.ready b) s') → P b (log ++ l) s')
    {n : Nat} {log : List ε} {b : β} {s : σ} (run : FirstReady (loop body) init n log b s) :
    P b log s := by
  -- `P` where a call answers `Ready`, and the invariant where it answers `Pending`
  have call : ∀ {s log fuel answer l s'}, I s log → loop body fuel s = .ok (answer, l, s') →
      match answer with
      | .pending => I s' (log ++ l)
      | .ready b => P b (log ++ l) s' := by
    intro s log fuel answer l s' inv called
    refine Loops.rule (I := I) (P := fun answer log s => match answer with
      | .pending => I s log
      | .ready b => P b log s) again ?_ inv (Loops.of_loop called)
    intro s log l answer s' inv left
    cases answer with
    | pending => exact pending inv left
    | ready b => exact ready inv left
  obtain ⟨polls, waits, last⟩ := run
  have inv := polls.rule (I := I) (A := (· = .pending)) base
    (fun answer inv called => by
      subst answer
      exact call inv called)
    waits
  exact call inv last

/-- **Liveness.** If every call returns, and no more than `bound` of them answer `Pending` one after
another, then one of the first `bound + 1` calls answers `Ready`. -/
theorem FirstReady.exists_of_bounded {poll : Nat → σ → Run (Poll β × List ε × σ)} {init : σ}
    {bound : Nat}
    (returns : ∀ {calls s}, Polls poll init calls s → (∀ call ∈ calls, call.answer = .pending) →
      ∃ fuel r, poll fuel s = .ok r)
    (bounded : ∀ {calls s}, Polls poll init calls s → (∀ call ∈ calls, call.answer = .pending) →
      calls.length ≤ bound) :
    ∃ n ≤ bound, ∃ log b s, FirstReady poll init n log b s := by
  have reach : ∀ k, (∃ n < k, ∃ log b s, FirstReady poll init n log b s) ∨
      ∃ calls s, Polls poll init calls s ∧ (∀ call ∈ calls, call.answer = .pending) ∧
        calls.length = k := by
    intro k
    induction k with
    | zero => exact .inr ⟨[], init, .start, nofun, rfl⟩
    | succ k ih =>
        rcases ih with ⟨n, less, ready⟩ | ⟨calls, s, run, waits, rfl⟩
        · exact .inl ⟨n, Nat.lt_succ_of_lt less, ready⟩
        · obtain ⟨fuel, ⟨answer, log, s'⟩, called⟩ := returns run waits
          cases answer with
          | ready b => exact .inl ⟨_, Nat.lt_succ_self _, _, b, s', .mk run waits called⟩
          | pending =>
              refine .inr ⟨_, s', run.poll called, ?_, by simp⟩
              intro call mem
              rcases List.mem_append.mp mem with before | now
              · exact waits call before
              · rw [List.mem_singleton.mp now]
  rcases reach (bound + 1) with ⟨n, less, ready⟩ | ⟨calls, s, run, waits, length⟩
  · exact ⟨n, Nat.le_of_lt_succ less, ready⟩
  · have few := bounded run waits
    omega

/-- A run whose states are known: `Pending` from each but the last. -/
theorem FirstReady.of_states {poll : Nat → σ → Run (Poll β × List ε × σ)} {state : Nat → σ}
    {record : Nat → List ε} {fuel last : Nat} {b : β} {s' : σ}
    (waits : ∀ k < last, poll fuel (state k) = .ok (.pending, record k, state (k + 1)))
    (ready : poll fuel (state last) = .ok (.ready b, record last, s')) :
    FirstReady poll (state 0) last ((List.range (last + 1)).flatMap record) b s' := by
  have polls : ∀ k ≤ last, ∃ calls, Polls poll (state 0) calls (state k) ∧ calls.length = k ∧
      (∀ call ∈ calls, call.answer = .pending) ∧
      calls.flatMap Call.log = (List.range k).flatMap record := by
    intro k le
    induction k with
    | zero => exact ⟨[], .start, rfl, by simp, rfl⟩
    | succ k ih =>
        obtain ⟨calls, run, length, pending, recorded⟩ := ih (Nat.le_of_succ_le le)
        refine ⟨_, run.poll (waits k le), ?_, ?_, ?_⟩
        · rw [List.length_append, length, List.length_singleton]
        · intro call mem
          rcases List.mem_append.mp mem with before | now
          · exact pending call before
          · rw [List.mem_singleton.mp now]
        · rw [List.flatMap_append, List.flatMap_singleton, recorded, List.range_succ,
            List.flatMap_append, List.flatMap_singleton]
  obtain ⟨calls, run, rfl, pending, recorded⟩ := polls last (Nat.le_refl last)
  rw [List.range_succ, List.flatMap_append, List.flatMap_singleton, ← recorded]
  exact .mk run pending ready

/-- A future has one first `Ready`. -/
theorem FirstReady.unique {poll : Nat → σ → Run (Poll β × List ε × σ)} {init : σ}
    (det : Deterministic poll) {n n' : Nat} {log log' : List ε} {b b' : β} {s s' : σ}
    (h : FirstReady poll init n log b s) (h' : FirstReady poll init n' log' b' s') :
    n = n' ∧ log = log' ∧ b = b' ∧ s = s' := by
  have not_before : ∀ {calls calls' : List (Call σ β ε)} {s s' s₁ : σ} {fuel b log},
      Polls poll init calls s → poll fuel s = .ok (.ready b, log, s₁) →
      Polls poll init calls' s' → (∀ call ∈ calls', call.answer = .pending) →
      ¬ calls.length < calls'.length := by
    intro calls calls' s s' s₁ fuel b log polls last polls' pending' lt
    have at_k := List.getElem?_eq_getElem lt
    obtain ⟨before, fuel', call⟩ := polls'.take at_k
    have length : calls.length = (calls'.take calls.length).length := by
      rw [List.length_take, Nat.min_eq_left (Nat.le_of_lt lt)]
    obtain ⟨-, rfl⟩ := Polls.unique det polls before length
    have answer := congrArg Prod.fst (det _ _ _ _ _ last call)
    rw [pending' _ (List.getElem_mem lt)] at answer
    cases answer
  obtain ⟨polls, pending, last⟩ := h
  obtain ⟨polls', pending', last'⟩ := h'
  have same := Nat.le_antisymm (Nat.le_of_not_lt (not_before polls' last' polls pending))
    (Nat.le_of_not_lt (not_before polls last polls' pending'))
  obtain ⟨rfl, rfl⟩ := Polls.unique det polls polls' same
  cases det _ _ _ _ _ last last'
  exact ⟨rfl, rfl, rfl, rfl⟩

/-- Polled again and again, the future answers `Pending` exactly `n` times and then `Ready b`. -/
structure ReadyAt (poll : Nat → σ → Run (Poll β × List ε × σ)) (init : σ) (n : Nat) (b : β) :
    Prop where
  reached : ∃ log s, FirstReady poll init n log b s
  only : ∀ {n' log b' s}, FirstReady poll init n' log b' s → n' = n ∧ b' = b

theorem FirstReady.readyAt {poll : Nat → σ → Run (Poll β × List ε × σ)} {init : σ}
    (det : Deterministic poll) {n : Nat} {log : List ε} {b : β} {s : σ}
    (h : FirstReady poll init n log b s) : ReadyAt poll init n b where
  reached := ⟨log, s, h⟩
  only h' := by
    obtain ⟨same_n, -, same_b, -⟩ := h'.unique det h
    exact ⟨same_n, same_b⟩

end Async
