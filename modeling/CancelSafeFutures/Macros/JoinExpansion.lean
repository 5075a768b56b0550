import CancelSafeFutures.Macros.JoinRotation

/-!
# The expansion of `join_then_try!`

`JoinThenTry` is the code the macro expands to, for `N` branches; this module is the macro.  Its
rules take one branch at a time off the tokens that are left and keep, between braces, one `_` for
each branch taken, the sum `0 + 1 + .. + 1` and the branches so far, each with the `_` there were
before it.  `step` is one expansion, `expand` all of them.

The last rule writes code that finds its futures by those `_` (`component`) and counts them by that
sum (`constant`).  `compile` is what `rustc` makes of it and `Program.poll` the closure that runs.

* `expand_iff`: which sequences of expressions and commas expand, at the entry point and after
  braces, how many expansions that takes, and to what.
* `expansion_faithful`: the program is the join of exactly the expressions given, in their order.
-/

namespace CancelSafeFutures.JoinExpansion

open Async

/-! ## The rules -/

/-- What is left to expand: expressions, each parsed as one `$e:expr`, and commas. -/
inductive Token (X : Type) where
  | expr (e : X)
  | comma
  deriving DecidableEq, Repr

/-- The token `_`. -/
inductive Underscore where
  | underscore
  deriving DecidableEq, Repr

/-- The tokens of `0 + 1 + .. + 1`. -/
inductive SumToken where
  | zero
  | plus
  | one
  deriving DecidableEq, Repr

/-- `( $($skip)* ) $e,`. -/
structure Branch (X : Type) where
  skip : List Underscore
  e : X
  deriving DecidableEq, Repr

/-- What an internal call has between its braces. -/
structure Braces (X : Type) where
  count : List Underscore
  total : List SumToken
  branches : List (Branch X)
  deriving DecidableEq, Repr

/-- A call of the macro: by the expressions alone, or by `@{ .. } ..`, as its own rules write it
and a caller could too. -/
inductive Invocation (X : Type) where
  | entry (tokens : List (Token X))
  | internal (braces : Braces X) (tokens : List (Token X))
  deriving DecidableEq, Repr

/-- The code that is left when no call of the macro is. -/
inductive Code (X : Type) where
  /-- The `poll_fn` over the branches between the braces. -/
  | pollFn (braces : Braces X)
  /-- `async { Ok(()) }.await`. -/
  | okUnit
  deriving DecidableEq, Repr

/-- What one rule writes. -/
inductive Written (X : Type) where
  | call (invocation : Invocation X)
  | code (code : Code X)

/-- Why there is no code. -/
inductive Refusal where
  | noRules
  | recursionLimit
  deriving DecidableEq, Repr

variable {X : Type}

/-- The matcher `$($e:expr),+ $(,)?`. -/
def matchExprs : List (Token X) → Option (List X)
  | [.expr e] => some [e]
  | [.expr e, .comma] => some [e]
  | .expr e :: .comma :: tokens => (matchExprs tokens).map (e :: ·)
  | _ => none

/-- The transcriber `$($e,)*`. -/
def eachComma : List X → List (Token X)
  | [] => []
  | e :: es => .expr e :: .comma :: eachComma es

/-- One expansion, by the first rule that matches. -/
def step : Invocation X → Except Refusal (Written X)
  | .internal braces [] => .ok (.code (.pollFn braces))
  | .internal ⟨s, n, t⟩ (.expr e :: .comma :: r) =>
    .ok (.call (.internal ⟨s ++ [.underscore], n ++ [.plus, .one], t ++ [⟨s, e⟩]⟩ r))
  | .internal _ _ => .error .noRules
  | .entry tokens =>
    match matchExprs tokens with
    | some es => .ok (.call (.internal ⟨[], [.zero], []⟩ (eachComma es)))
    | none =>
      match tokens with
      | [] => .ok (.code .okUnit)
      | _ => .error .noRules

/-- All expansions, at most `limit` of them nested. -/
def expand : Nat → Invocation X → Except Refusal (Code X)
  | 0, _ => .error .recursionLimit
  | limit + 1, invocation =>
    match step invocation with
    | .error refusal => .error refusal
    | .ok (.code code) => .ok code
    | .ok (.call invocation) => expand limit invocation

/-! ## What they accept, and what they leave -/

/-- The expressions with commas between them. -/
def commaBetween : List X → List (Token X)
  | [] => []
  | [e] => [.expr e]
  | e :: es => .expr e :: .comma :: commaBetween es

/-- The branches of `es`, after `taken` others. -/
def branchesFrom (taken : Nat) : List X → List (Branch X)
  | [] => []
  | e :: es => ⟨List.replicate taken .underscore, e⟩ :: branchesFrom (taken + 1) es

/-- `+ 1`, once for each branch. -/
def plusOnes : Nat → List SumToken
  | 0 => []
  | n + 1 => .plus :: .one :: plusOnes n

/-- The braces when the branches of `es` have been taken. -/
def normal (es : List X) : Braces X where
  count := List.replicate es.length .underscore
  total := .zero :: plusOnes es.length
  branches := branchesFrom 0 es

theorem plusOnes_append (n : Nat) : plusOnes n ++ [.plus, .one] = plusOnes (n + 1) := by
  induction n with
  | zero => rfl
  | succ n ih => rw [plusOnes, List.cons_append, List.cons_append, ih, ← plusOnes]

@[simp] theorem length_branchesFrom (taken : Nat) (es : List X) :
    (branchesFrom taken es).length = es.length := by
  induction es generalizing taken with
  | nil => rfl
  | cons e es ih => rw [branchesFrom, List.length_cons, ih, List.length_cons]

theorem map_e_branchesFrom (taken : Nat) (es : List X) :
    (branchesFrom taken es).map Branch.e = es := by
  induction es generalizing taken with
  | nil => rfl
  | cons e es ih => rw [branchesFrom, List.map_cons, ih]

/-- A list of expressions matches with or without a comma at its end, and nothing else does. -/
theorem matchExprs_iff (tokens : List (Token X)) (es : List X) :
    matchExprs tokens = some es ↔
      es ≠ [] ∧ (tokens = commaBetween es ∨ tokens = eachComma es) := by
  constructor
  · intro matched
    induction tokens using matchExprs.induct generalizing es with
    | case1 e =>
        cases matched
        exact ⟨List.cons_ne_nil _ _, .inl rfl⟩
    | case2 e =>
        cases matched
        exact ⟨List.cons_ne_nil _ _, .inr rfl⟩
    | case3 e tokens more ih =>
        rw [matchExprs] at matched
        · obtain ⟨rest, matched_rest, rfl⟩ := Option.map_eq_some_iff.mp matched
          obtain ⟨ne, rfl | rfl⟩ := ih rest matched_rest
          · obtain ⟨e', rest, rfl⟩ := List.exists_cons_of_ne_nil ne
            exact ⟨List.cons_ne_nil _ _, .inl rfl⟩
          · exact ⟨List.cons_ne_nil _ _, .inr rfl⟩
        · exact more
    | case4 tokens not_one not_one_comma not_more =>
        rw [matchExprs] at matched
        · cases matched
        · exact not_one
        · exact not_one_comma
        · exact not_more
  · rintro ⟨ne, rfl | rfl⟩
    · induction es with
      | nil => exact (ne rfl).elim
      | cons e es ih =>
          cases es with
          | nil => rfl
          | cons e' es =>
              rw [commaBetween, matchExprs, ih (List.cons_ne_nil _ _)]
              · rfl
              · cases es <;> exact List.cons_ne_nil _ _
              · simp
    · induction es with
      | nil => exact (ne rfl).elim
      | cons e es ih =>
          cases es with
          | nil => rfl
          | cons e' es =>
              rw [eachComma, matchExprs, ih (List.cons_ne_nil _ _)]
              · rfl
              · exact List.cons_ne_nil _ _

/-! ## The expansions -/

theorem branchesFrom_append (taken : Nat) (es : List X) (e : X) :
    branchesFrom taken (es ++ [e]) =
      branchesFrom taken es ++ [⟨List.replicate (taken + es.length) .underscore, e⟩] := by
  induction es generalizing taken with
  | nil => rfl
  | cons e' es ih =>
      rw [List.cons_append, branchesFrom, ih, branchesFrom, List.cons_append, List.length_cons,
        Nat.add_right_comm, Nat.add_assoc]

/-- **One branch taken** is one more `_`, one more `+ 1` and one more branch. -/
theorem append_normal (done : List X) (e : X) :
    ⟨(normal done).count ++ [.underscore], (normal done).total ++ [.plus, .one],
      (normal done).branches ++ [⟨(normal done).count, e⟩]⟩ = normal (done ++ [e]) := by
  have total : (normal done).total ++ [.plus, .one] = (normal (done ++ [e])).total := by
    simp only [normal, List.length_append, List.length_singleton, List.cons_append,
      plusOnes_append]
  have count : (normal done).count ++ [.underscore] = (normal (done ++ [e])).count := by
    simp only [normal, List.length_append, List.length_singleton, List.replicate_succ']
  have branches : (normal done).branches ++ [⟨(normal done).count, e⟩] =
      (normal (done ++ [e])).branches := by
    simp only [normal, branchesFrom_append, Nat.zero_add]
  rw [total, count, branches]

/-- The braces when the branches of `es` have been taken, too. -/
def Braces.take (braces : Braces X) : List X → Braces X
  | [] => braces
  | e :: es => Braces.take ⟨braces.count ++ [.underscore], braces.total ++ [.plus, .one],
      braces.branches ++ [⟨braces.count, e⟩]⟩ es

/-- One after another, that is one `_`, one `+ 1` and one branch for each. -/
theorem take_normal (done es : List X) : (normal done).take es = normal (done ++ es) := by
  induction es generalizing done with
  | nil => rw [List.append_nil, Braces.take]
  | cons e es ih => rw [Braces.take, append_normal, ih, List.append_assoc, List.singleton_append]

/-- Expressions with a comma after each are taken to the last, with one expansion for each and
one for the code. -/
theorem expand_internal (limit : Nat) (braces : Braces X) (es : List X) :
    expand limit (.internal braces (eachComma es)) =
      if es.length < limit then .ok (.pollFn (braces.take es)) else .error .recursionLimit := by
  induction es generalizing limit braces with
  | nil =>
      cases limit with
      | zero => rfl
      | succ limit =>
          have enough : ([] : List X).length < limit + 1 := Nat.zero_lt_succ limit
          rw [if_pos enough]
          rfl
  | cons e es ih =>
      cases limit with
      | zero => rfl
      | succ limit =>
          rw [eachComma, expand, step]
          simp only [ih, Braces.take, List.length_cons, Nat.add_lt_add_iff_right]

/-- No other sequence of expressions and commas is. -/
theorem expand_internal_iff (limit : Nat) (braces : Braces X) (tokens : List (Token X))
    (code : Code X) :
    expand limit (.internal braces tokens) = .ok code ↔
      ∃ es, tokens = eachComma es ∧ es.length + 1 ≤ limit ∧ code = .pollFn (braces.take es) := by
  constructor
  · intro expands
    induction limit generalizing braces tokens with
    | zero => cases expands
    | succ limit ih =>
        rcases tokens with _ | ⟨e | _, _ | ⟨_ | _, tokens⟩⟩
        · cases expands
          exact ⟨[], rfl, Nat.succ_le_succ (Nat.zero_le limit), rfl⟩
        · cases expands
        · cases expands
        · obtain ⟨es, rfl, enough, rfl⟩ := ih _ _ expands
          exact ⟨e :: es, rfl, Nat.succ_le_succ enough, rfl⟩
        · cases expands
        · cases expands
        · cases expands
  · rintro ⟨es, rfl, enough, rfl⟩
    rw [expand_internal]
    exact if_pos enough

/-- What the entry point takes. -/
theorem expand_entry_iff (limit : Nat) (tokens : List (Token X)) (code : Code X) :
    expand limit (.entry tokens) = .ok code ↔
      (tokens = [] ∧ 1 ≤ limit ∧ code = .okUnit) ∨
      ∃ es, es ≠ [] ∧ (tokens = commaBetween es ∨ tokens = eachComma es) ∧
        es.length + 2 ≤ limit ∧ code = .pollFn (normal es) := by
  cases limit with
  | zero =>
      constructor
      · intro expands
        cases expands
      · rintro (⟨-, enough, -⟩ | ⟨es, -, -, enough, -⟩) <;> omega
  | succ limit =>
      cases matched : matchExprs tokens with
      | none =>
          have unmatched : ∀ es, es ≠ [] →
              ¬ (tokens = commaBetween es ∨ tokens = eachComma es) := by
            intro es ne written
            rw [(matchExprs_iff tokens es).mpr ⟨ne, written⟩] at matched
            cases matched
          cases tokens with
          | nil =>
              constructor
              · intro expands
                cases expands
                exact .inl ⟨rfl, Nat.succ_le_succ (Nat.zero_le limit), rfl⟩
              · rintro (⟨-, -, rfl⟩ | ⟨es, ne, written, -⟩)
                · rfl
                · exact (unmatched es ne written).elim
          | cons token tokens =>
              constructor
              · intro expands
                simp only [expand, step, matched] at expands
                cases expands
              · rintro (⟨empty, -⟩ | ⟨es, ne, written, -⟩)
                · cases empty
                · exact (unmatched es ne written).elim
      | some es =>
          obtain ⟨ne, written⟩ := (matchExprs_iff tokens es).mp matched
          have expanded : expand (limit + 1) (.entry tokens) =
              if es.length < limit then .ok (.pollFn (normal es)) else .error .recursionLimit := by
            simp only [expand, step, matched]
            have taken := expand_internal limit (normal []) es
            rw [take_normal, List.nil_append] at taken
            exact taken
          rw [expanded]
          constructor
          · intro expands
            split at expands
            · next enough =>
                cases expands
                exact .inr ⟨es, ne, written, by omega, rfl⟩
            · cases expands
          · rintro (⟨rfl, -⟩ | ⟨es', ne', written', enough, rfl⟩)
            · cases matched
            · have same : es = es' := by
                have matched' := (matchExprs_iff tokens es').mpr ⟨ne', written'⟩
                exact Option.some.inj (matched.symm.trans matched')
              subst same
              exact if_pos (by omega)

/-- **The macro.** Of the sequences of expressions and commas, it expands the empty one to
`async { Ok(()) }.await`, and one or more expressions, with commas between them and perhaps one
after them, to the code over all of them.  That takes one expansion for each expression and two
more.  After braces it takes expressions with a comma after each, and one expansion less.  It
expands no others. -/
theorem expand_iff (limit : Nat) (tokens : List (Token X)) (code : Code X) :
    (expand limit (.entry tokens) = .ok code ↔
      (tokens = [] ∧ 1 ≤ limit ∧ code = .okUnit) ∨
      ∃ es, es ≠ [] ∧ (tokens = commaBetween es ∨ tokens = eachComma es) ∧
        es.length + 2 ≤ limit ∧ code = .pollFn (normal es)) ∧
    ∀ braces, expand limit (.internal braces tokens) = .ok code ↔
      ∃ es, tokens = eachComma es ∧ es.length + 1 ≤ limit ∧ code = .pollFn (braces.take es) :=
  ⟨expand_entry_iff limit tokens code,
    fun braces => expand_internal_iff limit braces tokens code⟩

example : expand 128 (.entry [.expr 'a', .comma, .expr 'b']) =
    .ok (.pollFn ⟨[.underscore, .underscore], [.zero, .plus, .one, .plus, .one],
      [⟨[], 'a'⟩, ⟨[.underscore], 'b'⟩]⟩) := rfl

/-! ## The code as a program -/

/-- `_` and `.., fut` of the pattern `( $($skip,)* fut, .. )` against a tuple of `n` components:
the component that `fut` names. -/
def component : List Underscore → (n : Nat) → Option (Fin n)
  | _, 0 => none
  | [], n + 1 => some ⟨0, Nat.zero_lt_succ n⟩
  | _ :: skip, n + 1 => (component skip n).map Fin.succ

/-- The value of `acc + ..`, of type `u32`. -/
def sumFrom (acc : Nat) : List SumToken → Option Nat
  | [] => some acc
  | .plus :: .one :: total => if acc + 1 < 2 ^ 32 then sumFrom (acc + 1) total else none
  | .plus :: .zero :: total => sumFrom acc total
  | _ => none

/-- `const COUNT: u32 = $($total)*`. -/
def constant : List SumToken → Option Nat
  | .zero :: total => sumFrom 0 total
  | .one :: total => sumFrom 1 total
  | _ => none

/-- The code once its patterns and its constant are known: for a tuple of `N` futures, the one
that each branch of the code is about. -/
structure Program (N : Nat) where
  count : Nat
  blocks : List (Fin N)
  deriving DecidableEq, Repr

/-- What the compiler makes of the code, if it accepts it. -/
def compile (braces : Braces X) : Option (Program braces.branches.length) := do
  let count ← constant braces.total
  let blocks ← braces.branches.mapM fun branch => component branch.skip braces.branches.length
  some ⟨count, blocks⟩

/-- `n + 1` on a `u32`. -/
def increment (n : Nat) : Run Nat :=
  if n + 1 < 2 ^ 32 then .ok (n + 1) else .error (.panicked "attempt to add with overflow")

variable {N : Nat} {F A : Fin N → Type} {E : Type}

/-- The futures and the tuple of the outputs taken so far, at the first error or at the end. -/
structure Outputs (F A : Fin N → Type) (E : Type) where
  result : Except E (List (Sigma A))
  futures : (i : Fin N) → MaybeDone (F i) (Except E (A i))

namespace Program

/-- `if skip + 1 == COUNT { 0 } else { skip + 1 }`. -/
def nextSkip (program : Program N) (skip : Nat) : Run Nat := do
  let next ← increment skip
  if next = program.count then .ok 0 else increment skip

/-- The tuple of the outputs, left by `return` at the first error. -/
def takeOutputs [MaybeDone.Impl] : List (Fin N) →
    ((i : Fin N) → MaybeDone (F i) (Except E (A i))) → Run (Outputs F A E)
  | [], futures => .ok ⟨.ok [], futures⟩
  | i :: blocks, futures => do
    let output ← expect (futures i).takeOutput.1 "expected completed future"
    let futures := Function.update futures i (futures i).takeOutput.2
    match output with
    | .error error => .ok ⟨.error error, futures⟩
    | .ok output =>
      let taken ← takeOutputs blocks futures
      match taken.result with
      | .error error => .ok ⟨.error error, taken.futures⟩
      | .ok outputs => .ok ⟨.ok (⟨i, output⟩ :: outputs), taken.futures⟩

/-- The closure given to `poll_fn`. -/
def poll [MaybeDone.Impl] [∀ i, Future (F i) (Except E (A i))] (program : Program N) (fuel : Nat)
    (this : JoinThenTry F A E) :
    Run (Poll (Except E (List (Sigma A))) × List (Visit A E) × JoinThenTry F A E) := do
  let skip := this.skipNextTime
  let skipNextTime ← program.nextSkip skip
  let looped ← loop (inTurn (program.blocks.map JoinThenTry.branch)) fuel
    ⟨this.futures, false, program.count, skip⟩
  let left := looped.2.2
  if left.isPending then .ok (.pending, looped.2.1, ⟨left.futures, skipNextTime⟩)
  else do
    let taken ← takeOutputs program.blocks left.futures
    .ok (.ready taken.result, looped.2.1, ⟨taken.futures, skipNextTime⟩)

end Program

/-! ## What the compiler makes of the normal form -/

theorem component_replicate {n : Nat} (k : Fin n) :
    component (List.replicate k.val .underscore) n = some k := by
  induction n with
  | zero => exact k.elim0
  | succ n ih =>
      cases k using Fin.cases with
      | zero => rfl
      | succ k =>
          rw [Fin.val_succ, List.replicate_succ, component, ih]
          rfl

/-- The pattern of each branch finds the future of that branch. -/
theorem mapM_component (taken : Nat) (es : List X) {n : Nat} (all : taken + es.length = n) :
    (branchesFrom taken es).mapM (fun branch => component branch.skip n) =
      some ((List.finRange n).drop taken) := by
  induction es generalizing taken with
  | nil =>
      rw [branchesFrom, List.mapM_nil, List.drop_of_length_le]
      · rfl
      · rw [List.length_finRange, ← all]
        exact Nat.le_refl taken
  | cons e es ih =>
      rw [List.length_cons] at all
      have lt : taken < n := by omega
      have in_range : taken < (List.finRange n).length := by rwa [List.length_finRange]
      have here : component (List.replicate taken .underscore) n = some ⟨taken, lt⟩ :=
        component_replicate (⟨taken, lt⟩ : Fin n)
      have rest := ih (taken + 1) (by omega)
      rw [branchesFrom, List.mapM_cons, here, rest,
        List.drop_eq_getElem_cons in_range, List.getElem_finRange]
      rfl

theorem sumFrom_plusOnes (acc n : Nat) (fits : acc < 2 ^ 32) :
    sumFrom acc (plusOnes n) = if acc + n < 2 ^ 32 then some (acc + n) else none := by
  induction n generalizing acc with
  | zero => rw [Nat.add_zero, if_pos fits]; rfl
  | succ n ih =>
      rw [plusOnes, sumFrom]
      split
      · next fits' => rw [ih (acc + 1) fits', Nat.add_assoc, Nat.add_comm 1 n]
      · next too_large => rw [if_neg (by omega)]

/-- The program of a join over `N` futures. -/
def program (N : Nat) : Program N := ⟨N, List.finRange N⟩

@[simp] theorem program_count (N : Nat) : (program N).count = N := rfl

@[simp] theorem program_blocks (N : Nat) : (program N).blocks = List.finRange N := rfl

/-- **Compilation.** `COUNT` is the number of branches, if that is a `u32`, and each branch of the
code is about its own future. -/
theorem compile_normal (es : List X) :
    compile (normal es) =
      if es.length < 2 ^ 32 then some (program (normal es).branches.length) else none := by
  have length : (normal es).branches.length = es.length := length_branchesFrom 0 es
  have blocks : (normal es).branches.mapM
      (fun branch => component branch.skip (normal es).branches.length) =
        some (List.finRange (normal es).branches.length) :=
    mapM_component 0 es ((Nat.zero_add _).trans length.symm)
  have count : constant (normal es).total =
      if es.length < 2 ^ 32 then some (normal es).branches.length else none := by
    have sum := sumFrom_plusOnes 0 es.length (by decide)
    rw [Nat.zero_add] at sum
    rw [length]
    exact sum
  rw [compile, count, blocks]
  split <;> rfl

/-! ## What the program does -/

/-- The values of a tuple, each with the branch it is from. -/
def tuple (values : (i : Fin N) → A i) : List (Sigma A) :=
  (List.finRange N).map fun i => ⟨i, values i⟩

theorem tuple_cons {A : Fin (N + 1) → Type} (value : A 0) (values : (i : Fin N) → A i.succ) :
    tuple (Fin.cons value values : (i : Fin (N + 1)) → A i) =
      ⟨0, value⟩ :: (tuple values).map fun output => ⟨output.1.succ, output.2⟩ := by
  rw [tuple, tuple, List.finRange_succ, List.map_cons, List.map_map, List.map_map]
  rfl

/-- Taking the outputs of branches other than the first leaves the first alone. -/
theorem takeOutputs_succ [MaybeDone.Impl] {F A : Fin (N + 1) → Type} (is : List (Fin N))
    (futures : (i : Fin (N + 1)) → MaybeDone (F i) (Except E (A i))) :
    Program.takeOutputs (is.map Fin.succ) futures =
      (Program.takeOutputs is fun i => futures i.succ).map fun taken =>
        ⟨taken.result.map (List.map fun output => ⟨output.1.succ, output.2⟩),
          Fin.cons (futures 0) taken.futures⟩ := by
  induction is generalizing futures with
  | nil =>
      have whole : Fin.cons (futures 0) (fun i => futures i.succ) = futures :=
        Fin.cons_self_tail futures
      simp only [List.map_nil, Program.takeOutputs, Except.map, whole, List.map_nil]
  | cons i is ih =>
      have rest : ∀ left, (fun j : Fin N => Function.update futures i.succ left j.succ) =
          Function.update (fun j : Fin N => futures j.succ) i left := by
        intro left
        exact Fin.tail_update_succ futures i left
      have first : ∀ left, Function.update futures i.succ left 0 = futures 0 := by
        intro left
        exact Function.update_of_ne (Fin.succ_ne_zero i).symm left futures
      have whole : ∀ left, (Fin.cons (futures 0) (Function.update (fun j : Fin N => futures j.succ)
          i left) : (j : Fin (N + 1)) → MaybeDone (F j) (Except E (A j))) =
          Function.update futures i.succ left := by
        intro left
        rw [Fin.cons_update]
        exact congrArg (fun all => Function.update all i.succ left) (Fin.cons_self_tail futures)
      rw [List.map_cons, Program.takeOutputs, Program.takeOutputs]
      cases (futures i.succ).takeOutput.1 with
      | none => rfl
      | some output =>
          simp only [expect_some, run_bind_ok, ih, rest, first]
          cases output with
          | error error => simp only [Except.map, whole]
          | ok value =>
              rcases Program.takeOutputs is
                  (Function.update (fun j : Fin N => futures j.succ) i
                    (futures i.succ).takeOutput.2) with halt | ⟨error | outputs, left⟩ <;> rfl

/-- **The outputs.** Taken one component of the tuple after another, they are the outputs of the
branches. -/
theorem takeOutputs_finRange [MaybeDone.Impl] {N : Nat} {F A : Fin N → Type}
    (futures : (i : Fin N) → MaybeDone (F i) (Except E (A i))) :
    Program.takeOutputs (List.finRange N) futures =
      (JoinThenTry.takeOutputs futures).map fun taken =>
        ⟨taken.result.map tuple, taken.futures⟩ := by
  induction N with
  | zero => rfl
  | succ N ih =>
      have tail : ∀ left, (fun i : Fin N => Function.update futures 0 left i.succ) =
          fun i : Fin N => futures i.succ := by
        intro left
        funext i
        exact Function.update_of_ne (Fin.succ_ne_zero i) left futures
      have first : ∀ left : MaybeDone (F 0) (Except E (A 0)),
          Function.update futures 0 left = Fin.cons left fun i : Fin N => futures i.succ := by
        intro left
        refine funext fun i => ?_
        cases i using Fin.cases with
        | zero => rw [Function.update_self, Fin.cons_zero]
        | succ i => rw [Function.update_of_ne (Fin.succ_ne_zero i), Fin.cons_succ]
      rw [List.finRange_succ, Program.takeOutputs, JoinThenTry.takeOutputs]
      cases (futures 0).takeOutput.1 with
      | none => rfl
      | some output =>
          simp only [expect_some, run_bind_ok, takeOutputs_succ, tail, Function.update_self, ih]
          cases output with
          | error error => simp only [Except.map, first]
          | ok value =>
              rcases JoinThenTry.takeOutputs fun i : Fin N => futures i.succ with
                halt | ⟨error | values, left⟩
              · rfl
              · rfl
              · simp only [Except.map, run_bind_ok, tuple_cons]

/-- An answer of the join with its values as a tuple. -/
def tupled : Poll (Except E ((i : Fin N) → A i)) → Poll (Except E (List (Sigma A)))
  | .pending => .pending
  | .ready result => .ready (result.map tuple)

/-- **One call** of the program is one call of the join: no `u32` overflows on the way. -/
theorem poll_program [MaybeDone.Impl] [∀ i, Future (F i) (Except E (A i))] (fits : N < 2 ^ 32)
    (fuel : Nat) {this : JoinThenTry F A E} (lt : this.skipNextTime < N) :
    (program N).poll fuel this =
      (this.poll fuel).map fun (answer, log, left) => (tupled answer, log, left) := by
  have next : (program N).nextSkip this.skipNextTime =
      .ok (JoinThenTry.nextSkip N this.skipNextTime) := by
    have one_more : increment this.skipNextTime = .ok (this.skipNextTime + 1) :=
      if_pos (by omega)
    rw [Program.nextSkip, one_more, run_bind_ok, JoinThenTry.nextSkip, program_count]
    split <;> rfl
  simp only [Program.poll, next, run_bind_ok, JoinThenTry.poll, program_count, program_blocks,
    JoinThenTry.iteration]
  rcases loop (inTurn ((List.finRange N).map JoinThenTry.branch)) fuel
      (⟨this.futures, false, N, this.skipNextTime⟩ : JoinLocals F A E) with
    halt | ⟨⟨⟩, log, left⟩
  · rfl
  · simp only [run_bind_ok, takeOutputs_finRange]
    cases left.isPending with
    | true => rfl
    | false =>
        rcases JoinThenTry.takeOutputs left.futures with halt | taken
        · rfl
        · rfl

/-- A program is the join of the futures `futs`. -/
structure Joins [MaybeDone.Impl] (A : Fin N → Type) (E : Type)
    [∀ i, Future (F i) (Except E (A i))] (program : Program N) (futs : (i : Fin N) → F i) :
    Prop where
  /-- It makes the calls that the join makes. -/
  calls : ∀ {calls} {this : JoinThenTry F A E}, Polls program.poll (.new futs) calls this ↔
    ∃ calls₀, Polls JoinThenTry.poll (.new futs) calls₀ this ∧
      calls = calls₀.map (Call.mapAnswer tupled)
  /-- Wherever they lead, it fails only if the join does, and with the same panic. -/
  fails : ∀ {calls} {this : JoinThenTry F A E}, Polls program.poll (.new futs) calls this →
    ∀ fuel halt, program.poll fuel this = .error halt ↔ this.poll fuel = .error halt

theorem joins_program [MaybeDone.Impl] [∀ i, Future (F i) (Except E (A i))] (pos : 0 < N)
    (fits : N < 2 ^ 32) (futs : (i : Fin N) → F i) : Joins A E (program N) futs := by
  have base : (JoinThenTry.new futs : JoinThenTry F A E).skipNextTime < N := pos
  have kept : ∀ {fuel} {this : JoinThenTry F A E} {answer log left}, this.skipNextTime < N →
      this.poll fuel = .ok (answer, log, left) → left.skipNextTime < N := by
    intro fuel this answer log left lt called
    rw [(JoinThenTry.counts_of_poll lt called).2, JoinThenTry.nextSkip]
    split <;> omega
  have calls := @Polls.map_iff _ _ _ _ JoinThenTry.poll (program N).poll tupled
    (fun this : JoinThenTry F A E => this.skipNextTime < N) (.new futs) base kept
    fun lt => poll_program fits _ lt
  refine ⟨calls, ?_⟩
  intro made this run fuel halt
  obtain ⟨calls₀, run₀, -⟩ := calls.mp run
  have lt : this.skipNextTime < N := by
    rw [JoinThenTry.skipNextTime_of_polls pos run₀]
    exact Nat.mod_lt _ pos
  rw [poll_program fits fuel lt]
  cases this.poll fuel with
  | error halt' =>
      constructor
      · intro fails
        cases fails
        rfl
      · intro fails
        cases fails
        rfl
  | ok outcome =>
      constructor
      · intro fails
        cases fails
      · intro fails
        cases fails

/-- What the code between the braces does with the expressions written. -/
structure Faithful (tokens : List (Token X)) (braces : Braces X) : Prop where
  /-- Its branches are the expressions, in the order they are written in. -/
  branches : matchExprs tokens = some (braces.branches.map Branch.e)
  /-- It does not compile if their number is not a `u32`. -/
  too_many : 2 ^ 32 ≤ braces.branches.length → compile braces = none
  /-- Otherwise it compiles, and whatever futures the expressions make, it joins these. -/
  joins : braces.branches.length < 2 ^ 32 → ∃ program, compile braces = some program ∧
    ∀ [MaybeDone.Impl] {E : Type} {F A : X → Type} [∀ e, Future (F e) (Except E (A e))]
      (fut : (e : X) → F e),
      Joins (F := fun i => F (braces.branches.get i).e) (fun i => A (braces.branches.get i).e) E
        program fun i => fut (braces.branches.get i).e

/-- **The expansion.** Whatever invocation expands to code over branches, the code joins the
expressions of the invocation. -/
theorem expansion_faithful {limit : Nat} {tokens : List (Token X)} {braces : Braces X}
    (expands : expand limit (.entry tokens) = .ok (.pollFn braces)) : Faithful tokens braces := by
  obtain ⟨es, ne, matched, rfl⟩ : ∃ es, es ≠ [] ∧ matchExprs tokens = some es ∧
      braces = normal es := by
    rcases (expand_entry_iff limit tokens (.pollFn braces)).mp expands with
      ⟨-, -, other⟩ | ⟨es, ne, written, -, same⟩
    · cases other
    · cases same
      exact ⟨es, ne, (matchExprs_iff tokens es).mpr ⟨ne, written⟩, rfl⟩
  have length : (normal es).branches.length = es.length := length_branchesFrom 0 es
  have compiled := compile_normal es
  constructor
  · rw [matched]
    exact congrArg some (map_e_branchesFrom 0 es).symm
  · intro too_many
    rw [compiled, if_neg (by omega)]
  · intro fits
    rw [if_pos (by omega)] at compiled
    refine ⟨_, compiled, ?_⟩
    intro _ E F A _ fut
    refine joins_program ?_ fits _
    rw [length]
    exact List.length_pos_iff.mpr ne

theorem expansion_faithful_pair :
    Faithful [.expr false, .comma, .expr true, .comma] (normal [false, true]) :=
  expansion_faithful (show expand 128 _ = _ from rfl)

end CancelSafeFutures.JoinExpansion
