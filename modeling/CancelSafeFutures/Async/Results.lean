import CancelSafeFutures.Async.Poll

/-!
# Collecting results

`collectResults` is `collect::<Result<Vec<_>, _>>()` over the results of a list of operations: all
successes in order, or the first error.  It is the same whether it is computed at once or by
keeping the successes and the first error seen so far (`collectResults_eq`).
-/

namespace Async

variable {A E : Type}

/-- All successes, or the first error. -/
def collectResults : List (Except E A) → Except E (List A)
  | [] => .ok []
  | .error error :: _ => .error error
  | .ok value :: rest =>
    match collectResults rest with
    | .ok values => .ok (value :: values)
    | .error error => .error error

/-- The successes, in order. -/
def successes (results : List (Except E A)) : List A :=
  results.filterMap fun result => match result with
    | .ok value => some value
    | .error _ => none

/-- The first error. -/
def firstErrorOf (results : List (Except E A)) : Option E :=
  results.findSome? fun result => match result with
    | .ok _ => none
    | .error error => some error

@[simp] theorem successes_append (results results' : List (Except E A)) :
    successes (results ++ results') = successes results ++ successes results' :=
  List.filterMap_append

@[simp] theorem firstErrorOf_append (results results' : List (Except E A)) :
    firstErrorOf (results ++ results') = (firstErrorOf results).or (firstErrorOf results') :=
  List.findSome?_append

/-- The successes and the first error determine the collected result. -/
theorem collectResults_eq (results : List (Except E A)) :
    collectResults results = match firstErrorOf results with
      | some error => .error error
      | none => .ok (successes results) := by
  induction results with
  | nil => rfl
  | cons result rest ih =>
      cases result with
      | error error => rfl
      | ok value =>
          have first : firstErrorOf (.ok value :: rest) = firstErrorOf rest := rfl
          rw [collectResults, ih, first]
          cases firstErrorOf rest <;> rfl

/-- What a future resolves to, after however many polls. -/
def Outcome {F Out : Type} [Future F Out] (fut : F) (out : Out) : Prop := ∃ n, Resolves fut n out

theorem Outcome.unique {F Out : Type} [Future F Out] {fut : F} {out out' : Out}
    (h : Outcome fut out) (h' : Outcome fut out') : out = out' := by
  obtain ⟨_, resolves⟩ := h
  obtain ⟨_, resolves'⟩ := h'
  exact (resolves.unique resolves').2

end Async
