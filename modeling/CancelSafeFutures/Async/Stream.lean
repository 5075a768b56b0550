import CancelSafeFutures.Async.Poll

/-!
# Fallible streams, closures and scripts

`TryStream` is a stream of `Result`s and `FnMut` a closure with state of its own.  A `Script` is a
list of answers to give in order, and then `Pending` for ever: any finite behaviour of a future or
of a stream is that of a script.

* `Plays st answers st'`: polled again and again, `st` gives `answers` and becomes `st'`.
* `SettlesIn n st`: `st` yields exactly `n` elements before its next `Pending` or its end.
* `YieldsAtMost n st`: `st` never yields more than `n` elements, however often it is polled.
-/

namespace Async

/-- A stream of `Result<A, E>`. -/
class TryStream (St : Type) (A E : outParam Type) where
  tryPollNext : St → Poll (Option (Except E A)) × St

/-- A stream that tells whether it should still be polled. -/
class FusedStream (St : Type) where
  isTerminated : St → Bool

/-- A closure that may change what it captured. -/
class FnMut (F : Type) (A B : outParam Type) where
  call : F → A → B × F

instance {A B : Type} : FnMut (A → B) A B := ⟨fun f a => (f a, f)⟩

/-- Answers to give in order. -/
structure Script (α : Type) where
  answers : List (Poll α)
  deriving DecidableEq, Repr

/-- The next answer of a script. -/
def Script.next {α : Type} (script : Script α) : Poll α × Script α :=
  match script.answers with
  | [] => (.pending, script)
  | a :: rest => (a, ⟨rest⟩)

instance {Out : Type} : Future (Script Out) Out := ⟨Script.next⟩

instance {A E : Type} : TryStream (Script (Option (Except E A))) A E := ⟨Script.next⟩

/-! ## What a stream answers -/

section Plays

variable {St A E : Type} [TryStream St A E]

/-- Polled once for each of these answers, the stream gives them and goes over into another. -/
inductive Plays : St → List (Poll (Option (Except E A))) → St → Prop
  | nil (st) : Plays st [] st
  | cons {st st' st'' a as} :
      TryStream.tryPollNext st = (a, st') → Plays st' as st'' → Plays st (a :: as) st''

/-- One more poll, at the end. -/
theorem Plays.concat {st st' st'' : St} {as : List (Poll (Option (Except E A)))}
    {a : Poll (Option (Except E A))} (plays : Plays st as st')
    (polled : TryStream.tryPollNext st' = (a, st'')) : Plays st (as ++ [a]) st'' := by
  induction plays with
  | nil st => exact .cons polled (.nil _)
  | cons first _ ih => exact .cons first (ih polled)

theorem Plays.of_append {st st'' : St} {as bs : List (Poll (Option (Except E A)))}
    (plays : Plays st (as ++ bs) st'') : ∃ st', Plays st as st' ∧ Plays st' bs st'' := by
  induction as generalizing st with
  | nil => exact ⟨st, .nil st, plays⟩
  | cons a as ih =>
      cases plays with
      | cons first rest =>
          obtain ⟨st', left, right⟩ := ih rest
          exact ⟨st', .cons first left, right⟩

/-- A stream plays one sequence of answers. -/
theorem Plays.prefix_or {st st' st'' : St} {as bs : List (Poll (Option (Except E A)))}
    (plays : Plays st as st') (plays' : Plays st bs st'') : as <+: bs ∨ bs <+: as := by
  induction plays generalizing bs with
  | nil st => exact .inl List.nil_prefix
  | cons first _ ih =>
      cases plays' with
      | nil => exact .inr List.nil_prefix
      | cons first' rest =>
          rw [first] at first'
          cases first'
          rcases ih rest with shorter | longer
          · exact .inl (List.cons_prefix_cons.mpr ⟨rfl, shorter⟩)
          · exact .inr (List.cons_prefix_cons.mpr ⟨rfl, longer⟩)

theorem Plays.state_unique {st st' st'' : St} {as : List (Poll (Option (Except E A)))}
    (plays : Plays st as st') (plays' : Plays st as st'') : st' = st'' := by
  induction plays with
  | nil st =>
      cases plays'
      rfl
  | cons first _ ih =>
      cases plays' with
      | cons first' rest =>
          rw [first] at first'
          cases first'
          exact ih rest

/-- The stream yields `n` elements and then answers `Pending` or `None`. -/
inductive SettlesIn : Nat → St → Prop
  | pending {st st'} : TryStream.tryPollNext st = (.pending, st') → SettlesIn 0 st
  | ended {st st'} : TryStream.tryPollNext st = (.ready none, st') → SettlesIn 0 st
  | item {n st st' result} :
      TryStream.tryPollNext st = (.ready (some result), st') → SettlesIn n st' →
      SettlesIn (n + 1) st

/-- A stream that is known to end settles. -/
theorem Plays.settles {st st' : St} {as : List (Poll (Option (Except E A)))}
    (plays : Plays st (as ++ [.ready none]) st') : ∃ n, SettlesIn n st := by
  induction as generalizing st with
  | nil =>
      cases plays with
      | cons first _ => exact ⟨0, .ended first⟩
  | cons a as ih =>
      cases plays with
      | cons first rest =>
          rcases a with (_ | result) | _
          · exact ⟨0, .ended first⟩
          · obtain ⟨n, settles⟩ := ih rest
            exact ⟨n + 1, .item first settles⟩
          · exact ⟨0, .pending first⟩

/-- An element of the stream. -/
def isElement : Poll (Option (Except E A)) → Bool
  | .ready (some _) => true
  | _ => false

theorem Plays.append {st st' st'' : St} {as bs : List (Poll (Option (Except E A)))}
    (plays : Plays st as st') (plays' : Plays st' bs st'') : Plays st (as ++ bs) st'' := by
  induction plays with
  | nil => exact plays'
  | cons first _ ih => exact .cons first (ih plays')

/-- The stream has ended, and answers `None` however often it is polled again. -/
def Fused (st : St) : Prop :=
  ∀ as st', Plays st as st' → (TryStream.tryPollNext st').1 = .ready none

theorem Fused.poll {st : St} (fused : Fused st) :
    ∃ st', TryStream.tryPollNext st = (.ready none, st') ∧ Fused st' := by
  have answer := fused [] st (.nil st)
  have polled : TryStream.tryPollNext st = (.ready none, (TryStream.tryPollNext st).2) :=
    Prod.ext answer rfl
  exact ⟨_, polled, fun as st' plays => fused _ st' (.cons polled plays)⟩

/-- The stream never yields an error. -/
def Infallible (st : St) : Prop :=
  ∀ as st', Plays st as st' → ∀ error, .ready (some (.error error)) ∉ as

/-- The stream yields at most `n` elements in all. -/
def YieldsAtMost (n : Nat) (st : St) : Prop :=
  ∀ as st', Plays st as st' → as.countP isElement ≤ n

/-- After an element there is one less to come. -/
theorem YieldsAtMost.element {n : Nat} {st st' : St} {result : Except E A}
    (atMost : YieldsAtMost n st) (polled : TryStream.tryPollNext st = (.ready (some result), st')) :
    ∃ m, n = m + 1 ∧ YieldsAtMost m st' := by
  have one := atMost _ _ (.cons polled (.nil st'))
  rw [List.countP_singleton, isElement, if_pos rfl] at one
  refine ⟨n - 1, by omega, fun as st'' plays => ?_⟩
  have all := atMost _ _ (.cons polled plays)
  rw [List.countP_cons, isElement, if_pos rfl] at all
  omega

theorem YieldsAtMost.pending {n : Nat} {st st' : St} (atMost : YieldsAtMost n st)
    (polled : TryStream.tryPollNext st = (.pending, st')) : YieldsAtMost n st' := by
  intro as st'' plays
  have all := atMost _ _ (.cons polled plays)
  simpa [isElement] using all

end Plays

/-- A script has no more elements than answers. -/
theorem Script.yieldsAtMost {A E : Type} (script : Script (Option (Except E A))) :
    YieldsAtMost script.answers.length script := by
  intro as script' plays
  induction plays with
  | nil => exact Nat.zero_le _
  | @cons script next last a as polled _ ih =>
      rw [List.countP_cons]
      obtain ⟨_ | ⟨answer, rest⟩⟩ := script
      · cases polled
        simpa [isElement] using ih
      · cases polled
        simp only [List.length_cons] at ih ⊢
        split <;> omega

/-- A script without errors has none. -/
theorem Script.infallible {A E : Type} (script : Script (Option (Except E A)))
    (none_fails : ∀ error, .ready (some (.error error)) ∉ script.answers) : Infallible script := by
  intro as script' plays error
  induction plays with
  | nil => exact List.not_mem_nil
  | @cons script next last a as polled _ ih =>
      obtain ⟨_ | ⟨answer, rest⟩⟩ := script
      · cases polled
        simpa using ih none_fails
      · cases polled
        intro mem
        rcases List.mem_cons.mp mem with now | later
        · exact none_fails error (now ▸ List.mem_cons_self ..)
        · exact ih (fun error mem => none_fails error (List.mem_cons_of_mem _ mem)) later

/-- `fuse()`: the stream is dropped when it answers `None`. -/
structure Fuse (St : Type) where
  stream : Option St

section Fuse

variable {St A E : Type} [TryStream St A E]

instance : TryStream (Fuse St) A E where
  tryPollNext this :=
    match this.stream with
    | none => (.ready none, this)
    | some stream =>
      match TryStream.tryPollNext stream with
      | (.ready none, _) => (.ready none, ⟨none⟩)
      | (answer, stream) => (answer, ⟨some stream⟩)

instance : FusedStream (Fuse St) := ⟨fun this => this.stream.isNone⟩

/-- Once the stream is dropped. -/
theorem Fuse.plays_none {as : List (Poll (Option (Except E A)))} {this : Fuse St}
    (plays : Plays (⟨none⟩ : Fuse St) as this) : this = ⟨none⟩ := by
  generalize dropped : (⟨none⟩ : Fuse St) = first at plays
  induction plays with
  | nil => rfl
  | cons polled _ ih =>
      subst dropped
      cases polled
      exact ih rfl

theorem Fuse.fused : Fused (⟨none⟩ : Fuse St) := by
  intro as this plays
  rw [Fuse.plays_none plays]
  rfl

/-- A fused stream tells whether it has answered `None`. -/
theorem Fuse.isTerminated_iff {stream : St} {as : List (Poll (Option (Except E A)))}
    {this : Fuse St} (plays : Plays ⟨some stream⟩ as this) :
    FusedStream.isTerminated this = true ↔ .ready none ∈ as := by
  generalize live : (⟨some stream⟩ : Fuse St) = first at plays
  induction plays generalizing stream with
  | nil =>
      subst live
      simp [FusedStream.isTerminated]
  | @cons first next last a as polled rest ih =>
      subst live
      simp only [TryStream.tryPollNext] at polled
      split at polled
      · cases polled
        rw [Fuse.plays_none rest]
        simp [FusedStream.isTerminated]
      · next not_end _ =>
          cases polled
          refine (ih rfl).trans ?_
          rw [List.mem_cons]
          exact (or_iff_right fun same => not_end same.symm).symm

end Fuse

end Async
