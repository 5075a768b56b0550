import CancelSafeFutures.Async.FutureSet
import Mathlib.Data.List.Basic

/-!
# Sets of futures that are all woken

The contracts of `FutureSet` have implementations.  `WokenSet` and `WokenQueue` treat every member
in flight as woken by the time of the next poll, and poll members in the order of insertion.

* `WokenSet` polls until one member completes, and hands out its output.
* `Napping` is a set whose members are woken only some polls later.
* `WokenQueue` polls every member, and keeps what they put out until their turn.
-/

namespace Async

variable {F Out : Type} [Future F Out]

/-- The member in slot `k`. -/
def slotAt (slots : List (Option F)) (k : Nat) : Option F := (slots[k]?).join

omit [Future F Out] in
/-- Writing the slot after a prefix is an update there. -/
theorem slotAt_append_cons (front : List (Option F)) (slot slot' : Option F)
    (rest : List (Option F)) :
    slotAt (front ++ slot' :: rest) =
      Function.update (slotAt (front ++ slot :: rest)) front.length slot' := by
  funext k
  unfold slotAt
  rcases Nat.lt_trichotomy k front.length with lt | rfl | gt
  · rw [Function.update_of_ne (Nat.ne_of_lt lt), List.getElem?_append_left lt,
      List.getElem?_append_left lt]
  · simp
  · rw [Function.update_of_ne (Nat.ne_of_gt gt), List.getElem?_append_right (Nat.le_of_lt gt),
      List.getElem?_append_right (Nat.le_of_lt gt)]
    obtain ⟨j, hj⟩ : ∃ j, k - front.length = j + 1 := ⟨k - front.length - 1, by omega⟩
    rw [hj, List.getElem?_cons_succ, List.getElem?_cons_succ]

omit [Future F Out] in
theorem slotAt_append_self (front : List (Option F)) (slot : Option F) (rest : List (Option F)) :
    slotAt (front ++ slot :: rest) front.length = slot := by
  simp [slotAt]

omit [Future F Out] in
/-- A new last slot. -/
theorem slotAt_concat (slots : List (Option F)) (fut : F) :
    slotAt (slots ++ [some fut]) = Function.update (slotAt slots) slots.length (some fut) := by
  funext k
  unfold slotAt
  rcases Nat.lt_trichotomy k slots.length with lt | rfl | gt
  · rw [Function.update_of_ne (Nat.ne_of_lt lt), List.getElem?_append_left lt]
  · simp
  · rw [Function.update_of_ne (Nat.ne_of_gt gt), List.getElem?_eq_none (by simp; omega),
      List.getElem?_eq_none (by omega)]

/-! ## Polling until one completes -/

/-- Members in insertion order, with an empty slot where one has completed. -/
structure WokenSet (F Out : Type) where
  slots : List (Option F)
  log : PollLog Out

/-- What a scan of the slots finds. -/
structure Scan (F Out : Type) where
  /-- The polls answered `Pending`. -/
  waits : PollLog Out
  /-- The member that completed. -/
  found : Option (Nat × Out)
  slots : List (Option F)

/-- Poll the members in slots `i`, `i + 1`, .. until one completes. -/
def pollUntilReady : Nat → List (Option F) → Scan F Out
  | _, [] => ⟨[], none, []⟩
  | i, none :: rest =>
    let next := pollUntilReady (i + 1) rest
    { next with slots := none :: next.slots }
  | i, some fut :: rest =>
    match Future.poll fut with
    | (.ready out, _) => ⟨[], some (i, out), none :: rest⟩
    | (.pending, fut') =>
      let next := pollUntilReady (i + 1) rest
      ⟨(i, .pending) :: next.waits, next.found, some fut' :: next.slots⟩

/-- All polls of a scan, the last one included. -/
def Scan.polls (scan : Scan F Out) : PollLog Out :=
  match scan.found with
  | some (k, out) => scan.waits ++ [(k, .ready out)]
  | none => scan.waits

omit [Future F Out] in
theorem Scan.polls_cons (p : Nat × Poll Out) (waits : PollLog Out) (found : Option (Nat × Out))
    (slots slots' : List (Option F)) :
    (⟨p :: waits, found, slots⟩ : Scan F Out).polls =
      p :: (⟨waits, found, slots'⟩ : Scan F Out).polls := by
  cases found <;> rfl

theorem pollUntilReady_waits (i : Nat) (slots : List (Option F)) :
    ∀ p ∈ (pollUntilReady i slots).waits, p.2 = .pending := by
  induction slots generalizing i with
  | nil => simp [pollUntilReady]
  | cons slot rest ih =>
      cases slot with
      | none => exact ih (i + 1)
      | some fut =>
          unfold pollUntilReady
          split
          · simp
          · intro p mem
            rcases List.mem_cons.mp mem with rfl | mem
            · rfl
            · exact ih (i + 1) p mem

theorem pollUntilReady_length (i : Nat) (slots : List (Option F)) :
    (pollUntilReady i slots).slots.length = slots.length := by
  induction slots generalizing i with
  | nil => rfl
  | cons slot rest ih =>
      cases slot with
      | none => exact congrArg Nat.succ (ih (i + 1))
      | some fut =>
          unfold pollUntilReady
          split
          · rfl
          · exact congrArg Nat.succ (ih (i + 1))

theorem pollUntilReady_serves (front slots : List (Option F)) :
    Serves (slotAt (front ++ slots)) (pollUntilReady front.length slots).polls
      (slotAt (front ++ (pollUntilReady front.length slots).slots)) := by
  induction slots generalizing front with
  | nil => exact .nil
  | cons slot rest ih =>
      have next := fun slot' => ih (front ++ [slot'])
      simp only [List.length_append, List.length_cons, List.length_nil, Nat.zero_add,
        List.append_assoc, List.cons_append, List.nil_append] at next
      cases slot with
      | none => exact next none
      | some fut =>
          unfold pollUntilReady
          split
          · next out fut' polled =>
              refine .ready (slotAt_append_self ..) polled ?_
              rw [← slotAt_append_cons]
              exact .nil
          · next fut' polled =>
              rw [Scan.polls_cons]
              refine .pending (slotAt_append_self ..) polled ?_
              rw [← slotAt_append_cons]
              exact next (some fut')

/-- A scan goes on over empty slots. -/
theorem pollUntilReady_replicate (i j : Nat) (slots : List (Option F)) :
    pollUntilReady i (List.replicate j none ++ slots) =
      { pollUntilReady (i + j) slots with
        slots := List.replicate j none ++ (pollUntilReady (i + j) slots).slots } := by
  induction j generalizing i with
  | zero => rfl
  | succ j ih =>
      rw [List.replicate_succ, List.cons_append, pollUntilReady, ih, Nat.add_right_comm,
        Nat.add_assoc]
      rfl

/-- How many slots are in use. -/
def inUse (slots : List (Option F)) : Nat := slots.countP Option.isSome

omit [Future F Out] in
@[simp] theorem inUse_cons_none (rest : List (Option F)) : inUse (none :: rest) = inUse rest := by
  simp [inUse]

omit [Future F Out] in
@[simp] theorem inUse_cons_some (fut : F) (rest : List (Option F)) :
    inUse (some fut :: rest) = inUse rest + 1 := by
  simp [inUse]

/-- A scan that finds a completed member frees one slot, any other scan none. -/
theorem pollUntilReady_inUse (i : Nat) (slots : List (Option F)) :
    inUse slots = inUse (pollUntilReady i slots).slots +
      (if (pollUntilReady i slots).found.isSome then 1 else 0) := by
  induction slots generalizing i with
  | nil => rfl
  | cons slot rest ih =>
      cases slot with
      | none =>
          simp only [pollUntilReady, inUse_cons_none]
          exact ih (i + 1)
      | some fut =>
          unfold pollUntilReady
          split
          · simp
          · simp only [inUse_cons_some, ih (i + 1)]
            omega

omit [Future F Out] in
theorem inUse_eq_zero (slots : List (Option F)) : inUse slots = 0 ↔ ∀ k, slotAt slots k = none := by
  unfold inUse slotAt
  rw [List.countP_eq_zero]
  constructor
  · intro empty k
    cases at_k : slots[k]? with
    | none => rfl
    | some slot => simpa using empty slot (List.mem_of_getElem? at_k)
  · intro empty slot mem
    obtain ⟨k, at_k⟩ := List.mem_iff_getElem?.mp mem
    have := empty k
    rw [at_k] at this
    simpa using this

namespace WokenSet

/-- Poll members until one completes. -/
def pollNext (q : WokenSet F Out) : Poll (Option Out) × WokenSet F Out :=
  let scan := pollUntilReady 0 q.slots
  let answer := match scan.found with
    | some (_, out) => .ready (some out)
    | none => if inUse scan.slots = 0 then .ready none else .pending
  (answer, ⟨scan.slots, q.log ++ scan.polls⟩)

theorem serves (slots : List (Option F)) :
    Serves (slotAt slots) (pollUntilReady 0 slots).polls
      (slotAt (pollUntilReady 0 slots).slots) :=
  pollUntilReady_serves [] slots

/-- An empty set has nothing to poll. -/
theorem polls_of_empty {slots : List (Option F)} (empty : inUse slots = 0) :
    (pollUntilReady 0 slots).polls = [] := by
  have none_left := (inUse_eq_zero slots).mp empty
  have h := serves slots
  generalize (pollUntilReady 0 slots).polls = polls, slotAt (pollUntilReady 0 slots).slots = m at h
  cases h with
  | nil => rfl
  | pending held _ _ => rw [none_left] at held; cases held
  | ready held _ _ => rw [none_left] at held; cases held

section Last

variable {q : WokenSet F Out} {j : Nat} {fut : F}

/-- The only member left is polled. -/
theorem pollNext_last_pending {fut' : F}
    (slots : q.slots = List.replicate j none ++ [some fut])
    (polled : Future.poll fut = (.pending, fut')) :
    ∃ log, q.pollNext = (.pending, ⟨List.replicate j none ++ [some fut'], log⟩) := by
  simp [pollNext, slots, pollUntilReady_replicate, pollUntilReady, polled, inUse]

theorem pollNext_last_ready {fut' : F} {out : Out}
    (slots : q.slots = List.replicate j none ++ [some fut])
    (polled : Future.poll fut = (.ready out, fut')) :
    ∃ log, q.pollNext = (.ready (some out), ⟨List.replicate (j + 1) none, log⟩) := by
  simp [pollNext, slots, pollUntilReady_replicate, pollUntilReady, polled, List.replicate_succ']

end Last

instance : FuturesUnordered (WokenSet F Out) F Out where
  new := ⟨[], []⟩
  push q fut := { q with slots := q.slots ++ [some fut] }
  len q := inUse q.slots
  pollNext := pollNext
  members q := slotAt q.slots
  pushed q := q.slots.length
  log q := q.log
  members_new _ := rfl
  pushed_new := rfl
  log_new := rfl
  members_push q fut := slotAt_concat q.slots fut
  pushed_push q fut := List.length_append
  log_push _ _ := rfl
  len_new := rfl
  len_push q fut := by simp [inUse]
  len_eq_zero q := inUse_eq_zero q.slots
  pushed_pollNext q := pollUntilReady_length 0 q.slots
  pollNext_some := by
    intro q out q' h
    have polls := serves q.slots
    have freed := pollUntilReady_inUse 0 q.slots
    unfold pollNext at h
    obtain ⟨answer, rfl⟩ := Prod.mk.inj h
    cases found : (pollUntilReady 0 q.slots).found with
    | none =>
        simp only [found] at answer
        split at answer <;> cases answer
    | some member =>
        simp only [found] at answer
        cases answer
        simp only [Scan.polls, found] at polls ⊢
        simp only [found, Option.isSome_some, if_true] at freed
        exact ⟨_, _, pollUntilReady_waits 0 q.slots, by rw [List.append_assoc], polls, freed⟩
  pollNext_none := by
    intro q q' h
    have freed := pollUntilReady_inUse 0 q.slots
    unfold pollNext at h
    obtain ⟨answer, rfl⟩ := Prod.mk.inj h
    cases found : (pollUntilReady 0 q.slots).found with
    | some member =>
        simp only [found] at answer
        cases answer
    | none =>
        simp only [found] at answer
        split at answer
        · next empty =>
            simp only [found, Option.isSome_none, Bool.false_eq_true, if_false, empty] at freed
            exact ⟨freed, empty, by rw [polls_of_empty freed, List.append_nil]⟩
        · cases answer
  pollNext_pending := by
    intro q q' h
    have polls := serves q.slots
    have freed := pollUntilReady_inUse 0 q.slots
    unfold pollNext at h
    obtain ⟨answer, rfl⟩ := Prod.mk.inj h
    cases found : (pollUntilReady 0 q.slots).found with
    | some member =>
        simp only [found] at answer
        cases answer
    | none =>
        simp only [found] at answer
        split at answer
        · cases answer
        · next more =>
            simp only [found, Option.isSome_none, Bool.false_eq_true, if_false] at freed
            simp only [Scan.polls, found] at polls ⊢
            exact ⟨_, pollUntilReady_waits 0 q.slots, rfl, polls, freed.symm, by
              rw [freed]; omega⟩

/-- A scan without a poll has found empty slots only. -/
theorem inUse_of_no_polls {i : Nat} {slots : List (Option F)}
    (silent : (pollUntilReady i slots).polls = []) : inUse slots = 0 := by
  induction slots generalizing i with
  | nil => rfl
  | cons slot rest ih =>
      cases slot with
      | none =>
          rw [inUse_cons_none]
          exact ih silent
      | some fut =>
          unfold pollUntilReady at silent
          split at silent
          · cases silent
          · rw [Scan.polls_cons _ _ _ _ rest] at silent
            cases silent

theorem prompt : FuturesUnordered.Prompt (WokenSet F Out) := by
  intro q q' polled same
  simp only [FuturesUnordered.pollNext, FuturesUnordered.log, pollNext, Prod.mk.injEq]
    at polled same
  obtain ⟨answer, rfl⟩ := polled
  have silent := inUse_of_no_polls (List.append_right_eq_self.mp same)
  have none_left := pollUntilReady_inUse 0 q.slots
  split at answer
  · cases answer
  · rw [if_pos (by omega)] at answer
    cases answer

end WokenSet

/-! ## Waking up later -/

/-- A set whose members, when they have been polled, are not woken before `naps` more polls. -/
structure Napping (naps : Nat) (Q : Type) where
  set : Q
  /-- How many polls they still sleep for. -/
  left : Nat

namespace Napping

open FuturesUnordered

variable {Q : Type} [FuturesUnordered Q F Out] {naps : Nat}

/-- Answer `Pending` as long as there are members and they sleep. -/
def pollNext (q : Napping naps Q) : Poll (Option Out) × Napping naps Q :=
  if 0 < q.left ∧ 0 < len q.set then (.pending, { q with left := q.left - 1 })
  else ((FuturesUnordered.pollNext q.set).1, ⟨(FuturesUnordered.pollNext q.set).2, naps⟩)

theorem pollNext_asleep {q : Napping naps Q} (asleep : 0 < q.left ∧ 0 < len q.set) :
    q.pollNext = (.pending, { q with left := q.left - 1 }) := if_pos asleep

theorem pollNext_awake {q : Napping naps Q} (awake : ¬ (0 < q.left ∧ 0 < len q.set)) :
    q.pollNext =
      ((FuturesUnordered.pollNext q.set).1, ⟨(FuturesUnordered.pollNext q.set).2, naps⟩) :=
  if_neg awake

/-- What the set within has answered. -/
theorem polled_awake {q q' : Napping naps Q} {answer : Poll (Option Out)}
    (awake : ¬ (0 < q.left ∧ 0 < len q.set)) (polled : q.pollNext = (answer, q')) :
    FuturesUnordered.pollNext q.set = (answer, q'.set) := by
  rw [pollNext_awake awake] at polled
  cases polled
  rfl

/-- It is awake if it answers `Ready`. -/
theorem polled_ready {q q' : Napping naps Q} {out : Option Out}
    (polled : q.pollNext = (.ready out, q')) :
    FuturesUnordered.pollNext q.set = (.ready out, q'.set) := by
  by_cases asleep : 0 < q.left ∧ 0 < len q.set
  · rw [pollNext_asleep asleep] at polled
    cases polled
  · exact polled_awake asleep polled

instance : FuturesUnordered (Napping naps Q) F Out where
  new := ⟨new, 0⟩
  push q fut := { q with set := push q.set fut }
  len q := len q.set
  pollNext := pollNext
  members q := members q.set
  pushed q := pushed q.set
  log q := log q.set
  members_new := members_new
  pushed_new := pushed_new
  log_new := log_new
  members_push q fut := members_push q.set fut
  pushed_push q fut := pushed_push q.set fut
  log_push q fut := log_push q.set fut
  len_new := len_new
  len_push q fut := len_push q.set fut
  len_eq_zero q := len_eq_zero q.set
  pushed_pollNext q := by
    by_cases asleep : 0 < q.left ∧ 0 < len q.set
    · rw [pollNext_asleep asleep]
    · rw [pollNext_awake asleep]
      exact pushed_pollNext q.set
  pollNext_some polled := FuturesUnordered.pollNext_some (polled_ready polled)
  pollNext_none polled := FuturesUnordered.pollNext_none (polled_ready polled)
  pollNext_pending := by
    intro q q' polled
    by_cases asleep : 0 < q.left ∧ 0 < len q.set
    · rw [pollNext_asleep asleep] at polled
      cases polled
      refine ⟨[], ?_, (List.append_nil _).symm, .nil, rfl, asleep.2⟩
      intro p mem
      cases mem
    · exact FuturesUnordered.pollNext_pending (polled_awake asleep polled)

/-- Its members are woken some time. -/
theorem not_dormant (prompt : Prompt Q) (q : Napping naps Q) : ¬ Dormant q := by
  intro dormant
  obtain ⟨set, left⟩ := q
  induction left with
  | zero =>
      have awake : ¬ (0 < (⟨set, 0⟩ : Napping naps Q).left ∧ 0 < len set) :=
        fun asleep => Nat.lt_irrefl 0 asleep.1
      have silent := dormant.silent
      refine prompt.not_silent (q := set) ?_
      have polled : FuturesUnordered.pollNext (⟨set, 0⟩ : Napping naps Q) = _ :=
        pollNext_awake awake
      rw [Silent, polled] at silent
      exact silent
  | succ left ih =>
      by_cases asleep : 0 < len set
      · have polled : FuturesUnordered.pollNext (⟨set, left + 1⟩ : Napping naps Q) = _ :=
          pollNext_asleep ⟨Nat.zero_lt_succ left, asleep⟩
        have next := dormant.next
        rw [polled] at next
        exact ih next
      · obtain ⟨pending, -⟩ := dormant.silent
        obtain ⟨-, -, -, -, -, pos⟩ := FuturesUnordered.pollNext_pending (Prod.ext pending rfl)
        exact asleep pos

end Napping

/-! ## Handing out in order -/

/-- A member that is in flight, or its output, kept until its turn. -/
inductive Slot (F Out : Type) where
  | inFlight (fut : F)
  | finished (out : Out)
  deriving DecidableEq, Repr

def Slot.held {F Out : Type} : Slot F Out → Option F
  | .inFlight fut => some fut
  | .finished _ => none

/-- Poll the members in slots `i`, `i + 1`, .. that are in flight. -/
def pollAll : Nat → List (Slot F Out) → PollLog Out × List (Slot F Out)
  | _, [] => ([], [])
  | i, .finished out :: rest =>
    let next := pollAll (i + 1) rest
    (next.1, .finished out :: next.2)
  | i, .inFlight fut :: rest =>
    let next := pollAll (i + 1) rest
    match Future.poll fut with
    | (.ready out, _) => ((i, .ready out) :: next.1, .finished out :: next.2)
    | (.pending, fut') => ((i, .pending) :: next.1, .inFlight fut' :: next.2)

theorem pollAll_length (i : Nat) (slots : List (Slot F Out)) :
    (pollAll i slots).2.length = slots.length := by
  induction slots generalizing i with
  | nil => rfl
  | cons slot rest ih =>
      cases slot with
      | finished out => exact congrArg Nat.succ (ih (i + 1))
      | inFlight fut =>
          unfold pollAll
          split <;> exact congrArg Nat.succ (ih (i + 1))

theorem pollAll_serves (front : List (Option F)) (slots : List (Slot F Out)) :
    Serves (slotAt (front ++ slots.map Slot.held)) (pollAll front.length slots).1
      (slotAt (front ++ (pollAll front.length slots).2.map Slot.held)) := by
  induction slots generalizing front with
  | nil => exact .nil
  | cons slot rest ih =>
      have next := fun slot' => ih (front ++ [slot'])
      simp only [List.length_append, List.length_cons, List.length_nil, Nat.zero_add,
        List.append_assoc, List.cons_append, List.nil_append] at next
      cases slot with
      | finished out => exact next none
      | inFlight fut =>
          unfold pollAll
          split
          · next out fut' polled =>
              refine .ready (slotAt_append_self ..) polled ?_
              rw [List.map_cons, ← slotAt_append_cons]
              exact next none
          · next fut' polled =>
              refine .pending (slotAt_append_self ..) polled ?_
              rw [List.map_cons, ← slotAt_append_cons]
              exact next (some fut')

/-- A slot is finished because it was before, or by a poll of this scan. -/
theorem pollAll_finished {i k : Nat} {slots : List (Slot F Out)} {out : Out}
    (done : (pollAll i slots).2[k]? = some (.finished out)) :
    slots[k]? = some (.finished out) ∨ (i + k, .ready out) ∈ (pollAll i slots).1 := by
  induction slots generalizing i k with
  | nil => cases done
  | cons slot rest ih =>
      have later : ∀ {k}, (pollAll (i + 1) rest).2[k]? = some (.finished out) →
          rest[k]? = some (.finished out) ∨
            (i + (k + 1), .ready out) ∈ (pollAll (i + 1) rest).1 := by
        intro k done
        have split := ih done
        rwa [Nat.add_right_comm, Nat.add_assoc] at split
      cases slot with
      | finished out' =>
          cases k with
          | zero => exact .inl done
          | succ k => exact later done
      | inFlight fut =>
          unfold pollAll at done ⊢
          split at done
          · cases k with
            | zero =>
                cases done
                exact .inr (List.mem_cons_self ..)
            | succ k => exact (later done).imp_right (List.mem_cons_of_mem _)
          · cases k with
            | zero => cases done
            | succ k => exact (later done).imp_right (List.mem_cons_of_mem _)

/-- Members in insertion order, the first `yielded` of which were handed out. -/
structure WokenQueue (F Out : Type) where
  slots : List (Slot F Out)
  yielded : Nat
  log : PollLog Out
  bound : yielded ≤ slots.length
  finished : ∀ k out, slots[k]? = some (.finished out) → (k, .ready out) ∈ log

namespace WokenQueue

/-- All members in flight were polled. -/
def scanned (q : WokenQueue F Out) : WokenQueue F Out where
  slots := (pollAll 0 q.slots).2
  yielded := q.yielded
  log := q.log ++ (pollAll 0 q.slots).1
  bound := by
    rw [pollAll_length]
    exact q.bound
  finished k out done := by
    rcases pollAll_finished done with before | now
    · exact List.mem_append_left _ (q.finished k out before)
    · rw [Nat.zero_add] at now
      exact List.mem_append_right _ now

/-- Poll all members in flight, and hand out the output whose turn it is. -/
def pollNext (q : WokenQueue F Out) : Poll (Option Out) × WokenQueue F Out :=
  match turn : q.scanned.slots[q.yielded]? with
  | some (.finished out) =>
    (.ready (some out), { q.scanned with
      yielded := q.yielded + 1
      bound := (List.getElem?_eq_some_iff.mp turn).1 })
  | some (.inFlight _) => (.pending, q.scanned)
  | none => (.ready none, q.scanned)

omit [Future F Out] in
theorem finished_concat (q : WokenQueue F Out) (fut : F) (k : Nat) (out : Out)
    (done : (q.slots ++ [.inFlight fut])[k]? = some (.finished out)) :
    (k, .ready out) ∈ q.log := by
  rcases Nat.lt_trichotomy k q.slots.length with lt | rfl | gt
  · rw [List.getElem?_append_left lt] at done
    exact q.finished k out done
  · rw [List.getElem?_concat_length] at done
    cases done
  · rw [List.getElem?_eq_none (by simp; omega)] at done
    cases done

theorem pollNext_parts (q : WokenQueue F Out) :
    (pollNext q).2.slots = q.scanned.slots ∧ (pollNext q).2.log = q.scanned.log := by
  unfold pollNext
  split <;> exact ⟨rfl, rfl⟩

instance : FuturesOrdered (WokenQueue F Out) F Out where
  new := ⟨[], 0, [], Nat.le_refl 0, fun k out done => by cases done⟩
  pushBack q fut := { q with
    slots := q.slots ++ [.inFlight fut]
    bound := by
      rw [List.length_append]
      exact Nat.le_add_right_of_le q.bound
    finished := finished_concat q fut }
  pollNext := pollNext
  members q := slotAt (q.slots.map Slot.held)
  pushed q := q.slots.length
  log q := q.log
  yielded q := q.yielded
  members_new _ := rfl
  pushed_new := rfl
  log_new := rfl
  yielded_new := rfl
  members_pushBack q fut := by
    rw [List.map_append, List.map_singleton, Slot.held, slotAt_concat, List.length_map]
  pushed_pushBack q fut := List.length_append
  log_pushBack _ _ := rfl
  yielded_pushBack _ _ := rfl
  pushed_pollNext q := by
    rw [(pollNext_parts q).1]
    exact pollAll_length 0 q.slots
  log_pollNext q := by
    rw [(pollNext_parts q).1, (pollNext_parts q).2]
    exact ⟨_, rfl, pollAll_serves [] q.slots⟩
  pollNext_some := by
    intro q out q' h
    unfold pollNext at h
    split at h
    · next done =>
        cases h
        have lt := (List.getElem?_eq_some_iff.mp done).1
        rw [scanned, pollAll_length] at lt
        exact ⟨q.scanned.finished _ _ done, rfl, lt⟩
    · cases h
    · cases h
  pollNext_none := by
    intro q q' h
    unfold pollNext at h
    split at h
    · cases h
    · cases h
    · next past =>
        cases h
        have le := List.getElem?_eq_none_iff.mp past
        rw [scanned, pollAll_length] at le
        exact ⟨Nat.le_antisymm q.bound le, rfl⟩
  pollNext_pending := by
    intro q q' h
    unfold pollNext at h
    split at h
    · cases h
    · next turn =>
        cases h
        have lt := (List.getElem?_eq_some_iff.mp turn).1
        rw [scanned, pollAll_length] at lt
        exact ⟨lt, rfl⟩
    · cases h

end WokenQueue

end Async
