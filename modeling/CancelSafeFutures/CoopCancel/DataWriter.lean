import CancelSafeFutures.Async.Refinement
import CancelSafeFutures.CoopCancel.Waiters
import Mathlib.Algebra.GroupWithZero.Nat
import Mathlib.Data.List.Induction

/-!
# A writer that is cancelled cooperatively

The `DataWriter` of the documentation of `coop_cancel`: a loop of `write_buf`, which may be
cancelled, and of a `send` that reports what was written and must not be.  `select!` waits for
`write_buf` and for a `recv` at once, and only there is the loop left.

`dataWriter` is one call of `write` and what goes on around it: cancelers and waiters at any time,
any answers of the file and of the channel for the reports, and the task aborted wherever it may
be suspended.  The invariant is that what was written is what was reported, together with the one
report at hand and with the one that was lost, if the task was aborted just then
(`DataWriter.Inv`).
-/

namespace CancelSafeFutures

open Async

variable {M C T E : Type}

/-- How a `send` of a report ended: the channel took it, or its receiver was gone. -/
structure Report where
  bytesWritten : Nat
  taken : Bool
  deriving DecidableEq, Repr

/-- Where `write` stands.  `disabled` says that `recv` has returned in this `select!`. -/
inductive WritePlace (E : Type) where
  | unresumed
  | selecting (disabled : Bool)
  | sending (bytesWritten : Nat)
  | returned (result : Except E Unit)
  | dropped

/-- The value that a `send` under way will report. -/
def WritePlace.atHand : WritePlace E → List Nat
  | .sending bytesWritten => [bytesWritten]
  | _ => []

/-- A writer in a call of `write`.  `file` is what the call has written, `cursor` what it has not,
`written` lists the results of `write_buf`, and `sent` the reports, from the first on.
`cancel_receiver` is the receiver of `pair`. -/
structure DataWriter (M C T E : Type) where
  file : List UInt8
  cursor : List UInt8
  place : WritePlace E
  suspended : Bool
  written : List Nat
  sent : List Report
  pair : CoopCancel M C T

/-- The moves.  A poll of `write` is a sequence of them that ends where one is suspended or the
call returns; `elsewhere` is a move of a canceler or a waiter. -/
inductive DataWriterOp (T E : Type) where
  | resume
  | pollSelect (recvFirst : Bool) (write : Poll (Except E Nat)) (budget : Bool)
  | pollSend (answer : Poll Bool)
  | abort
  | drop
  | elsewhere (op : CoopCancelOp T)

/-- The moves that leave `cancel_receiver` alone. -/
def CoopCancelOp.elsewhere : CoopCancelOp T → Bool
  | .cloneCanceler | .dropCanceler | .cancel .. | .pollWaiter .. | .dropWaiter .. => true
  | .recv | .pollRecv _ | .dropRecv | .dropReceiver => false

namespace DataWriter

variable [UnboundedChannel M (CancelPayload T)] [OneshotChannel C Never]

/-- The head of the loop.  In another iteration the two futures of `select!` are made. -/
def head (s : DataWriter M C T E) : Option (DataWriter M C T E) :=
  if s.cursor = [] then some { s with place := .returned (.ok ()), suspended := false }
  else (s.pair.step .recv).map fun pair =>
    { s with place := .selecting false, suspended := false, pair := pair }

/-- `write_buf` is ready: `select!` drops both futures, and its first branch is taken. -/
def wrote (s : DataWriter M C T E) (res : Except E Nat) : Option (DataWriter M C T E) :=
  (s.pair.step .dropRecv).map fun pair =>
    match res with
    | .ok bytesWritten =>
      { s with
        file := s.file ++ s.cursor.take bytesWritten
        cursor := s.cursor.drop bytesWritten
        place := .sending bytesWritten
        suspended := false
        written := s.written ++ [bytesWritten]
        pair := pair }
    | .error error => { s with place := .returned (.error error), suspended := false, pair := pair }

/-- `recv` is ready with a message: its branch breaks out of the loop. -/
def cancelled (s : DataWriter M C T E) : Option (DataWriter M C T E) :=
  (s.pair.step .dropRecv).map fun pair =>
    { s with place := .returned (.ok ()), suspended := false, pair := pair }

/-- A poll of `recv` in `select!`, and whether its pattern matches. -/
def pollRecv (s : DataWriter M C T E) (disabled budget : Bool) :
    Option (Bool × DataWriter M C T E) :=
  if disabled then some (false, s)
  else
    match s.pair.receiver, s.pair.recv with
    | some receiver, some fut =>
      match fut.poll receiver s.pair.channels budget with
      | .ok result =>
        match result.answer with
        | .ready output =>
          some (output.isSome, { s with place := .selecting true, pair := s.pair.polled result })
        | .pending => some (false, { s with pair := s.pair.polled result })
      | .error _ => none
    | _, _ => none

/-- The rest of a poll of `select!` in which the pattern of `recv` did not match. -/
def unmatched (s : DataWriter M C T E) : Poll (Except E Nat) → Option (DataWriter M C T E)
  | .ready res => s.wrote res
  | .pending => some { s with suspended := true }

/-- A poll of `select!`, from the branch that the random number generator picks. -/
def pollSelect (s : DataWriter M C T E) (disabled recvFirst : Bool) (write : Poll (Except E Nat))
    (budget : Bool) : Option (DataWriter M C T E) :=
  match recvFirst, write with
  | false, .ready res => s.wrote res
  | _, _ => do
    let (matched, s) ← s.pollRecv disabled budget
    if matched then s.cancelled else s.unmatched write

/-- A poll of `send`, whose result is ignored. -/
def pollSend (s : DataWriter M C T E) (bytesWritten : Nat) : Poll Bool → Option (DataWriter M C T E)
  | .pending => some { s with suspended := true }
  | .ready taken => head { s with sent := s.sent ++ [⟨bytesWritten, taken⟩] }

/-- The future of `write` is dropped, if there still is one, and the writer. -/
def dropped (s : DataWriter M C T E) : Option (DataWriter M C T E) := do
  let pair ← match s.place with
    | .selecting _ => s.pair.step .dropRecv
    | _ => some s.pair
  let pair ← pair.step .dropReceiver
  some { s with place := .dropped, suspended := false, pair := pair }

/-- `write_buf` writes no more than there is. -/
def Fits (s : DataWriter M C T E) : Poll (Except E Nat) → Prop
  | .ready (.ok bytesWritten) => bytesWritten ≤ s.cursor.length
  | _ => True

instance (s : DataWriter M C T E) (write : Poll (Except E Nat)) : Decidable (s.Fits write) :=
  match write with
  | .ready (.ok bytesWritten) => inferInstanceAs (Decidable (bytesWritten ≤ s.cursor.length))
  | .ready (.error _) | .pending => .isTrue trivial

/-- One move. -/
def step (s : DataWriter M C T E) : DataWriterOp T E → Option (DataWriter M C T E)
  | .resume =>
    match s.place with
    | .unresumed => s.head
    | _ => none
  | .pollSelect recvFirst write budget =>
    match s.place with
    | .selecting disabled =>
      if s.Fits write then s.pollSelect disabled recvFirst write budget else none
    | _ => none
  | .pollSend answer =>
    match s.place with
    | .sending bytesWritten => s.pollSend bytesWritten answer
    | _ => none
  | .abort => if s.suspended then s.dropped else none
  | .drop =>
    match s.place with
    | .returned _ => s.dropped
    | _ => none
  | .elsewhere op =>
    if op.elsewhere then (s.pair.step op).map fun pair => { s with pair := pair } else none

end DataWriter

/-- A call of `write` for `data`, with a pair of its own. -/
def dataWriter (M C T E : Type) [UnboundedChannel M (CancelPayload T)] [OneshotChannel C Never]
    (data : List UInt8) : System (DataWriter M C T E) (DataWriterOp T E) where
  init := ⟨[], data, .unresumed, true, [], [], CoopCancel.newPair⟩
  step := DataWriter.step

/-- Such a call over channels that are no more than their views. -/
abbrev plainWriter (T E : Type) (data : List UInt8) :=
  dataWriter (Mpsc (CancelPayload T)) (Oneshot Never) T E data

variable [UnboundedChannel M (CancelPayload T)] [OneshotChannel C Never]

namespace CoopCancel

/-! ## The writer and its receiver -/

theorem step_recv {s : CoopCancel M C T} (receiver : s.receiver.isSome) (recv : s.recv = none) :
    s.step .recv = some { s with recv := some .unresumed } := if_pos ⟨receiver, recv⟩

theorem step_dropRecv {s : CoopCancel M C T} {fut : RecvFuture} (recv : s.recv = some fut) :
    s.step .dropRecv = some { s with recv := none } := by
  rw [step, recv]
  rfl

theorem step_dropReceiver {s : CoopCancel M C T} {receiver : Receiver} (recv : s.recv = none)
    (held : s.receiver = some receiver) :
    s.step .dropReceiver =
      some { s with channels := receiver.drop s.channels, receiver := none } := by
  rw [step, if_pos recv, held]
  rfl

/-- What the others do does not concern the receiver. -/
theorem step_elsewhere {s s' : CoopCancel M C T} {op : CoopCancelOp T}
    (elsewhere : op.elsewhere = true) (h : s.step op = some s') :
    s'.recv = s.recv ∧ s'.receiver = s.receiver ∧ s'.outputs = s.outputs := by
  cases op with
  | cloneCanceler | dropCanceler | dropWaiter =>
      obtain ⟨-, h⟩ := Option.ite_none_right_eq_some.mp h
      cases h
      exact ⟨rfl, rfl, rfl⟩
  | cancel name message =>
      obtain ⟨-, h⟩ := Option.ite_none_right_eq_some.mp h
      cases h
      unfold cancelled
      split <;> exact ⟨rfl, rfl, rfl⟩
  | pollWaiter waiter budget =>
      obtain ⟨-, h⟩ := Option.ite_none_right_eq_some.mp h
      split at h
      · cases h
        exact ⟨rfl, rfl, rfl⟩
      · cases h
        exact ⟨rfl, rfl, rfl⟩
  | recv | pollRecv | dropRecv | dropReceiver => cases elsewhere

end CoopCancel

/-- A poll of a `recv` that has not returned goes through. -/
theorem RecvFuture.poll_ok {fut : RecvFuture} (unreturned : fut ≠ .returned) (receiver : Receiver)
    (channels : Channels M C) (budget : Bool) :
    ∃ result, fut.poll receiver channels budget = .ok result ∧
      (result.answer = .pending → result.fut ≠ .returned) := by
  have resumed : (receiver.resume channels budget).answer = .pending →
      (receiver.resume channels budget).fut ≠ .returned := by
    unfold Receiver.resume
    split <;> simp
  cases fut with
  | unresumed =>
      rw [poll]
      split
      · exact ⟨_, rfl, fun h => (by cases h)⟩
      · exact ⟨_, rfl, resumed⟩
  | awaiting => exact ⟨_, rfl, resumed⟩
  | returned => exact (unreturned rfl).elim

/-- A run of a pair can be carried on. -/
theorem coopCancel_reached_step {pair pair' : CoopCancel M C T} {op : CoopCancelOp T}
    (reached : ∃ ops, (coopCancel M C T).run ops = some pair) (h : pair.step op = some pair') :
    ∃ ops, (coopCancel M C T).run ops = some pair' := by
  obtain ⟨ops, run⟩ := reached
  refine ⟨ops ++ [op], ?_⟩
  rw [System.run_concat, run]
  exact h

namespace DataWriter

/-- A poll of `write` from where it stands. -/
inductive Polls (s : DataWriter M C T E) : DataWriterOp T E → Prop
  | resume : s.place = .unresumed → Polls s .resume
  | select {disabled recvFirst write budget} :
      s.place = .selecting disabled → s.Fits write → Polls s (.pollSelect recvFirst write budget)
  | send {bytesWritten answer} : s.place = .sending bytesWritten → Polls s (.pollSend answer)

/-- The moves there are. -/
theorem step_cases {s s' : DataWriter M C T E} {op : DataWriterOp T E} (h : s.step op = some s') :
    s.Polls op ∨ (op = .abort ∧ s.dropped = some s') ∨
      (op = .drop ∧ (∃ result, s.place = .returned result) ∧ s.dropped = some s') ∨
      ∃ op' pair, op = .elsewhere op' ∧ op'.elsewhere = true ∧ s.pair.step op' = some pair ∧
        s' = { s with pair := pair } := by
  cases op with
  | resume =>
      simp only [step] at h
      split at h
      · next place => exact .inl (.resume place)
      · cases h
  | pollSelect recvFirst write budget =>
      simp only [step] at h
      split at h
      · next disabled place =>
          obtain ⟨fits, -⟩ := Option.ite_none_right_eq_some.mp h
          exact .inl (.select place fits)
      · cases h
  | pollSend answer =>
      simp only [step] at h
      split at h
      · next bytesWritten place => exact .inl (.send place)
      · cases h
  | abort =>
      obtain ⟨-, h⟩ := Option.ite_none_right_eq_some.mp h
      exact .inr (.inl ⟨rfl, h⟩)
  | drop =>
      simp only [step] at h
      split at h
      · next result place => exact .inr (.inr (.inl ⟨rfl, ⟨result, place⟩, h⟩))
      · cases h
  | elsewhere op' =>
      obtain ⟨elsewhere, h⟩ := Option.ite_none_right_eq_some.mp h
      obtain ⟨pair, moved, rfl⟩ := Option.map_eq_some_iff.mp h
      exact .inr (.inr (.inr ⟨op', pair, rfl, elsewhere, moved, rfl⟩))

/-! ## What holds in every state -/

/-- The receiver lives as long as the writer, and is borrowed exactly while `select!` waits.  A
`recv` that has returned is not polled again. -/
def Borrowed (place : WritePlace E) (pair : CoopCancel M C T) : Prop :=
  match place with
  | .selecting disabled =>
    pair.receiver.isSome ∧
      ∃ fut, pair.recv = some fut ∧ (disabled = false → fut ≠ .returned)
  | .dropped => pair.receiver = none
  | _ => pair.receiver.isSome ∧ pair.recv = none

/-- What holds in every state.  `lost` is the report that was lost, if one was. -/
structure Inv (data : List UInt8) (lost : List Nat) (s : DataWriter M C T E) : Prop where
  contents : s.file ++ s.cursor = data
  length : s.file.length = s.written.sum
  reports : s.written = s.sent.map (·.bytesWritten) ++ s.place.atHand ++ lost
  dropped : lost ≠ [] → s.place = .dropped
  finished : s.place = .returned (.ok ()) →
    s.cursor = [] ∨ ∃ message, some message ∈ s.pair.outputs
  borrowed : Borrowed s.place s.pair
  reached : ∃ ops, (coopCancel M C T).run ops = some s.pair

theorem init_inv (data : List UInt8) : Inv data [] (dataWriter M C T E data).init where
  contents := rfl
  length := rfl
  reports := rfl
  dropped h := (h rfl).elim
  finished h := by cases h
  borrowed := ⟨rfl, rfl⟩
  reached := ⟨[], rfl⟩

variable {data : List UInt8} {s : DataWriter M C T E}

/-- Nothing is lost or at hand: all that was written is reported. -/
theorem inv_of_reported (contents : s.file ++ s.cursor = data)
    (length : s.file.length = s.written.sum) (reported : s.written = s.sent.map (·.bytesWritten))
    (atHand : s.place.atHand = [])
    (finished : s.place = .returned (.ok ()) →
      s.cursor = [] ∨ ∃ message, some message ∈ s.pair.outputs)
    (borrowed : Borrowed s.place s.pair)
    (reached : ∃ ops, (coopCancel M C T).run ops = some s.pair) :
    Inv data [] s where
  contents := contents
  length := length
  reports := by rw [atHand, List.append_nil, List.append_nil, reported]
  dropped some_lost := (some_lost rfl).elim
  finished := finished
  borrowed := borrowed
  reached := reached

/-- The head of the loop, when all that was written is reported. -/
theorem head_inv (contents : s.file ++ s.cursor = data) (length : s.file.length = s.written.sum)
    (reported : s.written = s.sent.map (·.bytesWritten)) (receiver : s.pair.receiver.isSome)
    (recv : s.pair.recv = none) (reached : ∃ ops, (coopCancel M C T).run ops = some s.pair) :
    ∃ s', s.head = some s' ∧ Inv data [] s' := by
  by_cases empty : s.cursor = []
  · have left : s.head = some { s with place := .returned (.ok ()), suspended := false } :=
      if_pos empty
    exact ⟨_, left, inv_of_reported contents length reported rfl (fun _ => .inl empty)
      ⟨receiver, recv⟩ reached⟩
  · have made := CoopCancel.step_recv receiver recv
    have again : s.head = some
        { s with
          place := .selecting false
          suspended := false
          pair := { s.pair with recv := some .unresumed } } := by
      rw [head, if_neg empty, made]
      rfl
    exact ⟨_, again, inv_of_reported contents length reported rfl (fun h => by cases h)
      ⟨receiver, .unresumed, rfl, fun _ => by decide⟩ (coopCancel_reached_step reached made)⟩

/-- Leaving `select!`, whichever branch it is for. -/
theorem Inv.leave {disabled : Bool} (inv : Inv data [] s) (place : s.place = .selecting disabled) :
    ∃ pair, s.pair.step .dropRecv = some pair ∧ pair.receiver.isSome ∧ pair.recv = none ∧
      pair.outputs = s.pair.outputs ∧ ∃ ops, (coopCancel M C T).run ops = some pair := by
  have borrowed := inv.borrowed
  rw [place] at borrowed
  obtain ⟨receiver, fut, made, -⟩ := borrowed
  have dropped := CoopCancel.step_dropRecv made
  exact ⟨_, dropped, receiver, rfl, rfl, coopCancel_reached_step inv.reached dropped⟩

/-- While `select!` waits, all that was written is reported. -/
theorem Inv.reported {disabled : Bool} (inv : Inv data [] s)
    (place : s.place = .selecting disabled) : s.written = s.sent.map (·.bytesWritten) := by
  simpa [place, WritePlace.atHand] using inv.reports

/-- The first branch. -/
theorem Inv.wrote {disabled : Bool} (inv : Inv data [] s) (place : s.place = .selecting disabled)
    {res : Except E Nat} (fits : s.Fits (.ready res)) :
    ∃ s', s.wrote res = some s' ∧ Inv data [] s' := by
  obtain ⟨pair, dropped, receiver, recv, -, reached⟩ := inv.leave place
  have reported := inv.reported place
  cases res with
  | ok bytesWritten =>
      have wrote : s.wrote (.ok bytesWritten) = some
          { s with
            file := s.file ++ s.cursor.take bytesWritten
            cursor := s.cursor.drop bytesWritten
            place := .sending bytesWritten
            suspended := false
            written := s.written ++ [bytesWritten]
            pair := pair } := by
        rw [DataWriter.wrote, dropped]
        rfl
      refine ⟨_, wrote, ?_, ?_, ?_, fun h => (h rfl).elim, fun h => (by cases h),
        ⟨receiver, recv⟩, reached⟩
      · rw [List.append_assoc, List.take_append_drop, inv.contents]
      · rw [List.length_append, List.length_take_of_le fits, inv.length, List.sum_append,
          List.sum_singleton]
      · simp [WritePlace.atHand, reported]
  | error error =>
      have failed : s.wrote (.error error) = some
          { s with place := .returned (.error error), suspended := false, pair := pair } := by
        rw [DataWriter.wrote, dropped]
        rfl
      exact ⟨_, failed, inv_of_reported inv.contents inv.length reported rfl
        (fun h => by cases h) ⟨receiver, recv⟩ reached⟩

/-- The second branch. -/
theorem Inv.cancelled {disabled : Bool} (inv : Inv data [] s)
    (place : s.place = .selecting disabled)
    (message : ∃ message, some message ∈ s.pair.outputs) :
    ∃ s', s.cancelled = some s' ∧ Inv data [] s' := by
  obtain ⟨pair, dropped, receiver, recv, outputs, reached⟩ := inv.leave place
  have cancelled : s.cancelled = some
      { s with place := .returned (.ok ()), suspended := false, pair := pair } := by
    rw [DataWriter.cancelled, dropped]
    rfl
  exact ⟨_, cancelled, inv_of_reported inv.contents inv.length (inv.reported place) rfl
    (fun _ => .inr (outputs ▸ message)) ⟨receiver, recv⟩ reached⟩

/-- A poll of `recv` goes through, and matches only a message. -/
theorem Inv.pollRecv {disabled : Bool} (inv : Inv data [] s)
    (place : s.place = .selecting disabled) (budget : Bool) :
    ∃ matched s', s.pollRecv disabled budget = some (matched, s') ∧ Inv data [] s' ∧
      (∃ disabled', s'.place = .selecting disabled') ∧ s'.cursor = s.cursor ∧
      (matched = true → ∃ message, some message ∈ s'.pair.outputs) := by
  cases disabled with
  | true => exact ⟨false, s, rfl, inv, ⟨_, place⟩, rfl, fun h => (by cases h)⟩
  | false =>
      have borrowed := inv.borrowed
      rw [place] at borrowed
      obtain ⟨alive, fut, made, unreturned⟩ := borrowed
      obtain ⟨receiver, held⟩ := Option.isSome_iff_exists.mp alive
      obtain ⟨result, polled, waiting⟩ :=
        RecvFuture.poll_ok (unreturned rfl) receiver s.pair.channels budget
      have moved : s.pair.step (.pollRecv budget) = some (s.pair.polled result) := by
        simp only [CoopCancel.step, held, made, polled]
      have reached := coopCancel_reached_step inv.reached moved
      have reported := inv.reported place
      unfold DataWriter.pollRecv
      rw [if_neg Bool.false_ne_true, held, made]
      simp only [polled]
      cases answer : result.answer with
      | ready output =>
          let s' : DataWriter M C T E :=
            { s with place := .selecting true, pair := s.pair.polled result }
          have inv' : Inv data [] s' :=
            inv_of_reported inv.contents inv.length reported rfl (fun h => by cases h)
              ⟨rfl, result.fut, rfl, fun h => by cases h⟩ reached
          refine ⟨_, _, rfl, inv', ⟨true, rfl⟩, rfl, fun matched => ?_⟩
          obtain ⟨message, rfl⟩ := Option.isSome_iff_exists.mp matched
          refine ⟨message, ?_⟩
          simp [CoopCancel.polled, answer]
      | pending =>
          refine ⟨_, _, rfl, ⟨inv.contents, inv.length, inv.reports, inv.dropped, ?_, ?_,
            reached⟩, ⟨false, place⟩, rfl, fun h => (by cases h)⟩
          · intro returned
            rw [place] at returned
            cases returned
          · rw [place]
            exact ⟨rfl, _, rfl, fun _ => waiting answer⟩

theorem Inv.suspend (inv : Inv data [] s) : Inv data [] { s with suspended := true } :=
  ⟨inv.contents, inv.length, inv.reports, inv.dropped, inv.finished, inv.borrowed, inv.reached⟩

/-- A poll of `select!` in which `recv` is polled. -/
theorem Inv.recvPolled {disabled : Bool} (inv : Inv data [] s)
    (place : s.place = .selecting disabled) {write : Poll (Except E Nat)} (fits : s.Fits write)
    (budget : Bool) :
    ∃ s', (do
        let (matched, s) ← s.pollRecv disabled budget
        if matched then s.cancelled else s.unmatched write) = some s' ∧ Inv data [] s' := by
  obtain ⟨matched, s₁, polled, inv₁, ⟨disabled', place₁⟩, cursor, message⟩ :=
    inv.pollRecv place budget
  rw [polled]
  cases matched with
  | true => exact inv₁.cancelled place₁ (message rfl)
  | false =>
      cases write with
      | ready res =>
          have fits₁ : s₁.Fits (.ready res) := by
            cases res with
            | ok bytesWritten =>
                rw [Fits, cursor]
                exact fits
            | error => trivial
          exact inv₁.wrote place₁ fits₁
      | pending => exact ⟨_, rfl, inv₁.suspend⟩

/-- **Step lemma, for the polls.**  A poll always goes through, and loses nothing. -/
theorem Inv.poll {op : DataWriterOp T E} (inv : Inv data [] s) (polls : s.Polls op) :
    ∃ s', s.step op = some s' ∧ Inv data [] s' := by
  cases polls with
  | resume place =>
      have borrowed := inv.borrowed
      have reports := inv.reports
      rw [place] at borrowed reports
      obtain ⟨s', headed, inv'⟩ := head_inv inv.contents inv.length
        (by simpa [WritePlace.atHand] using reports) borrowed.1 borrowed.2 inv.reached
      refine ⟨s', ?_, inv'⟩
      rw [step, place]
      exact headed
  | @select disabled recvFirst write budget place fits =>
      have stepped : s.step (.pollSelect recvFirst write budget) =
          s.pollSelect disabled recvFirst write budget := by
        simp only [step, place, if_pos fits]
      rw [stepped]
      cases recvFirst with
      | true => exact inv.recvPolled place fits budget
      | false =>
          cases write with
          | ready res => exact inv.wrote place fits
          | pending => exact inv.recvPolled place fits budget
  | @send bytesWritten answer place =>
      have stepped : s.step (.pollSend answer) = s.pollSend bytesWritten answer := by
        simp only [step, place]
      rw [stepped]
      cases answer with
      | pending => exact ⟨_, rfl, inv.suspend⟩
      | ready taken =>
          have borrowed := inv.borrowed
          have reports := inv.reports
          rw [place] at borrowed reports
          refine head_inv inv.contents inv.length ?_ borrowed.1 borrowed.2 inv.reached
          simpa [WritePlace.atHand] using reports

/-- The report that a move loses. -/
def lostBy (s : DataWriter M C T E) : DataWriterOp T E → List Nat
  | .abort => s.place.atHand
  | _ => []

/-- Once nothing borrows it, the receiver goes down with the writer. -/
theorem Inv.receiverDropped {s' : DataWriter M C T E} {pair : CoopCancel M C T}
    (inv : Inv data [] s) (receiver : pair.receiver.isSome) (recv : pair.recv = none)
    (outer : ∃ ops, (coopCancel M C T).run ops = some pair)
    (h : (pair.step .dropReceiver).bind (fun pair =>
      some { s with place := .dropped, suspended := false, pair := pair }) = some s') :
    Inv data s.place.atHand s' := by
  obtain ⟨receiver, held⟩ := Option.isSome_iff_exists.mp receiver
  have dropped := CoopCancel.step_dropReceiver recv held
  rw [dropped] at h
  cases h
  have reports := inv.reports
  rw [List.append_nil] at reports
  refine ⟨inv.contents, inv.length, ?_, fun _ => rfl, fun h => (by cases h), rfl,
    coopCancel_reached_step outer dropped⟩
  simpa [WritePlace.atHand] using reports

/-- The writer and the future of `write` go down together. -/
theorem Inv.drop {lost : List Nat} {s' : DataWriter M C T E} (inv : Inv data lost s)
    (h : s.dropped = some s') : lost = [] ∧ Inv data s.place.atHand s' := by
  have borrowed := inv.borrowed
  have alive : s.place ≠ .dropped := by
    intro gone
    rw [gone] at borrowed
    have receiver : s.pair.receiver = none := borrowed
    simp [DataWriter.dropped, gone, CoopCancel.step, receiver] at h
  have unlost : lost = [] := by
    by_contra some_lost
    exact alive (inv.dropped some_lost)
  subst unlost
  refine ⟨rfl, ?_⟩
  by_cases selecting : ∃ disabled, s.place = .selecting disabled
  · obtain ⟨disabled, place⟩ := selecting
    obtain ⟨pair, left, receiver, recv, -, reached⟩ := inv.leave place
    refine inv.receiverDropped receiver recv reached ?_
    simpa [DataWriter.dropped, place, left] using h
  · have idle : s.pair.receiver.isSome ∧ s.pair.recv = none := by
      cases place : s.place with
      | selecting disabled => exact (selecting ⟨disabled, place⟩).elim
      | dropped => exact (alive place).elim
      | unresumed | sending | returned =>
          rw [place] at borrowed
          exact borrowed
    refine inv.receiverDropped idle.1 idle.2 inv.reached ?_
    rw [DataWriter.dropped] at h
    split at h
    · next disabled place => exact (selecting ⟨disabled, place⟩).elim
    · exact h

/-- While the future is polled nothing is lost. -/
theorem Inv.unlost_of_polls {lost : List Nat} {op : DataWriterOp T E} (inv : Inv data lost s)
    (polls : s.Polls op) : lost = [] := by
  by_contra some_lost
  have gone := inv.dropped some_lost
  cases polls with
  | resume place | select place | send place =>
      rw [gone] at place
      cases place

/-- **Step lemma.** -/
theorem Inv.step {lost : List Nat} {op : DataWriterOp T E} {s' : DataWriter M C T E}
    (inv : Inv data lost s) (h : s.step op = some s') : Inv data (lost ++ s.lostBy op) s' := by
  rcases step_cases h with polls | ⟨rfl, down⟩ | ⟨rfl, ⟨result, place⟩, down⟩ |
    ⟨op', pair, rfl, elsewhere, moved, rfl⟩
  · have unlost := inv.unlost_of_polls polls
    subst unlost
    obtain ⟨s'', stepped, inv'⟩ := inv.poll polls
    rw [h] at stepped
    cases stepped
    cases polls <;> exact inv'
  · obtain ⟨rfl, inv'⟩ := inv.drop down
    exact inv'
  · obtain ⟨rfl, inv'⟩ := inv.drop down
    rw [place] at inv'
    exact inv'
  · obtain ⟨recv, receiver, outputs⟩ := CoopCancel.step_elsewhere elsewhere moved
    rw [lostBy, List.append_nil]
    · refine ⟨inv.contents, inv.length, inv.reports, inv.dropped, ?_, ?_,
        coopCancel_reached_step inv.reached moved⟩
      · rw [outputs]
        exact inv.finished
      · simpa only [Borrowed, recv, receiver] using inv.borrowed
    · intro h
      cases h

/-- The receiver is dropped only with the writer. -/
theorem Inv.place_of_no_receiver {lost : List Nat} (inv : Inv data lost s)
    (receiver : s.pair.receiver = none) : s.place = .dropped := by
  have borrowed := inv.borrowed
  cases place : s.place with
  | dropped => rfl
  | unresumed | selecting | sending | returned =>
      rw [place] at borrowed
      have alive : s.pair.receiver.isSome := borrowed.1
      rw [receiver] at alive
      cases alive

variable (M C) in
/-- The task was aborted while a report was at hand. -/
def AbortedSending (data : List UInt8) (ops : List (DataWriterOp T E)) : Prop :=
  ∃ before after s bytesWritten, ops = before ++ .abort :: after ∧
    (dataWriter M C T E data).run before = some s ∧ s.place = .sending bytesWritten

/-- That happens with the last move or has happened before. -/
theorem abortedSending_concat {ops : List (DataWriterOp T E)} {op : DataWriterOp T E}
    (run : (dataWriter M C T E data).run ops = some s) :
    AbortedSending M C data (ops ++ [op]) ↔ AbortedSending M C data ops ∨ s.lostBy op ≠ [] := by
  constructor
  · rintro ⟨before, after, s', bytesWritten, same, run', place⟩
    rcases List.eq_nil_or_concat after with rfl | ⟨after, last, rfl⟩
    · obtain ⟨rfl, rfl⟩ := List.append_singleton_inj.mp same
      rw [run] at run'
      cases run'
      refine .inr ?_
      rw [lostBy, place]
      exact List.cons_ne_nil _ _
    · rw [List.concat_eq_append, ← List.cons_append, ← List.append_assoc] at same
      obtain ⟨rfl, -⟩ := List.append_singleton_inj.mp same
      exact .inl ⟨before, after, s', bytesWritten, rfl, run', place⟩
  · rintro (⟨before, after, s', bytesWritten, rfl, run', place⟩ | lost)
    · exact ⟨before, after ++ [op], s', bytesWritten, by simp, run', place⟩
    · cases op with
      | abort =>
          cases place : s.place with
          | sending bytesWritten => exact ⟨ops, [], s, bytesWritten, rfl, run, place⟩
          | unresumed | selecting | returned | dropped =>
              rw [lostBy, place] at lost
              exact (lost rfl).elim
      | resume | pollSelect | pollSend | drop | elsewhere => exact (lost rfl).elim

/-- **Run lemma.** -/
theorem inv_of_run {ops : List (DataWriterOp T E)}
    (run : (dataWriter M C T E data).run ops = some s) :
    ∃ lost, Inv data lost s ∧ (lost ≠ [] ↔ AbortedSending M C data ops) := by
  induction ops using List.reverseRecOn generalizing s with
  | nil =>
      cases run
      refine ⟨[], init_inv data, fun h => (h rfl).elim, ?_⟩
      rintro ⟨before, after, s, bytesWritten, none, -⟩
      exact (List.append_ne_nil_of_right_ne_nil _ (List.cons_ne_nil _ _) none.symm).elim
  | append_singleton ops op ih =>
      rw [System.run_concat] at run
      obtain ⟨s₀, run₀, stepped⟩ := Option.bind_eq_some_iff.mp run
      obtain ⟨lost, inv, aborted⟩ := ih run₀
      refine ⟨_, inv.step stepped, ?_⟩
      rw [abortedSending_concat run₀, ← aborted, ne_eq, List.append_eq_nil_iff, not_and_or]

end DataWriter

open DataWriter in
/-- **The writer keeps its books.**  In every run the file holds the first bytes of the data, as
many as the calls of `write_buf` have written, and unless the task was aborted in a `send`, each of
these calls was reported once and in order, or is about to be.  The call returns `Ok` only when
everything is written or there was a message.  No poll of it gets stuck or panics.  So whoever
waits for a `Waiter` finds everything reported, except for one report if and only if the task was
aborted in a `send`. -/
theorem waiter_finds_reports {data : List UInt8} {ops : List (DataWriterOp T E)}
    {s : DataWriter M C T E} (run : (dataWriter M C T E data).run ops = some s) :
    s.file = data.take s.written.sum ∧ s.cursor = data.drop s.written.sum ∧
    (¬ AbortedSending M C data ops → s.written = s.sent.map (·.bytesWritten) ++ s.place.atHand) ∧
    (s.place = .returned (.ok ()) →
      s.cursor = [] ∨ ∃ payload ∈ s.pair.sent.head?, some payload.message ∈ s.pair.outputs) ∧
    (∀ op, s.Polls op → (s.step op).isSome) ∧
    ∀ waiter ∈ s.pair.waiters, ∀ budget,
      waiter.poll s.pair.channels.oneshots budget = .ok (.ready ()) →
        (s.sent.map (·.bytesWritten) = s.written ↔ ¬ AbortedSending M C data ops) := by
  obtain ⟨lost, inv, aborted⟩ := inv_of_run run
  obtain ⟨pairOps, pairRun⟩ := inv.reached
  obtain ⟨delivery, oneshots⟩ := CoopCancel.oneshotsInv (CoopCancel.view_run pairRun)
  have unlost : ¬ AbortedSending M C data ops ↔ lost = [] := by rw [← aborted, not_not]
  refine ⟨?_, ?_, fun unaborted => ?_, fun returned => ?_, ?_, ?_⟩
  · rw [← inv.contents, ← inv.length, List.take_left]
  · rw [← inv.contents, ← inv.length, List.drop_left]
  · rw [inv.reports, unlost.mp unaborted, List.append_nil]
  · rcases inv.finished returned with empty | ⟨message, received⟩
    · exact .inl empty
    · exact .inr (delivery.stage.output_sent (s := s.pair.view) received)
  · intro op polls
    have unlost := inv.unlost_of_polls polls
    subst unlost
    obtain ⟨s', stepped, -⟩ := inv.poll polls
    rw [stepped]
    rfl
  · intro waiter mem budget ready
    rw [← Waiter.view_poll] at ready
    have polled : waiter.poll s.pair.channels.oneshots.view budget = _ :=
      oneshots.poll_waiter mem budget
    rw [polled] at ready
    have receiver : s.pair.receiver = none := by
      by_contra alive
      rw [if_neg fun gone => alive gone.2] at ready
      cases ready
    have reports := inv.reports
    rw [inv.place_of_no_receiver receiver] at reports
    rw [unlost, reports]
    simp [WritePlace.atHand]

open DataWriter in
/-- Two bytes are written and reported, and then there is a message: all is reported when the
waiter is ready.  If the task is aborted while the report waits for room, it is not. -/
theorem waiter_finds_reports_unless :
    (∃ s,
      (plainWriter Unit Unit [1, 2, 3]).run
        [.resume, .pollSelect false .pending true, .pollSelect true (.ready (.ok 2)) true,
          .pollSend (.ready true), .elsewhere (.cancel 0 ()), .pollSelect true .pending true,
          .drop] = some s ∧
      s.sent.map (·.bytesWritten) = s.written) ∧
    ∃ s,
      (plainWriter Unit Unit [1, 2, 3]).run
        [.resume, .pollSelect false (.ready (.ok 2)) true, .pollSend .pending,
          .elsewhere (.cancel 0 ()), .abort] = some s ∧
      s.sent.map (·.bytesWritten) ≠ s.written := by
  have run : (plainWriter Unit Unit [1, 2, 3]).run
      [.resume, .pollSelect false .pending true, .pollSelect true (.ready (.ok 2)) true,
        .pollSend (.ready true), .elsewhere (.cancel 0 ()), .pollSelect true .pending true,
        .drop] = some _ := rfl
  have before : (plainWriter Unit Unit [1, 2, 3]).run
      [.resume, .pollSelect false (.ready (.ok 2)) true, .pollSend .pending,
        .elsewhere (.cancel 0 ())] = some _ := rfl
  have aborted : (plainWriter Unit Unit [1, 2, 3]).run
      [.resume, .pollSelect false (.ready (.ok 2)) true, .pollSend .pending,
        .elsewhere (.cancel 0 ()), .abort] = some _ := rfl
  refine ⟨⟨_, run, ?_⟩, _, aborted, fun reported => ?_⟩
  · have waiters := (waiter_finds_reports run).2.2.2.2.2
    refine (waiters ⟨0⟩ (List.mem_singleton_self _) true rfl).mpr ?_
    rintro ⟨before, after, _, _, same, -⟩
    have abort : DataWriterOp.abort ∈ before ++ .abort :: after :=
      List.mem_append_right before List.mem_cons_self
    rw [← same] at abort
    simp at abort
  · have waiters := (waiter_finds_reports aborted).2.2.2.2.2
    refine (waiters ⟨0⟩ (List.mem_singleton_self _) true rfl).mp reported ?_
    exact ⟨_, [], _, 2, rfl, before, rfl⟩

end CancelSafeFutures
