import CancelSafeFutures.CoopCancel.Pair
import Mathlib.Data.List.Basic

/-!
# The message that is delivered

A pair goes through up to two stages: until a message is received the queue holds all that was
sent, and from then on `first_sender` and the queue do.  A pair whose cancelers are gone before
one of them sent anything never leaves the first.

`DeliveryInv` says so of every state of a pair over plain channels, and so of the view of every
state of any pair.  `first_message_delivered` reads off it what the `recv` futures return.
-/

namespace CancelSafeFutures

open Async

namespace CoopCancel

variable {T : Type}

/-- The payloads sent, against what was returned and what the receiver holds. -/
inductive Stage (s : PlainPair T) : Prop
  | waiting :
      s.outputs = [] →
      (∀ receiver, s.receiver = some receiver →
        receiver.firstSender = none ∧ s.channels.mpsc.queue = s.sent) →
      Stage s
  | closed {n} :
      s.outputs = List.replicate n none → s.channels.mpsc.senders = 0 → s.sent = [] →
      (∀ receiver, s.receiver = some receiver →
        receiver.firstSender = none ∧ s.channels.mpsc.queue = s.sent) →
      Stage s
  | delivered {first rest n} :
      s.outputs = some first.message :: List.replicate n none → s.sent = first :: rest →
      (∀ receiver, s.receiver = some receiver →
        receiver.firstSender = some first.droppedSender ∧ s.channels.mpsc.queue = rest) →
      Stage s

/-- What holds in every state. -/
structure DeliveryInv (s : PlainPair T) : Prop where
  ends : s.channels.mpsc.receiver = s.receiver.isSome
  /-- While a `recv` is waiting nothing else is received. -/
  awaiting : s.recv = some .awaiting →
    ∀ receiver, s.receiver = some receiver → receiver.firstSender = none
  returned : s.recv = some .returned → s.outputs ≠ []
  stage : Stage s

theorem newPair_deliveryInv : DeliveryInv (newPair : PlainPair T) where
  ends := rfl
  awaiting h := by cases h
  returned h := by cases h
  stage := by
    refine .waiting rfl ?_
    intro receiver held
    cases held
    exact ⟨rfl, rfl⟩

/-- A `recv` looks at the queue only when nothing was received. -/
theorem DeliveryInv.first_of_looks {s : PlainPair T} {receiver : Receiver} (inv : DeliveryInv s)
    (looks : s.Looks receiver) : receiver.firstSender = none := by
  rcases looks with ⟨held, ⟨-, first⟩ | awaiting⟩
  · exact first
  · exact inv.awaiting awaiting receiver held

/-- Then all that was sent is in the queue, and nothing but `None` was returned. -/
theorem DeliveryInv.queue_of_looks {s : PlainPair T} {receiver : Receiver} (inv : DeliveryInv s)
    (looks : s.Looks receiver) :
    s.channels.mpsc.queue = s.sent ∧
      (s.outputs = [] ∨
        (∃ n, s.outputs = List.replicate n none) ∧ s.channels.mpsc.senders = 0 ∧ s.sent = []) := by
  have none := inv.first_of_looks looks
  cases inv.stage with
  | waiting outputs held => exact ⟨(held receiver looks.1).2, .inl outputs⟩
  | closed outputs senders sent held =>
      exact ⟨(held receiver looks.1).2, .inr ⟨⟨_, outputs⟩, senders, sent⟩⟩
  | delivered _ _ held =>
      have some := (held receiver looks.1).1
      rw [none] at some
      cases some

/-- A new payload goes where the others are. -/
theorem Stage.cancel {s : PlainPair T} (stage : Stage s) {payload : CancelPayload T}
    {oneshots : Oneshots (Oneshot Never)} {waiters : List Waiter}
    (senders : 0 < s.channels.mpsc.senders) :
    Stage
      { s with
        channels :=
          ⟨{ s.channels.mpsc with queue := s.channels.mpsc.queue ++ [payload] }, oneshots⟩
        waiters := waiters
        sent := s.sent ++ [payload] } := by
  cases stage with
  | waiting outputs held =>
      refine .waiting outputs fun receiver h => ?_
      obtain ⟨first, queue⟩ := held receiver h
      exact ⟨first, congrArg (· ++ [payload]) queue⟩
  | closed _ none => omega
  | delivered outputs sent held =>
      refine .delivered outputs (congrArg (· ++ [payload]) sent) fun receiver h => ?_
      obtain ⟨first, queue⟩ := held receiver h
      exact ⟨first, congrArg (· ++ [payload]) queue⟩

/-- The number of senders matters only when they are all gone. -/
theorem Stage.cancelers {s : PlainPair T} (stage : Stage s) {n : Nat}
    (senders : 0 < s.channels.mpsc.senders) :
    Stage
      { s with
        channels := ⟨{ s.channels.mpsc with senders := n }, s.channels.oneshots⟩ } := by
  cases stage with
  | waiting outputs held => exact .waiting outputs held
  | closed _ none => omega
  | delivered outputs sent held => exact .delivered outputs sent held

/-- Only the history, the senders, the queue and the receiver matter. -/
theorem Stage.congr {s s' : PlainPair T} (stage : Stage s) (outputs : s'.outputs = s.outputs)
    (sent : s'.sent = s.sent) (senders : s'.channels.mpsc.senders = s.channels.mpsc.senders)
    (held : ∀ receiver, s'.receiver = some receiver →
      s.receiver = some receiver ∧ s'.channels.mpsc.queue = s.channels.mpsc.queue) :
    Stage s' := by
  have moved : ∀ {first : Option Nat} {queue : List (CancelPayload T)},
      (∀ receiver, s.receiver = some receiver →
        receiver.firstSender = first ∧ s.channels.mpsc.queue = queue) →
      ∀ receiver, s'.receiver = some receiver →
        receiver.firstSender = first ∧ s'.channels.mpsc.queue = queue := by
    intro first queue before receiver h
    obtain ⟨h, queues⟩ := held receiver h
    rw [queues]
    exact before receiver h
  cases stage with
  | waiting none before => exact .waiting (outputs.trans none) (sent ▸ moved before)
  | closed none gone empty before =>
      exact .closed (outputs.trans none) (senders.trans gone) (sent.trans empty)
        (sent ▸ moved before)
  | delivered some history before =>
      exact .delivered (outputs.trans some) (sent.trans history) (moved before)

/-- Another `None` after the first message. -/
theorem DeliveryInv.stage_again {s : PlainPair T} (inv : DeliveryInv s) {name : Nat}
    (held : s.receiver = some ⟨some name⟩) :
    Stage { s with recv := some .returned, outputs := s.outputs ++ [none] } := by
  cases inv.stage with
  | waiting _ before => cases (before _ held).1
  | closed _ _ _ before => cases (before _ held).1
  | @delivered first rest n outputs sent before =>
      refine .delivered (n := n + 1) ?_ sent before
      rw [outputs, List.cons_append, ← List.replicate_succ']

/-- A `None` because the cancelers are gone. -/
theorem DeliveryInv.stage_closed {s : PlainPair T} (inv : DeliveryInv s) {receiver : Receiver}
    (looks : s.Looks receiver) (empty : s.channels.mpsc.queue = [])
    (senders : s.channels.mpsc.senders = 0) :
    Stage { s with recv := some .returned, outputs := s.outputs ++ [none] } := by
  obtain ⟨queue, outputs⟩ := inv.queue_of_looks looks
  have sent : s.sent = [] := by rw [← queue, empty]
  have before : ∃ n, s.outputs = List.replicate n none := by
    rcases outputs with outputs | ⟨outputs, -⟩
    · exact ⟨0, outputs⟩
    · exact outputs
  obtain ⟨n, outputs⟩ := before
  refine .closed (n := n + 1) ?_ senders sent ?_
  · rw [outputs, ← List.replicate_succ']
  · intro receiver held
    cases held.symm.trans looks.1
    exact ⟨inv.first_of_looks looks, queue⟩

/-- The first message. -/
theorem DeliveryInv.stage_received {s : PlainPair T} (inv : DeliveryInv s)
    {receiver : Receiver} (looks : s.Looks receiver) {payload : CancelPayload T}
    {rest : List (CancelPayload T)} (queue : s.channels.mpsc.queue = payload :: rest)
    {oneshots : Oneshots (Oneshot Never)} :
    Stage
      { s with
        channels := ⟨{ s.channels.mpsc with queue := rest }, oneshots⟩
        receiver := some ⟨some payload.droppedSender⟩
        recv := some .returned
        outputs := s.outputs ++ [some payload.message] } := by
  obtain ⟨same, outputs⟩ := inv.queue_of_looks looks
  have sent := same.symm.trans queue
  rcases outputs with outputs | ⟨-, -, nothing⟩
  · refine .delivered (n := 0) ?_ sent ?_
    · rw [outputs]
      rfl
    · intro receiver held
      cases held
      exact ⟨rfl, rfl⟩
  · rw [sent] at nothing
    cases nothing

/-- Every move keeps the invariant. -/
theorem DeliveryInv.step {s s' : PlainPair T} (inv : DeliveryInv s) (turn : s.Turn s') :
    DeliveryInv s' := by
  have grown : ∀ output, s.outputs ++ [output] ≠ [] :=
    fun _ => List.append_ne_nil_of_right_ne_nil _ (List.cons_ne_nil _ _)
  cases turn with
  | idle => exact inv
  | cancelers senders =>
      exact ⟨inv.ends, inv.awaiting, inv.returned, inv.stage.cancelers senders⟩
  | cancel senders => exact ⟨inv.ends, inv.awaiting, inv.returned, inv.stage.cancel senders⟩
  | recv =>
      exact ⟨inv.ends, nofun, nofun, inv.stage.congr rfl rfl rfl fun _ h => ⟨h, rfl⟩⟩
  | again held => exact ⟨inv.ends, nofun, fun _ => grown _, inv.stage_again held⟩
  | pending looks =>
      refine ⟨inv.ends, ?_, nofun, inv.stage.congr rfl rfl rfl fun _ h => ⟨h, rfl⟩⟩
      intro _ receiver held
      have first := inv.first_of_looks looks
      cases held.symm.trans looks.1
      exact first
  | closed looks empty senders =>
      exact ⟨inv.ends, nofun, fun _ => grown _, inv.stage_closed looks empty senders⟩
  | received looks queue =>
      have ends : s.channels.mpsc.receiver = true := by rw [inv.ends, looks.1]; rfl
      exact ⟨ends, nofun, fun _ => grown _, inv.stage_received looks queue⟩
  | dropRecv =>
      exact ⟨inv.ends, nofun, nofun, inv.stage.congr rfl rfl rfl fun _ h => ⟨h, rfl⟩⟩
  | dropReceiver =>
      exact ⟨rfl, fun _ _ h => (nomatch h), inv.returned, inv.stage.congr rfl rfl rfl nofun⟩
  | without =>
      exact ⟨inv.ends, inv.awaiting, inv.returned,
        inv.stage.congr rfl rfl rfl fun _ h => ⟨h, rfl⟩⟩

theorem deliveryInv {ops : List (CoopCancelOp T)} {s : PlainPair T}
    (h : (plainPair T).run ops = some s) : DeliveryInv s :=
  System.run_invariant' newPair_deliveryInv (fun inv h => inv.step (step_turn h)) h

/-- Start a `recv` if there is none, and poll it. -/
def recvNow {M C T : Type} (s : CoopCancel M C T) : List (CoopCancelOp T) :=
  (if s.recv = none then [.recv] else []) ++ [.pollRecv true]

/-- A `recv` that looks at a queue with something in it returns it. -/
theorem step_of_looks {s : PlainPair T} {receiver : Receiver} (looks : s.Looks receiver)
    {first : CancelPayload T} {rest : List (CancelPayload T)}
    (queue : s.channels.mpsc.queue = first :: rest) :
    ∃ s', s.step (.pollRecv true) = some s' ∧ s'.outputs = s.outputs ++ [some first.message] := by
  have resume : (receiver.resume s.channels true).answer = .ready (some first.message) := by
    have received : s.channels.mpsc.pollRecv true =
        (.ready (some first), { s.channels.mpsc with queue := rest }) := by
      rw [Mpsc.pollRecv, queue]
      rfl
    have received' : UnboundedChannel.pollRecv s.channels.mpsc true = _ := received
    rw [Receiver.resume, received']
  have polled : ∀ fut, s.recv = some fut →
      fut.poll receiver s.channels true = .ok (receiver.resume s.channels true) := by
    intro fut recv
    rcases looks.2 with ⟨unresumed, none⟩ | awaiting
    · cases recv.symm.trans unresumed
      rw [RecvFuture.poll, none]
      rfl
    · cases recv.symm.trans awaiting
      rfl
  have some_fut : ∃ fut, s.recv = some fut := by
    rcases looks.2 with ⟨unresumed, -⟩ | awaiting
    · exact ⟨_, unresumed⟩
    · exact ⟨_, awaiting⟩
  obtain ⟨fut, recv⟩ := some_fut
  refine ⟨s.polled (receiver.resume s.channels true), ?_, ?_⟩
  · simp only [CoopCancel.step, looks.1, recv, polled fut recv]
  · simp only [CoopCancel.polled, resume]

/-- Nothing that was sent is lost while there is a receiver: the next `recv` returns the first
message. -/
theorem DeliveryInv.not_lost {s : PlainPair T} (inv : DeliveryInv s) {receiver : Receiver}
    (held : s.receiver = some receiver) {first : CancelPayload T}
    {rest : List (CancelPayload T)} (sent : s.sent = first :: rest) (outputs : s.outputs = []) :
    ∃ s', (plainPair T).runFrom s s.recvNow = some s' ∧
      s'.outputs = [some first.message] := by
  have waiting : receiver.firstSender = none ∧ s.channels.mpsc.queue = first :: rest := by
    rw [← sent]
    cases inv.stage with
    | waiting _ before => exact before receiver held
    | closed _ _ nothing =>
        rw [sent] at nothing
        cases nothing
    | delivered some =>
        rw [outputs] at some
        cases some
  cases recv : s.recv with
  | none =>
      have started : s.step .recv = some { s with recv := some .unresumed } := by
        simp only [CoopCancel.step, held, recv, Option.isSome_some, and_self, if_true]
      obtain ⟨s', polled, last⟩ := step_of_looks (s := { s with recv := some .unresumed })
        ⟨held, .inl ⟨rfl, waiting.1⟩⟩ waiting.2
      refine ⟨s', ?_, ?_⟩
      · rw [recvNow, if_pos recv]
        simp only [coopCancel, List.cons_append, List.nil_append, System.runFrom, started, polled,
          Option.bind_some]
      · rw [last, outputs, List.nil_append]
  | some fut =>
      have looks : s.Looks receiver := by
        refine ⟨held, ?_⟩
        cases fut with
        | unresumed => exact .inl ⟨recv, waiting.1⟩
        | awaiting => exact .inr recv
        | returned => exact absurd outputs (inv.returned recv)
      obtain ⟨s', polled, last⟩ := step_of_looks looks waiting.2
      refine ⟨s', ?_, ?_⟩
      · rw [recvNow, recv, if_neg (Option.some_ne_none fut)]
        simp only [coopCancel, List.nil_append, System.runFrom, polled, Option.bind_some]
      · rw [last, outputs, List.nil_append]

theorem not_some_of_replicate {outputs : List (Option T)} {k n : Nat} {message : T}
    (all : outputs = List.replicate k none) : outputs[n]? ≠ some (some message) := by
  intro h
  rw [all] at h
  cases List.eq_of_mem_replicate (List.mem_of_getElem? h)

/-- Only the first message is returned, and by the `recv` that completes first. -/
theorem Stage.some_output {s : PlainPair T} (stage : Stage s) {n : Nat} {message : T}
    (h : s.outputs[n]? = some (some message)) :
    n = 0 ∧ (s.sent.map (·.message)).head? = some message := by
  cases stage with
  | waiting outputs => exact (not_some_of_replicate (k := 0) outputs h).elim
  | closed outputs => exact (not_some_of_replicate outputs h).elim
  | delivered outputs sent =>
      rw [outputs] at h
      cases n with
      | zero =>
          cases h
          rw [sent]
          exact ⟨rfl, rfl⟩
      | succ n =>
          rw [List.getElem?_cons_succ] at h
          exact (not_some_of_replicate rfl h).elim

/-- A message that was returned is that of the first payload sent. -/
theorem Stage.output_sent {s : PlainPair T} (stage : Stage s) {message : T}
    (received : some message ∈ s.outputs) :
    ∃ payload ∈ s.sent.head?, some payload.message ∈ s.outputs := by
  cases stage with
  | waiting outputs => simp [outputs] at received
  | closed outputs => simp [outputs] at received
  | @delivered first rest n outputs sent =>
      refine ⟨first, ?_, ?_⟩
      · rw [sent]
        rfl
      · rw [outputs]
        exact List.mem_cons_self

theorem Stage.none_output {s : PlainPair T} (stage : Stage s) {n : Nat}
    (h : s.outputs[n]? = some none) :
    (0 < n ∧ ∃ message, s.outputs[0]? = some (some message)) ∨
      s.channels.mpsc.senders = 0 ∧ s.sent = [] := by
  cases stage with
  | waiting outputs =>
      rw [outputs] at h
      cases h
  | closed _ senders sent => exact .inr ⟨senders, sent⟩
  | delivered outputs =>
      rw [outputs] at h ⊢
      cases n with
      | zero => cases h
      | succ n => exact .inl ⟨n.succ_pos, _, rfl⟩

end CoopCancel

open CoopCancel in
/-- **Exactly the first message is delivered.**  Only the `recv` that completes first can return a
message, and it is that of the first successful `cancel`.  A `recv` returns `None` only after
that one, or when all cancelers are gone and none of them has sent anything.  Nothing is lost:
while the receiver lives and nothing was returned, the next `recv` returns the first message. -/
theorem first_message_delivered {M C T : Type} [UnboundedChannel M (CancelPayload T)]
    [OneshotChannel C Never] {ops : List (CoopCancelOp T)} {s : CoopCancel M C T}
    (h : (coopCancel M C T).run ops = some s) :
    (∀ n message, s.outputs[n]? = some (some message) →
      n = 0 ∧ (s.sent.map (·.message)).head? = some message) ∧
    (∀ n, s.outputs[n]? = some none →
      (0 < n ∧ ∃ message, s.outputs[0]? = some (some message)) ∨
        (UnboundedChannel.view s.channels.mpsc).senders = 0 ∧ s.sent = []) ∧
    ∀ first rest, s.receiver.isSome → s.sent = first :: rest → s.outputs = [] →
      ∃ s', (coopCancel M C T).runFrom s s.recvNow = some s' ∧
        s'.outputs = [some first.message] := by
  have inv := deliveryInv (view_run h)
  refine ⟨fun n message => inv.stage.some_output, fun n => inv.stage.none_output, ?_⟩
  intro first rest receiver sent outputs
  obtain ⟨receiver, held⟩ := Option.isSome_iff_exists.mp receiver
  obtain ⟨viewed, run, received⟩ := inv.not_lost held sent outputs
  obtain ⟨s', run', rfl⟩ := Option.map_eq_some_iff.mp ((view_runFrom s s.recvNow).trans run)
  exact ⟨s', run', received⟩

/-- Two cancelers; the second message is still in the queue when the first has come out, and the
`recv` that was dropped has lost nothing. -/
theorem first_message_delivered_of_two :
    ∃ s,
      (plainPair Nat).run
        [.cloneCanceler, .recv, .pollRecv true, .cancel 0 5, .dropCanceler, .dropRecv, .cancel 1 7,
          .recv, .pollRecv true, .dropRecv, .recv, .pollRecv true] = some s ∧
      s.outputs = [some 5, none] ∧
      (∀ n message, s.outputs[n]? = some (some message) →
        n = 0 ∧ (s.sent.map (·.message)).head? = some message) := by
  have run : (plainPair Nat).run
      [.cloneCanceler, .recv, .pollRecv true, .cancel 0 5, .dropCanceler, .dropRecv, .cancel 1 7,
        .recv, .pollRecv true, .dropRecv, .recv, .pollRecv true] = some _ := rfl
  exact ⟨_, run, rfl, (first_message_delivered run).1⟩

end CancelSafeFutures
