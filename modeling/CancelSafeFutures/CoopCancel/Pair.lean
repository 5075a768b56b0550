import CancelSafeFutures.Async.Channel
import CancelSafeFutures.Async.Transition

/-!
# Cooperative cancellation

The model of `src/coop_cancel.rs`.  A pair shares an unbounded channel of payloads, and each
payload carries the sender of a oneshot channel whose receiver is the `Waiter`.  Of the channels
only the contract is known: `M` is the type of the one and `C` that of the others.

`coopCancel` is a pair in use: any number of cancelers, which are cloned and dropped, one
receiver, of which at most one `recv` future exists at a time because it borrows the receiver,
and any number of waiters.

Whatever the channels are, a pair does what the pair over their views does (`step_view`), and
`CoopCancel.Turn` lists what a move of that one can do.
-/

namespace CancelSafeFutures

open Async

/-- `Never`. -/
inductive Never where

/-- `CancelPayload`. -/
structure CancelPayload (T : Type) where
  message : T
  droppedSender : Nat
  deriving DecidableEq, Repr

/-- `Receiver`.  Its end of the queue is the receiver of the unbounded channel. -/
structure Receiver where
  firstSender : Option Nat
  deriving DecidableEq, Repr

/-- `Waiter`. -/
structure Waiter where
  droppedReceiver : Nat
  deriving DecidableEq, Repr

/-- The future that `Receiver::recv` returns. -/
inductive RecvFuture where
  | unresumed
  | awaiting
  | returned
  deriving DecidableEq, Repr

/-- The channels of a pair. -/
structure Channels (M C : Type) where
  mpsc : M
  oneshots : Oneshots C

/-- The outcome of a poll of `recv`. -/
structure Received (M C T : Type) where
  answer : Poll (Option T)
  fut : RecvFuture
  receiver : Receiver
  channels : Channels M C

variable {M C T : Type}

/-- The names of the oneshot channels whose senders some payloads carry. -/
def droppedSenders (payloads : List (CancelPayload T)) : List Nat := payloads.map (·.droppedSender)

section Operations

variable [UnboundedChannel M (CancelPayload T)] [OneshotChannel C Never]

/-- `CancelPayload::new`, where the oneshot channel gets the name `name`. -/
def CancelPayload.new (message : T) (oneshots : Oneshots C) (name : Nat) :
    CancelPayload T × Nat × Oneshots C :=
  (⟨message, name⟩, name, oneshots.channel name)

/-- `Canceler::cancel`. -/
def Canceler.cancel (channels : Channels M C) (name : Nat) (message : T) :
    Except T Waiter × Channels M C :=
  let (payload, droppedReceiver, oneshots) := CancelPayload.new message channels.oneshots name
  match UnboundedChannel.send channels.mpsc payload with
  | (.ok (), mpsc) => (.ok ⟨droppedReceiver⟩, ⟨mpsc, oneshots⟩)
  | (.error error, mpsc) =>
    -- what is left of the payload is dropped, and `dropped_receiver`
    (.error error.message,
      ⟨mpsc, (oneshots.dropSender error.droppedSender).dropReceiver droppedReceiver⟩)

namespace Receiver

/-- `self.receiver.recv().await`, and what follows it in `recv`. -/
def resume (this : Receiver) (channels : Channels M C) (budget : Bool) : Received M C T :=
  match UnboundedChannel.pollRecv channels.mpsc budget with
  | (.pending, mpsc) => ⟨.pending, .awaiting, this, ⟨mpsc, channels.oneshots⟩⟩
  | (.ready (some payload), mpsc) =>
    -- the assignment to `first_sender` drops what was there
    ⟨.ready (some payload.message), .returned, ⟨some payload.droppedSender⟩,
      ⟨mpsc, channels.oneshots.dropSenders this.firstSender.toList⟩⟩
  | (.ready none, mpsc) => ⟨.ready none, .returned, this, ⟨mpsc, channels.oneshots⟩⟩

/-- The fields are dropped in their order. -/
def drop (this : Receiver) (channels : Channels M C) : Channels M C :=
  let (queued, mpsc) := UnboundedChannel.dropReceiver channels.mpsc
  ⟨mpsc, (channels.oneshots.dropSenders (droppedSenders queued)).dropSenders
    this.firstSender.toList⟩

end Receiver

/-- A poll of the future of `Receiver::recv`. -/
def RecvFuture.poll (this : RecvFuture) (receiver : Receiver) (channels : Channels M C)
    (budget : Bool) : Run (Received M C T) :=
  match this with
  | .unresumed =>
    if receiver.firstSender.isSome then .ok ⟨.ready none, .returned, receiver, channels⟩
    else .ok (receiver.resume channels budget)
  | .awaiting => .ok (receiver.resume channels budget)
  | .returned => .error (.panicked "`async fn` resumed after completion")

/-- `statically_unreachable`, without the call that keeps the program from linking. -/
def staticallyUnreachable {α : Type} : Run α :=
  .error (.panicked
    "internal error: entered unreachable code: linker symbol above cannot be resolved")

/-- `Waiter::poll`. -/
def Waiter.poll (this : Waiter) (oneshots : Oneshots C) (budget : Bool) : Run (Poll Unit) :=
  match oneshots.poll this.droppedReceiver budget with
  | .pending => .ok .pending
  | .ready (.ok _) => staticallyUnreachable
  | .ready (.error ()) => .ok (.ready ())

end Operations

/-- A pair in use.  `sent` lists the payloads of the successful calls of `cancel`, and `outputs`
what the `recv` futures that completed have returned, both from the first on. -/
structure CoopCancel (M C T : Type) where
  channels : Channels M C
  receiver : Option Receiver
  recv : Option RecvFuture
  waiters : List Waiter
  sent : List (CancelPayload T)
  outputs : List (Option T)

/-- The moves.  `name` is a name for a new oneshot channel. -/
inductive CoopCancelOp (T : Type) where
  | cloneCanceler
  | dropCanceler
  | cancel (name : Nat) (message : T)
  | recv
  | pollRecv (budget : Bool)
  | dropRecv
  | dropReceiver
  | pollWaiter (waiter : Waiter) (budget : Bool)
  | dropWaiter (waiter : Waiter)
  deriving DecidableEq, Repr

namespace CoopCancel

variable [UnboundedChannel M (CancelPayload T)] [OneshotChannel C Never]

/-- `new_pair`. -/
def newPair : CoopCancel M C T where
  channels := ⟨UnboundedChannel.new, fun _ => none⟩
  receiver := some ⟨none⟩
  recv := none
  waiters := []
  sent := []
  outputs := []

/-- What `cancel` leaves: a `Waiter`, if the payload was sent. -/
def cancelled (s : CoopCancel M C T) (name : Nat) (message : T) : CoopCancel M C T :=
  match Canceler.cancel s.channels name message with
  | (.ok waiter, channels) =>
    { s with
      channels := channels
      waiters := s.waiters ++ [waiter]
      sent := s.sent ++ [⟨message, name⟩] }
  | (.error _, channels) => { s with channels := channels }

/-- What a poll of `recv` leaves. -/
def polled (s : CoopCancel M C T) (result : Received M C T) : CoopCancel M C T :=
  { s with
    channels := result.channels
    receiver := some result.receiver
    recv := some result.fut
    outputs := match result.answer with
      | .ready output => s.outputs ++ [output]
      | .pending => s.outputs }

/-- A `Waiter` is dropped, or has resolved. -/
def without (s : CoopCancel M C T) (waiter : Waiter) : CoopCancel M C T :=
  { s with
    channels :=
      ⟨s.channels.mpsc, s.channels.oneshots.dropReceiver waiter.droppedReceiver⟩
    waiters := s.waiters.erase waiter }

/-- One move. -/
def step (s : CoopCancel M C T) : CoopCancelOp T → Option (CoopCancel M C T)
  | .cloneCanceler =>
    if 0 < (UnboundedChannel.view s.channels.mpsc).senders then
      some
        { s with
          channels := ⟨UnboundedChannel.cloneSender s.channels.mpsc, s.channels.oneshots⟩ }
    else none
  | .dropCanceler =>
    if 0 < (UnboundedChannel.view s.channels.mpsc).senders then
      some
        { s with
          channels := ⟨UnboundedChannel.dropSender s.channels.mpsc, s.channels.oneshots⟩ }
    else none
  | .cancel name message =>
    if 0 < (UnboundedChannel.view s.channels.mpsc).senders ∧ s.channels.oneshots name = none then
      some (s.cancelled name message)
    else none
  | .recv =>
    if s.receiver.isSome ∧ s.recv = none then some { s with recv := some .unresumed } else none
  | .pollRecv budget =>
    match s.receiver, s.recv with
    | some receiver, some fut =>
      match fut.poll receiver s.channels budget with
      | .ok result => some (s.polled result)
      | .error _ => some s
    | _, _ => none
  | .dropRecv => s.recv.map fun _ => { s with recv := none }
  | .dropReceiver =>
    if s.recv = none then
      s.receiver.map fun receiver =>
        { s with channels := receiver.drop s.channels, receiver := none }
    else none
  | .pollWaiter waiter budget =>
    if waiter ∈ s.waiters then
      match waiter.poll s.channels.oneshots budget with
      | .ok (.ready ()) => some (s.without waiter)
      | _ => some s
    else none
  | .dropWaiter waiter => if waiter ∈ s.waiters then some (s.without waiter) else none

end CoopCancel

/-- A pair from `new_pair` on. -/
def coopCancel (M C T : Type) [UnboundedChannel M (CancelPayload T)] [OneshotChannel C Never] :
    System (CoopCancel M C T) (CoopCancelOp T) where
  init := CoopCancel.newPair
  step := CoopCancel.step

/-! ## The views -/

/-- A pair over channels that are no more than their views. -/
abbrev PlainPair (T : Type) := CoopCancel (Mpsc (CancelPayload T)) (Oneshot Never) T

/-- Such a pair from `new_pair` on. -/
abbrev plainPair (T : Type) : System (PlainPair T) (CoopCancelOp T) :=
  coopCancel (Mpsc (CancelPayload T)) (Oneshot Never) T

section Views

variable [UnboundedChannel M (CancelPayload T)] [OneshotChannel C Never]

/-- What can be told of the channels. -/
def Channels.view (this : Channels M C) : Channels (Mpsc (CancelPayload T)) (Oneshot Never) :=
  ⟨UnboundedChannel.view this.mpsc, this.oneshots.view⟩

def Received.view (this : Received M C T) :
    Received (Mpsc (CancelPayload T)) (Oneshot Never) T where
  answer := this.answer
  fut := this.fut
  receiver := this.receiver
  channels := this.channels.view

/-- What can be told of the pair. -/
def CoopCancel.view (s : CoopCancel M C T) : PlainPair T where
  channels := s.channels.view
  receiver := s.receiver
  recv := s.recv
  waiters := s.waiters
  sent := s.sent
  outputs := s.outputs

theorem Canceler.view_cancel (channels : Channels M C) (name : Nat) (message : T) :
    cancel channels.view name message =
      ((cancel channels name message).1, (cancel channels name message).2.view) := by
  have sends := UnboundedChannel.view_send channels.mpsc (⟨message, name⟩ : CancelPayload T)
  rcases sent : UnboundedChannel.send channels.mpsc (⟨message, name⟩ : CancelPayload T) with
    ⟨error | ⟨⟩, mpsc⟩
  all_goals
    rw [sent] at sends
    simp only [cancel, CancelPayload.new, sent, sends, Channels.view, Oneshots.view_channel,
      Oneshots.view_dropSender, Oneshots.view_dropReceiver]

theorem Receiver.view_resume (this : Receiver) (channels : Channels M C) (budget : Bool) :
    this.resume channels.view budget = (this.resume channels budget).view := by
  have polls := UnboundedChannel.view_pollRecv channels.mpsc budget
  rcases polled : UnboundedChannel.pollRecv channels.mpsc budget with ⟨(_ | payload) | _, mpsc⟩
  all_goals
    rw [polled] at polls
    simp only [resume, polled, polls, Channels.view, Received.view, Oneshots.view_dropSenders]

theorem Receiver.view_drop (this : Receiver) (channels : Channels M C) :
    this.drop channels.view = (this.drop channels).view := by
  have queue := UnboundedChannel.dropReceiver_queue channels.mpsc
  have mpsc := UnboundedChannel.view_dropReceiver channels.mpsc
  simp only [drop, Channels.view, queue, mpsc, Oneshots.view_dropSenders]
  rfl

theorem RecvFuture.view_poll (this : RecvFuture) (receiver : Receiver) (channels : Channels M C)
    (budget : Bool) :
    this.poll receiver channels.view budget =
      (this.poll receiver channels budget).map Received.view := by
  cases this with
  | unresumed =>
      rw [poll, poll]
      split
      · rfl
      · rw [Receiver.view_resume]
        rfl
  | awaiting =>
      rw [poll, poll, Receiver.view_resume]
      rfl
  | returned => rfl

theorem Waiter.view_poll (this : Waiter) (oneshots : Oneshots C) (budget : Bool) :
    this.poll oneshots.view budget = this.poll oneshots budget := by
  rw [poll, poll, Oneshots.view_poll]

namespace CoopCancel

theorem view_cancelled (s : CoopCancel M C T) (name : Nat) (message : T) :
    s.view.cancelled name message = (s.cancelled name message).view := by
  have cancels := Canceler.view_cancel s.channels name message
  rcases cancel : Canceler.cancel s.channels name message with ⟨_ | _, channels⟩
  all_goals
    rw [cancel] at cancels
    have cancel' : Canceler.cancel s.view.channels name message = _ := cancels
    simp only [cancelled, cancel, cancel']
    rfl

theorem view_polled (s : CoopCancel M C T) (result : Received M C T) :
    s.view.polled result.view = (s.polled result).view := rfl

theorem view_without (s : CoopCancel M C T) (waiter : Waiter) :
    s.view.without waiter = (s.without waiter).view := by
  simp only [without, view, Channels.view, Oneshots.view_dropReceiver]

/-- **One move of the pair** is a move of the pair over the views. -/
theorem step_view (s : CoopCancel M C T) (op : CoopCancelOp T) :
    (s.step op).map view = s.view.step op := by
  cases op with
  | cloneCanceler =>
      refine System.map_guarded Iff.rfl ?_
      simp only [view, Channels.view, UnboundedChannel.view_cloneSender]
      rfl
  | dropCanceler =>
      refine System.map_guarded Iff.rfl ?_
      simp only [view, Channels.view, UnboundedChannel.view_dropSender]
      rfl
  | cancel name message =>
      exact System.map_guarded (and_congr_right fun _ => Oneshots.view_eq_none.symm)
        (view_cancelled s name message).symm
  | recv => exact System.map_guarded Iff.rfl rfl
  | pollRecv budget =>
      rcases held : s.receiver with _ | receiver
      · have held' : s.view.receiver = none := held
        simp only [step, held, held', Option.map_none]
      have held' : s.view.receiver = some receiver := held
      rcases recv : s.recv with _ | fut
      · have recv' : s.view.recv = none := recv
        simp only [step, held, held', recv, recv', Option.map_none]
      have recv' : s.view.recv = some fut := recv
      have polls := RecvFuture.view_poll fut receiver s.channels budget
      rcases polled : fut.poll receiver s.channels budget with halt | result
      all_goals
        rw [polled] at polls
        have polls' : fut.poll receiver s.view.channels budget = _ := polls
        simp only [step, held, held', recv, recv', polled, polls', Except.map, Option.map_some,
          view_polled]
  | dropRecv =>
      simp only [step, view]
      cases s.recv <;> rfl
  | dropReceiver =>
      by_cases idle : s.recv = none
      · have idle' : s.view.recv = none := idle
        rw [step, step, if_pos idle, if_pos idle']
        rcases held : s.receiver with _ | receiver
        · have held' : s.view.receiver = none := held
          rw [held']
          rfl
        · have held' : s.view.receiver = some receiver := held
          have drops : receiver.drop s.view.channels = _ := Receiver.view_drop receiver s.channels
          rw [held', Option.map_some, Option.map_some, Option.map_some, drops]
          rfl
      · have busy : ¬ s.view.recv = none := idle
        rw [step, step, if_neg idle, if_neg busy, Option.map_none]
  | pollWaiter waiter budget =>
      by_cases mem : waiter ∈ s.waiters
      · have mem' : waiter ∈ s.view.waiters := mem
        have polls : waiter.poll s.view.channels.oneshots budget = _ :=
          Waiter.view_poll waiter s.channels.oneshots budget
        rw [step, step, if_pos mem, if_pos mem', polls]
        rcases waiter.poll s.channels.oneshots budget with _ | (_ | _)
        · rfl
        · exact congrArg some (view_without s waiter).symm
        · rfl
      · have gone : waiter ∉ s.view.waiters := mem
        rw [step, step, if_neg mem, if_neg gone, Option.map_none]
  | dropWaiter waiter => exact System.map_guarded Iff.rfl (view_without s waiter).symm

theorem view_newPair : (newPair : CoopCancel M C T).view = newPair := by
  simp only [newPair, view, Channels.view, UnboundedChannel.view_new]
  rfl

/-- **A run of the pair** is a run of the pair over the views. -/
theorem view_runFrom (s : CoopCancel M C T) (ops : List (CoopCancelOp T)) :
    ((coopCancel M C T).runFrom s ops).map view = (plainPair T).runFrom s.view ops :=
  System.runFrom_view step_view s ops

theorem view_run {ops : List (CoopCancelOp T)} {s : CoopCancel M C T}
    (h : (coopCancel M C T).run ops = some s) : (plainPair T).run ops = some s.view := by
  have viewed := view_runFrom (newPair : CoopCancel M C T) ops
  rw [view_newPair] at viewed
  exact viewed.symm.trans (congrArg (Option.map view) h)

end CoopCancel

end Views

/-! ## What a move can do -/

/-- `cancel` sends while there is a receiver. -/
theorem Canceler.cancel_ok {channels : Channels (Mpsc (CancelPayload T)) (Oneshot Never)}
    (receiver : channels.mpsc.receiver = true) (name : Nat) (message : T) :
    Canceler.cancel channels name message =
      (.ok ⟨name⟩, ⟨{ channels.mpsc with queue := channels.mpsc.queue ++ [⟨message, name⟩] },
        channels.oneshots.channel name⟩) := by
  have sent : UnboundedChannel.send channels.mpsc (⟨message, name⟩ : CancelPayload T) = _ :=
    Mpsc.send_of_receiver receiver _
  simp only [cancel, CancelPayload.new, sent]

/-- Without a receiver it gives the message back and leaves no trace. -/
theorem Canceler.cancel_error [UnboundedChannel M (CancelPayload T)] [OneshotChannel C Never]
    {channels : Channels M C} (receiver : (UnboundedChannel.view channels.mpsc).receiver = false)
    {name : Nat} (fresh : channels.oneshots name = none) (message : T) :
    Canceler.cancel channels name message = (.error message, channels) := by
  simp only [cancel, CancelPayload.new, UnboundedChannel.send_error _ receiver,
    Oneshots.channel_dropped fresh]

namespace CoopCancel

/-- A poll of `recv` will look at the queue. -/
def Looks (s : PlainPair T) (receiver : Receiver) : Prop :=
  s.receiver = some receiver ∧
    (s.recv = some .unresumed ∧ receiver.firstSender = none ∨ s.recv = some .awaiting)

/-- What a move can do. -/
inductive Turn (s : PlainPair T) : PlainPair T → Prop
  | idle : Turn s s
  | cancelers {senders} :
      0 < s.channels.mpsc.senders →
      Turn s
        { s with channels := ⟨{ s.channels.mpsc with senders := senders }, s.channels.oneshots⟩ }
  | cancel {name message} :
      0 < s.channels.mpsc.senders → s.channels.oneshots name = none →
      s.channels.mpsc.receiver = true →
      Turn s
        { s with
          channels :=
            ⟨{ s.channels.mpsc with queue := s.channels.mpsc.queue ++ [⟨message, name⟩] },
              s.channels.oneshots.channel name⟩
          waiters := s.waiters ++ [⟨name⟩]
          sent := s.sent ++ [⟨message, name⟩] }
  | recv : s.receiver.isSome → Turn s { s with recv := some .unresumed }
  | again {name} :
      s.receiver = some ⟨some name⟩ →
      Turn s { s with recv := some .returned, outputs := s.outputs ++ [none] }
  | pending {receiver} : s.Looks receiver → Turn s { s with recv := some .awaiting }
  | closed {receiver} :
      s.Looks receiver → s.channels.mpsc.queue = [] → s.channels.mpsc.senders = 0 →
      Turn s { s with recv := some .returned, outputs := s.outputs ++ [none] }
  | received {receiver payload rest} :
      s.Looks receiver → s.channels.mpsc.queue = payload :: rest →
      Turn s
        { s with
          channels :=
            ⟨{ s.channels.mpsc with queue := rest },
              s.channels.oneshots.dropSenders receiver.firstSender.toList⟩
          receiver := some ⟨some payload.droppedSender⟩
          recv := some .returned
          outputs := s.outputs ++ [some payload.message] }
  | dropRecv : Turn s { s with recv := none }
  | dropReceiver {receiver} :
      s.receiver = some receiver →
      Turn s { s with channels := receiver.drop s.channels, receiver := none }
  | without {waiter} : waiter ∈ s.waiters → Turn s (s.without waiter)

/-- A poll of `recv` that looks at the queue. -/
theorem resume_turn {s : PlainPair T} {receiver : Receiver} (looks : s.Looks receiver)
    (budget : Bool) : s.Turn (s.polled (receiver.resume s.channels budget)) := by
  have same : some receiver = s.receiver := looks.1.symm
  have turn : s.channels.mpsc.RecvTurn budget (UnboundedChannel.pollRecv s.channels.mpsc budget) :=
    s.channels.mpsc.pollRecv_turn budget
  unfold Receiver.resume
  generalize UnboundedChannel.pollRecv s.channels.mpsc budget = answered at turn ⊢
  cases turn with
  | pending => simpa only [polled, same] using Turn.pending looks
  | closed _ empty senders => simpa only [polled, same] using Turn.closed looks empty senders
  | received _ queue => exact .received looks queue

/-- Any poll of `recv`. -/
theorem poll_turn {s : PlainPair T} {receiver : Receiver} {fut : RecvFuture} {budget : Bool}
    {result : Received (Mpsc (CancelPayload T)) (Oneshot Never) T}
    (held : s.receiver = some receiver) (recv : s.recv = some fut)
    (polled : fut.poll receiver s.channels budget = .ok result) : s.Turn (s.polled result) := by
  have same : some receiver = s.receiver := held.symm
  cases fut with
  | unresumed =>
      rw [RecvFuture.poll] at polled
      cases first : receiver.firstSender with
      | none =>
          rw [first, Option.isSome_none, if_neg Bool.false_ne_true] at polled
          cases polled
          exact resume_turn ⟨held, .inl ⟨recv, first⟩⟩ budget
      | some name =>
          rw [first, if_pos Option.isSome_some] at polled
          cases polled
          have stored : s.receiver = some ⟨some name⟩ := by rw [held, ← first]
          simpa only [CoopCancel.polled, same] using Turn.again stored
  | awaiting =>
      cases polled
      exact resume_turn ⟨held, .inr recv⟩ budget
  | returned => cases polled

/-- Nothing else happens. -/
theorem step_turn {s s' : PlainPair T} {op : CoopCancelOp T} (h : s.step op = some s') :
    s.Turn s' := by
  unfold step at h
  cases op with
  | cloneCanceler | dropCanceler =>
      obtain ⟨senders, h⟩ := Option.ite_none_right_eq_some.mp h
      cases h
      exact .cancelers senders
  | cancel name message =>
      obtain ⟨⟨senders, fresh⟩, h⟩ := Option.ite_none_right_eq_some.mp h
      cases h
      cases receiver : s.channels.mpsc.receiver with
      | true =>
          rw [cancelled, Canceler.cancel_ok receiver]
          exact .cancel senders fresh receiver
      | false =>
          rw [cancelled, Canceler.cancel_error receiver fresh]
          exact .idle
  | recv =>
      obtain ⟨⟨receiver, -⟩, h⟩ := Option.ite_none_right_eq_some.mp h
      cases h
      exact .recv receiver
  | pollRecv budget =>
      simp only at h
      split at h
      · next receiver fut held recv =>
          split at h
          · next result polled =>
              cases h
              exact poll_turn held recv polled
          · cases h
            exact .idle
      · cases h
  | dropRecv =>
      obtain ⟨_, -, h⟩ := Option.map_eq_some_iff.mp h
      cases h
      exact .dropRecv
  | dropReceiver =>
      obtain ⟨-, h⟩ := Option.ite_none_right_eq_some.mp h
      obtain ⟨receiver, held, h⟩ := Option.map_eq_some_iff.mp h
      cases h
      exact .dropReceiver held
  | pollWaiter waiter budget =>
      obtain ⟨mem, h⟩ := Option.ite_none_right_eq_some.mp h
      split at h
      · cases h
        exact .without mem
      · cases h
        exact .idle
  | dropWaiter waiter =>
      obtain ⟨mem, h⟩ := Option.ite_none_right_eq_some.mp h
      cases h
      exact .without mem

end CoopCancel

end CancelSafeFutures
