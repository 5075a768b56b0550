import CancelSafeFutures.Async.Poll
import Mathlib.Logic.Function.Basic

/-!
# Channels

The two kinds of channel, as classes of their operations together with the contract these are
documented to keep.

* `UnboundedChannel`: an unbounded channel with any number of senders and one receiver.  Sends are
  atomic, values come out in the order in which they went in, a value leaves the channel only with
  the poll that returns it, and what is queued goes down with the receiver.
* `OneshotChannel`: a oneshot channel over which nothing is ever sent, so that its receiver learns
  no more than that the sender is gone.

What can be told of a channel is its `view`: an `Mpsc`, or an `Oneshot`.  These are channels
themselves, and every other channel does what its view does (`view_send` and the lemmas after it).

A poll of a channel may be answered `Pending` although there is something to return, when the
task has used up its budget: `budget` says whether it has any left.
-/

namespace Async

variable {α β : Type}

/-- What can be told of an unbounded channel: the values sent and not received, the first of them
first, how many senders there are, and whether the receiver is there. -/
structure Mpsc (α : Type) where
  queue : List α
  senders : Nat
  receiver : Bool
  deriving DecidableEq, Repr

/-- Which ends of a oneshot channel for a `β` are still there. -/
structure Oneshot (β : Type) where
  sender : Bool
  receiver : Bool
  deriving DecidableEq, Repr

/-! ## The contracts -/

/-- `tokio::sync::mpsc::unbounded_channel` for values of type `α`, with all its senders and its
receiver. -/
class UnboundedChannel (M : Type) (α : outParam Type) where
  /-- `unbounded_channel()`. -/
  new : M
  /-- `UnboundedSender::send`. -/
  send : M → α → Except α Unit × M
  /-- A poll of `UnboundedReceiver::recv`. -/
  pollRecv : M → Bool → Poll (Option α) × M
  /-- Another sender. -/
  cloneSender : M → M
  /-- One sender less. -/
  dropSender : M → M
  /-- The receiver is dropped, and with it the values that come first. -/
  dropReceiver : M → List α × M
  view : M → Mpsc α
  view_new : view new = ⟨[], 1, true⟩
  /-- A value goes to the end of the queue. -/
  send_ok : ∀ {m} value, (view m).receiver = true →
    ∃ m', send m value = (.ok (), m') ∧ view m' = { view m with queue := (view m).queue ++ [value] }
  /-- Without a receiver it is given back. -/
  send_error : ∀ {m} value, (view m).receiver = false → send m value = (.error value, m)
  /-- What is received is the first of the queue, and leaves it. -/
  pollRecv_some : ∀ {m budget value m'}, pollRecv m budget = (.ready (some value), m') →
    budget = true ∧ ∃ rest, (view m).queue = value :: rest ∧ view m' = { view m with queue := rest }
  /-- `Ready(None)`: the queue is empty, and will be. -/
  pollRecv_none : ∀ {m budget m'}, pollRecv m budget = (.ready none, m') →
    budget = true ∧ (view m).queue = [] ∧ (view m).senders = 0 ∧ view m' = view m
  /-- `Pending`: there is nothing to receive yet, unless the task has no budget left. -/
  pollRecv_pending : ∀ {m budget m'}, pollRecv m budget = (.pending, m') →
    (budget = true → (view m).queue = [] ∧ (view m).senders ≠ 0) ∧ view m' = view m
  view_cloneSender : ∀ m, view (cloneSender m) = { view m with senders := (view m).senders + 1 }
  view_dropSender : ∀ m, view (dropSender m) = { view m with senders := (view m).senders - 1 }
  /-- All values in the queue go with the receiver. -/
  dropReceiver_queue : ∀ m, (dropReceiver m).1 = (view m).queue
  view_dropReceiver : ∀ m,
    view (dropReceiver m).2 = { view m with queue := [], receiver := false }

/-- `tokio::sync::oneshot::channel` for a value of type `β`, with the ends it still has.  There is
no `send`. -/
class OneshotChannel (C : Type) (β : outParam Type) where
  /-- `oneshot::channel()`. -/
  new : C
  dropSender : C → C
  dropReceiver : C → C
  /-- A poll of the `Receiver`. -/
  poll : C → Bool → Poll (Except Unit β)
  view : C → Oneshot β
  view_new : view new = ⟨true, true⟩
  view_dropSender : ∀ c, view (dropSender c) = { view c with sender := false }
  view_dropReceiver : ∀ c, view (dropReceiver c) = { view c with receiver := false }
  poll_sender : ∀ {c} budget, (view c).sender = true → poll c budget = .pending
  poll_no_sender : ∀ {c}, (view c).sender = false → poll c true = .ready (.error ())
  poll_no_budget : ∀ c, poll c false = .pending

/-! ## Unbounded channels -/

namespace Mpsc

/-- `unbounded_channel()`. -/
def new : Mpsc α := ⟨[], 1, true⟩

/-- `UnboundedSender::send`, which gives the value back when there is no receiver. -/
def send (this : Mpsc α) (value : α) : Except α Unit × Mpsc α :=
  if this.receiver then (.ok (), { this with queue := this.queue ++ [value] })
  else (.error value, this)

/-- A poll of `UnboundedReceiver::recv`. -/
def pollRecv (this : Mpsc α) (budget : Bool) : Poll (Option α) × Mpsc α :=
  if budget then
    match this.queue with
    | value :: rest => (.ready (some value), { this with queue := rest })
    | [] => if this.senders = 0 then (.ready none, this) else (.pending, this)
  else (.pending, this)

/-- Another sender. -/
def cloneSender (this : Mpsc α) : Mpsc α := { this with senders := this.senders + 1 }

/-- One sender less. -/
def dropSender (this : Mpsc α) : Mpsc α := { this with senders := this.senders - 1 }

/-- The receiver is dropped, and with it all values in the queue. -/
def dropReceiver (this : Mpsc α) : List α × Mpsc α :=
  (this.queue, { this with queue := [], receiver := false })

theorem send_of_receiver {this : Mpsc α} (receiver : this.receiver = true) (value : α) :
    this.send value = (.ok (), { this with queue := this.queue ++ [value] }) := by
  rw [send, receiver, if_pos rfl]

theorem send_of_no_receiver {this : Mpsc α} (receiver : this.receiver = false) (value : α) :
    this.send value = (.error value, this) := by
  rw [send, receiver, if_neg Bool.false_ne_true]

/-- What a poll can do. -/
inductive RecvTurn (this : Mpsc α) (budget : Bool) : Poll (Option α) × Mpsc α → Prop
  | pending : (budget = true → this.queue = [] ∧ this.senders ≠ 0) →
      RecvTurn this budget (.pending, this)
  | closed : budget = true → this.queue = [] → this.senders = 0 →
      RecvTurn this budget (.ready none, this)
  | received {value rest} : budget = true → this.queue = value :: rest →
      RecvTurn this budget (.ready (some value), { this with queue := rest })

theorem pollRecv_turn (this : Mpsc α) (budget : Bool) :
    RecvTurn this budget (this.pollRecv budget) := by
  unfold pollRecv
  cases budget with
  | false => exact .pending fun h => by cases h
  | true =>
      simp only [if_true]
      split
      · next value rest queue => exact .received rfl queue
      · next empty =>
          split
          · next closed => exact .closed rfl empty closed
          · next open_ => exact .pending fun _ => ⟨empty, open_⟩

/-- The turn says all there is to say. -/
theorem RecvTurn.eq {this : Mpsc α} {budget : Bool} {outcome outcome' : Poll (Option α) × Mpsc α}
    (turn : RecvTurn this budget outcome) (turn' : RecvTurn this budget outcome') :
    outcome = outcome' := by
  cases turn with
  | pending waits =>
      cases turn' with
      | pending => rfl
      | closed left _ senders => exact ((waits left).2 senders).elim
      | received left queue =>
          rw [(waits left).1] at queue
          cases queue
  | closed left queue senders =>
      cases turn' with
      | pending waits => exact ((waits left).2 senders).elim
      | closed => rfl
      | received _ queue' =>
          rw [queue] at queue'
          cases queue'
  | received left queue =>
      cases turn' with
      | pending waits =>
          rw [(waits left).1] at queue
          cases queue
      | closed _ queue' _ =>
          rw [queue] at queue'
          cases queue'
      | received _ queue' =>
          rw [queue] at queue'
          cases queue'
          rfl

end Mpsc

/-- The channel that is no more than its view. -/
instance : UnboundedChannel (Mpsc α) α where
  new := .new
  send := Mpsc.send
  pollRecv := Mpsc.pollRecv
  cloneSender := Mpsc.cloneSender
  dropSender := Mpsc.dropSender
  dropReceiver := Mpsc.dropReceiver
  view m := m
  view_new := rfl
  send_ok value receiver := ⟨_, Mpsc.send_of_receiver receiver value, rfl⟩
  send_error value receiver := Mpsc.send_of_no_receiver receiver value
  pollRecv_some := by
    intro m budget value m' polled
    have turn := m.pollRecv_turn budget
    rw [polled] at turn
    cases turn with
    | received left queue => exact ⟨left, _, queue, rfl⟩
  pollRecv_none := by
    intro m budget m' polled
    have turn := m.pollRecv_turn budget
    rw [polled] at turn
    cases turn with
    | closed left queue senders => exact ⟨left, queue, senders, rfl⟩
  pollRecv_pending := by
    intro m budget m' polled
    have turn := m.pollRecv_turn budget
    rw [polled] at turn
    cases turn with
    | pending waits => exact ⟨waits, rfl⟩
  view_cloneSender _ := rfl
  view_dropSender _ := rfl
  dropReceiver_queue _ := rfl
  view_dropReceiver _ := rfl

namespace UnboundedChannel

variable {M : Type} [UnboundedChannel M α]

theorem view_send (m : M) (value : α) :
    send (view m) value = ((send m value).1, view (send m value).2) := by
  cases receiver : (view m).receiver with
  | true =>
      obtain ⟨m', sent, after⟩ := send_ok value receiver
      rw [sent, after]
      exact Mpsc.send_of_receiver receiver value
  | false =>
      rw [send_error value receiver]
      exact Mpsc.send_of_no_receiver receiver value

theorem view_pollRecv (m : M) (budget : Bool) :
    pollRecv (view m) budget = ((pollRecv m budget).1, view (pollRecv m budget).2) := by
  refine Mpsc.RecvTurn.eq ((view m).pollRecv_turn budget) ?_
  rcases polled : pollRecv m budget with ⟨(_ | value) | _, m'⟩
  · obtain ⟨left, queue, senders, after⟩ := pollRecv_none polled
    rw [after]
    exact .closed left queue senders
  · obtain ⟨left, rest, queue, after⟩ := pollRecv_some polled
    rw [after]
    exact .received left queue
  · obtain ⟨waits, after⟩ := pollRecv_pending polled
    rw [after]
    exact .pending waits

end UnboundedChannel

/-! ## Oneshot channels -/

/-- The channel that is no more than its view. -/
instance : OneshotChannel (Oneshot β) β where
  new := ⟨true, true⟩
  dropSender c := { c with sender := false }
  dropReceiver c := { c with receiver := false }
  poll c budget := if budget && !c.sender then .ready (.error ()) else .pending
  view c := c
  view_new := rfl
  view_dropSender _ := rfl
  view_dropReceiver _ := rfl
  poll_sender budget sender := by rw [sender, Bool.not_true, Bool.and_false]; rfl
  poll_no_sender sender := by rw [sender]; rfl
  poll_no_budget _ := rfl

/-- A poll tells whether the sender is gone, and nothing else. -/
theorem OneshotChannel.view_poll {C : Type} [OneshotChannel C β] (c : C) (budget : Bool) :
    poll (view c) budget = poll c budget := by
  cases sender : (view c).sender with
  | true =>
      have sender' : (view (view c)).sender = true := sender
      rw [poll_sender budget sender, poll_sender budget sender']
  | false =>
      have sender' : (view (view c)).sender = false := sender
      cases budget with
      | true => rw [poll_no_sender sender, poll_no_sender sender']
      | false => rw [poll_no_budget, poll_no_budget]

/-- Oneshot channels by name.  A channel without ends is freed. -/
abbrev Oneshots (C : Type) := Nat → Option C

namespace Oneshots

variable {C : Type} [OneshotChannel C β]

/-- `oneshot::channel()`, under a name not in use. -/
def channel (this : Oneshots C) (name : Nat) : Oneshots C :=
  Function.update this name (some OneshotChannel.new)

/-- The channel without its sender. -/
def withoutSender (channel : Option C) : Option C :=
  channel.bind fun c =>
    if (OneshotChannel.view c).receiver then some (OneshotChannel.dropSender c) else none

/-- The channel without its receiver. -/
def withoutReceiver (channel : Option C) : Option C :=
  channel.bind fun c =>
    if (OneshotChannel.view c).sender then some (OneshotChannel.dropReceiver c) else none

def dropSender (this : Oneshots C) (name : Nat) : Oneshots C :=
  Function.update this name (withoutSender (this name))

def dropReceiver (this : Oneshots C) (name : Nat) : Oneshots C :=
  Function.update this name (withoutReceiver (this name))

/-- Several senders are dropped. -/
def dropSenders (this : Oneshots C) (names : List Nat) : Oneshots C := names.foldl dropSender this

/-- A poll of the receiver of a channel: it resolves to an error once the sender is gone. -/
def poll (this : Oneshots C) (name : Nat) (budget : Bool) : Poll (Except Unit β) :=
  match this name with
  | some c => OneshotChannel.poll c budget
  | none => if budget then .ready (.error ()) else .pending

/-- What can be told of the channels. -/
def view (this : Oneshots C) : Oneshots (Oneshot β) := fun name =>
  (this name).map OneshotChannel.view

@[simp] theorem channel_same (this : Oneshots C) (name : Nat) :
    this.channel name name = some OneshotChannel.new := Function.update_self ..

theorem channel_of_ne (this : Oneshots C) {name other : Nat} (ne : other ≠ name) :
    this.channel name other = this other := Function.update_of_ne ne ..

@[simp] theorem dropReceiver_same (this : Oneshots C) (name : Nat) :
    this.dropReceiver name name = withoutReceiver (this name) := Function.update_self ..

theorem dropReceiver_of_ne (this : Oneshots C) {name other : Nat} (ne : other ≠ name) :
    this.dropReceiver name other = this other := Function.update_of_ne ne ..

/-- A channel whose ends are dropped at once leaves nothing behind. -/
theorem channel_dropped {this : Oneshots C} {name : Nat} (fresh : this name = none) :
    ((this.channel name).dropSender name).dropReceiver name = this := by
  funext other
  by_cases same : other = name
  · subst same
    simp only [channel, dropSender, dropReceiver, Function.update_self, withoutSender,
      withoutReceiver, Option.bind_some, OneshotChannel.view_new, OneshotChannel.view_dropSender,
      if_true, Bool.false_eq_true, if_false, fresh]
  · simp only [channel, dropSender, dropReceiver, Function.update_of_ne same]

/-! ### What the views do -/

theorem view_update (this : Oneshots C) (name : Nat) (channel : Option C) :
    view (Function.update this name channel) =
      Function.update this.view name (channel.map OneshotChannel.view) := by
  funext other
  by_cases same : other = name
  · subst same
    simp only [view, Function.update_self]
  · simp only [view, Function.update_of_ne same]

theorem view_channel (this : Oneshots C) (name : Nat) :
    (this.channel name).view = this.view.channel name := by
  rw [channel, view_update, Option.map_some, OneshotChannel.view_new]
  rfl

theorem view_withoutSender (channel : Option C) :
    (withoutSender channel).map OneshotChannel.view =
      withoutSender (channel.map OneshotChannel.view) := by
  cases channel with
  | none => rfl
  | some c =>
      have same : OneshotChannel.view (OneshotChannel.view c) = OneshotChannel.view c := rfl
      simp only [withoutSender, Option.bind_some, Option.map_some, same]
      split
      · rw [Option.map_some, OneshotChannel.view_dropSender]
        rfl
      · rfl

theorem view_withoutReceiver (channel : Option C) :
    (withoutReceiver channel).map OneshotChannel.view =
      withoutReceiver (channel.map OneshotChannel.view) := by
  cases channel with
  | none => rfl
  | some c =>
      have same : OneshotChannel.view (OneshotChannel.view c) = OneshotChannel.view c := rfl
      simp only [withoutReceiver, Option.bind_some, Option.map_some, same]
      split
      · rw [Option.map_some, OneshotChannel.view_dropReceiver]
        rfl
      · rfl

theorem view_dropSender (this : Oneshots C) (name : Nat) :
    (this.dropSender name).view = this.view.dropSender name := by
  rw [dropSender, view_update, view_withoutSender]
  rfl

theorem view_dropReceiver (this : Oneshots C) (name : Nat) :
    (this.dropReceiver name).view = this.view.dropReceiver name := by
  rw [dropReceiver, view_update, view_withoutReceiver]
  rfl

theorem view_dropSenders (this : Oneshots C) (names : List Nat) :
    (this.dropSenders names).view = this.view.dropSenders names := by
  induction names generalizing this with
  | nil => rfl
  | cons first rest ih =>
      rw [dropSenders, List.foldl_cons, ← dropSenders, ih, view_dropSender]
      rfl

theorem view_poll (this : Oneshots C) (name : Nat) (budget : Bool) :
    this.view.poll name budget = this.poll name budget := by
  unfold poll view
  cases this name with
  | none => rfl
  | some c => exact OneshotChannel.view_poll c budget

theorem view_eq_none {this : Oneshots C} {name : Nat} :
    this.view name = none ↔ this name = none :=
  Option.map_eq_none_iff

end Oneshots

/-! ### Channels that are no more than their views -/

namespace Oneshot

/-- The channel with the ends given, if there is one. -/
def ofEnds (sender receiver : Bool) : Option (Oneshot β) :=
  if sender || receiver then some ⟨sender, receiver⟩ else none

@[simp] theorem withoutSender_ofEnds (sender receiver : Bool) :
    Oneshots.withoutSender (ofEnds sender receiver : Option (Oneshot β)) =
      ofEnds false receiver := by
  cases sender <;> cases receiver <;> rfl

@[simp] theorem withoutReceiver_ofEnds (sender receiver : Bool) :
    Oneshots.withoutReceiver (ofEnds sender receiver : Option (Oneshot β)) =
      ofEnds sender false := by
  cases sender <;> cases receiver <;> rfl

theorem ofEnds_eq_none {sender receiver : Bool} :
    (ofEnds sender receiver : Option (Oneshot β)) = none ↔
      sender = false ∧ receiver = false := by
  cases sender <;> cases receiver <;> simp [ofEnds]

theorem withoutSender_idem (channel : Option (Oneshot β)) :
    Oneshots.withoutSender (Oneshots.withoutSender channel) = Oneshots.withoutSender channel := by
  rcases channel with _ | ⟨_, _ | _⟩ <;> rfl

end Oneshot

namespace Oneshots

variable {this : Oneshots (Oneshot β)}

theorem poll_ofEnds {name : Nat} {sender receiver : Bool}
    (ends : this name = Oneshot.ofEnds sender receiver) (budget : Bool) :
    this.poll name budget = if budget && !sender then .ready (.error ()) else .pending := by
  unfold poll
  rw [ends]
  cases budget <;> cases sender <;> cases receiver <;> rfl

/-- Dropping senders touches the channels named and no other. -/
theorem dropSenders_apply (this : Oneshots (Oneshot β)) (names : List Nat) (name : Nat) :
    this.dropSenders names name =
      if name ∈ names then withoutSender (this name) else this name := by
  induction names generalizing this with
  | nil => rfl
  | cons first rest ih =>
      rw [dropSenders, List.foldl_cons, ← dropSenders, ih]
      by_cases same : name = first
      · subst same
        simp only [dropSender, Function.update_self, Oneshot.withoutSender_idem, List.mem_cons,
          true_or, if_true, ite_self]
      · simp only [dropSender, Function.update_of_ne same, List.mem_cons, same, false_or]

end Oneshots

end Async
