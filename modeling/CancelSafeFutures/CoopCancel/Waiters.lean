import CancelSafeFutures.CoopCancel.Delivery
import Mathlib.Data.List.Nodup

/-!
# Waiters

The sender of a oneshot channel goes from `cancel` into the queue, from there into `first_sender`,
and down with the receiver; the receiver of the channel is the `Waiter`.  `OneshotsInv` says for
every name which ends of the channel are still there, and `waiters_observe_drop` what the waiters
see of it, whatever the channels are: the invariants hold of the view.
-/

namespace CancelSafeFutures

open Async

namespace CoopCancel

variable {T : Type}

/-- The sender of every payload that was sent lives as long as the receiver, and the other end
as long as the `Waiter`. -/
structure OneshotsInv (s : PlainPair T) : Prop where
  senders : (droppedSenders s.sent).Nodup
  waiters : s.waiters.Nodup
  sent : ∀ waiter ∈ s.waiters, waiter.droppedReceiver ∈ droppedSenders s.sent
  ends : ∀ name, s.channels.oneshots name =
    Oneshot.ofEnds (s.receiver.isSome && decide (name ∈ droppedSenders s.sent))
      (decide (⟨name⟩ ∈ s.waiters))

theorem newPair_oneshotsInv : OneshotsInv (newPair : PlainPair T) where
  senders := List.nodup_nil
  waiters := List.nodup_nil
  sent _ mem := (List.not_mem_nil mem).elim
  ends _ := rfl

/-- While the receiver lives, each sender is in exactly one place. -/
theorem DeliveryInv.places {s : PlainPair T} (inv : DeliveryInv s) {receiver : Receiver}
    (held : s.receiver = some receiver) :
    receiver.firstSender.toList ++ droppedSenders s.channels.mpsc.queue =
      droppedSenders s.sent := by
  cases inv.stage with
  | waiting _ before =>
      obtain ⟨none, queue⟩ := before receiver held
      rw [none, queue]
      rfl
  | closed _ _ _ before =>
      obtain ⟨none, queue⟩ := before receiver held
      rw [none, queue]
      rfl
  | delivered _ sent before =>
      obtain ⟨some, queue⟩ := before receiver held
      rw [some, queue, sent]
      rfl

/-- A name not in use is new. -/
theorem OneshotsInv.fresh {s : PlainPair T} (inv : OneshotsInv s) {name : Nat}
    (receiver : s.receiver.isSome = true) (free : s.channels.oneshots name = none) :
    name ∉ droppedSenders s.sent ∧ (⟨name⟩ : Waiter) ∉ s.waiters := by
  have ends := inv.ends name
  rw [free, receiver, Bool.true_and] at ends
  obtain ⟨sender, waiter⟩ := Oneshot.ofEnds_eq_none.mp ends.symm
  exact ⟨of_decide_eq_false sender, of_decide_eq_false waiter⟩

/-- `cancel` makes both ends of a new channel. -/
theorem OneshotsInv.cancel {s : PlainPair T} (inv : OneshotsInv s) {name : Nat} {message : T}
    {mpsc : Mpsc (CancelPayload T)} (receiver : s.receiver.isSome = true)
    (free : s.channels.oneshots name = none) :
    OneshotsInv
      { s with
        channels := ⟨mpsc, s.channels.oneshots.channel name⟩
        waiters := s.waiters ++ [⟨name⟩]
        sent := s.sent ++ [⟨message, name⟩] } := by
  obtain ⟨sender, waiter⟩ := inv.fresh receiver free
  have names : droppedSenders (s.sent ++ [⟨message, name⟩]) = droppedSenders s.sent ++ [name] :=
    List.map_append
  refine ⟨?_, ?_, ?_, ?_⟩
  · rw [names, ← List.concat_eq_append]
    exact inv.senders.concat sender
  · rw [← List.concat_eq_append]
    exact inv.waiters.concat waiter
  · intro other mem
    rw [names]
    rcases List.mem_append.mp mem with mem | mem
    · exact List.mem_append_left _ (inv.sent other mem)
    · cases List.mem_singleton.mp mem
      exact List.mem_append_right _ (List.mem_singleton_self name)
  · intro other
    have ends := inv.ends other
    rw [names]
    by_cases same : other = name
    · subst same
      have made : s.channels.oneshots.channel other other = Oneshot.ofEnds true true :=
        Oneshots.channel_same ..
      refine made.trans ?_
      simp [receiver]
    · simp only [Oneshots.channel_of_ne _ same, ends, List.mem_append, List.mem_singleton, same,
        or_false, Waiter.mk.injEq]

/-- The receiver takes all senders with it. -/
theorem OneshotsInv.dropReceiver {s : PlainPair T} (inv : OneshotsInv s)
    (delivery : DeliveryInv s) {receiver : Receiver} (held : s.receiver = some receiver) :
    OneshotsInv { s with channels := receiver.drop s.channels, receiver := none } := by
  refine ⟨inv.senders, inv.waiters, inv.sent, fun name => ?_⟩
  have ends := inv.ends name
  have places : name ∈ receiver.firstSender.toList ∨
      name ∈ droppedSenders s.channels.mpsc.queue ↔ name ∈ droppedSenders s.sent := by
    rw [← delivery.places held, List.mem_append]
  rw [held, Option.isSome_some, Bool.true_and] at ends
  have queue : (UnboundedChannel.dropReceiver s.channels.mpsc).1 = s.channels.mpsc.queue := rfl
  have dropped : (receiver.drop s.channels).oneshots name =
      if name ∈ droppedSenders s.sent then Oneshots.withoutSender (s.channels.oneshots name)
      else s.channels.oneshots name := by
    simp only [Receiver.drop, queue, Oneshots.dropSenders_apply, ← places]
    by_cases first : name ∈ receiver.firstSender.toList
    · by_cases queued : name ∈ droppedSenders s.channels.mpsc.queue
      · simp only [first, queued, or_self, if_true, Oneshot.withoutSender_idem]
      · simp only [first, queued, or_false, if_true, if_false]
    · simp only [first, false_or, if_false]
  simp only [dropped, ends, Oneshot.withoutSender_ofEnds, Option.isSome_none, Bool.false_and]
  by_cases sent : name ∈ droppedSenders s.sent
  · rw [if_pos sent]
  · rw [if_neg sent, decide_eq_false sent]

/-- A `Waiter` takes its end of the channel with it. -/
theorem OneshotsInv.without {s : PlainPair T} (inv : OneshotsInv s) (waiter : Waiter) :
    OneshotsInv (s.without waiter) := by
  refine ⟨inv.senders, inv.waiters.erase waiter,
    fun other mem => inv.sent other (List.mem_of_mem_erase mem), fun name => ?_⟩
  have ends := inv.ends name
  by_cases same : name = waiter.droppedReceiver
  · subst same
    have gone : waiter ∉ s.waiters.erase waiter := inv.waiters.not_mem_erase
    simp only [CoopCancel.without, Oneshots.dropReceiver_same, ends,
      Oneshot.withoutReceiver_ofEnds, gone, decide_false]
    rfl
  · have other : (⟨name⟩ : Waiter) ≠ waiter := by
      rintro rfl
      exact same rfl
    simp only [CoopCancel.without, Oneshots.dropReceiver_of_ne _ same, ends,
      List.mem_erase_of_ne other]
    rfl

/-- Every move keeps the invariant. -/
theorem OneshotsInv.step {s s' : PlainPair T} (inv : OneshotsInv s) (delivery : DeliveryInv s)
    (turn : s.Turn s') : OneshotsInv s' := by
  cases turn with
  | idle | cancelers | recv | again | pending | closed | dropRecv =>
      exact ⟨inv.senders, inv.waiters, inv.sent, inv.ends⟩
  | cancel _ free receiver => exact inv.cancel (delivery.ends.symm.trans receiver) free
  | received looks =>
      refine ⟨inv.senders, inv.waiters, inv.sent, fun name => ?_⟩
      have ends := inv.ends name
      rw [looks.1] at ends
      -- nothing was stored, and so nothing is dropped
      rw [delivery.first_of_looks looks]
      exact ends
  | dropReceiver held => exact inv.dropReceiver delivery held
  | without => exact inv.without _

theorem oneshotsInv {ops : List (CoopCancelOp T)} {s : PlainPair T}
    (h : (plainPair T).run ops = some s) : DeliveryInv s ∧ OneshotsInv s := by
  refine System.run_invariant' (I := fun s => DeliveryInv s ∧ OneshotsInv s)
    ⟨newPair_deliveryInv, newPair_oneshotsInv⟩ ?_ h
  intro s op s' inv h
  have turn := step_turn h
  exact ⟨inv.1.step turn, inv.2.step inv.1 turn⟩

/-- What a `Waiter` answers. -/
theorem OneshotsInv.poll_waiter {s : PlainPair T} (inv : OneshotsInv s) {waiter : Waiter}
    (mem : waiter ∈ s.waiters) (budget : Bool) :
    waiter.poll s.channels.oneshots budget =
      .ok (if budget ∧ s.receiver = none then .ready () else .pending) := by
  have ends := inv.ends waiter.droppedReceiver
  rw [decide_eq_true (inv.sent waiter mem), Bool.and_true] at ends
  rw [Waiter.poll, Oneshots.poll_ofEnds ends]
  cases budget <;> cases s.receiver <;> rfl

/-- While the receiver lives, so does every sender. -/
theorem OneshotsInv.sender_lives {s : PlainPair T} (inv : OneshotsInv s)
    (receiver : s.receiver.isSome = true) {name : Nat} (sent : name ∈ droppedSenders s.sent) :
    ∃ waiter, s.channels.oneshots name = some ⟨true, waiter⟩ := by
  have ends := inv.ends name
  rw [receiver, decide_eq_true sent] at ends
  exact ⟨_, ends⟩

/-- `cancel` fails exactly when there is no receiver. -/
theorem DeliveryInv.cancel_error_iff {s : PlainPair T} (inv : DeliveryInv s) {name : Nat}
    (free : s.channels.oneshots name = none) (message rejected : T) :
    (Canceler.cancel s.channels name message).1 = .error rejected ↔
      s.receiver = none ∧ rejected = message := by
  cases held : s.receiver with
  | none =>
      have gone : s.channels.mpsc.receiver = false := by rw [inv.ends, held]; rfl
      rw [Canceler.cancel_error gone free, Except.error.injEq]
      exact ⟨fun h => ⟨rfl, h.symm⟩, fun h => h.2.symm⟩
  | some receiver =>
      have ends : s.channels.mpsc.receiver = true := by rw [inv.ends, held]; rfl
      rw [Canceler.cancel_ok ends]
      exact ⟨nofun, fun h => nomatch h.1⟩

end CoopCancel

open CoopCancel in
/-- **Waiters observe exactly the drop of the receiver.**  A `Waiter` is ready once the receiver
is gone and not before, and does not reach the branch that is unreachable.  While the receiver
lives, the senders of all successful calls of `cancel` are in the queue or in `first_sender`, each
once, and alive.  `cancel` gives back its message exactly when the receiver is gone, and then
changes nothing. -/
theorem waiters_observe_drop {M C T : Type} [UnboundedChannel M (CancelPayload T)]
    [OneshotChannel C Never] {ops : List (CoopCancelOp T)} {s : CoopCancel M C T}
    (h : (coopCancel M C T).run ops = some s) :
    (∀ waiter ∈ s.waiters, ∀ budget, waiter.poll s.channels.oneshots budget =
      .ok (if budget ∧ s.receiver = none then .ready () else .pending)) ∧
    (∀ receiver, s.receiver = some receiver →
      receiver.firstSender.toList ++
            droppedSenders (UnboundedChannel.view s.channels.mpsc).queue =
          droppedSenders s.sent ∧
        (droppedSenders s.sent).Nodup ∧
        ∀ name ∈ droppedSenders s.sent,
          ∃ channel, s.channels.oneshots name = some channel ∧
            (OneshotChannel.view channel).sender = true) ∧
    ∀ name message, s.channels.oneshots name = none →
      (∀ rejected, (Canceler.cancel s.channels name message).1 = .error rejected ↔
        s.receiver = none ∧ rejected = message) ∧
      (s.receiver = none → (Canceler.cancel s.channels name message).2 = s.channels) := by
  obtain ⟨delivery, inv⟩ := oneshotsInv (view_run h)
  refine ⟨fun waiter mem budget => ?_, ?_, ?_⟩
  · rw [← Waiter.view_poll]
    exact inv.poll_waiter mem budget
  · intro receiver held
    have alive : s.view.receiver.isSome = true := by rw [view, held]; rfl
    refine ⟨delivery.places held, inv.senders, fun name sent => ?_⟩
    obtain ⟨waiter, ends⟩ := inv.sender_lives alive sent
    obtain ⟨channel, made, viewed⟩ := Option.map_eq_some_iff.mp ends
    exact ⟨channel, made, by rw [viewed]⟩
  · intro name message free
    have free' : s.view.channels.oneshots name = none := Oneshots.view_eq_none.mpr free
    have cancels : Canceler.cancel s.view.channels name message = _ :=
      Canceler.view_cancel s.channels name message
    refine ⟨fun rejected => ?_, fun gone => ?_⟩
    · have fails := delivery.cancel_error_iff free' message rejected
      rwa [cancels] at fails
    · have ends : s.view.channels.mpsc.receiver = false := by rw [delivery.ends, view, gone]; rfl
      rw [Canceler.cancel_error ends free]

/-- Of three messages one was delivered and two were in the queue when the receiver was dropped;
the fourth came too late. -/
theorem waiters_observe_drop_of_three :
    ∃ s,
      (plainPair Nat).run
        [.cancel 0 5, .cancel 1 6, .recv, .pollRecv true, .dropRecv, .cancel 2 7, .dropReceiver,
          .cancel 3 8] = some s ∧
      s.waiters = [⟨0⟩, ⟨1⟩, ⟨2⟩] ∧
      (∀ waiter ∈ s.waiters, ∀ budget, waiter.poll s.channels.oneshots budget =
        .ok (if budget ∧ s.receiver = none then .ready () else .pending)) := by
  have run : (plainPair Nat).run
      [.cancel 0 5, .cancel 1 6, .recv, .pollRecv true, .dropRecv, .cancel 2 7, .dropReceiver,
        .cancel 3 8] = some _ := rfl
  exact ⟨_, run, rfl, (waiters_observe_drop run).1⟩

end CancelSafeFutures
