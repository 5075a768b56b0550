import CancelSafeFutures.Async.Refinement
import CancelSafeFutures.CoopCancel.Delivery

/-!
# `recv` is cancel-safe

A future of `Receiver::recv` that is still pending can be dropped, and `recv` called again: the
two futures differ in nothing that a poll, or anything else, could find out (`Alike`).  So a run
in which such futures are dropped cannot be told from the run in which they are kept
(`recv_cancel_safe`).
-/

namespace CancelSafeFutures

open Async

namespace CoopCancel

variable {M C T : Type}

/-- All that can be observed: not, whether a future that is pending was ever polled. -/
def observe (s : CoopCancel M C T) : CoopCancel M C T :=
  { s with recv := s.recv.map fun fut => if fut = .returned then .returned else .awaiting }

/-- A future of `recv` that has not returned is dropped, and `recv` is called again. -/
inductive DropsRecv (s : CoopCancel M C T) : List (CoopCancelOp T) → Prop
  | mk {fut} : s.recv = some fut → fut ≠ .returned → DropsRecv s [.dropRecv, .recv]

/-- The state with another future. -/
def withRecv (s : CoopCancel M C T) (fut : RecvFuture) : CoopCancel M C T :=
  { s with recv := some fut }

variable [OneshotChannel C Never]

/-- What a poll of a `Waiter` leaves. -/
def waited (s : CoopCancel M C T) (waiter : Waiter) (answer : Run (Poll Unit)) : CoopCancel M C T :=
  match answer with
  | .ok (.ready ()) => s.without waiter
  | _ => s

theorem waited_withRecv (s : CoopCancel M C T) (fut : RecvFuture) (waiter : Waiter)
    (answer : Run (Poll Unit)) :
    (s.withRecv fut).waited waiter answer = (s.waited waiter answer).withRecv fut ∧
      (s.waited waiter answer).recv = s.recv ∧
      (s.waited waiter answer).receiver = s.receiver := by
  rcases answer with _ | (_ | _) <;> exact ⟨rfl, rfl, rfl⟩

variable [UnboundedChannel M (CancelPayload T)]

theorem cancelled_withRecv (s : CoopCancel M C T) (fut : RecvFuture) (name : Nat) (message : T) :
    (s.withRecv fut).cancelled name message = (s.cancelled name message).withRecv fut ∧
      (s.cancelled name message).recv = s.recv ∧
      (s.cancelled name message).receiver = s.receiver := by
  simp only [cancelled, withRecv]
  split <;> exact ⟨rfl, rfl, rfl⟩

theorem step_pollWaiter (s : CoopCancel M C T) (waiter : Waiter) (budget : Bool) :
    s.step (.pollWaiter waiter budget) = if waiter ∈ s.waiters then
      some (s.waited waiter (waiter.poll s.channels.oneshots budget)) else none := by
  simp only [step, waited]
  rcases waiter.poll s.channels.oneshots budget with _ | (_ | _) <;> rfl

/-- The receiver is there for as long as a future of `recv` borrows it. -/
def Borrows (s : CoopCancel M C T) : Prop := s.recv.isSome → s.receiver.isSome

theorem Borrows.step {s s' : CoopCancel M C T} {op : CoopCancelOp T} (borrows : s.Borrows)
    (h : s.step op = some s') : s'.Borrows := by
  cases op with
  | cloneCanceler | dropCanceler | dropWaiter =>
      obtain ⟨-, h⟩ := Option.ite_none_right_eq_some.mp h
      cases h
      exact borrows
  | cancel name message =>
      obtain ⟨-, h⟩ := Option.ite_none_right_eq_some.mp h
      obtain ⟨-, recv, receiver⟩ := cancelled_withRecv s .unresumed name message
      cases h
      rw [Borrows, recv, receiver]
      exact borrows
  | recv =>
      obtain ⟨⟨receiver, -⟩, h⟩ := Option.ite_none_right_eq_some.mp h
      cases h
      exact fun _ => receiver
  | pollRecv budget =>
      simp only [CoopCancel.step] at h
      split at h
      · split at h
        · cases h
          exact fun _ => rfl
        · cases h
          exact borrows
      · cases h
  | dropRecv =>
      obtain ⟨-, -, h⟩ := Option.map_eq_some_iff.mp h
      cases h
      intro some_recv
      cases some_recv
  | dropReceiver =>
      obtain ⟨no_recv, h⟩ := Option.ite_none_right_eq_some.mp h
      obtain ⟨_, -, h⟩ := Option.map_eq_some_iff.mp h
      cases h
      intro some_recv
      rw [no_recv] at some_recv
      cases some_recv
  | pollWaiter waiter budget =>
      obtain ⟨-, h⟩ := Option.ite_none_right_eq_some.mp h
      split at h
      · cases h
        exact borrows
      · cases h
        exact borrows

theorem newPair_view_deliveryInv : DeliveryInv (newPair : CoopCancel M C T).view := by
  rw [view_newPair]
  exact newPair_deliveryInv

theorem deliveryInv_step {s s' : CoopCancel M C T} {op : CoopCancelOp T}
    (inv : DeliveryInv s.view) (h : s.step op = some s') : DeliveryInv s'.view := by
  have viewed : s.view.step op = some s'.view := by rw [← step_view, h, Option.map_some]
  exact inv.step (step_turn viewed)

/-- The states agree, but for a future that was polled on one side and not on the other. -/
inductive Alike : CoopCancel M C T → CoopCancel M C T → Prop
  | same {s} : DeliveryInv s.view → s.Borrows → Alike s s
  | fresh {s receiver} :
      DeliveryInv s.view → s.recv = some .awaiting → s.receiver = some receiver →
      Alike s (s.withRecv .unresumed)

theorem Alike.observe_eq {s s' : CoopCancel M C T} (alike : Alike s s') :
    s.observe = s'.observe := by
  cases alike with
  | same _ _ => rfl
  | fresh _ awaiting _ =>
      simp only [observe, withRecv, awaiting]
      rfl

/-- The first poll of the new future does what a poll of the old one would do. -/
theorem Alike.pollRecv {s : CoopCancel M C T} {receiver : Receiver} (inv : DeliveryInv s.view)
    (awaiting : s.recv = some .awaiting) (held : s.receiver = some receiver) (budget : Bool) :
    (s.withRecv .unresumed).step (.pollRecv budget) = s.step (.pollRecv budget) := by
  have first := inv.awaiting awaiting receiver held
  simp only [step, withRecv, held, awaiting, RecvFuture.poll, first, Option.isSome_none,
    Bool.false_eq_true, if_false]
  rfl

/-- What a move does that neither polls the future nor drops it. -/
theorem Alike.pass {s : CoopCancel M C T} {receiver : Receiver} {guard : Prop} [Decidable guard]
    {next next' : CoopCancel M C T} (inv : guard → DeliveryInv next.view)
    (awaiting : s.recv = some .awaiting) (held : s.receiver = some receiver)
    (recv : next.recv = s.recv) (receiver_eq : next.receiver = s.receiver)
    (same : next' = next.withRecv .unresumed) :
    Option.Rel Alike (if guard then some next else none) (if guard then some next' else none) := by
  subst same
  split
  · next allowed =>
      exact .some (.fresh (inv allowed) (recv.trans awaiting) (receiver_eq.trans held))
  · exact .none

theorem Alike.refl_step {s : CoopCancel M C T} (inv : DeliveryInv s.view) (borrows : s.Borrows)
    (op : CoopCancelOp T) : Option.Rel Alike (s.step op) (s.step op) := by
  cases h : s.step op with
  | none => exact .none
  | some s' => exact .some (.same (deliveryInv_step inv h) (borrows.step h))

/-- **Step lemma.** -/
theorem Alike.step {s s' : CoopCancel M C T} (op : CoopCancelOp T) (alike : Alike s s') :
    Option.Rel Alike (s.step op) (s'.step op) := by
  cases alike with
  | same inv borrows => exact refl_step inv borrows op
  | fresh inv awaiting held =>
      have kept : ∀ {next}, s.step op = some next → DeliveryInv next.view :=
        fun h => deliveryInv_step inv h
      have borrows : s.Borrows := fun _ => by
        rw [held]
        rfl
      cases op with
      | cloneCanceler | dropCanceler =>
          exact pass (fun senders => kept (if_pos senders)) awaiting held rfl rfl rfl
      | cancel name message =>
          obtain ⟨commutes, recv, receiver_eq⟩ := cancelled_withRecv s .unresumed name message
          exact pass (fun allowed => kept (if_pos allowed)) awaiting held recv receiver_eq commutes
      | recv =>
          have busy : s.step .recv = none := by simp [CoopCancel.step, awaiting]
          have busy' : (s.withRecv .unresumed).step .recv = none := by
            simp [CoopCancel.step, withRecv]
          rw [busy, busy']
          exact .none
      | dropReceiver =>
          have busy : s.step .dropReceiver = none := by simp [CoopCancel.step, awaiting]
          have busy' : (s.withRecv .unresumed).step .dropReceiver = none := by
            simp [CoopCancel.step, withRecv]
          rw [busy, busy']
          exact .none
      | pollRecv budget =>
          rw [pollRecv inv awaiting held]
          exact refl_step inv borrows _
      | dropRecv =>
          have same : (s.withRecv .unresumed).step .dropRecv = s.step .dropRecv := by
            simp [CoopCancel.step, withRecv, awaiting]
          rw [same]
          exact refl_step inv borrows _
      | pollWaiter waiter budget =>
          obtain ⟨commutes, recv, receiver_eq⟩ := waited_withRecv s .unresumed waiter
            (waiter.poll s.channels.oneshots budget)
          rw [step_pollWaiter, step_pollWaiter]
          exact pass (fun mem => kept ((step_pollWaiter ..).trans (if_pos mem))) awaiting held recv
            receiver_eq commutes
      | dropWaiter waiter =>
          exact pass (fun mem => kept (if_pos mem)) awaiting held rfl rfl rfl

/-- **Bisimulation.** -/
theorem alike_bisimulation : (coopCancel M C T).Bisimulation DropsRecv Alike where
  init := .same newPair_view_deliveryInv fun recv => (by cases recv)
  step op alike := alike.step op
  detour := by
    rintro s s' detour alike @⟨fut, made, pending⟩
    have again : s'.receiver.isSome →
        (coopCancel M C T).runFrom s' [.dropRecv, .recv] = some (s'.withRecv .unresumed) := by
      intro receiver
      simp [System.runFrom, coopCancel, CoopCancel.step, made, receiver, withRecv]
    cases alike with
    | @same inv borrows =>
        have receiver : s.receiver.isSome := borrows (by rw [made]; rfl)
        refine ⟨_, again receiver, ?_⟩
        cases fut with
        | unresumed =>
            have unchanged : s.withRecv .unresumed = s := by rw [withRecv, ← made]
            rw [unchanged]
            exact .same inv borrows
        | awaiting =>
            obtain ⟨receiver, held⟩ := Option.isSome_iff_exists.mp receiver
            exact .fresh inv made held
        | returned => exact (pending rfl).elim
    | fresh inv awaiting held =>
        exact ⟨_, again (by rw [withRecv, held]; rfl), .fresh inv awaiting held⟩

end CoopCancel

open CoopCancel in
/-- **Cancel safety.**  Whatever is done with a pair, it makes no difference if futures of `recv`
that have not returned are dropped and `recv` is called again, anywhere and any number of times. -/
theorem recv_cancel_safe {M C T : Type} [UnboundedChannel M (CancelPayload T)]
    [OneshotChannel C Never] {ops ops' : List (CoopCancelOp T)}
    (drops : (coopCancel M C T).Detours DropsRecv ops ops') :
    ((coopCancel M C T).run ops').map observe = ((coopCancel M C T).run ops).map observe :=
  drops.observe_eq alike_bisimulation Alike.observe_eq

open CoopCancel in
/-- One future is dropped before the message is sent, and one after it. -/
theorem recv_cancel_safe_twice :
    ((plainPair Nat).run [.recv, .pollRecv true, .dropRecv, .recv, .cancel 0 5, .dropRecv, .recv,
      .pollRecv true]).map observe =
    ((plainPair Nat).run [.recv, .pollRecv true, .cancel 0 5, .pollRecv true]).map observe := by
  have polled : (plainPair Nat).Detours DropsRecv [.recv, .pollRecv true]
      [.recv, .pollRecv true] := .move _ (.move _ .start)
  have before : (plainPair Nat).Detours DropsRecv [.recv, .pollRecv true, .cancel 0 5]
      [.recv, .pollRecv true, .dropRecv, .recv, .cancel 0 5] :=
    .move _ (.detour polled rfl (.mk rfl nofun))
  have after : (plainPair Nat).Detours DropsRecv
      [.recv, .pollRecv true, .cancel 0 5, .pollRecv true]
      [.recv, .pollRecv true, .dropRecv, .recv, .cancel 0 5, .dropRecv, .recv, .pollRecv true] :=
    .move _ (.detour before rfl (.mk rfl nofun))
  exact recv_cancel_safe after

end CancelSafeFutures
