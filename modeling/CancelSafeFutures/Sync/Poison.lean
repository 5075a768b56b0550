import Mathlib.Data.List.Basic

/-!
# Poison flags

The model of `src/sync/poison.rs`.  `thread::panicking()` is an argument of the functions that
call it.  `Flag.encode` gives the flags for what has happened under a lock, and the lemmas about
it are all that the rest of the development knows about the bits.
-/

namespace CancelSafeFutures

/-- `PoisonError`. -/
structure PoisonError (G : Type) where
  guard : G
  flags : UInt8
  deriving DecidableEq, Repr

/-- `TryLockError`. -/
inductive TryLockError (G : Type) where
  | poisoned (error : PoisonError G)
  | wouldBlock
  deriving DecidableEq, Repr

/-- `LockResult`. -/
abbrev LockResult (G : Type) := Except (PoisonError G) G

/-- `TryLockResult`. -/
abbrev TryLockResult (G : Type) := Except (TryLockError G) G

/-- `NO_POISON`. -/
def noPoison : UInt8 := 0

/-- `PANIC_POISON`. -/
def panicPoison : UInt8 := (1 : UInt8) <<< 0

/-- `CANCEL_POISON`. -/
def cancelPoison : UInt8 := (1 : UInt8) <<< 1

/-- `Flag`. -/
structure Flag where
  failed : UInt8
  deriving DecidableEq, Repr

/-- `Guard`. -/
structure Guard where
  panicking : Bool
  deriving DecidableEq, Repr

namespace PoisonError

variable {G : Type}

/-- `PoisonError::is_panic`. -/
def isPanic (this : PoisonError G) : Bool := this.flags &&& panicPoison != 0

/-- `PoisonError::is_cancel`. -/
def isCancel (this : PoisonError G) : Bool := this.flags &&& cancelPoison != 0

/-- `PoisonError::into_inner`. -/
def intoInner (this : PoisonError G) : G := this.guard

end PoisonError

namespace Flag

/-- `Flag::new`. -/
def new : Flag := ⟨noPoison⟩

/-- `Flag::get_flags`. -/
def getFlags (this : Flag) : UInt8 := this.failed

/-- `Flag::borrow`. -/
def borrow (this : Flag) : LockResult Unit :=
  if this.getFlags > noPoison then .error ⟨(), this.getFlags⟩ else .ok ()

/-- `Flag::guard_assuming_no_poison`. -/
def guardAssumingNoPoison (_ : Flag) (panicking : Bool) : Guard := ⟨panicking⟩

/-- `Flag::done`. -/
def done (this : Flag) (guard : Guard) (cancelled : Bool) (panicking : Bool) : Flag :=
  let newFlags := if !guard.panicking && panicking then 0 ||| panicPoison else 0
  let newFlags := if cancelled then newFlags ||| cancelPoison else newFlags
  -- `fetch_or`
  ⟨this.failed ||| newFlags⟩

end Flag

/-- `map_result`. -/
def mapResult {G H : Type} (result : LockResult G) (f : G → H) : LockResult H :=
  match result with
  | .ok t => .ok (f t)
  | .error error => .error ⟨f error.intoInner, error.flags⟩

/-- `<DebugFlags as Debug>::fmt`. -/
def debugFlags (flags : UInt8) : String :=
  if flags == noPoison then
    "(not poisoned)"
  else
    let poisonedBy := []
    let poisonedBy := if flags &&& panicPoison != 0 then poisonedBy ++ ["panic"] else poisonedBy
    let poisonedBy :=
      if flags &&& cancelPoison != 0 then poisonedBy ++ ["async cancellation"] else poisonedBy
    "(poisoned by " ++ ", ".intercalate poisonedBy ++ ")"

/-- `<Flag as Debug>::fmt`. -/
def Flag.fmt (this : Flag) : String := debugFlags this.getFlags

/-! ## The bits -/

namespace Flag

/-- The flags of a lock under which there were panics, and cancellations, or not. -/
def encode (panicked cancelled : Bool) : Flag :=
  ⟨(if panicked then panicPoison else 0) ||| (if cancelled then cancelPoison else 0)⟩

theorem new_eq_encode : new = encode false false := rfl

/-- `done` only adds to the flags. -/
theorem done_encode (panicked cancelled : Bool) (guard : Guard) (now panicking : Bool) :
    (encode panicked cancelled).done guard now panicking =
      encode (panicked || (!guard.panicking && panicking)) (cancelled || now) := by
  rcases guard with ⟨before⟩
  cases panicked <;> cases cancelled <;> cases before <;> cases now <;> cases panicking <;> rfl

@[simp] theorem encode_panic (panicked cancelled : Bool) :
    ((encode panicked cancelled).getFlags &&& panicPoison != 0) = panicked := by
  cases panicked <;> cases cancelled <;> rfl

@[simp] theorem encode_cancel (panicked cancelled : Bool) :
    ((encode panicked cancelled).getFlags &&& cancelPoison != 0) = cancelled := by
  cases panicked <;> cases cancelled <;> rfl

theorem borrow_encode (panicked cancelled : Bool) :
    (encode panicked cancelled).borrow =
      if panicked || cancelled then .error ⟨(), (encode panicked cancelled).getFlags⟩
      else .ok () := by
  cases panicked <;> cases cancelled <;> rfl

/-- Whatever the flags are, they are read. -/
theorem borrow_eq (this : Flag) :
    this.borrow = if this.getFlags = noPoison then .ok () else .error ⟨(), this.getFlags⟩ := by
  unfold borrow
  by_cases none : this.getFlags = noPoison
  · rw [if_pos none, none]
    rfl
  · rw [if_neg none]
    exact if_pos (UInt8.pos_iff_ne_zero.mpr none)

/-- No bit that is set in `this` is clear in `later`. -/
def Within (this later : Flag) : Prop := this.getFlags &&& later.getFlags = this.getFlags

namespace Within

theorem refl (this : Flag) : this.Within this := UInt8.and_self

theorem trans {a b c : Flag} (ab : a.Within b) (bc : b.Within c) : a.Within c := by
  unfold Within at ab bc ⊢
  rw [← ab, UInt8.and_assoc, bc]

/-- `done` clears nothing. -/
theorem done (this : Flag) (guard : Guard) (cancelled panicking : Bool) :
    this.Within (this.done guard cancelled panicking) := by
  have absorbs : ∀ a b : UInt8, a &&& (a ||| b) = a := by
    intro a b
    apply UInt8.eq_of_toBitVec_eq
    ext i bound
    rw [UInt8.toBitVec_and, UInt8.toBitVec_or, BitVec.getElem_and, BitVec.getElem_or]
    cases a.toBitVec[i] <;> rfl
  exact absorbs ..

end Within

end Flag

end CancelSafeFutures
