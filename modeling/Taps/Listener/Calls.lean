import Taps.Error

/-!
# Calls on a Listener

What the calls of `listen()` and `stop()` returned, in order, of which the last ones say whether the Listener
is started.
-/

namespace Taps

inductive ListenerCall
  | listened (result : Result Unit)
  | stopped (result : Result Unit)

namespace ListenerCall

/-- Whether the Listener is started after the call; `started` is whether it was before. -/
def after (started : Bool) : ListenerCall → Bool
  | listened (.ok _) => true
  | listened (.error _) => started
  | stopped _ => false

/-- The last `listen()` that succeeded is later than the last `stop()`. -/
def started (calls : List ListenerCall) : Bool := calls.foldl after false

@[simp] theorem started_append (calls : List ListenerCall) (c : ListenerCall) :
    started (calls ++ [c]) = c.after (started calls) := by
  simp [started]

end ListenerCall

/-! ## Errors -/

/-- What opening an open socket sets. -/
def ErrorCode.alreadyOpen : ErrorCode := .other 1

def notListening : TAPSError := ⟨.establishmentError, .invalidState, .text "Not listening"⟩

def resolutionFailed : TAPSError :=
  ⟨.establishmentError, .resolutionFailed, .text "Failed to resolve local endpoint"⟩

/-- `accept()` failed because the Listener does not listen. -/
def invalidState {α : Type} : Result α → Bool
  | .error e => e.event == .establishmentError && e.reason == .invalidState
  | .ok _ => false

@[simp] theorem invalidState_ok {α : Type} (a : α) : invalidState (.ok a) = false := rfl

theorem reasonFrom_ne_invalidState (ec : ErrorCode) : reasonFrom ec ≠ .invalidState := by
  cases ec <;> simp [reasonFrom]

@[simp] theorem invalidState_ioError {α : Type} (event : ErrorEvent) (ec : ErrorCode) :
    invalidState (α := α) (.error (ioError event ec)) = false := by
  simp [invalidState, ioError, reasonFrom_ne_invalidState]

end Taps
