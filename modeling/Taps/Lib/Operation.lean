import Mathlib.Data.List.Basic

/-!
# Asynchronous operations

An operation started on an object that can be closed, up to the resumption of the coroutine that waits for
it. Closing or cancelling the object completes an operation that is pending with an error of its own; one
that has completed, and whose coroutine has yet to be resumed, stays as it is.
-/

namespace Taps.Lib

inductive Operation (ε α : Type*)
  | pending
  | completed (outcome : Except ε α)
  deriving DecidableEq

namespace Operation

variable {ε α : Type*}

/-- On a closed object an operation completes at once, with the error `refused`. -/
def start (isOpen : Bool) (refused : ε) : Operation ε α :=
  if isOpen then .pending else .completed (.error refused)

def cancel (aborted : ε) : Operation ε α → Operation ε α
  | .pending => .completed (.error aborted)
  | op => op

theorem cancel_ne_pending (aborted : ε) (op : Operation ε α) : op.cancel aborted ≠ .pending := by
  cases op with
  | pending => exact nofun
  | completed outcome => exact nofun

theorem cancel_of_ne_pending {aborted : ε} {op : Operation ε α} (h : op ≠ .pending) :
    op.cancel aborted = op := by
  cases op with
  | pending => exact absurd rfl h
  | completed outcome => rfl

end Operation

end Taps.Lib
