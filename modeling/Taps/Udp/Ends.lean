import Taps.Udp.Active

/-!
# How the calls on an active UDP connection end

Only `close()` and `abort()` end the connection, with what the other calls wait for; any other failure is one of its
call alone.
-/

namespace Taps

namespace ActiveCall

variable {E : Type}

def Returned : ActiveCall E → Prop
  | sending .. | receiving .. => False
  | _ => True

/-- The call waits for the socket. -/
def Pending (c : ActiveCall E) : Prop := (∃ size, c = sending size .pending) ∨ ∃ block, c = receiving block .pending

/-- What the call waited for was cancelled, and it has yet to be resumed. -/
def Cancelled (c : ActiveCall E) : Prop :=
  (∃ size, c = sending size (.completed (.error .operationAborted))) ∨
    ∃ block, c = receiving block (.completed (.error .operationAborted))

/-- The error that the call has returned. -/
def error : ActiveCall E → Option TAPSError
  | sent (.error e) | received (.error e) | closed (.error e) | aborted (.error e) => some e
  | _ => none

/-- The event of a failure that concerns the call alone. -/
def event : ActiveCall E → ErrorEvent
  | sending .. | sent _ => .sendError
  | receiving .. | received _ => .receiveError
  | closed _ | aborted _ => .connectionError

end ActiveCall

namespace ActiveUDP

variable {σ E : Type}

/-- An `abort()` has completed. -/
def Aborted (s : ActiveUDP σ E) : Prop := ∃ r, .aborted r ∈ s.calls

/-- Until a `close()` or an `abort()`, the connection is established and no call says otherwise, whatever has failed.
They cancel what the other calls wait for, and from then on each has returned, or returns when it is resumed. -/
structure EndsLocally (s : ActiveUDP σ E) : Prop where
  established : ¬ s.Closed → s.conn.state = .established ∧ s.socketOpen = true
  closed : s.Closed → s.conn.state = .closed ∧ s.socketOpen = false
  cancels : ∀ e s', s.step e = some s' → s'.Closed → ∀ (i : Nat) (c : ActiveCall E), s.calls[i]? = some c →
    c.Pending → c.cancel.Cancelled ∧ s'.calls[i]? = some c.cancel
  settled : s.Closed → ∀ (i : Nat) (c : ActiveCall E), s.calls[i]? = some c →
    c.Returned ∨ ∃ c' : ActiveCall E, c'.Returned ∧ s.step (.resume i) = some (s.set i c')
  failed : ∀ c ∈ s.calls, ∀ err, c.error = some err →
    err.event = .connectionError ∨ err.reason = .invalidState → s.Closed
  localAbort : ∀ c ∈ s.calls, ∀ err, c.error = some err → err.reason = .localAbort → s.Aborted

/-- What becomes of the calls. One that has returned stays as it is, and one that was cancelled returns that the
connection was closed or, once there was an `abort()`, that it was aborted. -/
structure Concludes (s s' : ActiveUDP σ E) : Prop where
  returned : ∀ (i : Nat) (c : ActiveCall E), s.calls[i]? = some c → c.Returned → s'.calls[i]? = some c
  cancelled : ∀ (i : Nat) (c : ActiveCall E), s.calls[i]? = some c → c.Cancelled →
    s'.calls[i]? = some c ∨ ∃ (c' : ActiveCall E) (aborted : Bool), s'.calls[i]? = some c' ∧
      c'.error = some (cancelled c.event aborted) ∧ (s.Aborted → aborted = true) ∧ (aborted = true → s'.Aborted)

end ActiveUDP

end Taps
