/-!
# Errors and states

The state of a connection, and the errors of its operations: an error is an event and a reason. The
codes are those of the I/O operations that the library tells apart; every other one is `other`.
-/

namespace Taps

inductive ConnectionState
  | establishing
  | established
  | closing
  | closed
  deriving DecidableEq, Repr

inductive ErrorEvent
  | establishmentError
  | sendError
  | receiveError
  | connectionError
  deriving DecidableEq, Repr

inductive ErrorReason
  | invalidConfiguration
  | noCandidates
  | resolutionFailed
  | establishmentFailed
  | policyProhibited
  | messageTooLarge
  | protocolFailed
  | deframingFailed
  | connectionAborted
  | timeout
  | localAbort
  | localEndpointUnavailable
  | invalidState
  | resourceExhausted
  | idleTimeout
  | internalError
  deriving DecidableEq, Repr

/-- What a failed I/O operation completes with. `streamTruncated` and `applicationDataAfterCloseNotify` come
from a TLS stream only, so only where the library is built with TLS. -/
inductive ErrorCode
  | eof
  | operationAborted
  | streamTruncated
  | applicationDataAfterCloseNotify
  | connectionReset
  | connectionAborted
  | brokenPipe
  | timedOut
  | messageSize
  | addressInUse
  | accessDenied
  | noDescriptors
  | noBufferSpace
  | noMemory
  | badDescriptor
  | other (value : Nat)
  deriving DecidableEq, Repr

/-- The message of an error: a text of the library, or `ec.message()`, or the one and then the other. -/
inductive ErrorText
  | text (s : String)
  | code (ec : ErrorCode)
  | textCode (s : String) (ec : ErrorCode)
  deriving DecidableEq, Repr

/-- A text of the library in front of a message. -/
def ErrorText.prepend (s : String) : ErrorText → ErrorText
  | .text t => .text (s ++ t)
  | .code ec => .textCode s ec
  | .textCode t ec => .textCode (s ++ t) ec

structure TAPSError where
  event : ErrorEvent
  reason : ErrorReason
  message : ErrorText
  deriving DecidableEq, Repr

abbrev Result (α : Type) := Except TAPSError α

def reasonFrom : ErrorCode → ErrorReason
  | .connectionReset | .connectionAborted | .brokenPipe => .connectionAborted
  | .timedOut => .timeout
  | .operationAborted => .localAbort
  | .messageSize => .messageTooLarge
  | .addressInUse => .localEndpointUnavailable
  | .accessDenied => .policyProhibited
  | .noDescriptors | .noBufferSpace | .noMemory => .resourceExhausted
  | _ => .protocolFailed

def ioError (event : ErrorEvent) (ec : ErrorCode) : TAPSError := ⟨event, reasonFrom ec, .code ec⟩

def readFailure : ErrorCode → TAPSError
  | .streamTruncated => ⟨.receiveError, .protocolFailed,
      .text "TLS stream truncated: peer closed without close_notify"⟩
  | ec => ioError .connectionError ec

end Taps
