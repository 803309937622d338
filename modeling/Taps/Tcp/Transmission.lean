import Taps.Tcp.Session

/-!
# From one end of a connection to the other

A connection that sends Messages as length-prefixed records, the bytes that the network carries, and the
connection at the other end. The sender has one `send()` in flight at a time; the network takes as many of its
bytes as it likes, whenever it likes, and any write or read may fail.
-/

namespace Taps

/-- `sending` is what the write in flight has yet to hand to the network, and `written` what the network has been
handed. `sent` are the Messages whose `send()` has reached its write, and `failed` is whether one of these has
failed. `finished` is whether the sender has ended its side. -/
structure Transmission where
  mem : Memory
  sender : TCPConnection Unit
  sending : Option (List Byte)
  sent : List Message
  failed : Bool
  written : List Byte
  finished : Bool
  receiver : Session Unit

/-- `lost` is a receive of the sender that fails for an error of the connection. -/
inductive TransmissionEvent
  | send (message : Message)
  | write (n : Nat)
  | sendDone
  | sendFailed (ec : ErrorCode)
  | close
  | abort
  | lost
  | finish
  | receiver (e : SessionEvent Unit)

namespace Transmission

/-- What a read of the receiver may bring: bytes that are on their way, in order, and the end of the stream behind
the last of them. The framer is set before. -/
def carries (t : Transmission) : SessionEvent Unit → Bool
  | .readDone (.data bs) _ => t.receiver.history.read ++ bs <+: t.written
  | .readDone (.failed .eof) _ => t.finished && t.receiver.history.read = t.written
  | .setFramer _ _ => false
  | _ => true

/-- One step; `none` where the event cannot happen. A write is cancelled only by `close()` and `abort()`, and once the
sender has ended its side the network takes nothing more from it. -/
def step (t : Transmission) : TransmissionEvent → Option Transmission
  | .send m =>
      if t.sending = none then
        match t.sender.sendBegin t.mem m with
        | (c, .ok buffers) =>
            some { t with sender := c, sending := some (buffers.buffers t.mem).flatten, sent := t.sent ++ [m] }
        | (c, .error _) => some { t with sender := c }
      else none
  | .write n =>
      match t.sending with
      | some bs =>
          if n ≤ bs.length ∧ t.finished = false then
            some { t with sending := some (bs.drop n), written := t.written ++ bs.take n }
          else none
      | none => none
  | .sendDone =>
      if t.sending = some [] then some { t with sender := (t.sender.sendEnd none).1, sending := none } else none
  | .sendFailed ec =>
      if t.sending ≠ none ∧ (ec = .operationAborted → t.sender.state ≠ .established) then
        some { t with sender := (t.sender.sendEnd (some ec)).1, sending := none, failed := true }
      else none
  | .close => t.sender.closeBegin.map fun c => { t with sender := c }
  | .abort => some { t with sender := (t.sender.abort none).1 }
  | .lost => some { t with sender := { t.sender with state := .closed } }
  | .finish => if t.sender.state ≠ .established then some { t with finished := true } else none
  | .receiver e => if t.carries e then (t.receiver.step e).map fun r => { t with receiver := r } else none

/-- Two established connections with the same framer, on hosts of any byte order, and nothing sent yet. -/
def create (native native' : Endian) (f : LengthPrefixedFramer) (mem mem' : Memory) (pool pool' : MessageBlockPool) :
    Transmission :=
  { mem
    sender := .create .established (some (f.toFramer native)) () pool
    sending := none
    sent := []
    failed := false
    written := []
    finished := false
    receiver := .create mem' (.create .established (some (f.toFramer native')) () pool') }

def system (native native' : Endian) (f : LengthPrefixedFramer) : Lib.System Transmission TransmissionEvent where
  init t := ∃ mem mem' pool pool', t = create native native' f mem mem' pool pool'
  step t e t' := t.step e = some t'

/-! ## What the results say of a state -/

/-- The results of the receives are whole Messages, in the order in which they were sent; then, at the end of the
stream, the Message that ends it, or what arrived of the next one and an error. -/
inductive Delivers : List (List Byte) → List Reply → Prop
  | nothing (payloads) : Delivers payloads []
  | ended (payloads) : Delivers payloads [.message [] true]
  | broken (p payloads) : Delivers (p :: payloads) [.error .receiveError .deframingFailed]
  | part {p part : List Byte} (payloads) (h : part <+: p) (hne : part ≠ p) :
      Delivers (p :: payloads) [.message part false]
  | cut {p part : List Byte} (payloads) (h : part <+: p) (hne : part ≠ p) :
      Delivers (p :: payloads) [.message part false, .error .receiveError .deframingFailed]
  | next (p) {payloads replies} (h : Delivers payloads replies) : Delivers (p :: payloads) (.message p true :: replies)

/-- The payloads of the Messages sent, in order. -/
def payloads (t : Transmission) : List (List Byte) := t.sent.map (Message.payload t.mem)

end Transmission

end Taps
