import Taps.Error
import Taps.Framer.Framer
import Taps.Transport.ConstBufferSequence

/-!
# `TCPConnection`

The state of a TCP connection and the stretches of its coroutines between two suspensions. A receive
runs from its call, or from the completion of a read, up to the next read or to its `co_return`; what
happens to the socket and to the memory in between is up to the runs that use these functions.
-/

namespace Taps

structure TCPConnection (σ : Type) where
  state : ConnectionState
  framer : Option (MessageFramer σ)
  framerState : σ
  blockPool : MessageBlockPool
  receiveChain : BlockChain
  receiveEof : Bool
  receiveEnded : Bool
  messageOpen : Bool
  aborted : Bool
  currentBlock : Option BlockRef

/-- The buffer of a read: `len` bytes of the block from `offset` on. -/
structure ReadBuffer where
  block : Addr
  offset : Nat
  len : Nat
  deriving DecidableEq, Repr

/-- How a stretch of a receive ends. `delivered` is the `co_return` of a record, after `discardBefore`
bytes were dropped, or of an unframed chunk; `ended` that of the end-of-stream Message; `incomplete`
that of the error for a stream that ends with `unparsed` bytes left or inside a Message; `failed` that
of any other error. -/
inductive Progress
  | suspended (buffer : ReadBuffer)
  | delivered (discardBefore : UInt64) (message : Message)
  | ended (message : Message)
  | incomplete (unparsed : Nat) (error : TAPSError)
  | failed (error : TAPSError)

def Progress.result : Progress → Option (Result Message)
  | .suspended _ => none
  | .delivered _ m => some (.ok m)
  | .ended m => some (.ok m)
  | .incomplete _ e => some (.error e)
  | .failed e => some (.error e)

namespace TCPConnection

variable {σ : Type}

/-- A connection as its constructors leave it: no byte received, no block checked out. -/
def create (state : ConnectionState) (framer : Option (MessageFramer σ)) (framerState : σ)
    (blockPool : MessageBlockPool) : TCPConnection σ :=
  { state, framer, framerState, blockPool, receiveChain := .nil, receiveEof := false
    receiveEnded := false, messageOpen := false, aborted := false, currentBlock := none }

def handles (c : TCPConnection σ) : List Addr :=
  c.receiveChain.handles ++ (c.currentBlock.map BlockRef.block).toList

/-! ## Sending -/

/-- `send()` up to its write: the buffers that it hands to the stream. -/
def sendBegin (mem : Memory) (c : TCPConnection σ) (message : Message) :
    TCPConnection σ × Result ConstBufferSequence :=
  if c.state ≠ .established then
    (c, .error ⟨.sendError, .invalidState, .text "Connection not established"⟩)
  else
    match c.framer with
    | none => (c, .ok (.ofMessage mem [] message))
    | some f =>
        let (header, framerState) := f.writeHeader c.framerState mem message
        ({ c with framerState }, .ok (.ofMessage mem header message))

/-- `send()` after its write. -/
def sendEnd (c : TCPConnection σ) (ec : Option ErrorCode) : TCPConnection σ × Result Unit :=
  match ec with
  | none => (c, .ok ())
  | some ec =>
      if ec = .operationAborted ∧ ¬ c.aborted then
        (c, .error ⟨.sendError, .invalidState, .text "Connection closed locally"⟩)
      else ({ c with state := .closed }, .error (ioError .connectionError ec))

/-! ## Receiving -/

def canReceive (c : TCPConnection σ) : Bool := c.state = .established && !c.receiveEnded

def receiveRefused (c : TCPConnection σ) : Option TAPSError :=
  if c.canReceive then none
  else some ⟨.receiveError, .invalidState, .text
    (if c.receiveEnded then "the stream has ended: no more Messages"
      else "Connection not established")⟩

/-- The first test of `receive_failure`: a read that `close()` cancelled. -/
def reclassify (c : TCPConnection σ) (error : TAPSError) : TAPSError :=
  if error.reason = .localAbort ∧ ¬ c.aborted then
    ⟨.receiveError, .invalidState, .text "Connection closed locally"⟩
  else error

def receiveFailure (c : TCPConnection σ) (error : TAPSError) : TCPConnection σ × TAPSError :=
  if (c.reclassify error).event = .connectionError then
    ({ c with state := .closed }, c.reclassify error)
  else if c.receiveEof then ({ c with receiveEnded := true }, c.reclassify error)
  else (c, c.reclassify error)

theorem receiveFailure_snd (c : TCPConnection σ) (e : TAPSError) : (c.receiveFailure e).2 = c.reclassify e := by
  unfold receiveFailure
  split
  · rfl
  · split <;> rfl

def reuseThreshold (c : TCPConnection σ) : Nat := c.blockPool.blockSize / 4

/-- The block `r` has too little room left for another read. -/
def spent (c : TCPConnection σ) (r : BlockRef) : Bool :=
  r.capacityAfterBegin c.blockPool.blockSize < c.reuseThreshold

/-- The block that `start_read` reads into: the current one unless it is invalid or spent, else a new
one. `outside` are the blocks that Messages have handles to, and `fresh` is where the resource
allocates. The counter of live blocks still counts the current block. -/
def readBlock (outside : List Addr) (fresh : Addr) (c : TCPConnection σ) : Option BlockRef :=
  match c.currentBlock with
  | some r =>
      if c.spent r then c.blockPool.acquire (liveBlocks (c.handles ++ outside)) fresh else some r
  | none => c.blockPool.acquire (liveBlocks (c.handles ++ outside)) fresh

/-- The buffer of a read into the block `r`. -/
def bufferOf (c : TCPConnection σ) (r : BlockRef) : ReadBuffer :=
  ⟨r.block, r.beginOffset, r.capacityAfterBegin c.blockPool.blockSize⟩

def startRead (outside : List Addr) (fresh : Addr) (c : TCPConnection σ) :
    TCPConnection σ × Result ReadBuffer :=
  ({ c with currentBlock := c.readBlock outside fresh },
    match c.readBlock outside fresh with
    | some r => .ok (c.bufferOf r)
    | none => .error
        ⟨.receiveError, .resourceExhausted, .text "receive block pool exhausted"⟩)

/-- `current_block_` once `n` bytes were read into it: repositioned, or reset when it is spent. -/
def advance (c : TCPConnection σ) (r : BlockRef) (n : Nat) : Option BlockRef :=
  let r := r.setRange (r.beginOffset + n) (r.beginOffset + n)
  if c.spent r then none else some r

/-- `finish_read` for a read that completed with `ec` or with `n` bytes: the window read, no window
at the end of the peer's stream, or an error. `none` is the use of an invalid `current_block_`. -/
def finishRead (c : TCPConnection σ) (ec : Option ErrorCode) (n : Nat) :
    Option (TCPConnection σ × Result (Option BlockRef)) :=
  match ec with
  | some .eof => some ({ c with receiveEof := true }, .ok none)
  | some ec =>
      if (readFailure ec).event = .receiveError then
        some ({ c with receiveEof := true }, .error (readFailure ec))
      else some (c, .error (readFailure ec))
  | none =>
      match c.currentBlock with
      | none => none
      | some r => some ({ c with currentBlock := c.advance r n },
          .ok (some (r.setRange r.beginOffset (r.beginOffset + n))))

/-- `co_return std::unexpected(receive_failure(error))`. -/
def fail (c : TCPConnection σ) (error : TAPSError) : TCPConnection σ × Progress :=
  ((c.receiveFailure error).1, .failed (c.receiveFailure error).2)

def emitError (pr : ParseResult) : TAPSError :=
  ⟨.receiveError, .deframingFailed, .text
    (if pr.consumed = 0 then "Message Framer emitted a record that consumes no data"
      else "Message Framer emitted a record beyond the received data")⟩

/-- The chain once the bytes before the record are dropped. -/
def afterDiscard (c : TCPConnection σ) (pr : ParseResult) : BlockChain :=
  if pr.discardBefore > 0 then c.receiveChain.consumeFront pr.discardBefore.toNat
  else c.receiveChain

/-- The Message of an accepted `Emit`: a slice of the chain, gathered if the framer asks for it. -/
def recordMessage (mem : Memory) (c : TCPConnection σ) (pr : ParseResult) : Message :=
  let m := Message.ofChain (some ((c.afterDiscard pr).first pr.deliver.toNat)) pr.endOfMessage
  if pr.gather then (m.asBytes mem).2 else m

/-- The `Emit` branch of `receive_framed`. -/
def emitRecord (mem : Memory) (c : TCPConnection σ) (pr : ParseResult) : TCPConnection σ × Progress :=
  if pr.consumed = 0 ∨ pr.consumed.toNat > c.receiveChain.size then c.fail (emitError pr)
  else
    ({ c with
        receiveChain := (c.afterDiscard pr).consumeFront pr.deliver.toNat
        messageOpen := !pr.endOfMessage },
      .delivered pr.discardBefore (c.recordMessage mem pr))

/-- The error for a stream that ends inside a Message or with bytes the framer cannot parse. -/
def incompleteError (c : TCPConnection σ) : TAPSError :=
  ⟨.receiveError, .deframingFailed, .text
    (if c.messageOpen then "stream ended before the end of the Message"
      else "stream ended with " ++ toString c.receiveChain.size ++
        " bytes the Message Framer could not parse")⟩

/-- The connection once the unparsed bytes of an ended stream are discarded. -/
def discardUnparsed (c : TCPConnection σ) : TCPConnection σ :=
  { c with receiveChain := c.receiveChain.consumeFront c.receiveChain.size, messageOpen := false }

/-- The `NeedMore` branch of `receive_framed` at the end of the peer's stream. -/
def endOfStream (c : TCPConnection σ) : TCPConnection σ × Progress :=
  if c.messageOpen ∨ c.receiveChain.size > 0 then
    ((c.discardUnparsed.receiveFailure c.incompleteError).1,
      .incomplete c.receiveChain.size (c.discardUnparsed.receiveFailure c.incompleteError).2)
  else ({ c with receiveEnded := true }, .ended (.ofChain (some .nil) true))

/-- `start_read()` and the suspension on the read, or the return of its error. -/
def issueRead (outside : List Addr) (fresh : Addr) (c : TCPConnection σ) :
    TCPConnection σ × Progress :=
  match c.startRead outside fresh with
  | (c, .ok buffer) => (c, .suspended buffer)
  | (c, .error e) => c.fail e

/-- One turn of the loop of `receive_framed` once `parse()` has returned `pr`. -/
def act (mem : Memory) (outside : List Addr) (fresh : Addr) (c : TCPConnection σ) (pr : ParseResult) :
    TCPConnection σ × Progress :=
  match pr.action with
  | .emit => c.emitRecord mem pr
  | .needMore => if c.receiveEof then c.endOfStream else c.issueRead outside fresh

/-- One turn of the loop of `receive_framed`, from `parse()` on. -/
def framedTurn (f : MessageFramer σ) (mem : Memory) (outside : List Addr) (fresh : Addr)
    (c : TCPConnection σ) : TCPConnection σ × Progress :=
  let (pr, framerState) := f.parse c.framerState ⟨mem, c.receiveChain⟩ c.receiveEof
  { c with framerState }.act mem outside fresh pr

/-- `receive()`, from its call to its first suspension. -/
def receive (mem : Memory) (outside : List Addr) (fresh : Addr) (c : TCPConnection σ) :
    TCPConnection σ × Progress :=
  match c.receiveRefused with
  | some e => (c, .failed e)
  | none =>
      match c.framer with
      | some f => c.framedTurn f mem outside fresh
      | none => c.issueRead outside fresh

/-- `receive_unframed` once its read has given a chunk. -/
def unframedChunk (c : TCPConnection σ) (chunk : Option BlockRef) : TCPConnection σ × Progress :=
  match chunk with
  | none => ({ c with receiveEnded := true }, .ended (.ofChain (some .nil) true))
  | some r => (c, .delivered 0 (.ofChain (some (BlockChain.nil.append r)) false))

/-- `receive_unframed` from the completion of its read on. -/
def resumeUnframed (c : TCPConnection σ) (ec : Option ErrorCode) (n : Nat) :
    Option (TCPConnection σ × Progress) :=
  (c.finishRead ec n).map fun
    | (c, .error e) => c.fail e
    | (c, .ok chunk) => c.unframedChunk chunk

/-- `receive_framed` once its read has given a chunk: the chunk is appended and the loop turns. -/
def framedChunk (f : MessageFramer σ) (mem : Memory) (outside : List Addr) (fresh : Addr)
    (c : TCPConnection σ) (chunk : Option BlockRef) : TCPConnection σ × Progress :=
  match chunk with
  | none => c.framedTurn f mem outside fresh
  | some r => { c with receiveChain := c.receiveChain.append r }.framedTurn f mem outside fresh

/-- `receive()` from the completion of its read on. -/
def resume (mem : Memory) (outside : List Addr) (fresh : Addr) (c : TCPConnection σ)
    (ec : Option ErrorCode) (n : Nat) : Option (TCPConnection σ × Progress) :=
  (c.finishRead ec n).map fun
    | (c, .error e) => c.fail e
    | (c, .ok chunk) =>
        match c.framer with
        | none => c.unframedChunk chunk
        | some f => c.framedChunk f mem outside fresh chunk

/-! ## Closing -/

/-- `close()` up to the cancellation of the pending operations; `none` where it returns at once. -/
def closeBegin (c : TCPConnection σ) : Option (TCPConnection σ) :=
  if c.state = .closed ∨ c.state = .closing then none else some { c with state := .closing }

def closeFailure (ec : ErrorCode) : TAPSError := ⟨.connectionError, .internalError, .code ec⟩

/-- `close()` once `stream_->shutdown()` has returned `sd` and `socket_.close()` has set `ec`. -/
def closeEnd (c : TCPConnection σ) (sd : Result Unit) (ec : Option ErrorCode) :
    TCPConnection σ × Result Unit :=
  ({ c with state := .closed },
    match sd, ec with
    | .error e, _ => .error e
    | .ok (), some ec => .error (closeFailure ec)
    | .ok (), none => .ok ())

/-- `abort()`, where `socket_.close()` sets `ec`. -/
def abort (c : TCPConnection σ) (ec : Option ErrorCode) : TCPConnection σ × Result Unit :=
  ({ c with aborted := true, state := .closed },
    match ec with
    | some ec => .error (closeFailure ec)
    | none => .ok ())

/-! ## What the results say of an `Emit` -/

/-- How a turn of the loop that finds the chain has to end: sizes that are out of its range are refused and
nothing is consumed, and others deliver exactly these bytes of it and leave exactly the rest. -/
def TakesEmit (mem : Memory) (chain : BlockChain) (pr : ParseResult) (c' : TCPConnection σ)
    (p : Progress) : Prop :=
  if pr.total = 0 ∨ chain.size < pr.total then
    c'.receiveChain = chain ∧
      ∃ err, p = .failed err ∧ err.event = .receiveError ∧ err.reason = .deframingFailed
  else
    c'.receiveChain.bytes mem = (chain.bytes mem).drop pr.total ∧
      ∃ m, p = .delivered pr.discardBefore m ∧
        m.payload mem = ((chain.bytes mem).drop pr.discardBefore.toNat).take pr.deliver.toNat

end TCPConnection

end Taps
