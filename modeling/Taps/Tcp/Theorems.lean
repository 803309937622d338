import Taps.Tcp.Lemmas.Modes
import Taps.Tcp.Lemmas.Overlap
import Taps.Tcp.Lemmas.Records
import Taps.Tcp.Lemmas.Transfer

/-!
# Receiving on one TCP connection

First what the receives return for a stream of length-prefixed records, however it is cut. Then the
results for any framer, any reads, any block pool and any choice of the Messages that the application
keeps. At most one receive is in flight.
-/

namespace Taps

namespace Transfer

variable {native : Endian} {f : LengthPrefixedFramer} {pool : MessageBlockPool}

/-- The start of a transfer to a framed connection. -/
def createFramed (native : Endian) (f : LengthPrefixedFramer) (pool : MessageBlockPool) (mem : Memory)
    (chunks : List (List Byte)) : Transfer Unit :=
  create mem (.create .established (some (f.toFramer native)) () pool) chunks

theorem createFramed_ready (native : Endian) (f : LengthPrefixedFramer) (mem : Memory)
    (chunks : List (List Byte)) (hlarge : 4 ≤ pool.blockSize) (huncapped : pool.maxLiveBlocks = 0) :
    (createFramed native f pool mem chunks).session.Ready native f [] false false false :=
  { inv := Session.create_inv ..
    conn :=
      { state := rfl, framer := rfl, uncapped := huncapped, large := hlarge, bytes := rfl, eof := rfl
        messageOpen := rfl, ended := rfl } }

/-- As long as no size wraps, the receives return what the scan of the stream says. -/
theorem results_createFramed (env : Environment) (mem : Memory) {chunks : List (List Byte)}
    (hlarge : 4 ≤ pool.blockSize) (huncapped : pool.maxLiveBlocks = 0) (hchunks : ∀ c ∈ chunks, c ≠ [])
    (hfits : ∀ l ∈ f.scanLengths chunks.flatten, f.lengthFieldSize + l < 2 ^ 64) (n : Nat) :
    results env n (createFramed native f pool mem chunks)
      = some (expected (f.scan chunks.flatten) n) := by
  have hready := createFramed_ready native f mem chunks hlarge huncapped
  exact results_expects env n ⟨rfl, hchunks⟩ (.within hready (by decide) hfits)

/-! ## Round trip -/

/-- What the successive sends write, the successive receives of the peer return, however the stream is
cut: the payloads in order, each with its end of Message, then the end of the stream. -/
theorem framed_round_trip {sender : TCPConnection Unit} (hstate : sender.state = .established)
    (hframer : sender.framer = some (f.toFramer native)) (senderMem : Memory) {messages : List Message}
    (hmessages : ∀ m ∈ messages,
      m.size < 256 ^ f.lengthFieldSize ∧ f.lengthFieldSize + m.size < 2 ^ 64) :
    ∃ wire, sender.sendAll senderMem messages = some wire ∧
      ∀ (native' : Endian) (pool : MessageBlockPool) (env : Environment) (mem : Memory)
        (chunks : List (List Byte)),
        4 ≤ pool.blockSize → pool.maxLiveBlocks = 0 → chunks.flatten = wire →
        (∀ c ∈ chunks, c ≠ []) →
        results env (messages.length + 1) (createFramed native' f pool mem chunks)
          = some (messages.map (fun m => (.message (m.payload senderMem) true, true))
            ++ [(.message [] true, false)]) := by
  refine ⟨_, TCPConnection.sendAll_eq hstate hframer hmessages, ?_⟩
  intro native' pool env mem chunks hlarge huncapped hwire hchunks
  have hfits : ∀ l ∈ f.scanLengths chunks.flatten, f.lengthFieldSize + l < 2 ^ 64 := by
    rw [hwire, LengthPrefixedFramer.scanLengths_records hmessages, List.forall_mem_map]
    exact fun m hm => (hmessages m hm).2
  have hlast := expected_append_last
    (messages.map fun m => Reply.message (m.payload senderMem) true) (.message [] true)
  rw [List.length_map, List.map_map] at hlast
  rw [results_createFramed env mem hlarge huncapped hchunks hfits, hwire,
    LengthPrefixedFramer.scan_records hmessages, hlast]
  rfl

/-- A vector and an empty view, with a header of two bytes, in reads that cut both. -/
theorem framed_round_trip_two :
    let f : LengthPrefixedFramer := .create 2 .big
    let sender : TCPConnection Unit :=
      .create .established (some (f.toFramer .little)) () ⟨8, 0, by decide⟩
    sender.sendAll (fun _ _ => 0) [.ofVector [1, 2, 3], .ofSpan []] = some [0, 3, 1, 2, 3, 0, 0] ∧
    results .above 3
        (createFramed .little f ⟨4, 0, by decide⟩ (fun _ _ => 0) [[0], [3, 1], [2, 3, 0, 0]])
      = some [(.message [1, 2, 3] true, true), (.message [] true, true), (.message [] true, false)] := by
  intro f sender
  have hmessages : ∀ m ∈ [Message.ofVector [1, 2, 3], .ofSpan []],
      m.size < 256 ^ f.lengthFieldSize ∧ f.lengthFieldSize + m.size < 2 ^ 64 := by
    decide
  obtain ⟨wire, hwire, hresults⟩ :=
    framed_round_trip (show sender.state = .established from rfl) rfl (fun _ _ => 0) hmessages
  have hbytes : sender.sendAll (fun _ _ => 0) [.ofVector [1, 2, 3], .ofSpan []]
      = some [0, 3, 1, 2, 3, 0, 0] := by
    decide
  refine ⟨hbytes, ?_⟩
  have heq := hwire.symm.trans hbytes
  cases heq
  exact hresults .little _ .above _ _ (by decide) rfl rfl (by decide)

/-! ## Every stream -/

/-- The results are those of the scan for exactly the streams on which no size wraps: for every header
that the scan reads, the width and the length have their sum in `std::size_t`. -/
theorem framed_results_iff (native : Endian) (f : LengthPrefixedFramer) (env : Environment)
    (mem : Memory) {chunks : List (List Byte)} (hlarge : 4 ≤ pool.blockSize)
    (huncapped : pool.maxLiveBlocks = 0) (hchunks : ∀ c ∈ chunks, c ≠ []) :
    (∀ n, (results env n (createFramed native f pool mem chunks)).map (List.map Prod.fst)
        = some ((expected (f.scan chunks.flatten) n).map Prod.fst)) ↔
      ∀ l ∈ f.scanLengths chunks.flatten, f.lengthFieldSize + l < 2 ^ 64 := by
  constructor
  · intro h
    have hready := createFramed_ready native f mem chunks hlarge huncapped
    exact fits_of_results env ⟨rfl, hchunks⟩ hready (by decide) h
  · intro hfits n
    rw [results_createFramed env mem hlarge huncapped hchunks hfits]
    rfl

/-- A header of eight bytes that announces `2 ^ 64 - 1` bytes, of which three follow. -/
def wrapChunks : List (List Byte) := [[255, 255, 255, 255, 255, 255, 255, 255, 1, 2, 3]]

/-- The three bytes are returned as a complete Message. -/
theorem framed_results_wrap :
    let f : LengthPrefixedFramer := .create 8 .big
    ¬ ∀ n, (results .above n
          (createFramed .little f ⟨16, 0, by decide⟩ (fun _ _ => 0) wrapChunks)).map (List.map Prod.fst)
        = some ((expected (f.scan wrapChunks.flatten) n).map Prod.fst) := by
  intro f h
  have hresults : (results .above 1
      (createFramed .little f ⟨16, 0, by decide⟩ (fun _ _ => 0) wrapChunks)).map (List.map Prod.fst)
      = some [.message [1, 2, 3] true] := by
    decide
  have hscan : f.scan wrapChunks.flatten
      = [.message [1, 2, 3] false, .error .receiveError .deframingFailed] := by
    rw [LengthPrefixedFramer.scan]
    decide
  have hfirst := h 1
  rw [hresults, hscan] at hfirst
  exact absurd hfirst (by decide)

theorem framed_results_iff_byte :
    let f : LengthPrefixedFramer := .create 1 .big
    (∀ n, (results .above n
          (createFramed .little f ⟨4, 0, by decide⟩ (fun _ _ => 0) [[2, 7], [8]])).map
          (List.map Prod.fst)
        = some ((expected (f.scan [2, 7, 8]) n).map Prod.fst)) ↔
      ∀ l ∈ f.scanLengths [2, 7, 8], f.lengthFieldSize + l < 2 ^ 64 := by
  intro f
  exact framed_results_iff .little f .above (fun _ _ => 0) (by decide) rfl (by decide)

end Transfer

namespace TCPConnection

variable {σ : Type}

/-! ## Records in the range of the chain -/

/-- A turn of the loop takes an `Emit` of any framer for what it says if and only if the sum of its two
sizes is at most `2 ^ 64`, or is still larger than the chain without that. -/
theorem takes_emit_iff (f : MessageFramer σ) (mem : Memory) (outside : List Addr) (fresh : Addr)
    {c : TCPConnection σ} (hsize : c.receiveChain.size < 2 ^ 64) {pr : ParseResult}
    (hpr : (f.parse c.framerState ⟨mem, c.receiveChain⟩ c.receiveEof).1 = pr) (hemit : pr.action = .emit) :
    TakesEmit mem c.receiveChain pr (c.framedTurn f mem outside fresh).1
        (c.framedTurn f mem outside fresh).2 ↔
      pr.total ≤ 2 ^ 64 ∨ 2 ^ 64 + c.receiveChain.size < pr.total := by
  obtain ⟨framerState, hparse⟩ : ∃ framerState,
      f.parse c.framerState ⟨mem, c.receiveChain⟩ c.receiveEof = (pr, framerState) := ⟨_, Prod.ext hpr rfl⟩
  have hturn : c.framedTurn f mem outside fresh = { c with framerState }.emitRecord mem pr := by
    simp only [framedTurn, hparse, act, hemit]
  rw [hturn]
  exact emitRecord_takesEmit mem { c with framerState } pr hsize

/-- A framer that emits records of these sizes whatever was received. -/
def constantFramer (discardBefore deliver : UInt64) : MessageFramer Unit where
  parse _ _ _ := (.emit deliver true discardBefore, ())
  writeHeader _ _ _ := ([], ())

def threeWindow : BlockRef := ⟨1, 0, 3, by decide⟩

/-- A connection with three bytes to parse. -/
def threeBytes (f : MessageFramer Unit) : TCPConnection Unit :=
  { create .established (some f) () smallPool with
    receiveChain := BlockChain.nil.append threeWindow }

theorem takes_emit_iff_three :
    let c := threeBytes (constantFramer 1 2)
    TakesEmit (fun _ i => UInt8.ofNat i) c.receiveChain (.emit 2 true 1)
      (c.framedTurn (constantFramer 1 2) (fun _ i => UInt8.ofNat i) [] 2).1
      (c.framedTurn (constantFramer 1 2) (fun _ i => UInt8.ofNat i) [] 2).2 := by
  intro c
  exact (takes_emit_iff (c := c) (constantFramer 1 2) (fun _ i => UInt8.ofNat i) [] 2 (by decide) rfl
    rfl).mpr (.inl (by decide))

/-- Two bytes are to be dropped and `2 ^ 64 - 1` to be delivered; the third byte is delivered. -/
theorem takes_emit_wrap : ¬ ∀ (f : MessageFramer Unit) (mem : Memory) (c : TCPConnection Unit)
    (pr : ParseResult), c.receiveChain.size < 2 ^ 64 →
    (f.parse c.framerState ⟨mem, c.receiveChain⟩ c.receiveEof).1 = pr → pr.action = .emit →
    TakesEmit mem c.receiveChain pr (c.framedTurn f mem [] 2).1 (c.framedTurn f mem [] 2).2 := by
  intro h
  have htake := h (constantFramer 2 (0xFFFFFFFFFFFFFFFF)) (fun _ i => UInt8.ofNat i)
    (threeBytes (constantFramer 2 (0xFFFFFFFFFFFFFFFF))) _ (by decide) rfl rfl
  rw [TakesEmit, if_pos (by decide)] at htake
  obtain ⟨-, err, herr, -⟩ := htake
  cases herr

end TCPConnection

namespace Session

variable {σ : Type} {s : Session σ}

/-! ## No byte of the stream is lost -/

theorem reachable_accounting (h : (fixedFramer σ).Reachable s) : Inv s ∧ Accounting s := by
  refine h.invariant (I := fun s => Inv s ∧ Accounting s) ?_ ?_
  · rintro _ ⟨mem, state, framer, framerState, pool, rfl⟩
    exact ⟨create_inv .., create_accounting ..⟩
  · rintro s e s' ⟨hi, ha⟩ ⟨hst, he⟩
    exact ⟨step_inv hi hst, step_accounting hi ha hst he⟩

/-- The bytes read are those of the accepted records and chunks, each with the bytes dropped before it,
then the ones discarded at the end of the stream, then the unparsed ones. A step that returns no Message
accepts nothing and keeps the chain, except that the `DEFRAMING_FAILED` after which no receive reads any
more discards it. -/
theorem stream_accounted_for (h : (fixedFramer σ).Reachable s) :
    s.history.read = s.history.acceptedBytes ++ s.history.discarded ++ s.unparsed ∧
    s.history.deliveredBytes = s.history.accepted.flatMap Prod.snd ∧
    ∀ e s', (fixedFramer σ).step s e s' →
      (∀ bs eom, s'.history.replies ≠ s.history.replies ++ [.message bs eom]) →
      s'.history.accepted = s.history.accepted ∧
        (s'.unparsed = s.unparsed ++ e.received ∧ s'.history.discarded = s.history.discarded ∨
          s'.unparsed = [] ∧
          s'.history.discarded = s.history.discarded ++ (s.unparsed ++ e.received) ∧
          s'.history.replies = s.history.replies ++ [.error .receiveError .deframingFailed] ∧
          s'.conn.receiveEnded = true) := by
  obtain ⟨hi, ha⟩ := reachable_accounting h
  refine ⟨ha.bytes, ha.delivered, ?_⟩
  rintro e s' ⟨hst, he⟩ hno
  exact step_of_no_message hi ha hst he hno

/-- A pool of one block that is used up: a chunk that the application keeps, then a refused receive. -/
def cappedStart : Session Unit :=
  create (fun _ _ => 0) (.create .established none () { tinyPool with maxLiveBlocks := 1 })

def cappedEvents : List (SessionEvent Unit) :=
  [.receive ⟨1, fun _ => 0⟩, .readDone (.data [1, 2, 3, 4, 5, 6, 7]) ⟨2, fun _ => 0⟩,
    .receive ⟨2, fun _ => 0⟩]

theorem stream_accounted_for_capped : ∃ s, cappedEvents.foldlM step cappedStart = some s ∧
    s.history.replies
      = [.message [1, 2, 3, 4, 5, 6, 7] false, .error .receiveError .resourceExhausted] ∧
    s.history.read = s.history.acceptedBytes ++ s.history.discarded ++ s.unparsed := by
  have hsome : (cappedEvents.foldlM step cappedStart).isSome := rfl
  obtain ⟨s, hs⟩ := Option.isSome_iff_exists.mp hsome
  have hsteps : ∀ e ∈ cappedEvents, ∀ s s', step s e = some s' → (fixedFramer Unit).step s e s' := by
    simp only [cappedEvents, List.forall_mem_cons]
    exact ⟨fun _ _ h => ⟨h, trivial⟩, fun _ _ h => ⟨h, trivial⟩, fun _ _ h => ⟨h, trivial⟩, by simp⟩
  have hr : (fixedFramer Unit).Reachable s :=
    ⟨cappedStart, cappedEvents, ⟨_, _, _, _, _, rfl⟩, .of_foldlM hsteps hs⟩
  refine ⟨s, hs, ?_, (stream_accounted_for hr).1⟩
  cases hs
  rfl

/-! ## Received bytes stay as they are -/

/-- A byte keeps its value over a run in which it stays held. -/
theorem run_mem {s' : Session σ} {es : List (SessionEvent σ)} {blk : Addr} {off : Nat} (hi : Inv s)
    (hheld : s.Held blk off)
    (hrun : ((system σ).restrict fun _ _ s' => s'.Held blk off).Run s es s') :
    s'.mem blk off = s.mem blk off := by
  refine hrun.relates (I := fun s => Inv s ∧ s.Held blk off)
    (R := fun a b => b.mem blk off = a.mem blk off) ?_ (fun _ => rfl)
    (fun _ _ _ hab hbc => hbc.trans hab) ?_ ⟨hi, hheld⟩
  · rintro s e s' ⟨hi, _⟩ ⟨hst, hheld⟩
    exact ⟨step_inv hi hst, hheld⟩
  · rintro s e s' ⟨hi, hheld⟩ ⟨hst, _⟩
    exact step_mem hi hst hheld

/-- The buffer of a read in flight is the rest of its block, and every byte of that block that is held
lies before it. A byte keeps its value for as long as it is held. -/
theorem received_bytes_unchanged (h : (system σ).Reachable s) :
    (∀ b, s.pending = some b → b.offset + b.len = s.conn.blockPool.blockSize ∧
      ∀ off, s.Held b.block off → off < b.offset) ∧
    ∀ blk off, s.Held blk off → ∀ es s',
      ((system σ).restrict fun _ _ s' => s'.Held blk off).Run s es s' →
      s'.mem blk off = s.mem blk off := by
  have hi := reachable_inv h
  constructor
  · intro b hb
    obtain ⟨r, hr, rfl⟩ := hi.pending b hb
    obtain ⟨hbegin, hfree⟩ := hi.free r hr
    refine ⟨?_, hfree⟩
    rw [TCPConnection.capacity_bufferOf hi.free hr]
    exact Nat.add_sub_cancel' hbegin
  · intro blk off hheld es s' hrun
    exact run_mem hi hheld hrun

/-- A read into the block of a chunk that the application keeps. -/
def sharedStart : Session Unit :=
  create (fun _ _ => 0) (.create .established none () tinyPool)

def sharedEvents : List (SessionEvent Unit) :=
  [.receive ⟨1, fun _ => 0⟩, .readDone (.data [1, 2, 3]) ⟨2, fun _ => 0⟩,
    .receive ⟨2, fun _ => 0⟩]

theorem received_bytes_unchanged_shared : ∃ s, sharedEvents.foldlM step sharedStart = some s ∧
    s.pending = some ⟨1, 3, 5⟩ ∧ s.Held 1 2 ∧ ∀ off, s.Held 1 off → off < 3 := by
  have hsome : (sharedEvents.foldlM step sharedStart).isSome := rfl
  obtain ⟨s, hs⟩ := Option.isSome_iff_exists.mp hsome
  have hr : (system Unit).Reachable s :=
    ⟨sharedStart, sharedEvents, ⟨_, _, _, _, _, rfl⟩, .of_foldlM (fun _ _ _ _ hst => hst) hs⟩
  have hp : s.pending = some ⟨1, 3, 5⟩ := by
    cases hs
    rfl
  refine ⟨s, hs, hp, ?_, ((received_bytes_unchanged hr).1 _ hp).2⟩
  cases hs
  exact Or.inr ⟨_, List.mem_singleton.mpr rfl, _, rfl, _, List.mem_singleton.mpr rfl, rfl,
    by decide, by decide⟩

/-- A Message that the application keeps has the payload it was delivered with. -/
theorem kept_payload (h : (system σ).Reachable s) {m : Message} {c : BlockChain}
    (hc : m.chain = some c) {es : List (SessionEvent σ)} {s' : Session σ}
    (hm : m ∈ s.kept) (hrun : ((system σ).restrict fun _ _ s' => m ∈ s'.kept).Run s es s') :
    m.payload s'.mem = m.payload s.mem := by
  rw [Message.payload_of_chain hc, Message.payload_of_chain hc]
  refine BlockChain.bytes_congr fun blk off hcov => ?_
  have hheld : ((system σ).restrict fun _ _ s' => s'.Held blk off).Run s es s' := by
    apply hrun.mono
    rintro s e s' ⟨hst, hm⟩
    exact ⟨hst, Or.inr ⟨m, hm, c, hc, hcov⟩⟩
  exact run_mem (reachable_inv h) (Or.inr ⟨m, hm, c, hc, hcov⟩) hheld

/-! ## Changes of the receive mode -/

/-- In the runs in which a read without a framer completes only where nothing is left unparsed: every byte read is
accepted, discarded at the end of the stream, or unparsed; a step takes what it takes from the first byte that none
took before; and the Message that ends the stream leaves none. -/
theorem mode_changes_lose_nothing (h : ((system σ).restrict fun s e _ => Heeds s e).Reachable s) :
    s.history.read = s.history.acceptedBytes ++ s.history.discarded ++ s.unparsed ∧
    (s.history.discarded ≠ [] → s.conn.receiveEnded = true) ∧
    ∀ e s', s.step e = some s' → Heeds s e →
      (∃ bs, s.unparsed ++ e.received = bs ++ s'.unparsed ∧
        s'.history.acceptedBytes ++ s'.history.discarded = s.history.acceptedBytes ++ s.history.discarded ++ bs) ∧
      ∀ bs eom, s'.history.replies = s.history.replies ++ [.message bs eom] → s'.conn.receiveEnded = true →
        s'.unparsed = [] := by
  obtain ⟨hi, hb⟩ := reachable_balanced h
  refine ⟨hb.bytes, hb.ended, ?_⟩
  intro e s' hst hheeds
  obtain ⟨-, hadvances⟩ := step_advances hi hb hst hheeds
  exact ⟨hadvances.taken, hadvances.last⟩

/-- Records with one byte of length, at first. -/
def upgradeStart : Session Unit :=
  create (fun _ _ => 0)
    (.create .established (some ((LengthPrefixedFramer.create 1 .big).toFramer .little)) () smallPool)

/-- The framer is removed after the first record, of which the read brings `bs`. -/
def upgradeEvents (bs : List Byte) : List (SessionEvent Unit) :=
  [.receive ⟨1, fun _ => 0⟩, .readDone (.data bs) ⟨2, fun _ => 0⟩, .setFramer none (), .receive ⟨2, fun _ => 0⟩,
    .readDone (.data [5]) ⟨2, fun _ => 0⟩]

theorem mode_changes_lose_nothing_upgraded : ∃ s, (upgradeEvents [1, 7]).foldlM step upgradeStart = some s ∧
    s.history.replies = [.message [7] true, .message [5] false] ∧
    s.history.read = s.history.acceptedBytes ++ s.history.discarded ++ s.unparsed := by
  refine ⟨_, rfl, rfl, (mode_changes_lose_nothing ⟨upgradeStart, upgradeEvents [1, 7], ⟨_, _, _, _, _, rfl⟩, ?_⟩).1⟩
  exact .step ⟨rfl, trivial⟩ (.step ⟨rfl, nofun⟩ (.step ⟨rfl, trivial⟩ (.step ⟨rfl, trivial⟩
    (.step ⟨rfl, fun _ _ => rfl⟩ .refl))))

/-- The byte 9 behind the first record is left behind by the receives after the framer is removed, and it is still
there when the stream ends. -/
theorem framer_removal_skips_byte :
    ∃ s : Session Unit, List.foldlM step upgradeStart
      (upgradeEvents [1, 7, 9] ++ [.receive ⟨2, fun _ => 0⟩, .readDone (.failed .eof) ⟨2, fun _ => 0⟩]) = some s ∧
    s.history.read = [1, 7, 9, 5] ∧
    s.history.replies = [.message [7] true, .message [5] false, .message [] true] ∧
    s.unparsed = [9] ∧ s.history.read ≠ s.history.acceptedBytes ++ s.history.discarded ++ s.unparsed := by
  refine ⟨_, rfl, rfl, rfl, rfl, ?_⟩
  decide

end Session

namespace Overlap

/-! ## Overlapping receives -/

/-- In the runs in which every read that succeeds does so in turn, the Messages are the stream. -/
theorem overlapping_receives_intact {s : Overlap}
    (h : (system.restrict fun s e _ => InTurn s e).Reachable s) : Intact s := by
  have hi : Inv s := by
    refine h.invariant (I := Inv) ?_ ?_
    · rintro _ ⟨mem, state, pool, rfl⟩
      exact create_inv ..
    · rintro s e s' hi ⟨hst, hturn⟩
      exact step_inv hi hst hturn
  exact hi.intact

def overlapStart : Overlap := create (fun _ _ => 0) .established tinyPool

/-- Two receives are pending; the second gets the end of the stream, and is resumed first. -/
theorem overlapping_receives_intact_end : ∃ s,
    (system.restrict fun s e _ => InTurn s e).Run overlapStart
      [.start ⟨1, fun _ => 0⟩, .start ⟨2, fun _ => 0⟩, .complete (.data [1, 2]),
        .complete (.failed .eof), .resume 1, .resume 0] s ∧
    s.completions.map Completion.reply = [some (.message [1, 2] false), some (.message [] true)] ∧
    Intact s := by
  obtain ⟨s, hrun, hreplies⟩ : ∃ s, (system.restrict fun s e _ => InTurn s e).Run overlapStart
      [.start ⟨1, fun _ => 0⟩, .start ⟨2, fun _ => 0⟩, .complete (.data [1, 2]),
        .complete (.failed .eof), .resume 1, .resume 0] s ∧
      s.completions.map Completion.reply
        = [some (.message [1, 2] false), some (.message [] true)] := by
    refine ⟨_, .step ⟨rfl, trivial⟩ (.step ⟨rfl, trivial⟩ (.step ⟨rfl, ⟨_, rfl, rfl⟩, ?_⟩
      (.step ⟨rfl, trivial⟩ (.step ⟨rfl, trivial⟩ (.step ⟨rfl, trivial⟩ .refl))))), ?_⟩
    · intro c hc
      cases hc
    · rfl
  exact ⟨s, hrun, hreplies, overlapping_receives_intact ⟨overlapStart, _, ⟨_, _, _, rfl⟩, hrun⟩⟩

/-- Two receives whose reads are both in flight: both read into the same window. -/
def overlapEvents : List OverlapEvent :=
  [.start ⟨1, fun _ => 0⟩, .start ⟨2, fun _ => 0⟩, .complete (.data [1, 2]),
    .complete (.data [3, 4]), .resume 0, .resume 1]

/-- The second read overwrites the bytes of the first, and the second Message is bytes that were never
received. -/
theorem overlapping_receives_clobbered : ¬ ∀ s, system.Reachable s → Intact s := by
  intro h
  have hsome : (overlapEvents.foldlM step overlapStart).isSome := rfl
  obtain ⟨s, hs⟩ := Option.isSome_iff_exists.mp hsome
  have hr : system.Reachable s :=
    ⟨overlapStart, overlapEvents, ⟨_, _, _, rfl⟩, .of_foldlM (fun _ _ _ _ hst => hst) hs⟩
  have hpayload : s.completions.flatMap Completion.payload = [3, 4, 0, 0] := by
    cases hs
    rfl
  have hstream : s.stream = [1, 2, 3, 4] := by
    cases hs
    rfl
  have hintact := (h s hr).stream
  rw [hpayload, hstream] at hintact
  exact absurd hintact (by decide)

end Overlap

end Taps
