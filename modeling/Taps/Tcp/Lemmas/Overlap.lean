import Taps.Tcp.Lemmas.Session
import Taps.Tcp.Overlap

/-!
# Overlapping receives that complete in turn

As long as the reads that succeed do so in turn, at most one completed read has bytes that no Message
has yet, and they are at the window of `current_block_`.
-/

namespace Taps

theorem Message.payload_congr {mem mem' : Memory} {m : Message}
    (h : ∀ blk off, m.Covers blk off → mem' blk off = mem blk off) :
    m.payload mem' = m.payload mem := by
  cases hc : m.chain with
  | none => rw [payload_of_contiguous hc, payload_of_contiguous hc]
  | some c =>
      rw [payload_of_chain hc, payload_of_chain hc]
      exact BlockChain.bytes_congr fun blk off hcov => h blk off ⟨c, hc, hcov⟩

namespace TCPConnection

variable {c c' : TCPConnection Unit} {mem : Memory} {outside : List Addr} {fresh : Addr} {r : BlockRef}

theorem spent_congr (h : c'.blockPool = c.blockPool) : c'.spent r = c.spent r := by
  unfold spent reuseThreshold
  rw [h]

theorem bufferOf_congr (h : c'.blockPool = c.blockPool) : c'.bufferOf r = c.bufferOf r := by
  simp only [bufferOf, h]

theorem receive_current (hf : c.framer = none) (hr : c.currentBlock = some r)
    (hspent : c.spent r = false) : (c.receive mem outside fresh).1.currentBlock = some r := by
  have hread : c.readBlock outside fresh = some r := by simp [readBlock, hr, hspent]
  unfold receive
  split
  · exact hr
  · rw [hf]
    simp only [issueRead_of_some hread]

theorem resumeUnframed_data (hr : c.currentBlock = some r) (n : Nat) :
    c.resumeUnframed none n = some ({ c with currentBlock := c.advance r n },
      .delivered 0 (.ofChain (some (BlockChain.nil.append (chunk r n))) false)) := by
  simp [resumeUnframed, finishRead, hr, unframedChunk, chunk]

theorem resumeUnframed_failed (c : TCPConnection Unit) (ec : ErrorCode) (n : Nat) :
    ∃ state eof ended p, c.resumeUnframed (some ec) n
        = some ({ c with state, receiveEof := eof, receiveEnded := ended }, p) ∧
      ((∃ e, p = .failed e) ∨ p = .ended (.ofChain (some .nil) true)) := by
  have hfail : ∀ (eof : Bool) (e : TAPSError), ∃ state ended,
      fail { c with receiveEof := eof } e
        = ({ c with state, receiveEof := eof, receiveEnded := ended },
          .failed ({ c with receiveEof := eof }.receiveFailure e).2) := by
    intro eof e
    obtain ⟨state, ended, h⟩ := receiveFailure_fst { c with receiveEof := eof } e
    exact ⟨state, ended, by rw [fail, h]⟩
  unfold resumeUnframed finishRead
  split
  · exact ⟨_, _, _, _, rfl, Or.inr rfl⟩
  · rename_i code hne heq
    cases heq
    split
    · obtain ⟨state, ended, h⟩ := hfail true (readFailure ec)
      exact ⟨_, _, _, _, congrArg some h, Or.inl ⟨_, rfl⟩⟩
    · obtain ⟨state, ended, h⟩ := hfail c.receiveEof (readFailure ec)
      exact ⟨_, _, _, _, congrArg some h, Or.inl ⟨_, rfl⟩⟩
  · rename_i heq
    cases heq

end TCPConnection

/-- The read succeeded and no Message has its bytes yet. -/
def Completion.Waiting (c : Completion) : Prop := c.reply = none ∧ c.outcome.code = none

/-- What a receive that has returned gave the application is what its read brought. -/
def Completion.Returned (c : Completion) : Prop :=
  ∀ r, c.reply = some r →
    (∀ bs, c.outcome = .data bs → r = .message bs false) ∧ c.payload = c.outcome.bytes

namespace Overlap

variable {s s' : Overlap} {blk : Addr} {off : Nat}

/-- The byte at `off` of the block `blk` is one of a Message. -/
def Held (s : Overlap) (blk : Addr) (off : Nat) : Prop := ∃ p ∈ s.kept, p.2.Covers blk off

structure Inv (s : Overlap) : Prop where
  running : s.crashed = false
  framer : s.conn.framer = none
  free : s.conn.WindowFree s.Held
  unspent : ∀ r, s.conn.currentBlock = some r → s.conn.spent r = false
  kept : ∀ p ∈ s.kept, p.2.payload s.mem = p.1
  returned : ∀ c ∈ s.completions, c.Returned
  waiting : ∀ c ∈ s.completions, c.Waiting → ∃ r, s.conn.currentBlock = some r ∧
    c.outcome.bytes.length ≤ (s.conn.bufferOf r).len ∧
    s.mem.read r.block r.beginOffset c.outcome.bytes.length = c.outcome.bytes
  one : s.completions.Pairwise fun c d => ¬ (c.Waiting ∧ d.Waiting)
  stream : s.completions.flatMap (fun c => c.outcome.bytes) = s.stream

theorem Held.mem_handles (h : s.Held blk off) : blk ∈ s.handles := by
  obtain ⟨p, hp, c, hc, h⟩ := h
  refine List.mem_append_right _ (List.mem_flatMap.mpr ⟨p, hp, ?_⟩)
  simpa only [Message.handles, hc] using BlockChain.mem_handles_iff.mpr ⟨off, h⟩

theorem create_inv (mem : Memory) (state : ConnectionState) (pool : MessageBlockPool) :
    Inv (create mem state pool) :=
  { running := rfl
    framer := rfl
    free := fun r hr => by cases hr
    unspent := fun r hr => by cases hr
    kept := by simp [create]
    returned := by simp [create]
    waiting := by simp [create]
    one := by simp [create]
    stream := rfl }

/-! ## Steps -/

theorem start_inv (hi : Inv s) {fresh : Fresh} (hfresh : fresh.addr ∉ s.handles) :
    Inv (s.start fresh) := by
  have ht := (TCPConnection.receive_turn (s.mem.fill fresh.addr fresh.cells) s.outside fresh.addr
    s.conn).toStretch
  have hnot (off : Nat) : ¬ s.Held fresh.addr off := fun h => hfresh h.mem_handles
  refine
    { running := hi.running
      framer := ht.framer.trans hi.framer
      free := hi.free.stretch ht hnot
      unspent := ?_
      kept := ?_
      returned := hi.returned
      waiting := ?_
      one := hi.one
      stream := hi.stream }
  · intro r hr
    have hspent : (s.start fresh).conn.spent r = s.conn.spent r := TCPConnection.spent_congr ht.pool
    rw [hspent]
    rcases ht.current with h | h | h
    · exact hi.unspent r (h ▸ hr)
    · cases h.symm.trans hr
    · cases h.symm.trans hr
      exact TCPConnection.spent_freshWindow ..
  · intro p hp
    refine Eq.trans (Message.payload_congr fun blk off hcov => ?_) (hi.kept p hp)
    refine Lib.Memory.fill_apply_of_ne fun heq => hfresh ?_
    rw [← heq]
    have hheld : s.Held blk off := ⟨p, hp, hcov⟩
    exact hheld.mem_handles
  · intro c hc hw
    obtain ⟨r, hr, hlen, hread⟩ := hi.waiting c hc hw
    refine ⟨r, TCPConnection.receive_current hi.framer hr (hi.unspent r hr), ?_, ?_⟩
    · have hbuf : (s.start fresh).conn.bufferOf r = s.conn.bufferOf r :=
        TCPConnection.bufferOf_congr ht.pool
      rwa [hbuf]
    · have hne : r.block ≠ fresh.addr := by
        intro heq
        refine hfresh (List.mem_append_left _ (List.mem_append_right _ ?_))
        rw [hr, ← heq]
        exact List.mem_singleton.mpr rfl
      exact (Lib.Memory.read_congr fun i _ _ => Lib.Memory.fill_apply_of_ne hne).trans hread

theorem complete_inv (hi : Inv s) {outcome : ReadOutcome} {b : ReadBuffer}
    {started : List ReadBuffer} (hstarted : s.started = b :: started)
    (hlen : outcome.bytes.length ≤ b.len) (hturn : InTurn s (.complete outcome)) :
    Inv (s.complete outcome b started) := by
  have hstream : (s.complete outcome b started).completions.flatMap (fun c => c.outcome.bytes)
      = (s.complete outcome b started).stream := by
    simp [complete, List.flatMap_append, hi.stream]
  have hreturned : ∀ c ∈ (s.complete outcome b started).completions, c.Returned := by
    intro c hc
    rcases List.mem_append.mp hc with hc | hc
    · exact hi.returned c hc
    · cases List.mem_singleton.mp hc
      intro r hr
      cases hr
  cases outcome with
  | failed ec =>
      -- nothing is written, and the new completion does not wait for a Message
      have hmem : (s.complete (.failed ec) b started).mem = s.mem := Lib.Memory.write_nil ..
      have hnew : ¬ Completion.Waiting { outcome := .failed ec, reply := none } := by
        simp [Completion.Waiting, ReadOutcome.code]
      refine
        { hi with
          kept := by rw [hmem]; exact hi.kept
          returned := hreturned
          waiting := ?_
          one := ?_
          stream := hstream }
      · intro c hc hw
        rw [hmem]
        rcases List.mem_append.mp hc with hc | hc
        · exact hi.waiting c hc hw
        · cases List.mem_singleton.mp hc
          exact absurd hw hnew
      · refine List.pairwise_append.mpr ⟨hi.one, List.pairwise_singleton .., ?_⟩
        intro c _ d hd hcd
        cases List.mem_singleton.mp hd
        exact hnew hcd.2
  | data bs =>
      obtain ⟨⟨r, hr, hhead⟩, hnone⟩ := hturn
      rw [hstarted] at hhead
      cases hhead
      have hnot : ∀ c ∈ s.completions, ¬ c.Waiting := fun c hc hw => hnone c hc hw.1 hw.2
      refine
        { hi with
          kept := ?_
          returned := hreturned
          waiting := ?_
          one := ?_
          stream := hstream }
      · intro p hp
        refine Eq.trans (Message.payload_congr fun blk off hcov => ?_) (hi.kept p hp)
        refine Lib.Memory.write_apply_of_not fun heq => ?_
        exact (hi.free r hr).2 off ⟨p, hp, by rw [heq] at hcov; exact hcov⟩
      · intro c hc hw
        rcases List.mem_append.mp hc with hc | hc
        · exact absurd hw (hnot c hc)
        · cases List.mem_singleton.mp hc
          exact ⟨r, hr, hlen, Lib.Memory.read_write_self ..⟩
      · refine List.pairwise_append.mpr ⟨hi.one, List.pairwise_singleton .., ?_⟩
        intro c hc d _ hcd
        exact hnot c hc hcd.1

/-- Replacing one completion by another of the same read keeps the bytes of the reads. -/
theorem flatMap_bytes_set {cs : List Completion} {i : Nat} {outcome : ReadOutcome}
    {reply reply' : Option Reply} (h : cs[i]? = some { outcome, reply }) :
    (cs.set i { outcome, reply := reply' }).flatMap (fun c => c.outcome.bytes)
      = cs.flatMap (fun c => c.outcome.bytes) := by
  obtain ⟨hi, hget⟩ := List.getElem?_eq_some_iff.mp h
  have hmap : (cs.set i { outcome, reply := reply' }).map (fun c => c.outcome.bytes)
      = cs.map (fun c => c.outcome.bytes) := by
    rw [List.map_set]
    refine List.ext_getElem (by simp) fun j h₁ h₂ => ?_
    rw [List.getElem_set]
    split
    · rename_i hij
      subst hij
      simp [hget]
    · rfl
  rw [List.flatMap_def, hmap, List.flatMap_def]

theorem mem_set_completion {cs : List Completion} {i : Nat} {c c' : Completion}
    (h : c ∈ cs.set i c') : c = c' ∨ ∃ j, j ≠ i ∧ cs[j]? = some c := by
  obtain ⟨j, hj⟩ := List.mem_iff_getElem?.mp h
  rw [List.getElem?_set] at hj
  split at hj
  · left
    split at hj
    · exact (Option.some.inj hj).symm
    · cases hj
  · rename_i hne
    exact Or.inr ⟨j, fun heq => hne heq.symm, hj⟩

theorem payload_chunk {mem : Memory} {r : BlockRef} {bs : List Byte}
    (hread : mem.read r.block r.beginOffset bs.length = bs) :
    (Message.ofChain (some (BlockChain.nil.append (TCPConnection.chunk r bs.length))) false).payload mem = bs := by
  rw [Message.payload_of_chain rfl, BlockChain.bytes_append, BlockChain.bytes_nil, List.nil_append, BlockRef.bytes]
  simpa [TCPConnection.chunk, BlockRef.size, BlockRef.setRange] using hread

theorem Inv.only_waiting (hi : Inv s) {i : Nat} {c₀ : Completion} (hget : s.completions[i]? = some c₀)
    (hwaiting : c₀.Waiting) {j : Nat} {c : Completion} (hne : j ≠ i) (hj : s.completions[j]? = some c) :
    ¬ c.Waiting := by
  intro hw
  obtain ⟨hi', hgi⟩ := List.getElem?_eq_some_iff.mp hget
  obtain ⟨hj', hgj⟩ := List.getElem?_eq_some_iff.mp hj
  have hpair := List.pairwise_iff_getElem.mp hi.one
  rcases Nat.lt_or_gt_of_ne hne with h | h
  · exact hpair j i hj' hi' h ⟨hgj ▸ hw, hgi ▸ hwaiting⟩
  · exact hpair i j hi' hj' h ⟨hgi ▸ hwaiting, hgj ▸ hw⟩

/-- Once one receive has returned, the others are as they were. -/
theorem Inv.set_returned (hi : Inv s) {i : Nat} {answered : Completion} (hreturned : answered.Returned)
    (hnot : ¬ answered.Waiting) : ∀ c ∈ s.completions.set i answered,
      c.Returned ∧ (c.Waiting → ∃ j, j ≠ i ∧ s.completions[j]? = some c) := by
  intro c hc
  rcases mem_set_completion hc with rfl | ⟨j, hne, hj⟩
  · exact ⟨hreturned, fun hw => absurd hw hnot⟩
  · exact ⟨hi.returned c (List.mem_of_getElem? hj), fun _ => ⟨j, hne, hj⟩⟩

theorem finish_data_inv (hi : Inv s) {i : Nat} {bs : List Byte}
    (hget : s.completions[i]? = some { outcome := .data bs, reply := none }) :
    ∃ conn p, s.conn.resumeUnframed none bs.length = some (conn, p) ∧
      Inv (s.finish i (.data bs) conn p) := by
  have hwaiting : Completion.Waiting { outcome := .data bs, reply := none } := ⟨rfl, rfl⟩
  obtain ⟨r, hr, hlen, hread⟩ := hi.waiting _ (List.mem_of_getElem? hget) hwaiting
  have hread : s.mem.read r.block r.beginOffset bs.length = bs := hread
  have hlen : bs.length ≤ (s.conn.bufferOf r).len := hlen
  refine ⟨_, _, TCPConnection.resumeUnframed_data hr bs.length, ?_⟩
  have hreply : ((Progress.delivered 0 (.ofChain (some (BlockChain.nil.append
      (TCPConnection.chunk r bs.length))) false)).result.map (Reply.ofResult s.mem))
      = some (.message bs false) := by
    simp only [Progress.result, Option.map_some, Reply.ofResult, payload_chunk hread]
    rfl
  have hreturned : Completion.Returned { outcome := .data bs, reply := some (.message bs false) } := by
    intro r hr
    cases hr
    refine ⟨fun bs' hbs => ?_, rfl⟩
    cases hbs
    rfl
  have hset := hi.set_returned (i := i) hreturned fun hw => by cases hw.1
  have hnone : ∀ c ∈ s.completions.set i { outcome := .data bs, reply := some (.message bs false) }, ¬ c.Waiting := by
    intro c hc hw
    obtain ⟨j, hne, hj⟩ := (hset c hc).2 hw
    exact hi.only_waiting hget hwaiting hne hj hw
  refine
    { running := hi.running
      framer := hi.framer
      free := ?_
      unspent := ?_
      kept := ?_
      returned := ?_
      waiting := ?_
      one := ?_
      stream := (flatMap_bytes_set hget).trans hi.stream }
  · have hfree : TCPConnection.WindowFree { s.conn with currentBlock := s.conn.advance r bs.length }
        fun blk off => s.Held blk off ∨ (TCPConnection.chunk r bs.length).Covers blk off :=
      hi.free.withChunk hr hlen
    apply hfree.mono
    rintro blk off ⟨p, hp, hcov⟩
    rcases List.mem_cons.mp hp with rfl | hp
    · obtain ⟨slice, hs, hcov⟩ := hcov
      cases hs
      exact Or.inr ((BlockChain.covers_append.mp hcov).resolve_left BlockChain.not_covers_nil)
    · exact Or.inl ⟨p, hp, hcov⟩
  · intro r' hr'
    simp only [finish, TCPConnection.advance] at hr'
    split at hr'
    · cases hr'
    · rename_i hspent
      cases hr'
      exact (TCPConnection.spent_congr rfl).trans (Bool.eq_false_iff.mpr hspent)
  · intro p hp
    rcases List.mem_cons.mp hp with rfl | hp
    · rfl
    · exact hi.kept p hp
  · intro c hc
    simp only [finish, hreply] at hc
    exact (hset c hc).1
  · intro c hc hw
    simp only [finish, hreply] at hc
    exact absurd hw (hnone c hc)
  · simp only [finish, hreply]
    exact List.pairwise_of_forall_mem_list fun c hc d _ hcd => hnone c hc hcd.1

theorem finish_failed_inv (hi : Inv s) {i : Nat} {ec : ErrorCode}
    (hget : s.completions[i]? = some { outcome := .failed ec, reply := none }) :
    ∃ conn p, s.conn.resumeUnframed (some ec) 0 = some (conn, p) ∧
      Inv (s.finish i (.failed ec) conn p) := by
  obtain ⟨state, eof, ended, p, hresume, hp⟩ := TCPConnection.resumeUnframed_failed s.conn ec 0
  refine ⟨_, p, hresume, ?_⟩
  -- the receive returns an error or the end of the stream, neither with a byte of payload
  obtain ⟨r, hr, hpayload⟩ : ∃ r, p.result.map (Reply.ofResult s.mem) = some r ∧
      Completion.payload { outcome := .failed ec, reply := some r } = [] := by
    rcases hp with ⟨e, rfl⟩ | rfl
    · exact ⟨_, rfl, rfl⟩
    · exact ⟨_, rfl, TCPConnection.payload_endMessage s.mem⟩
  have hkept : (s.finish i (.failed ec) { s.conn with
      state, receiveEof := eof, receiveEnded := ended } p).kept = s.kept := by
    rcases hp with ⟨e, rfl⟩ | rfl <;> rfl
  have hreturned : Completion.Returned { outcome := .failed ec, reply := some r } := by
    intro r' hr'
    cases hr'
    exact ⟨fun bs hbs => (by cases hbs), hpayload⟩
  have hset := hi.set_returned (i := i) hreturned fun hw => by cases hw.1
  refine
    { running := hi.running
      framer := hi.framer
      free := ?_
      unspent := hi.unspent
      kept := by rw [hkept]; exact hi.kept
      returned := ?_
      waiting := ?_
      one := ?_
      stream := (flatMap_bytes_set hget).trans hi.stream }
  · apply hi.free.mono
    rintro blk off ⟨p', hp', hcov⟩
    exact ⟨p', by rwa [hkept] at hp', hcov⟩
  · intro c hc
    simp only [finish, hr] at hc
    exact (hset c hc).1
  · intro c hc hw
    simp only [finish, hr] at hc
    obtain ⟨j, -, hj⟩ := (hset c hc).2 hw
    exact hi.waiting c (List.mem_of_getElem? hj) hw
  · simp only [finish, hr]
    have hpair := List.pairwise_iff_getElem.mp hi.one
    refine List.pairwise_iff_getElem.mpr fun j k hj hk hjk ⟨hwj, hwk⟩ => ?_
    rw [List.length_set] at hj hk
    rw [List.getElem_set] at hwj hwk
    split at hwj
    · cases hwj.1
    · split at hwk
      · cases hwk.1
      · exact hpair j k hj hk hjk ⟨hwj, hwk⟩

theorem step_inv {e : OverlapEvent} (hi : Inv s) (h : s.step e = some s') (hturn : InTurn s e) :
    Inv s' := by
  unfold step at h
  rw [if_neg (by simp [hi.running])] at h
  cases e with
  | start fresh =>
      simp only at h
      split at h
      · cases h
      · rename_i hfresh
        cases h
        exact start_inv hi hfresh
  | complete outcome =>
      simp only at h
      split at h
      · cases h
      · rename_i b started hstarted
        split at h
        · rename_i hlen
          cases h
          exact complete_inv hi hstarted hlen hturn
        · cases h
  | resume i =>
      simp only at h
      split at h
      · rename_i outcome hget
        obtain ⟨conn, p, hresume, hinv⟩ : ∃ conn p,
            s.conn.resumeUnframed outcome.code outcome.bytes.length = some (conn, p) ∧
              Inv (s.finish i outcome conn p) := by
          cases outcome with
          | data bs => exact finish_data_inv hi hget
          | failed ec => exact finish_failed_inv hi hget
        rw [hresume] at h
        cases h
        exact hinv
      · cases h
  | drop i =>
      cases h
      refine
        { hi with
          free := hi.free.mono fun blk off ⟨p, hp, hcov⟩ => ⟨p, List.mem_of_mem_eraseIdx hp, hcov⟩
          kept := fun p hp => hi.kept p (List.mem_of_mem_eraseIdx hp) }
  | others state aborted =>
      cases h
      exact { hi with }

theorem Inv.intact (hi : Inv s) : Intact s := by
  refine
    { running := hi.running
      stream := ?_
      returned := fun c hc bs r hout hr => (hi.returned c hc r hr).1 bs hout
      kept := hi.kept }
  rw [← hi.stream, List.flatMap_def, List.flatMap_def]
  congr 1
  refine List.map_congr_left fun c hc => ?_
  cases hr : c.reply with
  | none => rw [Completion.payload, hr]
  | some r => exact (hi.returned c hc r hr).2

end Overlap

end Taps
