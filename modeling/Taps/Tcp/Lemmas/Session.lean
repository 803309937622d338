import Taps.Tcp.Lemmas.Turn

/-!
# What one step of a session does

The invariant is that the window for the next read lies behind every byte that somebody holds. It is
what makes the memory of the held bytes a matter of the allocator and of one write.
-/

namespace Taps

/-! ## The window for the next read -/

namespace TCPConnection

variable {σ : Type} {mem : Memory} {fresh : Addr} {c c' : TCPConnection σ} {p : Progress}
  {held held' : Addr → Nat → Prop}

/-- The current block has its window inside the block and behind all the bytes `held` there. -/
def WindowFree (c : TCPConnection σ) (held : Addr → Nat → Prop) : Prop :=
  ∀ r, c.currentBlock = some r →
    r.beginOffset ≤ c.blockPool.blockSize ∧ ∀ off, held r.block off → off < r.beginOffset

theorem WindowFree.mono (h : c.WindowFree held) (hle : ∀ blk off, held' blk off → held blk off) :
    c.WindowFree held' :=
  fun r hr => ⟨(h r hr).1, fun off ho => (h r hr).2 off (hle _ _ ho)⟩

theorem WindowFree.stretch (h : c.WindowFree held) (ht : Stretch fresh c c' p)
    (hfresh : ∀ off, ¬ held fresh off) : c'.WindowFree held := by
  intro r hr
  rw [ht.pool]
  rcases ht.current with hc | hc | hc
  · exact h r (hc ▸ hr)
  · rw [hc] at hr
    cases hr
  · rw [hc] at hr
    cases hr
    exact ⟨Nat.zero_le _, fun off ho => absurd ho (hfresh off)⟩

theorem capacity_bufferOf (h : c.WindowFree held) {r : BlockRef} (hr : c.currentBlock = some r) :
    (c.bufferOf r).len = c.blockPool.blockSize - r.beginOffset :=
  sizeSub_of_le (h r hr).1

/-- A read moves the window behind the bytes it brought. -/
theorem WindowFree.withChunk (h : c.WindowFree held) {r : BlockRef} (hr : c.currentBlock = some r)
    {n : Nat} (hn : n ≤ (c.bufferOf r).len) :
    (c.withChunk r n).WindowFree fun blk off => held blk off ∨ (chunk r n).Covers blk off := by
  intro r' hr'
  rw [capacity_bufferOf h hr] at hn
  obtain ⟨hbegin, hfree⟩ := h r hr
  simp only [TCPConnection.withChunk, advance] at hr' ⊢
  split at hr'
  · cases hr'
  · cases hr'
    simp only [BlockRef.setRange]
    refine ⟨by omega, fun off ho => ?_⟩
    rcases ho with ho | ⟨_, _, ho⟩
    · exact Nat.lt_of_lt_of_le (hfree off ho) (Nat.le_add_right ..)
    · exact ho

end TCPConnection

namespace Session

variable {σ : Type} {s s' : Session σ} {c : TCPConnection σ} {p : Progress} {blk : Addr} {off : Nat}

structure Inv (s : Session σ) : Prop where
  free : s.conn.WindowFree s.Held
  pending : ∀ b, s.pending = some b → ∃ r, s.conn.currentBlock = some r ∧ b = s.conn.bufferOf r

theorem Held.mem_handles (h : s.Held blk off) : blk ∈ s.handles := by
  rcases h with h | ⟨m, hm, c, hc, h⟩
  · exact List.mem_append_left _ (List.mem_append_left _ (BlockChain.mem_handles_iff.mpr ⟨off, h⟩))
  · refine List.mem_append_right _ (List.mem_flatMap.mpr ⟨m, hm, ?_⟩)
    simpa only [Message.handles, hc] using BlockChain.mem_handles_iff.mpr ⟨off, h⟩

theorem create_inv (mem : Memory) (state : ConnectionState) (framer : Option (MessageFramer σ))
    (framerState : σ) (pool : MessageBlockPool) :
    Inv (create mem (.create state framer framerState pool)) :=
  { free := fun r hr => by cases hr
    pending := fun b hb => by cases hb }

/-! ## The end of a stretch -/

/-- After a stretch that started from the connection `c₁`, a byte is held only if the chain of `c₁` or
a Message held it. -/
theorem held_of_settle {fresh : Addr} {c₁ : TCPConnection σ} {unparsed : List Byte}
    (ht : TCPConnection.Stretch fresh c₁ c p) (h : (s.settle unparsed c p).Held blk off) :
    c₁.receiveChain.Covers blk off ∨ ∃ m ∈ s.kept, m.Covers blk off := by
  rcases h with h | ⟨m, hm, h⟩
  · exact Or.inl (ht.covers _ _ h)
  · cases p with
    | delivered d m' =>
        rcases List.mem_cons.mp hm with rfl | hm
        · exact Or.inl (ht.message _ _ rfl _ _ h)
        · exact Or.inr ⟨m, hm, h⟩
    | suspended _ | ended _ | incomplete _ _ | failed _ => exact Or.inr ⟨m, hm, h⟩

theorem settle_inv {fresh : Addr} {c₁ : TCPConnection σ} {unparsed : List Byte}
    (ht : TCPConnection.Stretch fresh c₁ c p)
    (hfree : c₁.WindowFree fun blk off =>
      c₁.receiveChain.Covers blk off ∨ ∃ m ∈ s.kept, m.Covers blk off)
    (hfresh : ∀ off, ¬ (c₁.receiveChain.Covers fresh off ∨ ∃ m ∈ s.kept, m.Covers fresh off)) :
    Inv (s.settle unparsed c p) := by
  refine
    { free := (hfree.stretch ht hfresh).mono fun _ _ h => held_of_settle ht h
      pending := ?_ }
  intro b hb
  cases p with
  | suspended b' =>
      cases hb
      exact ht.window _ rfl
  | delivered _ _ | ended _ | incomplete _ _ | failed _ => cases hb

/-! ## Steps -/

theorem step_receive {fresh : Fresh} (h : s.step (.receive fresh) = some s') :
    s.pending = none ∧ fresh.addr ∉ s.handles ∧ ∃ c p,
      s.conn.receive (s.allocated fresh).mem s.outside fresh.addr = (c, p) ∧
      s' = (s.allocated fresh).settle (s.allocated fresh).unparsed c p := by
  simp only [step] at h
  split at h
  · rename_i hc
    exact ⟨hc.1, hc.2, _, _, rfl, (Option.some.inj h).symm⟩
  · cases h

/-- The session when a read has completed: the resource has a block ready and the bytes are there. -/
def completed (s : Session σ) (b : ReadBuffer) (outcome : ReadOutcome) (fresh : Fresh) : Session σ :=
  (s.allocated fresh).afterRead b outcome.bytes

theorem step_readDone {outcome : ReadOutcome} {fresh : Fresh}
    (h : s.step (.readDone outcome fresh) = some s') :
    ∃ b c p, s.pending = some b ∧ outcome.bytes.length ≤ b.len ∧ fresh.addr ∉ s.handles ∧
      s.conn.resume (s.completed b outcome fresh).mem s.outside fresh.addr outcome.code
        outcome.bytes.length = some (c, p) ∧
      s' = (s.completed b outcome fresh).settle
        ((s.completed b outcome fresh).unparsed ++ outcome.bytes) c p := by
  simp only [step] at h
  split at h
  · cases h
  · rename_i b hb
    split at h
    · rename_i hc
      obtain ⟨⟨c, p⟩, hr, hs⟩ := Option.map_eq_some_iff.mp h
      exact ⟨b, c, p, hb, hc.1, hc.2, hr, hs.symm⟩
    · cases h

theorem allocated_mem {fresh : Fresh} (hfresh : fresh.addr ∉ s.handles) (h : s.Held blk off) :
    (s.allocated fresh).mem blk off = s.mem blk off :=
  Lib.Memory.fill_apply_of_ne fun heq => hfresh (heq ▸ h.mem_handles)

theorem completed_mem (hi : Inv s) {b : ReadBuffer} (hb : s.pending = some b) {fresh : Fresh}
    (hfresh : fresh.addr ∉ s.handles) (outcome : ReadOutcome) (h : s.Held blk off) :
    (s.completed b outcome fresh).mem blk off = s.mem blk off := by
  obtain ⟨r, hr, rfl⟩ := hi.pending b hb
  have hwrite : blk = (s.conn.bufferOf r).block → off < (s.conn.bufferOf r).offset := by
    intro heq
    exact (hi.free r hr).2 off (by rw [heq] at h; exact h)
  have hframe : (s.completed (s.conn.bufferOf r) outcome fresh).mem blk off
      = (s.allocated fresh).mem blk off := Lib.Memory.write_apply_of_not hwrite
  rw [hframe, allocated_mem hfresh h]

theorem bytes_chunk {r : BlockRef} (fresh : Fresh) (outcome : ReadOutcome) :
    (TCPConnection.chunk r outcome.bytes.length).bytes
      (s.completed (s.conn.bufferOf r) outcome fresh).mem = outcome.bytes := by
  have hsize : (TCPConnection.chunk r outcome.bytes.length).size = outcome.bytes.length := by
    simp [TCPConnection.chunk, BlockRef.size, BlockRef.setRange]
  rw [BlockRef.bytes, hsize]
  exact Lib.Memory.read_write_self ..

theorem free_withChunk (hi : Inv s) {r : BlockRef} (hr : s.conn.currentBlock = some r) {n : Nat}
    (hn : n ≤ (s.conn.bufferOf r).len) :
    (s.conn.withChunk r n).WindowFree fun blk off =>
      (s.conn.withChunk r n).receiveChain.Covers blk off ∨ ∃ m ∈ s.kept, m.Covers blk off := by
  refine (hi.free.withChunk hr hn).mono fun blk off h => ?_
  rcases h with h | h
  · exact (BlockChain.covers_append.mp h).imp_left Or.inl
  · exact Or.inl (Or.inr h)

theorem fresh_withChunk {fresh : Fresh} (hfresh : fresh.addr ∉ s.handles) {r : BlockRef}
    (hr : s.conn.currentBlock = some r) (n off : Nat) :
    ¬ ((s.conn.withChunk r n).receiveChain.Covers fresh.addr off ∨
      ∃ m ∈ s.kept, m.Covers fresh.addr off) := by
  rintro (h | h)
  · rcases BlockChain.covers_append.mp h with h | ⟨h, _⟩
    · exact hfresh (Held.mem_handles (s := s) (Or.inl h))
    · refine hfresh (List.mem_append_left _ (List.mem_append_right _ ?_))
      rw [hr, ← h]
      exact List.mem_singleton.mpr rfl
  · exact hfresh (Held.mem_handles (s := s) (Or.inr h))

theorem step_inv {e : SessionEvent σ} (hi : Inv s) (h : s.step e = some s') : Inv s' := by
  have hold {fresh : Fresh} (hf : fresh.addr ∉ s.handles) (off : Nat) : ¬ s.Held fresh.addr off :=
    fun h => hf h.mem_handles
  cases e with
  | receive fresh =>
      obtain ⟨_, hfresh, c, p, heq, rfl⟩ := step_receive h
      have ht := TCPConnection.receive_turn (s.allocated fresh).mem s.outside fresh.addr s.conn
      rw [heq] at ht
      exact settle_inv ht.toStretch hi.free (hold hfresh)
  | readDone outcome fresh =>
      obtain ⟨b, c, p, hb, hlen, hfresh, heq, rfl⟩ := step_readDone h
      rcases TCPConnection.resume_cases heq with ⟨_, r, hr, ht, _, _⟩ | ⟨_, ht⟩
      · obtain ⟨r', hr', rfl⟩ := hi.pending b hb
        cases hr.symm.trans hr'
        exact settle_inv ht (free_withChunk hi hr hlen) (fresh_withChunk hfresh hr _)
      · exact settle_inv ht.toStretch hi.free (hold hfresh)
  | drop i =>
      cases h
      refine { free := hi.free.mono fun blk off h => ?_, pending := hi.pending }
      exact h.imp_right fun ⟨m, hm, hc⟩ => ⟨m, List.mem_of_mem_eraseIdx hm, hc⟩
  | others state aborted =>
      cases h
      exact { free := hi.free, pending := hi.pending }
  | setFramer framer framerState =>
      simp only [step] at h
      split at h
      · cases h
        exact { free := hi.free, pending := hi.pending }
      · cases h

theorem reachable_inv (h : (system σ).Reachable s) : Inv s := by
  refine h.invariant (I := Inv) ?_ fun _ _ _ hi hst => step_inv hi hst
  rintro _ ⟨mem, state, framer, framerState, pool, rfl⟩
  exact create_inv ..

/-- Every step leaves the bytes held before it alone. -/
theorem step_mem {e : SessionEvent σ} (hi : Inv s) (h : s.step e = some s') (hheld : s.Held blk off) :
    s'.mem blk off = s.mem blk off := by
  cases e with
  | receive fresh =>
      obtain ⟨_, hfresh, c, p, _, rfl⟩ := step_receive h
      exact allocated_mem hfresh hheld
  | readDone outcome fresh =>
      obtain ⟨b, c, p, hb, _, hfresh, _, rfl⟩ := step_readDone h
      exact completed_mem hi hb hfresh _ hheld
  | drop i => cases h; rfl
  | others state aborted => cases h; rfl
  | setFramer framer framerState =>
      simp only [step] at h
      split at h
      · cases h; rfl
      · cases h

/-- A read that has been issued can complete: `finish_read` finds a valid `current_block_`. -/
theorem step_readDone_isSome (hi : Inv s) {b : ReadBuffer} (hb : s.pending = some b)
    {outcome : ReadOutcome} (hlen : outcome.bytes.length ≤ b.len) {fresh : Fresh}
    (hfresh : fresh.addr ∉ s.handles) : (s.step (.readDone outcome fresh)).isSome := by
  obtain ⟨r, hr, _⟩ := hi.pending b hb
  have hc : outcome.bytes.length ≤ b.len ∧ fresh.addr ∉ s.handles := ⟨hlen, hfresh⟩
  simp only [step, hb, if_pos hc, Option.isSome_map, TCPConnection.resume]
  unfold TCPConnection.finishRead
  split
  · rfl
  · split <;> rfl
  · simp [hr]

end Session

end Taps
