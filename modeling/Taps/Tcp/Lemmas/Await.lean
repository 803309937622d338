import Taps.Tcp.Lemmas.Reads

/-!
# Whether a receive returns

Where every buffer has room for a byte, the bytes to come bound the reads of a receive. In a block of less than four
bytes the read after the last one that fits gets none, and the receive reads on forever.
-/

namespace Taps

/-! ## After the end of the stream -/

namespace TCPConnection

variable {σ : Type} {mem : Memory} {outside : List Addr} {fresh : Addr} {c c' : TCPConnection σ} {p : Progress}

theorem act_of_eof (heof : c.receiveEof = true) (mem : Memory) (outside : List Addr) (fresh : Addr)
    (pr : ParseResult) (b : ReadBuffer) : (c.act mem outside fresh pr).2 ≠ .suspended b := by
  unfold act
  split
  · unfold emitRecord
    split <;> exact nofun
  · rw [if_pos heof, endOfStream]
    split <;> exact nofun

theorem framedTurn_of_eof (f : MessageFramer σ) (heof : c.receiveEof = true) (mem : Memory) (outside : List Addr)
    (fresh : Addr) (b : ReadBuffer) : (c.framedTurn f mem outside fresh).2 ≠ .suspended b := by
  apply act_of_eof
  exact heof

/-- The read that brings the end of the stream is the last one of its receive. -/
theorem resume_of_eof {n : Nat} (h : c.resume mem outside fresh (some .eof) n = some (c', p)) (b : ReadBuffer) :
    p ≠ .suspended b := by
  simp only [resume, finishRead, Option.map_some, Option.some.injEq] at h
  split at h
  · rw [unframedChunk, Prod.mk.injEq] at h
    rw [← h.2]
    intro hp
    cases hp
  · rename_i f _
    have hturn := framedTurn_of_eof (c := { c with receiveEof := true }) f rfl mem outside fresh b
    rw [framedChunk] at h
    rwa [h] at hturn

end TCPConnection

namespace Session

variable {σ : Type} {s s' : Session σ}

theorem step_receive_isSome {fresh : Fresh} (hp : s.pending = none) (hfresh : fresh.addr ∉ s.handles) :
    (s.step (.receive fresh)).isSome := by
  rw [step, if_pos ⟨hp, hfresh⟩]
  rfl

theorem readDone_eof {fresh : Fresh} (h : s.step (.readDone (.failed .eof) fresh) = some s') : s'.pending = none := by
  obtain ⟨b, c, p, hb, hlen, hfresh, hresume, rfl⟩ := step_readDone h
  have hp := TCPConnection.resume_of_eof hresume
  cases p with
  | suspended b => exact absurd rfl (hp b)
  | delivered _ _ | ended _ | incomplete _ _ | failed _ => rfl

theorem step_blockPool {e : SessionEvent σ} (hb : Backed s) (h : s.step e = some s') :
    s'.conn.blockPool = s.conn.blockPool := by
  rcases step_stretches hb h with ⟨c₁, c, p, hs⟩ | ⟨-, hpool, -⟩
  · obtain ⟨fresh, ht, -⟩ := hs.stretch
    obtain ⟨s₁, unparsed, rfl, -⟩ := hs.eq
    exact ht.pool.trans hs.pool
  · exact hpool

end Session

/-! ## Reads -/

theorem readSome_of_pos {len : Nat} (h : 1 ≤ len) (rest : List (List Byte)) : readSome len rest = nextRead len rest :=
  if_neg (Nat.ne_of_gt h)

/-- A read into a buffer with room brings no more than that, and takes a byte or a chunk off the stream. -/
theorem readSome_cons {len : Nat} (h : 1 ≤ len) (chunk : List Byte) (chunks : List (List Byte)) :
    ∃ bs rest, readSome len (chunk :: chunks) = (.data bs, rest) ∧ bs.length ≤ len ∧
      rest.flatten.length + rest.length < (chunk :: chunks).flatten.length + (chunk :: chunks).length := by
  rw [readSome_of_pos h]
  by_cases hfits : chunk.length ≤ len
  · refine ⟨chunk, chunks, if_pos hfits, hfits, ?_⟩
    simp
    omega
  · refine ⟨chunk.take len, chunk.drop len :: chunks, if_neg hfits, List.length_take_le .., ?_⟩
    simp
    omega

theorem readSome_full {len : Nat} {bs : List Byte} (h : bs.length = len) :
    ∃ rest, readSome len [bs] = (.data bs, rest) := by
  by_cases hz : len = 0
  · rw [readSome, if_pos hz, List.length_eq_zero_iff.mp (h.trans hz)]
    exact ⟨_, rfl⟩
  · refine ⟨[], ?_⟩
    rw [readSome, if_neg hz]
    exact if_pos (Nat.le_of_eq h)

namespace Transfer

variable {σ : Type} {env : Environment} {t : Transfer σ}

theorem await_of_idle (env : Environment) (reads : Nat) (h : t.session.pending = none) :
    t.await env reads = some t := by
  rw [await, h]

theorem await_succ (env : Environment) (reads : Nat) {b : ReadBuffer} {outcome : ReadOutcome} {rest : List (List Byte)}
    (hb : t.session.pending = some b) (hread : readSome b.len t.rest = (outcome, rest)) :
    t.await env (reads + 1) = (t.session.step (.readDone outcome (t.fresh env))).bind fun s =>
      await env reads { session := s, rest, clock := t.clock + 1 } := by
  rw [await, hb]
  simp only [hread]

/-- The induction is on a bound of what is left of the stream. -/
theorem await_returns (env : Environment) {n : Nat} (h : (Session.system σ).Reachable t.session)
    (hsize : 4 ≤ t.session.conn.blockPool.blockSize) (hn : t.rest.flatten.length + t.rest.length < n) :
    ∃ reads, (t.await env reads).isSome := by
  induction n generalizing t with
  | zero => omega
  | succ n ih =>
      cases hp : t.session.pending with
      | none => exact ⟨0, by rw [await_of_idle env 0 hp]; rfl⟩
      | some b =>
          have hlen : 1 ≤ b.len := by
            have := Session.reachable_roomy h hp
            omega
          cases hrest : t.rest with
          | nil =>
              have hread : readSome b.len t.rest = (.failed .eof, []) := by
                rw [hrest, readSome_of_pos hlen]
                rfl
              have hsome : (t.session.step (.readDone (.failed .eof) (t.fresh env))).isSome := by
                apply Session.step_readDone_isSome (Session.reachable_inv h) hp
                · exact Nat.zero_le _
                · exact env.allocate_fresh _ _
              obtain ⟨s, hstep⟩ := Option.isSome_iff_exists.mp hsome
              refine ⟨1, ?_⟩
              rw [await_succ env 0 hp hread, hstep, Option.bind_some, await_of_idle env 0 (Session.readDone_eof hstep)]
              rfl
          | cons chunk chunks =>
              obtain ⟨bs, rest, hread, hbs, hlt⟩ := readSome_cons hlen chunk chunks
              rw [← hrest] at hread hlt
              have hsome : (t.session.step (.readDone (.data bs) (t.fresh env))).isSome := by
                apply Session.step_readDone_isSome (Session.reachable_inv h) hp
                · exact hbs
                · exact env.allocate_fresh _ _
              obtain ⟨s, hstep⟩ := Option.isSome_iff_exists.mp hsome
              obtain ⟨reads, hreads⟩ := ih (t := { session := s, rest, clock := t.clock + 1 })
                (h.step hstep) (by rw [Session.step_blockPool (Session.reachable_backed h) hstep]; exact hsize)
                (Nat.lt_of_lt_of_le hlt (Nat.le_of_lt_succ hn))
              exact ⟨reads + 1, by rw [await_succ env reads hp hread, hstep]; exact hreads⟩

theorem receive_returns (env : Environment) (h : (Session.system σ).Reachable t.session)
    (hsize : 4 ≤ t.session.conn.blockPool.blockSize) (hp : t.session.pending = none) :
    ∃ reads, (t.receiveWithin env reads).isSome := by
  obtain ⟨s, hstep⟩ := Option.isSome_iff_exists.mp
    (Session.step_receive_isSome hp (env.allocate_fresh t.clock t.session.handles))
  obtain ⟨reads, hreads⟩ := await_returns env (t := { t with session := s, clock := t.clock + 1 }) (h.step hstep)
    (by rw [Session.step_blockPool (Session.reachable_backed h) hstep]; exact hsize) (Nat.lt_succ_self _)
  refine ⟨reads, ?_⟩
  rw [receiveWithin, fresh, hstep]
  exact hreads

end Transfer

/-! ## Blocks without room -/

namespace TCPConnection

variable {mem : Memory} {outside : List Addr} {fresh : Addr} {c : TCPConnection Unit} {r : BlockRef}

/-- In so small a block the window at its end is not given up. -/
theorem not_spent_of_small {σ : Type} {c : TCPConnection σ} (h : c.blockPool.blockSize < 4) (r : BlockRef) :
    c.spent r = false := by
  have hthreshold : c.reuseThreshold = 0 := Nat.div_eq_of_lt h
  rw [spent, hthreshold]
  simp

theorem len_bufferOf_full (h : r.beginOffset = c.blockPool.blockSize) : (c.bufferOf r).len = 0 := by
  rw [bufferOf, BlockRef.capacityAfterBegin, h, sizeSub_of_le (Nat.le_refl _), Nat.sub_self]

theorem framedTurn_starving (he : c.receiveEof = false) (hr : c.readBlock outside fresh = some r) (mem : Memory) :
    c.framedTurn starving mem outside fresh = ({ c with currentBlock := some r }, .suspended (c.bufferOf r)) := by
  have hturn : c.framedTurn starving mem outside fresh = c.issueRead outside fresh := by
    exact if_neg (by simp [he])
  rw [hturn, issueRead_of_some hr]

theorem resume_starving (hf : c.framer = some starving) (he : c.receiveEof = false) (hr : c.currentBlock = some r)
    (hsmall : c.blockPool.blockSize < 4) (mem : Memory) (outside : List Addr) (fresh : Addr) (n : Nat) :
    ∃ c', c.resume mem outside fresh none n
        = some (c', .suspended (c.bufferOf (r.setRange (r.beginOffset + n) (r.beginOffset + n)))) ∧
      c'.framer = some starving ∧ c'.receiveEof = false ∧ c'.blockPool = c.blockPool ∧
      c'.currentBlock = some (r.setRange (r.beginOffset + n) (r.beginOffset + n)) := by
  have hadvance : c.advance r n = some (r.setRange (r.beginOffset + n) (r.beginOffset + n)) := by
    rw [advance, not_spent_of_small hsmall]
    rfl
  have hread : (c.withChunk r n).readBlock outside fresh
      = some (r.setRange (r.beginOffset + n) (r.beginOffset + n)) := by
    apply readBlock_of_current
    · exact hadvance
    · exact not_spent_of_small hsmall _
  have hturn := framedTurn_starving (c := c.withChunk r n) he hread mem
  refine ⟨{ c.withChunk r n with currentBlock := _ }, ?_, hf, he, rfl, rfl⟩
  simp only [resume, finishRead, hr, Option.map_some, hf, framedChunk]
  rw [← hf]
  exact congrArg some hturn

end TCPConnection

namespace Session

variable {s s' : Session Unit} {r : BlockRef}

/-- The receive in flight waits for a read to the window of `r`, in a block of less than four bytes. -/
structure Starving (s : Session Unit) (r : BlockRef) : Prop where
  framer : s.conn.framer = some starving
  receiveEof : s.conn.receiveEof = false
  current : s.conn.currentBlock = some r
  pending : s.pending = some (s.conn.bufferOf r)
  small : s.conn.blockPool.blockSize < 4

theorem Starving.read (h : Starving s r) {bs : List Byte} {fresh : Fresh}
    (hstep : s.step (.readDone (.data bs) fresh) = some s') :
    Starving s' (r.setRange (r.beginOffset + bs.length) (r.beginOffset + bs.length)) ∧
      s'.conn.blockPool = s.conn.blockPool := by
  obtain ⟨b, c, p, hb, hlen, hfresh, hresume, rfl⟩ := step_readDone hstep
  obtain ⟨c', hresume', hframer, heof, hpool, hcurrent⟩ := TCPConnection.resume_starving h.framer h.receiveEof h.current
    h.small (s.completed b (.data bs) fresh).mem s.outside fresh.addr bs.length
  cases hresume'.symm.trans hresume
  refine ⟨⟨hframer, heof, hcurrent, ?_, ?_⟩, hpool⟩
  · simp only [settle, TCPConnection.bufferOf, hpool]
  · exact hpool ▸ h.small

theorem create_starving {pool : MessageBlockPool} (hsmall : pool.blockSize < 4) (mem : Memory) {fresh : Fresh}
    (hstep : (create mem (starvingStart pool)).step (.receive fresh) = some s') :
    Starving s' (TCPConnection.freshWindow fresh.addr) ∧ s'.conn.blockPool = pool := by
  obtain ⟨-, -, c, p, hreceive, rfl⟩ := step_receive hstep
  have hread : (starvingStart pool).readBlock [] fresh.addr = some (TCPConnection.freshWindow fresh.addr) := by
    have hlive : ¬ (pool.maxLiveBlocks ≠ 0 ∧ liveBlocks [] ≥ pool.maxLiveBlocks) := by
      rintro ⟨hne, hge⟩
      exact hne (Nat.eq_zero_of_le_zero hge)
    exact if_neg hlive
  have hturn := TCPConnection.framedTurn_starving (c := starvingStart pool) rfl hread mem
  cases hturn.symm.trans hreceive
  exact ⟨⟨rfl, rfl, rfl, rfl, hsmall⟩, rfl⟩

theorem starvingStart_reachable (mem : Memory) (pool : MessageBlockPool) :
    (system Unit).Reachable (create mem (starvingStart pool)) :=
  ⟨_, [], ⟨_, _, _, _, _, rfl⟩, .refl⟩

/-- Filling the block leads to a read without room. -/
theorem exists_full {pool : MessageBlockPool} (hsmall : pool.blockSize < 4) :
    ∃ s b, (system Unit).Reachable s ∧ s.conn.blockPool = pool ∧ s.pending = some b ∧ b.len = 0 := by
  have hstart := starvingStart_reachable (fun _ _ => 0) pool
  obtain ⟨s₁, hreceive⟩ := Option.isSome_iff_exists.mp (step_receive_isSome
    (s := create (fun _ _ => 0) (starvingStart pool)) rfl (Environment.above.allocate_fresh 0 _))
  obtain ⟨hs₁, hpool₁⟩ := create_starving hsmall _ hreceive
  have hsome : (s₁.step (.readDone (.data (List.replicate pool.blockSize 0))
      (Environment.above.allocate 0 s₁.handles))).isSome := by
    apply step_readDone_isSome (reachable_inv (hstart.step hreceive)) hs₁.pending
    · rw [← hpool₁]
      exact Nat.le_of_eq List.length_replicate
    · exact Environment.above.allocate_fresh _ _
  obtain ⟨s₂, hread⟩ := Option.isSome_iff_exists.mp hsome
  obtain ⟨hs₂, hpool₂⟩ := hs₁.read hread
  refine ⟨s₂, _, (hstart.step hreceive).step hread, hpool₂.trans hpool₁, hs₂.pending, ?_⟩
  apply TCPConnection.len_bufferOf_full
  rw [hpool₂, hpool₁]
  exact (Nat.zero_add _).trans List.length_replicate

end Session

namespace Transfer

variable {env : Environment} {t : Transfer Unit} {r : BlockRef}

/-- At the end of the block each read brings no byte and leads to another one. -/
theorem await_starving (env : Environment) (reads : Nat) (h : t.session.Starving r)
    (hfull : r.beginOffset = t.session.conn.blockPool.blockSize) : t.await env reads = none := by
  induction reads generalizing t r with
  | zero => rw [await, h.pending]
  | succ reads ih =>
      have hread : readSome (t.session.conn.bufferOf r).len t.rest = (.data [], t.rest) :=
        if_pos (TCPConnection.len_bufferOf_full hfull)
      rw [await_succ env reads h.pending hread]
      cases hstep : t.session.step (.readDone (.data []) (t.fresh env)) with
      | none => rfl
      | some s =>
          obtain ⟨hs, hpool⟩ := h.read hstep
          rw [Option.bind_some]
          apply ih hs
          rw [hpool]
          exact hfull

/-- The one receive fills its block and then starves. -/
theorem receive_starves (env : Environment) {pool : MessageBlockPool} (hsmall : pool.blockSize < 4) (mem : Memory)
    {bs : List Byte} (hbs : bs.length = pool.blockSize) (reads : Nat) :
    (create mem (starvingStart pool) [bs]).receiveWithin env reads = none := by
  rw [receiveWithin]
  cases hreceive : (create mem (starvingStart pool) [bs]).session.step
      (.receive ((create mem (starvingStart pool) [bs]).fresh env)) with
  | none => rfl
  | some s =>
      obtain ⟨hs, hpool⟩ := Session.create_starving hsmall mem hreceive
      rw [Option.bind_some]
      cases reads with
      | zero => rw [await, hs.pending]
      | succ reads =>
          obtain ⟨rest, hread⟩ := readSome_full hbs
          rw [await_succ env reads hs.pending (hpool ▸ hread)]
          cases hstep : s.step (.readDone (.data bs) _) with
          | none => rfl
          | some s' =>
              obtain ⟨hs', hpool'⟩ := hs.read hstep
              apply await_starving env reads hs'
              rw [hpool', hpool, ← hbs]
              exact Nat.zero_add _

end Transfer

end Taps
