import Mathlib.Algebra.Order.BigOperators.Group.Finset
import Taps.Udp.Footprint
import Taps.Udp.Lemmas.Posted

/-!
# Lemmas on what a UDP Listener keeps

Where a Connection is that the application does not have yet, how much a Mailbox holds, and what a text says of a
limit.
-/

namespace Taps

/-! ## Texts -/

/-- The digits of a number, with as many zeros in front. -/
theorem isDigit_of_mem {zeros n : Nat} {c : Char} (h : c ∈ List.replicate zeros '0' ++ Nat.toDigits 10 n) :
    c.isDigit = true := by
  rcases List.mem_append.mp h with hc | hc
  · rw [List.eq_of_mem_replicate hc]
    rfl
  · exact Nat.isDigit_of_mem_toDigits (by decide) (by decide) hc

theorem takeWhile_digits {digits rest : List Char} (hdigits : ∀ c ∈ digits, c.isDigit = true)
    (h : ∀ c, rest.head? = some c → c.isDigit = false) :
    (digits ++ rest).takeWhile Char.isDigit = digits := by
  rw [List.takeWhile_append_of_pos hdigits]
  cases rest with
  | nil => simp
  | cons c rest => simp [h c rfl]

theorem dropWhile_spaces {spaces text : List Char} (hspaces : ∀ c ∈ spaces, isSpace c = true)
    (htext : ∀ c, text.head? = some c → isSpace c = false) : (spaces ++ text).dropWhile isSpace = text := by
  rw [List.dropWhile_append_of_pos hspaces]
  cases text with
  | nil => rfl
  | cons c text => simp [htext c rfl]

theorem isSpace_of_isDigit {c : Char} (h : c.isDigit = true) : isSpace c = false := by
  simp only [Char.isDigit, ge_iff_le, Bool.and_eq_true, decide_eq_true_eq] at h
  have hlow : 48 ≤ c.toNat := h.1
  have hne : c ≠ ' ' := fun he => by simp [he] at hlow
  simp only [isSpace, hne, decide_false, Bool.false_or, Bool.and_eq_false_imp, decide_eq_true_eq,
    decide_eq_false_iff_not]
  omega

theorem takeSign_of_isDigit {c : Char} (h : c.isDigit = true) (cs : List Char) :
    takeSign (c :: cs) = (false, c :: cs) := by
  have hminus : c ≠ '-' := fun he => by simp [he] at h
  have hplus : c ≠ '+' := fun he => by simp [he] at h
  unfold takeSign
  split
  · rename_i he
    exact absurd (List.cons.inj he).1 hminus
  · rename_i he
    exact absurd (List.cons.inj he).1 hplus
  · rfl

/-- White space and a sign in front of a digit. -/
theorem takeSign_dropWhile {negative : Bool} {spaces sign digits : List Char} {c : Char}
    (hspaces : ∀ c ∈ spaces, isSpace c = true)
    (hsign : if negative then sign = ['-'] else sign = [] ∨ sign = ['+']) (hc : c.isDigit = true) :
    takeSign ((spaces ++ sign ++ c :: digits).dropWhile isSpace) = (negative, c :: digits) := by
  rw [List.append_assoc]
  cases negative with
  | true =>
      obtain rfl : sign = ['-'] := hsign
      rw [dropWhile_spaces hspaces (by simp [isSpace])]
      rfl
  | false =>
      rcases (show sign = [] ∨ sign = ['+'] from hsign) with rfl | rfl
      · rw [dropWhile_spaces hspaces (by simpa using isSpace_of_isDigit hc)]
        exact takeSign_of_isDigit hc digits
      · rw [dropWhile_spaces hspaces (by simp [isSpace])]
        rfl

theorem strtoull_denotes {text : List Char} {negative : Bool} {n : Nat} (h : Denotes text negative n) :
    strtoull text = if ullongMax < n then ullongMax else if negative then (2 ^ 64 - n) % 2 ^ 64 else n := by
  obtain ⟨spaces, sign, zeros, rest, rfl, hspaces, hsign, hrest⟩ := h.shape
  have hdigits : ∀ c ∈ List.replicate zeros '0' ++ Nat.toDigits 10 n, c.isDigit = true := fun c => isDigit_of_mem
  have hvalue : Nat.ofDigitChars 10 (List.replicate zeros '0' ++ Nat.toDigits 10 n) 0 = n := by
    simp [Nat.ofDigitChars_append]
  have hne : List.replicate zeros '0' ++ Nat.toDigits 10 n ≠ [] := by simp [Nat.toDigits_ne_nil]
  rw [List.append_assoc (spaces ++ sign)]
  generalize List.replicate zeros '0' ++ Nat.toDigits 10 n = digits at hdigits hvalue hne
  obtain ⟨c, cs, rfl⟩ := List.exists_cons_of_ne_nil hne
  have htake := takeWhile_digits hdigits hrest
  rw [List.cons_append] at htake
  rw [strtoull, List.append_assoc, List.cons_append,
    takeSign_dropWhile hspaces hsign (hdigits c List.mem_cons_self)]
  simp only [htake, hvalue]

theorem envOr_denotes {s : String} {negative : Bool} {n : Nat} (h : Denotes s.toList negative n) (default : Nat) :
    envOr (some s) default = limit negative n default := by
  simp only [envOr, strtoull_denotes h, limit]
  by_cases hn : n = 0
  · simp [hn, ullongMax]
  · rw [if_neg hn]
    by_cases hmax : ullongMax < n
    · have hne : ullongMax ≠ 0 := by decide
      simp only [if_pos hmax, if_pos hne]
    · have hlt : n < 2 ^ 64 := by
        simp only [ullongMax] at hmax
        omega
      cases negative with
      | true =>
          have hmod : (2 ^ 64 - n) % 2 ^ 64 = 2 ^ 64 - n := Nat.mod_eq_of_lt (by omega)
          have hne : 2 ^ 64 - n ≠ 0 := by omega
          simp only [if_neg hmax, if_true, hmod, if_pos hne]
      | false => simp only [if_neg hmax, Bool.false_eq_true, if_false, if_pos hn]

/-! ## Connections that the application does not have -/

namespace Peer

variable {E : Type} {p : Peer E}

@[simp] theorem place_receive (p : Peer E) : p.receive.place = p.place := rfl

@[simp] theorem capacity_deliver (p : Peer E) (d : Datagram E) :
    (p.deliver d).mailbox.capacity = p.mailbox.capacity := by
  simp only [deliver, Mailbox.deliver]
  split <;> rfl

@[simp] theorem capacity_receive (p : Peer E) : p.receive.mailbox.capacity = p.mailbox.capacity := by
  rcases p.receive_cases with ⟨d, m, hpop, h⟩ | ⟨-, -, h⟩ | ⟨-, -, h⟩
  · rw [h]
    unfold Mailbox.tryPop at hpop
    split at hpop
    · cases hpop
    · cases hpop
      rfl
  · rw [h]
  · rw [h]
    rfl

end Peer

namespace Demux

variable {E : Type} {s t u : Demux E} {b : Nat} {p q : Peer E} {limbo : Option Nat}

/-- A Connection that neither the application has nor is destroyed is in the channel, or it is the one that
`receive_loop()` is about to put somewhere; and no Mailbox has another bound than the default one. -/
structure Shelved (limbo : Option Nat) (s : Demux E) : Prop where
  place : ∀ (b : Nat) (p : Peer E), s.peers[b]? = some p → p.place = .channel → b ∈ s.channel.buffer ∨ limbo = some b
  length : s.channel.buffer.length ≤ channelCapacity
  capacity : ∀ (b : Nat) (p : Peer E), s.peers[b]? = some p → p.mailbox.capacity = Mailbox.defaultCapacity

/-- No Connection is put back into the channel, and the bounds stay. -/
structure Keeps (s t : Demux E) : Prop where
  buffer : t.channel.buffer = s.channel.buffer
  peers : ∀ (b : Nat) (q : Peer E), t.peers[b]? = some q → ∃ p : Peer E, s.peers[b]? = some p ∧
    (q.place = .channel → p.place = .channel) ∧ q.mailbox.capacity = p.mailbox.capacity

theorem Keeps.of_peers (hbuffer : t.channel.buffer = s.channel.buffer) (hpeers : t.peers = s.peers) : Keeps s t where
  buffer := hbuffer
  peers _ q hq := ⟨q, hpeers ▸ hq, id, rfl⟩

theorem Keeps.refl (s : Demux E) : Keeps s s := .of_peers rfl rfl

theorem Keeps.trans (h : Keeps s t) (h' : Keeps t u) : Keeps s u where
  buffer := h'.buffer.trans h.buffer
  peers b r hr := by
    obtain ⟨q, hq, hplace', hcap'⟩ := h'.peers b r hr
    obtain ⟨p, hp, hplace, hcap⟩ := h.peers b q hq
    exact ⟨p, hp, hplace ∘ hplace', hcap'.trans hcap⟩

theorem keeps_update {f : Peer E → Peer E} (hplace : ∀ p : Peer E, (f p).place = .channel → p.place = .channel)
    (hcap : ∀ p : Peer E, (f p).mailbox.capacity = p.mailbox.capacity) (b : Nat) : Keeps s (s.update b f) where
  buffer := rfl
  peers b' q hq := by
    obtain ⟨p, hp, ⟨-, rfl⟩ | ⟨-, rfl⟩⟩ := eq_of_getElem?_update hq
    · exact ⟨p, hp, hplace p, hcap p⟩
    · exact ⟨q, hp, id, rfl⟩

theorem keeps_release (s : Demux E) (b : Nat) : Keeps s (s.release b) := by
  unfold release
  split
  · exact .of_peers rfl rfl
  · split
    · exact .refl s
    · exact (keeps_update (f := Peer.setReleased) (fun _ => id) (fun _ => rfl) _).trans (.of_peers rfl rfl)

theorem Shelved.keeps (h : s.Shelved limbo) (hk : Keeps s t) : t.Shelved limbo where
  place b q hq hch := by
    obtain ⟨p, hp, hplace, -⟩ := hk.peers b q hq
    rw [hk.buffer]
    exact h.place b p hp (hplace hch)
  length := hk.buffer ▸ h.length
  capacity b q hq := by
    obtain ⟨p, hp, -, hcap⟩ := hk.peers b q hq
    exact hcap.trans (h.capacity b p hp)

theorem create_shelved (config : DemuxConfig) : (create (E := E) config).Shelved none where
  place := by simp [create]
  length := by simp [create]
  capacity := by simp [create]

/-- The Connection leaves the channel, if it is there. -/
theorem Shelved.leave (h : s.Shelved limbo) (f : Peer E → Peer E) (hpeers : t.peers = (s.update b f).peers)
    (hlimbo : ∀ b', limbo = some b' → b' = b) (hplace : ∀ p : Peer E, (f p).place ≠ .channel)
    (hcap : ∀ p : Peer E, (f p).mailbox.capacity = p.mailbox.capacity)
    (hbuf : ∀ b' ∈ s.channel.buffer, b' ≠ b → b' ∈ t.channel.buffer)
    (hlen : t.channel.buffer.length ≤ channelCapacity) : t.Shelved none where
  place b' q hq hch := by
    rw [hpeers] at hq
    obtain ⟨p, hp, ⟨-, rfl⟩ | ⟨hne, rfl⟩⟩ := eq_of_getElem?_update hq
    · exact absurd hch (hplace p)
    · rcases h.place b' q hp hch with hb | hb
      · exact .inl (hbuf b' hb (Ne.symm hne))
      · exact absurd (hlimbo b' hb).symm hne
  length := hlen
  capacity b' q hq := by
    rw [hpeers] at hq
    obtain ⟨p, hp, ⟨-, rfl⟩ | ⟨-, rfl⟩⟩ := eq_of_getElem?_update hq
    · exact (hcap p).trans (h.capacity b' p hp)
    · exact h.capacity b' q hp

theorem Shelved.accept (h : s.Shelved none) : s.accept.Shelved none := by
  unfold Demux.accept
  cases hbuf : s.channel.buffer with
  | cons b buffer =>
      have hlen := h.length
      rw [hbuf] at hlen
      refine h.leave Peer.accept rfl nofun (fun p hp => by cases hp) (fun _ => rfl) (fun b' hb' hne => ?_)
        (Nat.le_of_succ_le hlen)
      rw [hbuf] at hb'
      exact (List.mem_cons.mp hb').resolve_left hne
  | nil =>
      simp only
      split
      · exact h.keeps (.of_peers rfl rfl)
      · exact h.keeps (.of_peers rfl rfl)

theorem Shelved.trySend (h : s.Shelved (some b)) (ht : s.trySend b = some t) : t.Shelved none := by
  unfold Demux.trySend at ht
  split at ht
  · cases ht
  · split at ht
    · cases ht
      exact h.leave Peer.accept rfl (fun b' hb' => (Option.some.inj hb').symm) (fun p hp => by cases hp)
        (fun _ => rfl) (fun b' hb' _ => hb') h.length
    · split at ht
      · rename_i hlt
        cases ht
        refine { place := fun b' p hp hch => ?_, length := ?_, capacity := h.capacity }
        · rcases h.place b' p hp hch with hb | hb
          · exact .inl (List.mem_append_left _ hb)
          · cases hb
            exact .inl (by simp)
        · rw [List.length_append]
          exact hlt
      · cases ht

variable [DecidableEq E]

theorem keeps_evict (s : Demux E) (it : Nat) (cause : CloseCause) : Keeps s (s.evict it cause) := by
  unfold evict
  split
  · exact .of_peers rfl rfl
  · rename_i n _
    exact (keeps_update (f := fun p => p.closeMailbox cause) (fun _ => id) (fun _ => rfl) n.value.mailbox).trans
      (.of_peers rfl rfl)

theorem keeps_makeRoom (s : Demux E) : Keeps s s.makeRoom := by
  rcases s.makeRoom_evicts with h | ⟨it, h⟩
  · rw [h]
    exact .refl s
  · rw [h]
    exact keeps_evict s it .displaced

theorem keeps_sweepIdle (s : Demux E) (cutoff : Int) (fuel : Nat) : Keeps s (s.sweepIdle cutoff fuel) :=
  sweepIdle_preserves (I := Keeps s) (fun t n _ h => h.trans (keeps_evict t n.id .idle)) (.refl s) cutoff fuel

theorem keeps_runRelease (s : Demux E) (x : Release E) : Keeps s (s.runRelease x) := by
  rcases s.runRelease_evicts x with h | ⟨it, h⟩
  · rw [h]
    exact .refl s
  · rw [h]
    exact keeps_evict s it .owner

theorem Shelved.add (h : s.Shelved none) (source : E) (address : Addr) (now : Int) :
    (s.add source address now).Shelved (some s.peers.length) where
  place b q hq hch := by
    rcases eq_of_getElem?_add hq with ⟨-, hq⟩ | ⟨rfl, -⟩
    · exact .inl ((h.place b q hq hch).resolve_right nofun)
    · exact .inr rfl
  length := h.length
  capacity b q hq := by
    rcases eq_of_getElem?_add hq with ⟨-, hq⟩ | ⟨-, rfl⟩
    · exact h.capacity b q hq
    · rfl

theorem Shelved.connect (h : s.Shelved none) (now : Int) (address : Addr) (d : Datagram E) :
    (s.connect now address d).Shelved none := by
  have hadd := h.add d.source address now
  unfold Demux.connect
  cases hsend : (s.add d.source address now).trySend s.peers.length with
  | some t =>
      simp only [hsend]
      exact (hadd.trySend hsend).keeps (keeps_update (f := fun p => p.deliver d) (fun _ => id) (by simp) _)
  | none =>
      simp only [hsend]
      have hrel := hadd.keeps (keeps_release _ s.peers.length)
      exact hrel.leave Peer.destroy rfl (fun b' hb' => (Option.some.inj hb').symm) (fun p hp => by cases hp)
        (fun _ => rfl) (fun b' hb' _ => hb') hrel.length

theorem Shelved.serve (h : s.Shelved none) (now : Int) (address : Addr) (d : Datagram E) :
    (s.serve now address d).Shelved none := by
  unfold Demux.serve
  split
  · split
    · exact h.keeps (.of_peers rfl rfl)
    · rename_i n _
      exact (h.keeps (t := { s with table := s.table.touch n { n.value with lastActive := now } })
        (.of_peers rfl rfl)).keeps (keeps_update (f := fun p => p.deliver d) (fun _ => id) (by simp) _)
  · split
    · exact (h.keeps (keeps_makeRoom s)).connect now address d
    · exact h

/-! ## How much that is -/

omit [DecidableEq E] in
/-- Each of the Mailboxes is one of an entry, or that of a Connection in the channel. -/
theorem card_unowned_le (h : s.Shelved none) (hbound : s.table.nodes.length ≤ s.config.maxConnections) :
    s.unowned.card ≤ s.config.maxConnections + channelCapacity := by
  have hsub : s.unowned ⊆ (s.table.nodes.map (fun n => n.value.mailbox) ++ s.channel.buffer).toFinset := by
    intro b hb
    obtain ⟨-, p, hp, -, hch | ⟨n, hn, rfl⟩⟩ := Finset.mem_filter.mp hb
    · have hbuf := (h.place b p hp hch).resolve_right nofun
      exact List.mem_toFinset.mpr (List.mem_append_right _ hbuf)
    · exact List.mem_toFinset.mpr (List.mem_append_left _ (List.mem_map_of_mem hn))
  have hlen := h.length
  calc s.unowned.card ≤ _ := Finset.card_le_card hsub
    _ ≤ _ := List.toFinset_card_le _
    _ ≤ s.config.maxConnections + channelCapacity := by
        rw [List.length_append, List.length_map]
        omega

omit [DecidableEq E] in
theorem queued_le (h : s.Shelved none) (b : Nat) : s.queued b ≤ Mailbox.defaultCapacity := by
  unfold queued
  cases hp : s.peers[b]? with
  | none => exact Nat.zero_le _
  | some p =>
      have hle := p.mailbox.toQueue.length_le
      have hcap : p.mailbox.toQueue.bound = Mailbox.defaultCapacity := h.capacity b p hp
      rw [hcap] at hle
      exact hle

omit [DecidableEq E] in
theorem backlog_le (h : s.Shelved none) (hbound : s.table.nodes.length ≤ s.config.maxConnections) :
    s.backlog ≤ (s.config.maxConnections + channelCapacity) * Mailbox.defaultCapacity := by
  calc s.backlog ≤ s.unowned.card • Mailbox.defaultCapacity :=
        Finset.sum_le_card_nsmul _ _ _ fun b _ => queued_le h b
    _ ≤ (s.config.maxConnections + channelCapacity) * Mailbox.defaultCapacity :=
        Nat.mul_le_mul_right _ (card_unowned_le h hbound)

end Demux

namespace UDPDemux

variable {E : Type} [DecidableEq E] {s s' : UDPDemux E} {e : DemuxEvent E}

theorem Steps.shelved (h : Steps s e s') (hs : s.demux.Shelved none) : s'.demux.Shelved none := by
  cases h with
  | arrive hl ho => rwa [demux_arrive]
  | @resume now address atCap sink outcome hl ha =>
      rcases resume_demux_cases hl now address atCap with ⟨d, -, hserve⟩ | ⟨-, hsame⟩
      · rw [hserve]
        exact hs.serve now address d
      · rwa [hsame]
  | expire | cancelled => exact hs
  | sweep hl =>
      rw [demux_shutDownIfUnused]
      exact hs.keeps (Demux.keeps_sweepIdle ..)
  | accept => exact hs.accept
  | stop =>
      rw [demux_shutDownIfUnused]
      exact hs.keeps (.of_peers rfl rfl)
  | @release i x hh =>
      rw [demux_shutDownIfUnused]
      exact (hs.keeps (t := s.demux.unpost i) (.of_peers rfl rfl)).keeps (Demux.keeps_runRelease ..)
  | receive hb ho => exact hs.keeps (Demux.keeps_update (f := Peer.receive) (fun _ => id) (by simp) _)
  | wake hb ho =>
      exact hs.keeps (Demux.keeps_update (f := Peer.wake) (fun _ => id) (fun p => Peer.capacity_receive _) _)
  | @close b p aborted hb ho =>
      exact (hs.keeps (Demux.keeps_update (f := fun p => p.shut aborted) (fun _ => id) (fun _ => rfl) _)).keeps
        (Demux.keeps_release _ b)
  | @destroy b p hb ho =>
      exact (hs.keeps (Demux.keeps_release _ b)).keeps (Demux.keeps_update (f := Peer.destroy) (fun _ => nofun)
        (fun _ => rfl) _)

theorem shelved_of_reachable {config : DemuxConfig} (h : (system config).Reachable s) : s.demux.Shelved none := by
  refine h.invariant (I := fun s => s.demux.Shelved none) (fun s hs => ?_) fun s e s' hs hst => ?_
  · obtain ⟨atCap, rfl⟩ := hs
    exact Demux.create_shelved config
  · exact (step_steps hst).shelved hs

end UDPDemux

end Taps
