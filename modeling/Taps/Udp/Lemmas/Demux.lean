import Mathlib.Logic.Relation
import Taps.Udp.Demux
import Taps.Udp.Lemmas.Peer

/-!
# The moves that the strand handlers are made of

Every handler of the strand and every call of the application is a sequence of a few moves on the table
and the peers, and possibly one delivery. What a handler keeps follows from what the moves and a delivery
keep.
-/

namespace Taps.Demux

variable {E : Type}

/-- Somebody shares the `b`-th Mailbox. -/
def Alive (s : Demux E) (b : Nat) (p : Peer E) : Prop :=
  s.peers[b]? = some p ∧ (p.place ≠ .destroyed ∨ s.InTable b)

/-- No datagram is in the history of two peers. -/
def Disjoint (s : Demux E) : Prop :=
  ∀ (b b' : Nat) (p p' : Peer E), s.peers[b]? = some p → s.peers[b']? = some p' → b ≠ b' →
    ∀ d ∈ p.enqueued, ∀ d' ∈ p'.enqueued, d.seq ≠ d'.seq

/-- Every datagram that was enqueued so far satisfies `P`. -/
def Enqueued (s : Demux E) (P : Datagram E → Prop) : Prop :=
  ∀ (b : Nat) (p : Peer E), s.peers[b]? = some p → ∀ d ∈ p.enqueued, P d

section

variable [DecidableEq E]

/-- `G` says where a Mailbox for a new source may be put, given the handlers that are posted. -/
inductive Move (G : List (Release E) → E → Addr → Prop) : Demux E → Demux E → Prop
  | channel (s) (accepting) (channel : AcceptChannel) (accepts)
      (h : accepting = true → s.accepting = true)
      (hbuf : channel.buffer.Sublist s.channel.buffer) :
      Move G s { s with accepting, channel, accepts }
  | enqueue (s) {b : Nat} {p : Peer E} (hp : s.peers[b]? = some p) (hplace : p.place = .channel)
      (hb : b ∉ s.channel.buffer) :
      Move G s { s with channel := { s.channel with buffer := s.channel.buffer ++ [b] } }
  | act (s) {b : Nat} {p : Peer E} (f : Peer E → Peer E) (hp : s.peers[b]? = some p)
      (hf : p.Acts (f p)) (hplace : b ∈ s.channel.buffer → (f p).place = p.place) :
      Move G s (s.update b f)
  | touch (s) {n} (now : Int) (hn : n ∈ s.table.nodes) :
      Move G s { s with table := s.table.touch n { n.value with lastActive := now } }
  | remove (s) {n} (cause) (hn : n ∈ s.table.nodes) : Move G s (s.remove n cause)
  | add (s) {source address} (now : Int) (hacc : s.accepting = true)
      (hl : s.table.index.lookup source = none)
      (hlen : s.table.nodes.length < s.config.maxConnections) (hlive : address ∉ s.live)
      (hG : G s.posted source address) : Move G s (s.add source address now)
  | post (s) {b : Nat} {p : Peer E} (hp : s.peers[b]? = some p) (hplace : p.place ≠ .destroyed) :
      Move G s { s.update b Peer.setReleased with
        posted := s.posted ++ [{ source := p.source, mailbox := p.address, poster := b }] }
  | unpost (s) (i : Nat) : Move G s (s.unpost i)

abbrev Moves (G : List (Release E) → E → Addr → Prop) : Demux E → Demux E → Prop :=
  Relation.ReflTransGen (Move G)

/-- What a handler does with a datagram: moves, and possibly a delivery to a Connection of the source at
the end. -/
inductive Serves (G : List (Release E) → E → Addr → Prop) (d : Datagram E) (s : Demux E) :
    Demux E → Prop
  | dropped {t} (h : Moves G s t) : Serves G d s t
  | delivered {t : Demux E} {b : Nat} {p : Peer E} (h : Moves G s t) (hp : t.peers[b]? = some p)
      (hs : d.source = p.source) : Serves G d s (t.update b fun p => p.deliver d)

structure Inv (s : Demux E) : Prop where
  running : s.crashed = false
  agrees : s.table.Agrees
  bound : s.table.nodes.length ≤ s.config.maxConnections
  source : ∀ n ∈ s.table.nodes, ∃ p, s.peers[n.value.mailbox]? = some p ∧ p.source = n.key
  isOpen : ∀ (b : Nat) (p : Peer E), s.peers[b]? = some p → (p.mailbox.closed = false ↔ s.InTable b)
  accounted : ∀ (b : Nat) (p : Peer E), s.peers[b]? = some p → p.Accounted
  disjoint : s.Disjoint
  queue : s.channel.buffer.Nodup
  queued : ∀ b ∈ s.channel.buffer, ∃ p : Peer E, s.peers[b]? = some p ∧ p.place = .channel

end

variable {s t : Demux E} {b b' : Nat} {p : Peer E} {f : Peer E → Peer E} {d : Datagram E}

/-! ## Updates of one peer -/

theorem getElem?_update (s : Demux E) (b : Nat) (f : Peer E → Peer E) (b' : Nat) :
    (s.update b f).peers[b']? = (s.peers[b']?).map fun p => if b = b' then f p else p := by
  simp only [update, List.getElem?_modify]
  split
  · rfl
  · simp

theorem getElem?_update_self (h : s.peers[b]? = some p) : (s.update b f).peers[b]? = some (f p) := by
  simp [getElem?_update, h]

theorem getElem?_update_ne (h : b ≠ b') : (s.update b f).peers[b']? = s.peers[b']? := by
  simp [getElem?_update, h]

theorem eq_of_getElem?_update {q : Peer E} (h : (s.update b f).peers[b']? = some q) :
    ∃ p, s.peers[b']? = some p ∧ (b = b' ∧ q = f p ∨ b ≠ b' ∧ q = p) := by
  rw [getElem?_update, Option.map_eq_some_iff] at h
  obtain ⟨p, hp, rfl⟩ := h
  refine ⟨p, hp, ?_⟩
  split
  · rename_i he
    exact .inl ⟨he, rfl⟩
  · rename_i hne
    exact .inr ⟨hne, rfl⟩

theorem later_update (hp : s.peers[b]? = some p) (hf : p.Later (f p)) {q : Peer E}
    (hq : (s.update b f).peers[b']? = some q) : ∃ p, s.peers[b']? = some p ∧ p.Later q := by
  obtain ⟨p', hp', ⟨rfl, rfl⟩ | ⟨-, rfl⟩⟩ := eq_of_getElem?_update hq
  · rw [hp] at hp'
    cases hp'
    exact ⟨p, hp, hf⟩
  · exact ⟨q, hp', .refl q⟩

theorem mem_enqueued_deliver {q : Peer E} (hq : (s.update b fun p => p.deliver d).peers[b']? = some q) :
    ∃ p, s.peers[b']? = some p ∧ ∀ x ∈ q.enqueued, x ∈ p.enqueued ∨ x = d ∧ b = b' := by
  obtain ⟨p, hp, ⟨rfl, rfl⟩ | ⟨-, rfl⟩⟩ := eq_of_getElem?_update hq
  · refine ⟨p, hp, fun x hx => ?_⟩
    rcases p.deliver_cases d with ⟨-, he⟩ | ⟨-, r, q, -, -, -, he⟩
    · exact .inl (he ▸ hx)
    · rw [he] at hx
      rcases List.mem_append.mp hx with hx | hx
      · exact .inl hx
      · exact .inr ⟨List.mem_singleton.mp hx, rfl⟩
  · exact ⟨q, hp, fun x hx => .inl hx⟩

theorem enqueued_deliver {P : Datagram E → Prop} (hs : s.Enqueued P) (hd : P d) :
    (s.update b fun p => p.deliver d).Enqueued P := by
  intro b' q hq x hx
  obtain ⟨p, hp, he⟩ := mem_enqueued_deliver hq
  rcases he x hx with hx | ⟨rfl, -⟩
  · exact hs b' p hp x hx
  · exact hd

theorem exists_update (hp : s.peers[b]? = some p) (hf : b' = b → p.Later (f p)) :
    ∃ q, (s.update b' f).peers[b]? = some q ∧ p.Later q := by
  by_cases hb : b' = b
  · subst hb
    exact ⟨_, getElem?_update_self hp, hf rfl⟩
  · exact ⟨p, (getElem?_update_ne hb).trans hp, .refl p⟩

theorem Alive.mem_live (h : s.Alive b p) : p.address ∈ s.live := by
  obtain ⟨hp, ha⟩ := h
  obtain ⟨hlt, rfl⟩ := List.getElem?_eq_some_iff.mp hp
  refine List.mem_map.mpr ⟨(s.peers[b], b), List.mem_filter.mpr ⟨?_, by simpa using ha⟩, rfl⟩
  exact List.mk_mem_zipIdx_iff_getElem?.mpr hp

/-! ## Moves -/

variable [DecidableEq E]

variable {G : List (Release E) → E → Addr → Prop}

theorem Move.config (h : Move G s t) : t.config = s.config := by
  cases h <;> rfl

theorem Moves.config (h : Moves G s t) : t.config = s.config := by
  induction h with
  | refl => rfl
  | tail _ hm ih => exact hm.config.trans ih

theorem eq_of_getElem?_add {source : E} {address : Addr} {now : Int} {q : Peer E}
    (h : (s.add source address now).peers[b]? = some q) :
    b ≠ s.peers.length ∧ s.peers[b]? = some q ∨
      b = s.peers.length ∧ q = .create source address := by
  rw [add, List.getElem?_append] at h
  split at h
  · rename_i hlt
    exact .inl ⟨Nat.ne_of_lt hlt, h⟩
  · rename_i hge
    obtain ⟨hlt, rfl⟩ := List.getElem?_eq_some_iff.mp h
    rw [List.length_singleton] at hlt
    exact .inr ⟨by omega, by simp⟩

theorem getElem?_add_of_some {source : E} {address : Addr} {now : Int}
    (h : s.peers[b]? = some p) : (s.add source address now).peers[b]? = some p := by
  obtain ⟨hlt, -⟩ := List.getElem?_eq_some_iff.mp h
  exact (List.getElem?_append_left hlt).trans h

/-- A move gives every peer a later state, and creates at most one. -/
theorem Move.peers (h : Move G s t) {q : Peer E} (hq : t.peers[b]? = some q) :
    (∃ p, s.peers[b]? = some p ∧ p.Later q) ∨
      b = s.peers.length ∧ ∃ source address, q = .create source address ∧ address ∉ s.live := by
  cases h with
  | channel | enqueue | touch | unpost => exact .inl ⟨q, hq, .refl q⟩
  | act f hp hf _ => exact .inl (later_update hp hf.toLater hq)
  | remove cause hn =>
      refine .inl ?_
      obtain ⟨p, hp, ⟨-, rfl⟩ | ⟨-, rfl⟩⟩ := eq_of_getElem?_update hq
      · exact ⟨p, hp, p.later_closeMailbox cause⟩
      · exact ⟨q, hp, .refl q⟩
  | add now hacc hl hlen hlive hG =>
      rcases eq_of_getElem?_add hq with ⟨-, hq⟩ | ⟨rfl, rfl⟩
      · exact .inl ⟨q, hq, .refl q⟩
      · exact .inr ⟨rfl, _, _, rfl, hlive⟩
  | post hp hplace => exact .inl (later_update hp (Peer.acts_own _ _ id).toLater hq)

theorem Move.exists_later (h : Move G s t) (hp : s.peers[b]? = some p) :
    ∃ q, t.peers[b]? = some q ∧ p.Later q := by
  cases h with
  | channel | enqueue | touch | unpost => exact ⟨p, hp, .refl p⟩
  | act f hp' hf _ =>
      refine exists_update hp fun he => ?_
      subst he
      rw [hp] at hp'
      cases hp'
      exact hf.toLater
  | remove cause hn => exact exists_update hp fun _ => p.later_closeMailbox cause
  | add => exact ⟨p, getElem?_add_of_some hp, .refl p⟩
  | post hp' hplace => exact exists_update hp fun _ => (Peer.acts_own _ _ id).toLater

theorem Moves.exists_later (h : Moves G s t) (hp : s.peers[b]? = some p) :
    ∃ q, t.peers[b]? = some q ∧ p.Later q := by
  induction h with
  | refl => exact ⟨p, hp, .refl p⟩
  | tail _ hm ih =>
      obtain ⟨q, hq, hl⟩ := ih
      obtain ⟨r, hr, hl'⟩ := hm.exists_later hq
      exact ⟨r, hr, hl.trans hl'⟩

theorem Move.enqueued (h : Move G s t) {P : Datagram E → Prop} (hs : s.Enqueued P) : t.Enqueued P := by
  intro b q hq
  rcases h.peers hq with ⟨p, hp, hl⟩ | ⟨-, _, _, rfl, -⟩
  · intro d hd
    exact hs b p hp d (hl.enqueued ▸ hd)
  · intro d hd
    cases hd

theorem Move.disjoint (h : Move G s t) (hs : s.Disjoint) : t.Disjoint := by
  intro b b' q q' hq hq' hne d hd d' hd'
  rcases h.peers hq with ⟨p, hp, hl⟩ | ⟨-, _, _, rfl, -⟩
  · rcases h.peers hq' with ⟨p', hp', hl'⟩ | ⟨-, _, _, rfl, -⟩
    · exact hs b b' p p' hp hp' hne d (hl.enqueued ▸ hd) d' (hl'.enqueued ▸ hd')
    · cases hd'
  · cases hd

/-! ## The invariant of the table and the peers -/

theorem create_inv (config : DemuxConfig) : (create (E := E) config).Inv where
  running := rfl
  agrees := Lib.LinkedMap.agrees_empty
  bound := Nat.zero_le _
  source := by simp [create, Lib.LinkedMap.empty]
  isOpen := by simp [create]
  accounted := by simp [create]
  disjoint := by simp [create, Disjoint]
  queue := List.nodup_nil
  queued := by simp [create]

namespace Inv

theorem congr (h : s.Inv) (hcrashed : t.crashed = s.crashed) (hconfig : t.config = s.config)
    (htable : t.table = s.table) (hpeers : t.peers = s.peers)
    (hbuf : t.channel.buffer.Sublist s.channel.buffer) : t.Inv := by
  obtain ⟨h₁, h₂, h₃, h₄, h₅, h₆, h₇, h₈, h₉⟩ := h
  exact
    { running := hcrashed.trans h₁
      agrees := htable ▸ h₂
      bound := by rwa [htable, hconfig]
      source := by rwa [htable, hpeers]
      isOpen := by simpa only [InTable, htable, hpeers] using h₅
      accounted := by rwa [hpeers]
      disjoint := by rwa [Disjoint, hpeers]
      queue := h₈.sublist hbuf
      queued := fun b hb => hpeers ▸ h₉ b (hbuf.subset hb) }

theorem eq_of_mailbox (h : s.Inv) {n n' : Lib.Node E Entry} (hn : n ∈ s.table.nodes)
    (hn' : n' ∈ s.table.nodes) (hm : n.value.mailbox = n'.value.mailbox) : n = n' := by
  obtain ⟨p, hp, hsrc⟩ := h.source n hn
  obtain ⟨p', hp', hsrc'⟩ := h.source n' hn'
  rw [hm, hp'] at hp
  cases hp
  exact h.agrees.eq_of_key hn hn' (hsrc.symm.trans hsrc')

theorem update (h : s.Inv) (hp : s.peers[b]? = some p) (hsrc : (f p).source = p.source)
    (hcl : (f p).mailbox.closed = p.mailbox.closed) (hacc : (f p).Accounted)
    (hplace : b ∈ s.channel.buffer → (f p).place = p.place) (hd : (s.update b f).Disjoint) : (s.update b f).Inv where
  running := h.running
  agrees := h.agrees
  bound := h.bound
  source n hn := by
    obtain ⟨q, hq, hs⟩ := h.source n hn
    by_cases hb : b = n.value.mailbox
    · subst hb
      rw [hp] at hq
      cases hq
      exact ⟨f p, getElem?_update_self hp, hsrc.trans hs⟩
    · exact ⟨q, (getElem?_update_ne hb).trans hq, hs⟩
  isOpen b' q hq := by
    obtain ⟨p', hp', ⟨rfl, rfl⟩ | ⟨-, rfl⟩⟩ := eq_of_getElem?_update hq
    · rw [hp] at hp'
      cases hp'
      rw [hcl]
      exact h.isOpen b p hp
    · exact h.isOpen b' q hp'
  accounted b' q hq := by
    obtain ⟨p', hp', ⟨rfl, rfl⟩ | ⟨-, rfl⟩⟩ := eq_of_getElem?_update hq
    · rw [hp] at hp'
      cases hp'
      exact hacc
    · exact h.accounted b' q hp'
  disjoint := hd
  queue := h.queue
  queued b' hb' := by
    obtain ⟨q, hq, hch⟩ := h.queued b' hb'
    by_cases hb : b = b'
    · subst hb
      rw [hp] at hq
      cases hq
      exact ⟨f p, getElem?_update_self hp, (hplace hb').trans hch⟩
    · exact ⟨q, (getElem?_update_ne hb).trans hq, hch⟩

theorem touch (h : s.Inv) {n : Lib.Node E Entry} (hn : n ∈ s.table.nodes) (now : Int) :
    { s with table := s.table.touch n { n.value with lastActive := now } }.Inv where
  running := h.running
  agrees := h.agrees.touch hn _
  bound := Nat.le_trans (Lib.LinkedMap.length_touch_le hn _) h.bound
  source n' hn' := by
    rcases (h.agrees.mem_touch hn).mp hn' with rfl | ⟨hn', -⟩
    · exact h.source n hn
    · exact h.source n' hn'
  isOpen b p hp := by
    rw [h.isOpen b p hp]
    refine ⟨?_, ?_⟩
    · rintro ⟨x, hx, hb⟩
      by_cases he : x = n
      · exact ⟨_, (h.agrees.mem_touch hn).mpr (.inl rfl), by rw [← hb, he]⟩
      · exact ⟨x, (h.agrees.mem_touch hn).mpr (.inr ⟨hx, he⟩), hb⟩
    · rintro ⟨x, hx, hb⟩
      rcases (h.agrees.mem_touch hn).mp hx with rfl | ⟨hx, -⟩
      · exact ⟨n, hn, hb⟩
      · exact ⟨x, hx, hb⟩
  accounted := h.accounted
  disjoint := h.disjoint
  queue := h.queue
  queued := h.queued

theorem inTable_remove (h : s.Inv) {n : Lib.Node E Entry} (hn : n ∈ s.table.nodes)
    (cause : CloseCause) :
    (s.remove n cause).InTable b ↔ s.InTable b ∧ b ≠ n.value.mailbox := by
  refine ⟨?_, ?_⟩
  · rintro ⟨x, hx, rfl⟩
    obtain ⟨hx, hne⟩ := (h.agrees.mem_erase hn).mp hx
    exact ⟨⟨x, hx, rfl⟩, fun he => hne (h.eq_of_mailbox hx hn he)⟩
  · rintro ⟨⟨x, hx, rfl⟩, hne⟩
    exact ⟨x, (h.agrees.mem_erase hn).mpr ⟨hx, fun he => hne (by rw [he])⟩, rfl⟩

theorem remove (h : s.Inv) {n : Lib.Node E Entry} (hn : n ∈ s.table.nodes) (cause : CloseCause) :
    (s.remove n cause).Inv where
  running := h.running
  agrees := h.agrees.erase hn
  bound := Nat.le_trans (Nat.le_of_lt (Lib.LinkedMap.length_erase_lt hn)) h.bound
  source n' hn' := by
    obtain ⟨p, hp, hs⟩ := h.source n' (Lib.LinkedMap.mem_erase.mp hn').1
    refine ⟨_, (getElem?_update ..).trans (congrArg _ hp), ?_⟩
    split
    · exact hs
    · exact hs
  isOpen b q hq := by
    rw [h.inTable_remove hn]
    obtain ⟨p, hp, ⟨rfl, rfl⟩ | ⟨hne, rfl⟩⟩ := eq_of_getElem?_update hq
    · exact ⟨fun hc => Bool.noConfusion hc, fun hc => absurd rfl hc.2⟩
    · rw [h.isOpen b q hp]
      exact ⟨fun hb => ⟨hb, hne.symm⟩, fun hb => hb.1⟩
  accounted b q hq := by
    obtain ⟨p, hp, ⟨-, rfl⟩ | ⟨-, rfl⟩⟩ := eq_of_getElem?_update hq
    · exact (h.accounted b p hp).closeMailbox cause
    · exact h.accounted b q hp
  disjoint := (Move.remove (G := fun _ _ _ => True) s cause hn).disjoint h.disjoint
  queue := h.queue
  queued b hb := by
    obtain ⟨p, hp, hch⟩ := h.queued b hb
    refine ⟨_, (getElem?_update ..).trans (congrArg _ hp), ?_⟩
    split
    · exact hch
    · exact hch

theorem add (h : s.Inv) {source : E} {address : Addr} (now : Int)
    (hl : s.table.index.lookup source = none)
    (hlen : s.table.nodes.length < s.config.maxConnections)
    (hd : (s.add source address now).Disjoint) : (s.add source address now).Inv where
  running := h.running
  agrees := h.agrees.pushFront hl _
  bound := hlen
  source n hn := by
    rcases Lib.LinkedMap.mem_pushFront.mp hn with rfl | hn
    · exact ⟨.create source address, List.getElem?_concat_length, rfl⟩
    · obtain ⟨p, hp, hs⟩ := h.source n hn
      exact ⟨p, getElem?_add_of_some hp, hs⟩
  isOpen b q hq := by
    have hnew : ¬ s.InTable s.peers.length := by
      rintro ⟨n, hn, hb⟩
      obtain ⟨p, hp, -⟩ := h.source n hn
      rw [hb] at hp
      simp at hp
    have hin : (s.add source address now).InTable b ↔ b = s.peers.length ∨ s.InTable b := by
      refine ⟨?_, ?_⟩
      · rintro ⟨n, hn, rfl⟩
        rcases Lib.LinkedMap.mem_pushFront.mp hn with rfl | hn
        · exact .inl rfl
        · exact .inr ⟨n, hn, rfl⟩
      · rintro (rfl | ⟨n, hn, rfl⟩)
        · exact ⟨_, Lib.LinkedMap.mem_pushFront.mpr (.inl rfl), rfl⟩
        · exact ⟨n, Lib.LinkedMap.mem_pushFront.mpr (.inr hn), rfl⟩
    rw [hin]
    rcases eq_of_getElem?_add hq with ⟨hne, hq⟩ | ⟨rfl, rfl⟩
    · rw [h.isOpen b q hq]
      exact ⟨.inr, fun hb => hb.resolve_left hne⟩
    · exact ⟨fun _ => .inl rfl, fun _ => rfl⟩
  accounted b q hq := by
    rcases eq_of_getElem?_add hq with ⟨-, hq⟩ | ⟨-, rfl⟩
    · exact h.accounted b q hq
    · exact Peer.accounted_create source address
  disjoint := hd
  queue := h.queue
  queued b hb := by
    obtain ⟨p, hp, hch⟩ := h.queued b hb
    exact ⟨p, getElem?_add_of_some hp, hch⟩

end Inv

theorem Move.inv (h : Move G s t) (hi : s.Inv) : t.Inv := by
  have hd := h.disjoint hi.disjoint
  cases h with
  | channel _ _ _ _ hbuf => exact hi.congr rfl rfl rfl rfl hbuf
  | enqueue hp hplace hb =>
      obtain ⟨h₁, h₂, h₃, h₄, h₅, h₆, h₇, h₈, h₉⟩ := hi
      have hnodup := h₈.concat hb
      rw [List.concat_eq_append] at hnodup
      refine ⟨h₁, h₂, h₃, h₄, h₅, h₆, h₇, hnodup, fun b' hb' => ?_⟩
      rcases List.mem_append.mp hb' with hb' | hb'
      · exact h₉ b' hb'
      · rw [List.mem_singleton.mp hb']
        exact ⟨_, hp, hplace⟩
  | act f hp hf hplace =>
      exact hi.update hp hf.source hf.closed (hf.accounted (hi.accounted _ _ hp)) hplace hd
  | touch now hn => exact hi.touch hn now
  | remove cause hn => exact hi.remove hn cause
  | add now hacc hl hlen hlive hG => exact hi.add now hl hlen hd
  | post hp hplace =>
      exact (hi.update (f := Peer.setReleased) hp rfl rfl ((hi.accounted _ _ hp).own _ _) (fun _ => rfl)
        hd).congr rfl rfl rfl rfl (.refl _)
  | unpost => exact hi.congr rfl rfl rfl rfl (.refl _)

theorem Moves.inv (h : Moves G s t) (hi : s.Inv) : t.Inv := by
  induction h with
  | refl => exact hi
  | tail _ hm ih => exact hm.inv ih

theorem Moves.enqueued (h : Moves G s t) {P : Datagram E → Prop} (hs : s.Enqueued P) :
    t.Enqueued P := by
  induction h with
  | refl => exact hs
  | tail _ hm ih => exact hm.enqueued ih

/-- A delivery of a datagram that was received after all that are enqueued. -/
theorem Inv.deliver (hi : s.Inv) (hp : s.peers[b]? = some p) (hs : d.source = p.source)
    (hd : s.Enqueued fun x => x.seq < d.seq) : (s.update b fun p => p.deliver d).Inv := by
  refine hi.update hp rfl (p.closed_deliver d) ((hi.accounted b p hp).deliver hs (hd b p hp))
    (fun _ => rfl) ?_
  intro b₁ b₂ q₁ q₂ hq₁ hq₂ hne x hx y hy
  obtain ⟨p₁, hp₁, he₁⟩ := mem_enqueued_deliver hq₁
  obtain ⟨p₂, hp₂, he₂⟩ := mem_enqueued_deliver hq₂
  rcases he₁ x hx with hx | ⟨rfl, rfl⟩
  · rcases he₂ y hy with hy | ⟨rfl, rfl⟩
    · exact hi.disjoint b₁ b₂ p₁ p₂ hp₁ hp₂ hne x hx y hy
    · exact Nat.ne_of_lt (hd b₁ p₁ hp₁ x hx)
  · rcases he₂ y hy with hy | ⟨-, rfl⟩
    · exact (Nat.ne_of_lt (hd b₂ p₂ hp₂ y hy)).symm
    · exact absurd rfl hne

theorem Serves.config (h : Serves G d s t) : t.config = s.config := by
  cases h with
  | dropped h => exact h.config
  | delivered h => exact h.config

theorem Serves.inv (h : Serves G d s t) (hi : s.Inv) (hd : s.Enqueued fun x => x.seq < d.seq) :
    t.Inv := by
  cases h with
  | dropped h => exact h.inv hi
  | delivered h hp hs => exact (h.inv hi).deliver hp hs (h.enqueued hd)

theorem Serves.enqueued (h : Serves G d s t) {P : Datagram E → Prop} (hs : s.Enqueued P) (hd : P d) :
    t.Enqueued P := by
  cases h with
  | dropped h => exact h.enqueued hs
  | delivered h => exact enqueued_deliver (h.enqueued hs) hd

theorem Serves.exists_continues (h : Serves G d s t) (hp : s.peers[b]? = some p) :
    ∃ q, t.peers[b]? = some q ∧ p.Continues q := by
  cases h with
  | dropped h =>
      obtain ⟨q, hq, hl⟩ := h.exists_later hp
      exact ⟨q, hq, hl.continues⟩
  | delivered h hp' hs =>
      obtain ⟨q, hq, hl⟩ := h.exists_later hp
      refine ⟨_, (getElem?_update ..).trans (congrArg _ hq), ?_⟩
      split
      · exact hl.continues.trans (q.continues_deliver d)
      · exact hl.continues

end Taps.Demux
