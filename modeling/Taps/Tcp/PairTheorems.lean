import Taps.Tcp.LinkTheorems
import Taps.Tcp.Lemmas.Pair

/-!
# The end of a TCP connection, at both ends

For any order of `send()`, `receive()` and `close()` of two connected ends without TLS, any sizes of the reads and any
pace of the writes, while the network does not fail and neither end aborts.
-/

namespace Taps.Pair

open Link (blank)

variable {σ : Type} {s : Pair σ} {p : Side}

/-- Without TLS, closing never resets the connection: an end closes its socket once it has read everything that the
other has sent, and the other has ended its side. -/
theorem finishes (hr : (peaceful σ).Reachable s) : s.Finishes := finishes_of_quiet (quiet_of_reachable hr)

/-- Two ends without a Message Framer. -/
def smallPair : Pair Unit := create fun _ => .create .established none () tinyPool

/-- The second end closes while three bytes are on their way to it. -/
def bothClose : List PairEvent :=
  [.call .first (.send blank (.ofVector [1, 2, 3])), .transmit .first 3, .call .first (.complete 0 (.ok 3)),
    .call .second (.close none none), .call .first (.close none none), .call .second (.complete 0 (.ok 3)),
    .call .second (.resume 0 blank none), .call .second (.complete 0 (.error .eof)),
    .call .second (.resume 0 blank none)]

theorem peaceful_run {es : List PairEvent} {s' : Pair σ} (hes : ∀ e ∈ es, e ≠ .cut ∧ ∀ p ec, e ≠ .call p (.abort ec))
    (h : es.foldlM step s = some s') : (peaceful σ).Run s es s' :=
  .of_foldlM (T := peaceful σ) (f := step) (fun e he _ _ hst => show (peaceful σ).step _ _ _ from ⟨hst, hes e he⟩) h

/-- The first end waits for the second, which has closed its socket. -/
theorem finishes_both : ∃ s : Pair Unit, bothClose.foldlM step smallPair = some s ∧
    (s.link .second).socketOpen = false ∧ (s.link .first).socketOpen = true ∧ s.Finishes := by
  have hsome : (bothClose.foldlM step smallPair).isSome := rfl
  obtain ⟨s, hs⟩ := Option.isSome_iff_exists.mp hsome
  have hrun := peaceful_run (by simp [bothClose]) hs
  have hfinishes := finishes ⟨_, _, ⟨fun _ => none, fun _ => (), fun _ => tinyPool, rfl⟩, hrun⟩
  refine ⟨s, hs, ?_, ?_, hfinishes⟩ <;> cases hs <;> rfl

/-- Without TLS, a `close()` whose peer has ended its side goes on to its end, in as many steps as there are bytes left
to read for it and the reads that find them take, whatever other calls there are. -/
theorem close_completes (hr : (peaceful σ).Reachable s) (hclosing : (s.link p).conn.state = .closing)
    (hpeer : (s.pipe p.other).finished = true) :
    ∃ i, s.Completes p i (2 * (s.pipe p.other).unread + 3) := by
  have hquiet := quiet_of_reachable hr
  obtain ⟨i, op, hop⟩ := (hquiet.link p).closer hclosing
  have hwaits : s.Waits p i := ⟨hquiet, hpeer, .inl ⟨op, hop⟩⟩
  refine ⟨i, fun es t hrun => ?_⟩
  obtain ⟨ht, hcount⟩ := hwaits.run hrun
  exact ⟨Nat.le_trans (Nat.le_of_add_left_le hcount) (remaining_le s p hop), ht.enabled⟩

/-- The first end has nothing left to read. -/
theorem close_completes_both : ∃ (s : Pair Unit) (i : Nat), bothClose.foldlM step smallPair = some s ∧
    (s.link .first).socketOpen = true ∧ s.Completes .first i 3 := by
  have hsome : (bothClose.foldlM step smallPair).isSome := rfl
  obtain ⟨s, hs⟩ := Option.isSome_iff_exists.mp hsome
  have hrun := peaceful_run (by simp [bothClose]) hs
  have hstate : (s.link .first).conn.state = .closing ∧ s.pipe .second = ⟨0, true⟩ ∧
      (s.link .first).socketOpen = true := by
    cases hs
    exact ⟨rfl, rfl, rfl⟩
  obtain ⟨hclosing, hpipe, hopen⟩ := hstate
  obtain ⟨i, hi⟩ := close_completes (p := .first) ⟨_, _, ⟨fun _ => none, fun _ => (), fun _ => tinyPool, rfl⟩, hrun⟩
    hclosing (congrArg Pipe.finished hpipe)
  have hunread : (s.pipe Side.first.other).unread = 0 := congrArg Pipe.unread hpipe
  rw [hunread] at hi
  exact ⟨s, i, hs, hopen, hi⟩

end Taps.Pair
