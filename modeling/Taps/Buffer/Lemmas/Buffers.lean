import Taps.Buffer.ByteLists
import Taps.Buffer.Lemmas.ChainRefinement

/-!
# The chains of a program are lists of bytes

Every chain variable keeps the entries of some `BlockChain` in its storage (`Sound`), and an event does to the
bytes of the chains what it does to lists of bytes.
-/

namespace Taps

namespace ChainStorage

variable {c : ChainStorage} {bc : BlockChain}

theorem Refines.bytes (h : c.Refines bc) (mem : Memory) : c.bytes mem = bc.bytes mem := by
  obtain ⟨pre, post, hdata, hpre_length, -⟩ := h.layout.around
  have hcells : (c.data.drop c.head).take c.count = bc.entries.map .ofRef := by
    rw [hdata, ← hpre_length, h.layout.count_eq]
    simp
  rw [ChainStorage.bytes, hcells, List.flatMap_map]
  rfl

theorem Refines.sound (h : c.Refines bc) (ha : Apart bc.entries) : c.Sound bc.entries where
  bound := h.layout.bound
  entries_eq := h.layout.entries
  size_eq := h.size_eq.trans bc.size_eq
  live := bc.live
  apart := ha

end ChainStorage

namespace Buffers

/-- Every chain has the entries of some `BlockChain`, and no two of them could be one. -/
def Sound (s : Buffers) : Prop := ∀ o ∈ s.chains, ∀ c ∈ o, ∃ bc, c.Refines bc ∧ Apart bc.entries

variable {s s' : Buffers} {e : BufferEvent} {mem : Memory} {c : Nat} {chain : ChainStorage} {bc : BlockChain}

theorem sound_of_chain (h : s.Sound) (hc : s.chain c = some chain) : ∃ bc, chain.Refines bc ∧ Apart bc.entries := by
  rw [Buffers.chain, Option.join_eq_some_iff] at hc
  exact h _ (List.mem_of_getElem? hc) chain rfl

theorem get_lists (mem : Memory) (s : Buffers) (c : Nat) :
    (s.lists mem).get c = (s.chain c).map (ChainStorage.bytes mem) := by
  simp only [ByteLists.get, lists, Buffers.chain, List.getElem?_map]
  cases s.chains[c]? <;> rfl

theorem Sound.setChain (h : s.Sound) (c : Nat) (hchain : chain.Refines bc) (hapart : Apart bc.entries) :
    (s.setChain c (some chain)).Sound := by
  intro o ho
  rcases List.mem_or_eq_of_mem_set ho with hmem | rfl
  · exact h o hmem
  · intro c' hc'
    cases hc'
    exact ⟨bc, hchain, hapart⟩

theorem Sound.addChain (h : s.Sound) (hchain : chain.Refines bc) (hapart : Apart bc.entries) :
    (s.addChain (some chain)).Sound := by
  intro o ho
  rcases List.mem_append.mp ho with hmem | hmem
  · exact h o hmem
  · intro c' hc'
    rw [List.mem_singleton.mp hmem] at hc'
    cases hc'
    exact ⟨bc, hchain, hapart⟩

theorem lists_setChain (hchain : chain.Refines bc) (mem : Memory) (s : Buffers) (c : Nat) :
    (s.setChain c (some chain)).lists mem = (s.lists mem).set c (some (bc.bytes mem)) := by
  rw [← hchain.bytes]
  exact List.map_set ..

theorem lists_addChain (hchain : chain.Refines bc) (mem : Memory) (s : Buffers) :
    (s.addChain (some chain)).lists mem = s.lists mem ++ [some (bc.bytes mem)] := by
  rw [← hchain.bytes]
  exact List.map_append ..

/-- The event does to the bytes of the chains what it does to lists of bytes. -/
structure Refines (s : Buffers) (e : BufferEvent) (s' : Buffers) : Prop where
  sound : s'.Sound
  lists_eq : ∀ mem, s'.lists mem = (s.lists mem).step (s.window mem) e

/-! ## The operations on chains -/

theorem newChain_refines (h : s.Sound) : s.Refines .newChain (s.addChain (some .create)) where
  sound := h.addChain ChainStorage.create_refines .nil
  lists_eq mem := lists_addChain ChainStorage.create_refines mem s

theorem append_refines {i : Nat} {r : Handle} {moves : Bool} {throws : Nat → Bool} (h : s.Sound)
    (hc : s.chain c = some chain) (hr : s.ref i = some r) (hn : ∀ n, throws n = false) :
    ∃ s', s.step (.append c i moves throws) = some s' ∧ s.Refines (.append c i moves throws) s' := by
  obtain ⟨bc, hrefines, hapart⟩ := sound_of_chain h hc
  have hspec : ∃ blocks chain' bc', chain.append throws (s.argument i moves r).blocks r = some (.ok (blocks, chain')) ∧
      chain'.Refines bc' ∧ Apart bc'.entries ∧ ∀ mem, bc'.bytes mem = bc.bytes mem ++ r.bytes mem := by
    cases hblock : r.block with
    | none =>
        refine ⟨_, chain, bc, ChainStorage.append_of_invalid _ _ (.inl hblock), hrefines, hapart, fun mem => ?_⟩
        simp [Handle.bytes, Handle.ref, hblock]
    | some a =>
        obtain ⟨b, rfl⟩ := Handle.eq_ofRef hblock
        have ht : ¬ chain.AppendThrows throws bc.entries b := by
          rintro ⟨-, -, -, -, hthrows⟩
          exact absurd hthrows (by simp [hn])
        obtain ⟨blocks, chain', happend, h'⟩ :=
          ChainStorage.append_spec (s.argument i moves (.ofRef b)).blocks hrefines ht
        exact ⟨blocks, chain', _, happend, h', BlockChain.append_apart hapart b, fun mem => bc.bytes_append mem b⟩
  obtain ⟨blocks, chain', bc', happend, h', hapart', hbytes⟩ := hspec
  have hchains : (s.argument i moves r).chains = s.chains := by
    unfold argument
    split <;> rfl
  have hsound : (s.argument i moves r).Sound := by
    rw [Sound, hchains]
    exact h
  refine ⟨{ (s.argument i moves r).setChain c (some chain') with blocks }, by simp [step, hc, hr, happend],
    hsound.setChain c h' hapart', fun mem => ?_⟩
  rw [ByteLists.step, get_lists, hc, Option.map_some, Option.map_some, hrefines.bytes, window, hr]
  have hlists := lists_setChain h' mem (s.argument i moves r) c
  rw [hbytes, lists.eq_1 mem (s.argument i moves r), hchains] at hlists
  exact hlists

theorem consumeFront_refines {n : Nat} (h : s.Sound) (hc : s.chain c = some chain) :
    ∃ s', s.step (.consumeFront c n) = some s' ∧ s.Refines (.consumeFront c n) s' := by
  obtain ⟨bc, hrefines, hapart⟩ := sound_of_chain h hc
  obtain ⟨blocks, chain', hconsume, h'⟩ := ChainStorage.consumeFront_spec s.blocks hrefines n
  refine ⟨{ s.setChain c (some chain') with blocks }, by simp [step, hc, hconsume],
    h.setChain c h' (hapart.consumeEntries _), fun mem => ?_⟩
  rw [ByteLists.step, get_lists, hc, Option.map_some, Option.map_some, hrefines.bytes, ← BlockChain.bytes_consumeFront]
  exact lists_setChain h' mem s c

theorem first_refines {len : Nat} {throws : Nat → Bool} (h : s.Sound) (hc : s.chain c = some chain)
    (hn : ∀ n, throws n = false) :
    ∃ s', s.step (.first c len throws) = some s' ∧ s.Refines (.first c len throws) s' := by
  obtain ⟨bc, hrefines, -⟩ := sound_of_chain h hc
  obtain ⟨blocks, out, hfirst, hout⟩ := ChainStorage.first_of_allocates s.blocks hrefines hn len
  refine ⟨{ s.addChain (some out) with blocks }, by simp [step, hc, hfirst],
    h.addChain hout (bc.first_apart len), fun mem => ?_⟩
  rw [ByteLists.step, get_lists, hc, Option.map_some, Option.map_some, hrefines.bytes, ← BlockChain.bytes_first]
  exact lists_addChain hout mem s

theorem copyChain_refines {throws : Nat → Bool} (h : s.Sound) (hc : s.chain c = some chain)
    (hn : ∀ n, throws n = false) :
    ∃ s', s.step (.copyChain c throws) = some s' ∧ s.Refines (.copyChain c throws) s' := by
  obtain ⟨bc, hrefines, hapart⟩ := sound_of_chain h hc
  obtain ⟨blocks, copy, hcopy, h'⟩ := ChainStorage.copy_spec s.blocks hrefines hn
  refine ⟨{ s.addChain (some copy) with blocks }, by simp [step, hc, hcopy], h.addChain h' hapart, fun mem => ?_⟩
  rw [ByteLists.step, get_lists, hc, Option.map_some, hrefines.bytes]
  exact lists_addChain h' mem s

theorem moveChain_refines (h : s.Sound) (hc : s.chain c = some chain) :
    ∃ s', s.step (.moveChain c) = some s' ∧ s.Refines (.moveChain c) s' := by
  obtain ⟨bc, hrefines, hapart⟩ := sound_of_chain h hc
  obtain ⟨blocks, chain', other, hmove, h', hother⟩ :=
    ChainStorage.moveAssign_spec s.blocks ChainStorage.create_layout hrefines
  refine ⟨{ (s.setChain c (some other)).addChain (some chain') with blocks }, by simp [step, hc, hmove],
    (h.setChain c hother .nil).addChain h' hapart, fun mem => ?_⟩
  rw [ByteLists.step, get_lists, hc, Option.map_some, hrefines.bytes, ← BlockChain.bytes_nil mem,
    ← lists_setChain hother mem s c]
  exact lists_addChain h' mem (s.setChain c (some other))

theorem assignChain_refines {d : Nat} {other : ChainStorage} {throws : Nat → Bool} (h : s.Sound)
    (hc : s.chain c = some chain) (hd : s.chain d = some other) (hn : ∀ n, throws n = false) :
    ∃ s', s.step (.assignChain c d throws) = some s' ∧ s.Refines (.assignChain c d throws) s' := by
  obtain ⟨bc, hrefines, -⟩ := sound_of_chain h hc
  obtain ⟨bd, hother, hapart⟩ := sound_of_chain h hd
  by_cases hcd : c = d
  · subst hcd
    refine ⟨s, by simp [step, hc], h, fun mem => ?_⟩
    rw [ByteLists.step, get_lists, hc]
    rw [Buffers.chain, Option.join_eq_some_iff] at hc
    have hget : (s.lists mem)[c]? = some (some (chain.bytes mem)) := by
      rw [lists, List.getElem?_map, hc]
      rfl
    obtain ⟨hlt, heq⟩ := List.getElem?_eq_some_iff.mp hget
    have hset := List.set_getElem_self hlt
    rw [heq] at hset
    exact hset.symm
  · obtain ⟨blocks, chain', hassign, h'⟩ := ChainStorage.copyAssign_spec s.blocks hrefines.layout hother hn
    refine ⟨{ s.setChain c (some chain') with blocks }, by simp [step, hc, hd, hcd, hassign], h.setChain c h' hapart,
      fun mem => ?_⟩
    rw [ByteLists.step, get_lists, hd, Option.map_some, hother.bytes]
    exact lists_setChain h' mem s c

theorem moveAssignChain_refines {d : Nat} {other : ChainStorage} (h : s.Sound) (hc : s.chain c = some chain)
    (hd : s.chain d = some other) :
    ∃ s', s.step (.moveAssignChain c d) = some s' ∧ s.Refines (.moveAssignChain c d) s' := by
  obtain ⟨bc, hrefines, -⟩ := sound_of_chain h hc
  obtain ⟨bd, hother, hapart⟩ := sound_of_chain h hd
  by_cases hcd : c = d
  · subst hcd
    exact ⟨s, by simp [step, hc], h, fun mem => (if_pos rfl).symm⟩
  · obtain ⟨blocks, chain', other', hmove, h', hother'⟩ :=
      ChainStorage.moveAssign_spec s.blocks hrefines.layout hother
    refine ⟨{ (s.setChain c (some chain')).setChain d (some other') with blocks },
      by simp [step, hc, hd, hcd, hmove], (h.setChain c h' hapart).setChain d hother' .nil, fun mem => ?_⟩
    rw [ByteLists.step, if_neg hcd, get_lists, hd, Option.map_some, hother.bytes, ← BlockChain.bytes_nil mem,
      ← lists_setChain h' mem s c]
    exact lists_setChain hother' mem (s.setChain c (some chain')) d

theorem destroyChain_refines (h : s.Sound) (hc : s.chain c = some chain) :
    ∃ s', s.step (.destroyChain c) = some s' ∧ s.Refines (.destroyChain c) s' := by
  obtain ⟨bc, hrefines, -⟩ := sound_of_chain h hc
  obtain ⟨blocks, hdestroy⟩ := ChainStorage.destroy_spec s.blocks hrefines.layout
  refine ⟨{ s.setChain c none with blocks }, by simp [step, hc, hdestroy], ?_, fun mem => List.map_set ..⟩
  intro o ho
  rcases List.mem_or_eq_of_mem_set ho with hmem | rfl
  · exact h o hmem
  · nofun

/-! ## Runs -/

/-- An event about `BlockRef` variables leaves the chains as they are. -/
theorem Refines.of_chains (h : s.Sound) (hs' : s'.chains = s.chains)
    (hstep : ∀ (l : ByteLists) window, l.step window e = l) : s.Refines e s' where
  sound := by
    rw [Sound, hs']
    exact h
  lists_eq mem := by
    rw [hstep, lists, hs']
    rfl

theorem step_refines (h : s.Sound) (ha : e.Allocates) (hh : s.Has e) : ∃ s', s.step e = some s' ∧ s.Refines e s' := by
  have hrefs := hh.refs
  have hchains := hh.chains
  cases e with
  | acquire outcome =>
      have hfresh : ¬ ∃ a ∈ outcome.addrs, a ∈ s.held := fun ⟨a, ha, hheld⟩ => hh.fresh outcome rfl a ha hheld
      exact ⟨_, if_neg hfresh, .of_chains h rfl fun _ _ => rfl⟩
  | construct r => exact ⟨_, if_pos (hh.held r rfl), .of_chains h rfl fun _ _ => rfl⟩
  | copyRef i | moveRef i | resetRef i | destroyRef i | setRange i =>
      obtain ⟨r, hr⟩ := hrefs i (List.mem_singleton.mpr rfl)
      refine ⟨_, by rw [step, hr]; rfl, ?_⟩
      exact .of_chains h rfl fun _ _ => rfl
  | assignRef i j | moveAssignRef i j =>
      obtain ⟨r, hr⟩ := hrefs i (by simp [BufferEvent.refs])
      obtain ⟨o, ho⟩ := hrefs j (by simp [BufferEvent.refs])
      refine ⟨_, by rw [step, hr, ho]; rfl, ?_⟩
      refine .of_chains h ?_ fun _ _ => rfl
      split <;> rfl
  | newChain => exact ⟨_, rfl, newChain_refines h⟩
  | append c i moves throws =>
      obtain ⟨r, hr⟩ := hrefs i (List.mem_singleton.mpr rfl)
      obtain ⟨chain, hc⟩ := hchains c (List.mem_singleton.mpr rfl)
      exact append_refines h hc hr ha
  | consumeFront c n =>
      obtain ⟨chain, hc⟩ := hchains c (List.mem_singleton.mpr rfl)
      exact consumeFront_refines h hc
  | first c len throws =>
      obtain ⟨chain, hc⟩ := hchains c (List.mem_singleton.mpr rfl)
      exact first_refines h hc ha
  | copyChain c throws =>
      obtain ⟨chain, hc⟩ := hchains c (List.mem_singleton.mpr rfl)
      exact copyChain_refines h hc ha
  | moveChain c =>
      obtain ⟨chain, hc⟩ := hchains c (List.mem_singleton.mpr rfl)
      exact moveChain_refines h hc
  | assignChain c d throws =>
      obtain ⟨chain, hc⟩ := hchains c (by simp [BufferEvent.chains])
      obtain ⟨other, hd⟩ := hchains d (by simp [BufferEvent.chains])
      exact assignChain_refines h hc hd ha
  | moveAssignChain c d =>
      obtain ⟨chain, hc⟩ := hchains c (by simp [BufferEvent.chains])
      obtain ⟨other, hd⟩ := hchains d (by simp [BufferEvent.chains])
      exact moveAssignChain_refines h hc hd
  | destroyChain c =>
      obtain ⟨chain, hc⟩ := hchains c (List.mem_singleton.mpr rfl)
      exact destroyChain_refines h hc

/-- A step needs the variables of its event. -/
theorem has_of_step (h : s.step e = some s') : s.Has e := by
  cases e with
  | acquire outcome =>
      have hfresh : ¬ ∃ a ∈ outcome.addrs, a ∈ s.held := by
        intro hex
        rw [step, if_pos hex] at h
        exact absurd h nofun
      refine ⟨nofun, nofun, ?_, nofun⟩
      rintro _ ⟨⟩ a ha hheld
      exact hfresh ⟨a, ha, hheld⟩
  | construct r =>
      refine ⟨nofun, nofun, nofun, ?_⟩
      rintro _ ⟨⟩
      by_contra hheld
      rw [step, if_neg hheld] at h
      exact absurd h nofun
  | newChain => exact ⟨nofun, nofun, nofun, nofun⟩
  | copyRef i | moveRef i | resetRef i | destroyRef i | setRange i =>
      obtain ⟨r, hr, -⟩ := Option.map_eq_some_iff.mp h
      exact ⟨by simp [BufferEvent.refs, hr], nofun, nofun, nofun⟩
  | assignRef i j | moveAssignRef i j =>
      obtain ⟨r, hr, h⟩ := Option.bind_eq_some_iff.mp h
      obtain ⟨o, ho, -⟩ := Option.bind_eq_some_iff.mp h
      exact ⟨by simp [BufferEvent.refs, hr, ho], nofun, nofun, nofun⟩
  | append c i =>
      obtain ⟨chain, hc, h⟩ := Option.bind_eq_some_iff.mp h
      obtain ⟨r, hr, -⟩ := Option.bind_eq_some_iff.mp h
      exact ⟨by simp [BufferEvent.refs, hr], by simp [BufferEvent.chains, hc], nofun, nofun⟩
  | consumeFront c | first c | copyChain c | moveChain c | destroyChain c =>
      obtain ⟨chain, hc, -⟩ := Option.bind_eq_some_iff.mp h
      exact ⟨nofun, by simp [BufferEvent.chains, hc], nofun, nofun⟩
  | assignChain c d | moveAssignChain c d =>
      obtain ⟨chain, hc, h⟩ := Option.bind_eq_some_iff.mp h
      obtain ⟨other, hd, -⟩ := Option.bind_eq_some_iff.mp h
      exact ⟨nofun, by simp [BufferEvent.chains, hc, hd], nofun, nofun⟩

theorem sound_of_reachable {maxLiveBlocks : Nat}
    (h : ((system maxLiveBlocks).restrict fun _ e _ => e.Allocates).Reachable s) : s.Sound := by
  apply h.invariant
  · rintro s rfl
    exact nofun
  · rintro s e s' hs ⟨hst, ha⟩
    obtain ⟨s₁, hst₁, hrefines⟩ := step_refines hs ha (has_of_step hst)
    rw [system] at hst
    rw [Option.some.inj (hst.symm.trans hst₁)]
    exact hrefines.sound

end Buffers

end Taps
