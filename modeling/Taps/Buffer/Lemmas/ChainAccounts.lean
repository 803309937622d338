import Taps.Buffer.Lemmas.Accounts

/-!
# Chains keep the accounts

Whatever is in its storage, and wherever an allocation throws, an operation of a chain turns the references of
its objects into those of the objects that it leaves.
-/

namespace Taps

namespace DataBlocks

variable {s s' : DataBlocks} {data data' source source' target target' : List Handle} {refs refs' : Multiset Addr}
  {i j n : Nat} {r old : Handle}

/-- An object is given the value `r`, and its old one is released. -/
theorem conserves_set (h : data[i]? = some old) (r : Handle) :
    Conserves s (s.reset old) (heldBy data + r.held) (heldBy (data.set i r)) := by
  apply (conserves_reset s old).frame
  · exact (held_le_heldBy h).trans (Multiset.le_add_right ..)
  · rw [heldBy_set_cell h, add_zero]

/-! ## Loops over entries -/

theorem resetCells_conserves (h : s.resetCells data i n = some (s', data')) :
    Conserves s s' (heldBy data) (heldBy data') := by
  induction n generalizing s data i with
  | zero =>
      cases h
      exact .of_eq rfl
  | succ n ih =>
      rw [resetCells] at h
      cases hget : data[i]? with
      | none => simp [hget] at h
      | some r =>
          rw [hget] at h
          have hset := conserves_set (s := s) hget .null
          rw [Handle.held_null, add_zero] at hset
          exact hset.trans (ih h)

/-- The whole storage is released. -/
theorem resetCells_all (h : s.resetCells data 0 data.length = some (s', data')) :
    Conserves s s' (heldBy data) 0 := by
  have hall := s.resetCells_eq [] data []
  rw [List.nil_append, List.append_nil, List.length_nil, h] at hall
  have hdata : data' = List.replicate data.length .null := by
    have heq := (Prod.mk.inj (Option.some.inj hall)).2
    rwa [List.nil_append, List.append_nil] at heq
  have hconserves := resetCells_conserves h
  rwa [hdata, heldBy_replicate] at hconserves

theorem moveDown_conserves (h : s.moveDown data i j n = some (s', data')) :
    Conserves s s' (heldBy data) (heldBy data') := by
  induction n generalizing s data i j with
  | zero =>
      cases h
      exact .of_eq rfl
  | succ n ih =>
      rw [moveDown] at h
      cases hi : data[i]? with
      | none => simp [hi] at h
      | some r =>
          cases hj : data[j]? with
          | none => simp [hi, hj] at h
          | some old =>
              simp only [hi, hj] at h
              refine Conserves.trans ?_ (ih h)
              have hset := heldBy_set_cell hj r
              have hi' : (data.set j r)[i]? = some r := by
                by_cases hij : j = i
                · subst hij
                  rw [List.getElem?_set_self (List.getElem?_eq_some_iff.mp hj).1]
                · rwa [List.getElem?_set_ne hij]
              have hmoved := heldBy_set_cell hi' r.moved
              rw [Handle.held_moved, add_zero] at hmoved
              apply (conserves_reset s old).frame (held_le_heldBy hj)
              apply add_right_cancel (b := r.held)
              rw [add_zero, ← hset, ← hmoved]
              abel

theorem moveCells_conserves (h : s.moveCells source target i j n = some (s', source', target')) :
    Conserves s s' (heldBy source + heldBy target) (heldBy source' + heldBy target') := by
  induction n generalizing s source target i j with
  | zero =>
      cases h
      exact .of_eq rfl
  | succ n ih =>
      rw [moveCells] at h
      cases hi : source[i]? with
      | none => simp [hi] at h
      | some r =>
          cases hj : target[j]? with
          | none => simp [hi, hj] at h
          | some old =>
              simp only [hi, hj] at h
              refine Conserves.trans ?_ (ih h)
              have hset := heldBy_set_cell hj r
              have hmoved := heldBy_set_cell hi r.moved
              rw [Handle.held_moved, add_zero] at hmoved
              apply (conserves_reset s old).frame ((held_le_heldBy hj).trans (Multiset.le_add_left ..))
              rw [add_zero, ← hmoved, add_assoc, hset]
              abel

theorem consumeCells_conserves {head head' count count' k : Nat}
    (h : s.consumeCells data head count n k = some (s', data', head', count')) :
    Conserves s s' (heldBy data) (heldBy data') := by
  induction k generalizing s data head count n with
  | zero =>
      rw [consumeCells] at h
      split at h
      · cases h
        exact .of_eq rfl
      · cases h
  | succ k ih =>
      rw [consumeCells] at h
      split at h
      · cases h
        exact .of_eq rfl
      · cases hget : data[head]? with
        | none => simp [hget] at h
        | some front =>
            simp only [hget] at h
            split at h
            · cases h
              apply Conserves.of_eq
              have hset := heldBy_set_cell hget (front.setRange (front.beginOffset + n) front.endOffset (by
                rename_i hlt
                unfold Handle.size at hlt
                omega))
              rw [Handle.held_setRange] at hset
              exact (add_right_cancel hset).symm
            · have hset := conserves_set (s := s) hget .null
              rw [Handle.held_null, add_zero] at hset
              exact hset.trans (ih h)

end DataBlocks

namespace ChainStorage

open DataBlocks

/-- What the objects of a chain refer to. -/
def held (c : ChainStorage) : Multiset Addr := heldBy c.cells

/-- What an operation leaves, whether it returns or throws. -/
def state : Except (DataBlocks × ChainStorage) (DataBlocks × ChainStorage) → DataBlocks × ChainStorage
  | .ok p | .error p => p

variable {s s' : DataBlocks} {c c' : ChainStorage} {throws : Nat → Bool} {ref : Handle} {refs : Multiset Addr}
  {p : Except (DataBlocks × ChainStorage) (DataBlocks × ChainStorage)}

@[simp] theorem held_create : create.held = 0 := rfl

theorem held_of_external {data : List Handle} (h : c.external = some data) :
    c.held = heldBy c.inline + heldBy data := by
  rw [held, cells, h, heldBy_append, Option.getD_some]

theorem held_of_inline (h : c.external = none) : c.held = heldBy c.inline := by
  rw [held, cells, h, Option.getD_none, List.append_nil]

theorem data_le_held (c : ChainStorage) : heldBy c.data ≤ c.held := by
  cases hext : c.external with
  | none =>
      rw [held_of_inline hext, ChainStorage.data, hext]
      exact le_rfl
  | some data =>
      rw [held_of_external hext, ChainStorage.data, hext]
      exact Multiset.le_add_left ..

/-- Other objects take the place of those at `data_`. -/
theorem held_withData (c : ChainStorage) (data : List Handle) :
    (c.withData data).held + heldBy c.data = c.held + heldBy data := by
  cases hext : c.external with
  | none =>
      rw [withData_of_inline hext, held_of_inline hext, data_of_inline hext, add_comm]
      exact congrArg (_ + ·) (held_of_inline hext)
  | some old =>
      rw [withData_of_external hext, held_of_external hext, ChainStorage.data, hext, Option.getD_some]
      rw [held_of_external (c := { c with external := some data }) rfl]
      exact add_right_comm ..

theorem held_withData_set {i : Nat} {old r : Handle} (h : c.data[i]? = some old) (hr : r.held = old.held) :
    (c.withData (c.data.set i r)).held = c.held := by
  have hset := heldBy_set_cell h r
  rw [hr] at hset
  have heq := held_withData c (c.data.set i r)
  rw [add_right_cancel hset] at heq
  exact add_right_cancel heq

theorem withData_conserves {data : List Handle} (h : Conserves s s' (heldBy c.data) (heldBy data)) :
    Conserves s s' c.held (c.withData data).held := h.frame c.data_le_held (held_withData c data)

/-! ## The operations on one chain -/

theorem clear_conserves (h : c.clear s = some (s', c')) : Conserves s s' c.held c'.held := by
  obtain ⟨⟨s₁, data⟩, hreset, heq⟩ := Option.map_eq_some_iff.mp h
  cases heq
  exact withData_conserves (resetCells_conserves hreset)

theorem releaseStorage_conserves (h : c.releaseStorage s = some (s', c')) :
    Conserves s s' c.held c'.held ∧ c' = { c with external := none } := by
  rw [releaseStorage] at h
  cases hext : c.external with
  | none =>
      rw [hext] at h
      cases h
      exact ⟨.of_eq rfl, by rw [← hext]⟩
  | some data =>
      rw [hext] at h
      obtain ⟨⟨s₁, data'⟩, hreset, heq⟩ := Option.map_eq_some_iff.mp h
      cases heq
      refine ⟨?_, rfl⟩
      rw [held_of_external hext]
      apply (resetCells_all hreset).frame (Multiset.le_add_left ..)
      rw [add_zero]
      exact congrArg (· + _) (held_of_inline rfl)

theorem destroy_conserves (h : c.destroy s = some s') : Conserves s s' c.held 0 := by
  obtain ⟨⟨s₁, c₁⟩, hclear, h⟩ := Option.bind_eq_some_iff.mp h
  obtain ⟨⟨s₂, c₂⟩, hrelease, h⟩ := Option.bind_eq_some_iff.mp h
  obtain ⟨⟨s₃, data⟩, hreset, heq⟩ := Option.bind_eq_some_iff.mp h
  cases heq
  obtain ⟨hconserves, rfl⟩ := releaseStorage_conserves hrelease
  have hinline : held { c₁ with external := none } = heldBy c₁.inline := held_of_inline rfl
  rw [hinline] at hconserves
  exact ((clear_conserves hclear).trans hconserves).trans (resetCells_all hreset)

theorem grow_conserves (h : c.grow throws s = some p) : Conserves s (state p).1 c.held (state p).2.held := by
  rw [grow] at h
  split at h
  · obtain ⟨⟨s₁, data⟩, hmove, heq⟩ := Option.map_eq_some_iff.mp h
    cases heq
    exact withData_conserves (moveDown_conserves hmove)
  · split at h
    · cases h
    · split at h
      · cases h
        exact .of_eq rfl
      · obtain ⟨⟨s₁, data, fresh⟩, hmove, h⟩ := Option.bind_eq_some_iff.mp h
        obtain ⟨⟨s₂, data'⟩, hreset, h⟩ := Option.bind_eq_some_iff.mp h
        obtain ⟨⟨s₃, c₃⟩, hrelease, heq⟩ := Option.bind_eq_some_iff.mp h
        cases heq
        obtain ⟨hconserves, rfl⟩ := releaseStorage_conserves hrelease
        have hmoved := moveCells_conserves hmove
        rw [heldBy_replicate, add_zero] at hmoved
        have hcells : Conserves s s₂ (heldBy c.data) (heldBy data' + heldBy fresh) :=
          hmoved.trans ((resetCells_conserves hreset).add_right _)
        have hstorage : Conserves s s₂ c.held ((c.withData data').held + heldBy fresh) := by
          apply hcells.frame c.data_le_held
          rw [add_right_comm, held_withData, add_assoc]
        have hreleased := hstorage.trans (hconserves.add_right (heldBy fresh))
        rw [held_of_inline (c := { c.withData data' with external := none }) rfl] at hreleased
        rw [state, held_of_external (c := { c.withData data' with external := some fresh }) rfl]
        exact hreleased

/-- `push_back()` and `append()` take over their parameter. -/
theorem pushBack_conserves (h : c.pushBack throws s ref = some p) :
    Conserves s (state p).1 (c.held + ref.held) (state p).2.held := by
  have hroom : ∀ q, c.room throws s = some q → Conserves s (state q).1 c.held (state q).2.held := by
    intro q hq
    rw [room] at hq
    split at hq
    · exact grow_conserves hq
    · cases hq
      exact .of_eq rfl
  rw [pushBack] at h
  split at h
  · cases h
  · rename_i s₁ c₁ hroom_eq
    cases h
    have hreset := (conserves_reset s₁ ref).add_left c₁.held
    rw [add_zero] at hreset
    exact ((hroom _ hroom_eq).add_right ref.held).trans hreset
  · rename_i s₁ c₁ hroom_eq
    split at h
    · cases h
    · rename_i old hget
      cases h
      have hset : Conserves s₁ (s₁.reset old) (c₁.held + ref.held)
          (c₁.withData (c₁.data.set (c₁.head + c₁.count) ref)).held := by
        apply (conserves_set hget ref).frame
        · exact add_le_add c₁.data_le_held le_rfl
        · rw [← add_assoc, held_withData]
          exact add_right_comm ..
      exact ((hroom _ hroom_eq).add_right ref.held).trans hset

theorem append_conserves (h : c.append throws s ref = some p) :
    Conserves s (state p).1 (c.held + ref.held) (state p).2.held := by
  have hreset : Conserves s (s.reset ref) (c.held + ref.held) c.held := by
    have hconserves := (conserves_reset s ref).add_left c.held
    rwa [add_zero] at hconserves
  rw [append] at h
  split at h
  · cases h
    exact hreset
  · dsimp only at h
    split at h
    · split at h
      · cases h
      · rename_i last hget
        split at h
        · cases h
          apply hreset.trans
          have hmerged := held_withData_set (c := { c with size := c.size + ref.size }) hget
            (Handle.held_setRange last (b := last.beginOffset) (e := ref.endOffset) (by
              rename_i hc
              have := last.le
              have := ref.le
              omega))
          exact .of_eq hmerged.symm
        · exact pushBack_conserves (c := { c with size := c.size + ref.size }) h
    · exact pushBack_conserves (c := { c with size := c.size + ref.size }) h

theorem consumeFront_conserves {n : Nat} (h : c.consumeFront s n = some (s', c')) : Conserves s s' c.held c'.held := by
  obtain ⟨⟨s₁, data, head, count⟩, hconsume, heq⟩ := Option.map_eq_some_iff.mp h
  cases heq
  exact withData_conserves (consumeCells_conserves hconsume)

/-! ## Slices, copies and moves -/

/-- The objects that are copied stay as they are. -/
theorem firstLoop_conserves {rs : List Handle} {len : Nat} (h : c.firstLoop throws s rs len = some p)
    (hle : heldBy rs ≤ refs) : Conserves s (state p).1 (c.held + refs) ((state p).2.held + refs) := by
  induction rs generalizing s c len with
  | nil =>
      cases h
      exact .of_eq rfl
  | cons r rs ih =>
      rw [heldBy_cons] at hle
      have hr : r.held ≤ refs := (Multiset.le_add_right ..).trans hle
      have hrs : heldBy rs ≤ refs := (Multiset.le_add_left ..).trans hle
      have hcopy : Conserves s (s.copy r) (c.held + refs) (c.held + r.held + refs) := by
        apply (conserves_copy s r).frame (hr.trans (Multiset.le_add_left ..))
        abel
      rw [firstLoop] at h
      split at h
      · cases h
        exact .of_eq rfl
      · dsimp only at h
        split at h
        · cases h
        · rename_i e happend
          cases h
          exact hcopy.trans ((append_conserves happend).add_right refs)
        · rename_i s₁ out happend
          exact (hcopy.trans ((append_conserves happend).add_right refs)).trans (ih h hrs)

theorem copyLoop_conserves {rs : List Handle} (h : c.copyLoop throws s rs = some p) (hle : heldBy rs ≤ refs) :
    Conserves s (state p).1 (c.held + refs) ((state p).2.held + refs) := by
  induction rs generalizing s c with
  | nil =>
      cases h
      exact .of_eq rfl
  | cons r rs ih =>
      rw [heldBy_cons] at hle
      have hr : r.held ≤ refs := (Multiset.le_add_right ..).trans hle
      have hrs : heldBy rs ≤ refs := (Multiset.le_add_left ..).trans hle
      have hcopy : Conserves s (s.copy r) (c.held + refs) (c.held + r.held + refs) := by
        apply (conserves_copy s r).frame (hr.trans (Multiset.le_add_left ..))
        abel
      rw [copyLoop] at h
      split at h
      · cases h
      · rename_i e hpush
        cases h
        exact hcopy.trans ((pushBack_conserves hpush).add_right refs)
      · rename_i s₁ c₁ hpush
        exact (hcopy.trans ((pushBack_conserves hpush).add_right refs)).trans (ih h hrs)

theorem heldBy_le_of_sublist {l l' : List Handle} (h : l.Sublist l') : heldBy l ≤ heldBy l' := by
  rw [← coe_filterMap_block, ← coe_filterMap_block]
  exact (h.filterMap _).subperm

theorem entries_le_held {rs : List Handle} (h : c.entries = some rs) : heldBy rs ≤ c.held := by
  rw [entries] at h
  split at h
  · cases h
    exact (heldBy_le_of_sublist ((List.take_sublist ..).trans (List.drop_sublist ..))).trans c.data_le_held
  · cases h

theorem first_conserves {len : Nat} {out : ChainStorage} (h : c.first throws s len = some (.ok (s', out))) :
    Conserves s s' c.held (out.held + c.held) := by
  obtain ⟨rs, hrs, h⟩ := Option.bind_eq_some_iff.mp h
  obtain ⟨q, hloop, h⟩ := Option.bind_eq_some_iff.mp h
  have hconserves := firstLoop_conserves hloop (entries_le_held hrs)
  rw [held_create, zero_add] at hconserves
  cases q with
  | error e =>
      obtain ⟨s₁, -, heq⟩ := Option.bind_eq_some_iff.mp h
      exact absurd heq nofun
  | ok q =>
      cases h
      exact hconserves

theorem first_conserves_of_throws {len : Nat} (h : c.first throws s len = some (.error s')) :
    Conserves s s' c.held c.held := by
  obtain ⟨rs, hrs, h⟩ := Option.bind_eq_some_iff.mp h
  obtain ⟨q, hloop, h⟩ := Option.bind_eq_some_iff.mp h
  have hconserves := firstLoop_conserves hloop (entries_le_held hrs)
  rw [held_create, zero_add] at hconserves
  cases q with
  | ok q => cases h
  | error e =>
      obtain ⟨s₁, hdestroy, heq⟩ := Option.bind_eq_some_iff.mp h
      cases heq
      have hend := (destroy_conserves hdestroy).add_right c.held
      rw [zero_add] at hend
      exact hconserves.trans hend

theorem copy_conserves {copy : ChainStorage} (h : c.copy throws s = some (.ok (s', copy))) :
    Conserves s s' c.held (copy.held + c.held) := by
  obtain ⟨rs, hrs, h⟩ := Option.bind_eq_some_iff.mp h
  obtain ⟨q, hloop, h⟩ := Option.bind_eq_some_iff.mp h
  have hconserves := copyLoop_conserves hloop (entries_le_held hrs)
  rw [held_create, zero_add] at hconserves
  cases q with
  | error e =>
      obtain ⟨s₁, -, heq⟩ := Option.bind_eq_some_iff.mp h
      exact absurd heq nofun
  | ok q =>
      cases h
      exact hconserves

theorem copy_conserves_of_throws {lost : List Handle} (h : c.copy throws s = some (.error (s', lost))) :
    Conserves s s' c.held (c.held + heldBy lost) := by
  obtain ⟨rs, hrs, h⟩ := Option.bind_eq_some_iff.mp h
  obtain ⟨q, hloop, h⟩ := Option.bind_eq_some_iff.mp h
  have hconserves := copyLoop_conserves hloop (entries_le_held hrs)
  rw [held_create, zero_add] at hconserves
  cases q with
  | ok q => cases h
  | error e =>
      obtain ⟨⟨s₁, data⟩, hreset, heq⟩ := Option.bind_eq_some_iff.mp h
      cases heq
      have hcells : e.2.held = heldBy e.2.inline + heldBy (e.2.external.getD []) := heldBy_append ..
      have hinline := (resetCells_all hreset).add_right (heldBy (e.2.external.getD []))
      rw [← hcells, zero_add] at hinline
      have hend := hconserves.trans (hinline.add_right c.held)
      rwa [add_comm (heldBy _) c.held] at hend

theorem moveAssign_conserves {other other' : ChainStorage} (h : c.moveAssign s other = some (s', c', other')) :
    Conserves s s' (c.held + other.held) (c'.held + other'.held) := by
  obtain ⟨⟨s₁, c₁⟩, hclear, h⟩ := Option.bind_eq_some_iff.mp h
  obtain ⟨⟨s₂, c₂⟩, hrelease, h⟩ := Option.bind_eq_some_iff.mp h
  obtain ⟨hconserves, rfl⟩ := releaseStorage_conserves hrelease
  have hempty := ((clear_conserves hclear).trans hconserves).add_right other.held
  apply hempty.trans
  have hinline : held { c₁ with external := none } = heldBy c₁.inline := held_of_inline rfl
  dsimp only at h
  cases hext : other.external with
  | none =>
      simp only [hext] at h
      obtain ⟨⟨s₃, source, inline⟩, hmove, h⟩ := Option.bind_eq_some_iff.mp h
      obtain ⟨⟨s₄, other₁⟩, hclear', heq⟩ := Option.bind_eq_some_iff.mp h
      cases heq
      have hmoved := moveCells_conserves hmove
      have hcleared := clear_conserves hclear'
      rw [held_of_inline (c := { other with inline := source, external := none, size := 0 }) rfl] at hcleared
      rw [hinline, held_of_inline hext, add_comm, add_comm _ other₁.held,
        held_of_inline (c := { c₁ with inline, external := none, count := other.count, size := other.size }) rfl]
      exact hmoved.trans (hcleared.add_right _)
  | some data =>
      simp only [hext] at h
      cases h
      apply Conserves.of_eq
      rw [hinline, held_of_external hext, held_of_inline (c := { other with
        external := none
        head := 0
        count := 0
        size := 0 }) rfl, held_of_external (c := { c₁ with
        external := some data
        head := other.head
        count := other.count
        size := other.size }) rfl]
      abel

theorem copyAssign_conserves {other : ChainStorage} (h : c.copyAssign throws s other = some (.ok (s', c'))) :
    Conserves s s' (c.held + other.held) (c'.held + other.held) := by
  obtain ⟨q, hcopy, h⟩ := Option.bind_eq_some_iff.mp h
  cases q with
  | error e => cases h
  | ok q =>
      obtain ⟨s₁, copy⟩ := q
      obtain ⟨⟨s₂, c₂, copy₂⟩, hmove, h⟩ := Option.bind_eq_some_iff.mp h
      obtain ⟨s₃, hdestroy, heq⟩ := Option.bind_eq_some_iff.mp h
      cases heq
      have h₁ := (copy_conserves hcopy).add_left c.held
      have h₂ := (moveAssign_conserves hmove).add_right other.held
      have h₃ := ((destroy_conserves hdestroy).add_left c'.held).add_right other.held
      rw [add_zero] at h₃
      rw [← add_assoc] at h₁
      exact (h₁.trans h₂).trans h₃

theorem copyAssign_conserves_of_throws {other : ChainStorage} {lost : List Handle}
    (h : c.copyAssign throws s other = some (.error (s', lost))) :
    Conserves s s' other.held (other.held + heldBy lost) := by
  obtain ⟨q, hcopy, h⟩ := Option.bind_eq_some_iff.mp h
  cases q with
  | error e =>
      cases h
      exact copy_conserves_of_throws hcopy
  | ok q =>
      obtain ⟨⟨s₂, c₂, copy₂⟩, -, h⟩ := Option.bind_eq_some_iff.mp h
      obtain ⟨s₃, -, heq⟩ := Option.bind_eq_some_iff.mp h
      exact absurd heq nofun

end ChainStorage

end Taps
