import CacheSim.Proofs.Packet
import CacheSim.Proofs.Store.Directory
import CacheSim.Store.DirectMapped

/-!
# The directory of a direct mapped store

A line stands in the slot of its own set, so a block is looked up where it is
inserted.
-/

namespace CacheSim.DirectMapped

variable {s : DirectMapped} {addr : Nat}

/-- The line in a slot. -/
def slot (s : DirectMapped) (i : Fin s.mapping.sets) : Option Line :=
  s.slots[i]

/-- The slot of an address. -/
def slotOf (s : DirectMapped) (addr : Nat) : Option Line :=
  s.slot (s.mapping.setIndex addr)

/-- Every line stands in the slot of its set and holds a block. -/
structure Valid (s : DirectMapped) : Prop where
  setIndex : ∀ {i l}, s.slot i = some l → s.mapping.setIndex l.tag = i
  dvd : ∀ {i l}, s.slot i = some l → s.mapping.lineSize ∣ l.tag
  length : ∀ {i l}, s.slot i = some l → l.data.length = s.mapping.lineSize

theorem lookup_eq (s : DirectMapped) (addr : Nat) :
    s.lookup addr = (s.slotOf addr).filter (·.tag == addr) := rfl

theorem lookup_eq_some_iff {l : Line} :
    s.lookup addr = some l ↔ s.slotOf addr = some l ∧ l.tag = addr := by
  simp [lookup_eq, Option.filter_eq_some_iff]

theorem Valid.sound (h : s.Valid) : Directory.Sound s.lookup s.mapping.lineSize where
  tag hl := (lookup_eq_some_iff.mp hl).2
  dvd hl := by
    obtain ⟨hl, rfl⟩ := lookup_eq_some_iff.mp hl
    exact h.dvd hl
  length hl := h.length (lookup_eq_some_iff.mp hl).1

theorem valid_ofSizes? {lines lineSize : Nat} (h : ofSizes? lines lineSize = .ok s) :
    s.Valid ∧ s.mapping.lineSize = lineSize ∧ (∀ a, s.lookup a = none) ∧ s.time = 0 := by
  unfold ofSizes? Mapping.ofSizes? at h
  split at h
  · split at h
    · obtain rfl := Except.ok.inj h
      refine ⟨⟨fun hl => ?_, fun hl => ?_, fun hl => ?_⟩, rfl, fun a => ?_, rfl⟩ <;>
        simp_all [slot, lookup]
    · cases h
  · cases h

/-! ## Placing a line -/

/-- The store with a line placed into the slot of its set. -/
def placed (s : DirectMapped) (l : Line) (time : Nat) : DirectMapped :=
  { s with time, slots := s.slots.set (s.mapping.setIndex l.tag) (some l) }

theorem slot_placed (s : DirectMapped) (l : Line) (time : Nat) (i : Fin s.mapping.sets) :
    (s.placed l time).slot i = if s.mapping.setIndex l.tag = i then some l else s.slot i := by
  show (s.slots.set _ _)[(i : Nat)] = _
  rw [Vector.getElem_set]
  by_cases h : s.mapping.setIndex l.tag = i
  · rw [if_pos h, if_pos (congrArg Fin.val h)]
  · rw [if_neg h, if_neg fun he => h (Fin.ext he)]
    rfl

theorem lookup_placed (s : DirectMapped) (l : Line) (time b : Nat) :
    (s.placed l time).lookup b =
      if b = l.tag then some l
      else if s.mapping.setIndex b = s.mapping.setIndex l.tag then none else s.lookup b := by
  show ((s.placed l time).slot (s.mapping.setIndex b)).filter _ = _
  rw [slot_placed]
  by_cases hb : b = l.tag
  · subst hb
    simp
  · rw [if_neg hb]
    by_cases hi : s.mapping.setIndex l.tag = s.mapping.setIndex b
    · rw [if_pos hi, if_pos hi.symm]
      simpa using fun e => hb e.symm
    · rw [if_neg hi, if_neg fun e => hi e.symm]
      rfl

theorem Valid.placed (h : s.Valid) {l : Line} (hd : s.mapping.lineSize ∣ l.tag)
    (hl : l.data.length = s.mapping.lineSize) (time : Nat) : (s.placed l time).Valid := by
  have key : ∀ {i : Fin s.mapping.sets} {k : Line}, (s.placed l time).slot i = some k →
      (s.mapping.setIndex l.tag = i ∧ k = l) ∨ s.slot i = some k := by
    intro i k hk
    rw [slot_placed] at hk
    split at hk
    · rename_i hi
      exact .inl ⟨hi, (Option.some.inj hk).symm⟩
    · exact .inr hk
  refine ⟨fun {i k} hk => ?_, fun {i k} hk => ?_, fun {i k} hk => ?_⟩ <;>
    rcases key hk with ⟨hi, rfl⟩ | hk
  · exact hi
  · exact h.setIndex hk
  · exact hd
  · exact h.dvd hk
  · exact hl
  · exact h.length hk

theorem Valid.withTime (h : s.Valid) (time : Nat) : ({ s with time } : DirectMapped).Valid :=
  ⟨h.setIndex, h.dvd, h.length⟩

/-! ## Operations -/

theorem update_of_none {f : Line → Line} (h : s.lookup addr = none) : s.update addr f = s := by
  simp only [update, h]

theorem update_of_some {f : Line → Line} {l : Line} (h : s.lookup addr = some l)
    (hf : (f l).tag = l.tag) : s.update addr f = s.placed (f l) s.time := by
  obtain ⟨-, rfl⟩ := lookup_eq_some_iff.mp h
  simp only [update, h, DirectMapped.placed, hf]

/-- A change of a line that keeps its tag changes the directory in one place. -/
theorem updated_update {f : Line → Line} (hf : ∀ l, (f l).tag = l.tag) (addr : Nat) :
    Directory.Updated s.lookup (s.update addr f).lookup addr f := by
  intro b
  cases h : s.lookup addr with
  | none =>
    rw [update_of_none h]
    split
    · rename_i hb
      rw [hb, h]; rfl
    · rfl
  | some l =>
    rw [update_of_some h (hf l), lookup_placed]
    obtain ⟨hs, rfl⟩ := lookup_eq_some_iff.mp h
    rw [hf]
    by_cases hb : b = l.tag
    · rw [if_pos hb, if_pos hb, hb, h]; rfl
    rw [if_neg hb, if_neg hb]
    split
    · rename_i hi
      -- another block of the same set is not resident
      symm
      rw [lookup_eq, slotOf, hi, ← slotOf, hs]
      simpa using fun e => hb e.symm
    · rfl

theorem Valid.update {f : Line → Line} (h : s.Valid) (hf : ∀ l, (f l).tag = l.tag)
    (hl : ∀ l, s.lookup addr = some l → (f l).data.length = s.mapping.lineSize) :
    (s.update addr f).Valid := by
  cases hs : s.lookup addr with
  | none => rwa [update_of_none hs]
  | some l =>
    rw [update_of_some hs (hf l)]
    refine h.placed ?_ (hl l hs) _
    rw [hf]
    exact h.dvd (lookup_eq_some_iff.mp hs).1

theorem mapping_update (s : DirectMapped) (addr : Nat) (f : Line → Line) :
    (s.update addr f).mapping = s.mapping := by
  unfold DirectMapped.update
  split <;> rfl

theorem mapping_of_insert {t : DirectMapped} {data : Bytes} {victim : Option Line}
    (h : s.insert addr data = .ok (victim, t)) : t.mapping = s.mapping := by
  by_cases ht : s.mapping.tag addr = addr
  · cases hl : s.lookup addr with
    | none =>
      simp only [insert, ht, hl] at h
      obtain ⟨-, rfl⟩ := Prod.mk.inj (Except.ok.inj h)
      rfl
    | some l =>
      simp only [insert, ht, hl] at h
      cases h
  · unfold insert at h
    rw [if_neg ht] at h
    cases h

theorem time_update (s : DirectMapped) (addr : Nat) (f : Line → Line) :
    (s.update addr f).time = s.time := by
  unfold DirectMapped.update
  split <;> rfl

/-- A new block takes the place of what stands in its slot. -/
theorem insert_eq_ok {data : Bytes} (h : s.lookup addr = none) (hd : s.mapping.lineSize ∣ addr) :
    s.insert addr data = .ok (s.slotOf addr,
      s.placed (.fresh addr data (s.time + 1)) (s.time + 1)) := by
  have ht : s.mapping.tag addr = addr := Block.align_of_dvd hd
  simp [insert, ht, h]
  rfl

theorem inserted_insert {data : Bytes} (hv : s.Valid) (h : s.lookup addr = none) (time : Nat) :
    Directory.Inserted s.lookup (s.placed (.fresh addr data time) time).lookup addr
      (.fresh addr data time) (s.slotOf addr) := by
  have hne : ∀ v ∈ s.slotOf addr, v.tag ≠ addr := fun v hv' he => by
    have := lookup_eq_some_iff.mpr ⟨hv', he⟩
    rw [h] at this
    cases this
  refine ⟨?_, fun v hv' => ?_, fun v hv' => ?_, fun b hb hbv => ?_⟩
  · rw [lookup_placed]
    exact if_pos rfl
  · rw [lookup_eq_some_iff]
    exact ⟨by rw [slotOf, hv.setIndex hv']; exact hv', rfl⟩
  · rw [lookup_placed, Line.tag_fresh, if_neg (hne v hv'), if_pos (hv.setIndex hv')]
  · rw [lookup_placed, Line.tag_fresh, if_neg hb]
    split
    · rename_i hi
      symm
      rw [lookup_eq, slotOf, hi, Option.filter_eq_none_iff]
      intro v hv'
      simpa using fun e => hbv v hv' e.symm
    · rfl

theorem length_lines_le (s : DirectMapped) : s.lines.length ≤ s.mapping.sets := by
  have := List.length_filterMap_le id s.slots.toList
  rwa [Vector.length_toList] at this

end CacheSim.DirectMapped
