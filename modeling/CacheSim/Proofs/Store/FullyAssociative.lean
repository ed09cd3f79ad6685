import CacheSim.Proofs.Store.Lines
import CacheSim.Proofs.Store.Replacement
import CacheSim.Store.FullyAssociative

/-!
# The directory of a fully associative store

The lines are one list, and taking one out leaves the others, in another order
(`perm_of_swapRemove`).
-/

namespace CacheSim.FullyAssociative

open Directory

variable {s : FullyAssociative} {addr : Nat}

/-- The lines make a directory, and there is room for all of them. -/
structure Valid (s : FullyAssociative) : Prop where
  lines : ValidLines s.lines s.lineSize
  room : s.lines.length ≤ s.capacity
  pos : 0 < s.capacity

theorem lookup_eq (s : FullyAssociative) : s.lookup = ofLines s.lines := rfl

theorem valid_ofSizes? {capacity lineSize : Nat} {policy : Policy}
    (h : ofSizes? capacity lineSize policy = .ok s) :
    s.Valid ∧ s.lineSize = lineSize ∧ (∀ a, s.lookup a = none) ∧ s.time = 0 := by
  unfold ofSizes? at h
  split at h
  · obtain rfl := Except.ok.inj h
    exact ⟨⟨validLines_nil _, Nat.zero_le _, ‹_›⟩, rfl, fun _ => rfl, rfl⟩
  · cases h

theorem Valid.withTime (h : s.Valid) (time : Nat) : ({ s with time } : FullyAssociative).Valid :=
  ⟨h.lines, h.room, h.pos⟩

theorem Valid.update {f : Line → Line} (h : s.Valid) (hf : ∀ l, (f l).tag = l.tag)
    (hl : ∀ l, s.lookup addr = some l → (f l).data.length = s.lineSize) :
    (s.update addr f).Valid where
  lines := h.lines.changed hf hl
  room := by simpa [FullyAssociative.update] using h.room
  pos := h.pos

theorem updated_update {f : Line → Line} (hf : ∀ l, (f l).tag = l.tag) (addr : Nat) :
    Updated s.lookup (s.update addr f).lookup addr f :=
  updated_changed hf addr

/-! ## Insertions -/

theorem perm_of_swapRemove {lines rest : List Line} {i : Nat} {v : Line}
    (h : swapRemove lines i = some (v, rest)) : lines.Perm (v :: rest) := by
  unfold swapRemove at h
  split at h
  · rename_i l last hl hlast
    obtain ⟨rfl, rfl⟩ := Prod.mk.inj (Option.some.inj h)
    obtain ⟨init, rfl⟩ := List.getLast?_eq_some_iff.mp hlast
    by_cases hi : i < init.length
    · -- the last line moves into the place of the victim
      rw [List.getElem?_append_left hi, List.getElem?_eq_getElem hi] at hl
      obtain rfl := Option.some.inj hl
      rw [List.set_append_left _ _ hi, List.dropLast_concat]
      calc (init ++ [last]).Perm (last :: init) := List.perm_append_singleton last init
        _ |>.Perm (last :: init[i] :: init.eraseIdx i) := (List.getElem_cons_eraseIdx_perm hi).symm.cons last
        _ |>.Perm (init[i] :: last :: init.eraseIdx i) := List.Perm.swap ..
        _ |>.Perm (init[i] :: init.set i last) := (List.set_perm_cons_eraseIdx hi last).symm.cons _
    · -- the victim is the last line
      have hlen : i < (init ++ [last]).length := (List.getElem?_eq_some_iff.mp hl).1
      obtain rfl : i = init.length := by rw [List.length_append, List.length_singleton] at hlen; omega
      simp at hl
      subst hl
      simp
  · cases h

theorem swapRemove_eq_some {lines : List Line} {i : Nat} (h : i < lines.length) :
    ∃ v rest, swapRemove lines i = some (v, rest) := by
  have hlast : lines.getLast? ≠ none := by
    rw [ne_eq, List.getLast?_eq_none_iff]
    rintro rfl
    exact absurd h (Nat.not_lt_zero _)
  obtain ⟨last, hlast⟩ := Option.ne_none_iff_exists'.mp hlast
  exact ⟨lines[i], _, by simp [swapRemove, hlast, h]; rfl⟩

/-- A store that is not empty takes out one of its lines. -/
theorem evict_eq_ok (hne : s.lines ≠ []) (g : Generator) :
    ∃ v rest g', (s.evict g).result = .ok (some v, { s with lines := rest }, g') ∧
      s.lines.Perm (v :: rest) := by
  have hne : s.lines.map (·.lastAccess) ≠ [] := by simpa
  obtain ⟨i, g', hi, hlt⟩ := s.policy.victim?_eq_ok hne g
  obtain ⟨v, rest, hr⟩ := swapRemove_eq_some (by simpa using hlt)
  exact ⟨v, rest, g', by simp [evict, hi, hr], perm_of_swapRemove hr⟩

/-- The store that holds `rest` and a line that comes last. -/
def added (s : FullyAssociative) (rest : List Line) (l : Line) (time : Nat) : FullyAssociative :=
  { s with time, lines := rest ++ [l] }

/-- An insertion into a store with a free line puts the new one at the end. -/
theorem insert_of_free (h : s.lookup addr = none) (hroom : s.lines.length < s.capacity) (g : Generator)
    (data : Bytes) :
    (s.insert g addr data).result =
      .ok (none, s.added s.lines (.fresh addr data (s.time + 1)) (s.time + 1), g) := by
  have hlast : (s.lines ++ [Line.fresh addr data (s.time + 1)]).length ≤ s.capacity := by
    rwa [List.length_append]
  simp only [insert, Sim.result_bind, Sim.result_require, h, Option.isNone_none, if_true, Sim.ok_bind,
    if_neg (Nat.not_le.mpr hroom), Sim.result_pure, if_pos hlast]
  rfl

/-- An insertion into a full store puts the new line behind those that the
eviction leaves, and needs room for it there. -/
theorem insert_of_full (h : s.lookup addr = none) (hfull : s.capacity ≤ s.lines.length) {g g' : Generator}
    {victim : Option Line} {rest : List Line}
    (he : (s.evict g).result = .ok (victim, { s with lines := rest }, g')) (data : Bytes) :
    (s.insert g addr data).result =
      if rest.length < s.capacity then
        .ok (victim, s.added rest (.fresh addr data (s.time + 1)) (s.time + 1), g')
      else .error .overfullLines := by
  have hlast : (rest ++ [Line.fresh addr data (s.time + 1)]).length ≤ s.capacity ↔ rest.length < s.capacity := by
    rw [List.length_append]
    exact Iff.rfl
  simp only [insert, Sim.result_bind, Sim.result_require, h, Option.isNone_none, if_true, Sim.ok_bind, if_pos hfull,
    he, Sim.result_pure, hlast]
  split <;> rfl

/-- An insertion adds a line at the end; if the store was full, one of its
lines makes room for it. -/
theorem insert_eq_ok (hv : s.Valid) (h : s.lookup addr = none) (g : Generator) (data : Bytes) :
    ∃ victim rest g', (s.insert g addr data).result =
        .ok (victim, s.added rest (.fresh addr data (s.time + 1)) (s.time + 1), g') ∧
      s.lines.Perm (victim.toList ++ rest) ∧ rest.length < s.capacity := by
  by_cases hfull : s.capacity ≤ s.lines.length
  · have hne : s.lines ≠ [] := by
      rintro he
      have := hv.pos
      rw [he, List.length_nil] at hfull
      omega
    obtain ⟨v, rest, g', he, hperm⟩ := evict_eq_ok hne g
    have hroom : rest.length < s.capacity := by
      have := hperm.length_eq
      have := hv.room
      rw [List.length_cons] at *
      omega
    exact ⟨some v, rest, g', (insert_of_full h hfull he data).trans (if_pos hroom), hperm, hroom⟩
  · have hroom : s.lines.length < s.capacity := Nat.lt_of_not_le hfull
    exact ⟨none, s.lines, g, insert_of_free h hroom g data, List.Perm.refl _, hroom⟩

section Outcomes

variable {t : FullyAssociative} {g g' : Generator} {data : Bytes} {victim : Option Line}

theorem of_evict (h : (s.evict g).result = .ok (victim, t, g')) : ∃ rest, t = { s with lines := rest } := by
  simp only [evict, Sim.result_bind, Sim.result_liftM] at h
  obtain ⟨⟨i, g₁⟩, -, h⟩ := Sim.bind_eq_ok.mp h
  split at h
  · obtain ⟨-, hrest⟩ := Prod.mk.inj (Except.ok.inj h)
    obtain ⟨rfl, -⟩ := Prod.mk.inj hrest
    exact ⟨s.lines, rfl⟩
  · rename_i v lines _
    simp only [Sim.result_bind, Sim.result_trace, Sim.ok_bind, Sim.result_pure] at h
    obtain ⟨-, hrest⟩ := Prod.mk.inj (Except.ok.inj h)
    obtain ⟨rfl, -⟩ := Prod.mk.inj hrest
    exact ⟨lines, rfl⟩

/-- An insertion puts the line at the end, after an eviction if the store is full. -/
theorem of_insert (h : (s.insert g addr data).result = .ok (victim, t, g')) :
    ∃ rest, t = s.added rest (.fresh addr data (s.time + 1)) (s.time + 1) ∧ rest.length < s.capacity ∧
      (s.lines.length < s.capacity ∧ victim = none ∧ g' = g ∨
        s.capacity ≤ s.lines.length ∧ (s.evict g).result = .ok (victim, { s with lines := rest }, g')) := by
  simp only [insert, Sim.result_bind] at h
  obtain ⟨_, hn, h⟩ := Sim.bind_eq_ok.mp h
  split at h
  · rename_i hfull
    simp only [Sim.result_bind] at h
    obtain ⟨⟨w, u, g₁⟩, he, h⟩ := Sim.bind_eq_ok.mp h
    obtain ⟨rest, rfl⟩ := of_evict he
    obtain ⟨_, hlast, h⟩ := Sim.bind_eq_ok.mp h
    have hroom := Sim.of_require hlast
    rw [List.length_append] at hroom
    obtain ⟨rfl, hrest⟩ := Prod.mk.inj (Except.ok.inj h)
    obtain ⟨rfl, rfl⟩ := Prod.mk.inj hrest
    exact ⟨rest, rfl, hroom, .inr ⟨hfull, he⟩⟩
  · rename_i hfree
    simp only [Sim.result_bind, Sim.result_pure, Sim.ok_bind] at h
    obtain ⟨-, -, h⟩ := Sim.bind_eq_ok.mp h
    obtain ⟨rfl, hrest⟩ := Prod.mk.inj (Except.ok.inj h)
    obtain ⟨rfl, rfl⟩ := Prod.mk.inj hrest
    have hroom := Nat.lt_of_not_le hfree
    exact ⟨s.lines, rfl, hroom, .inl ⟨hroom, rfl, rfl⟩⟩

/-- A fully associative store takes a line out if and only if it is full. -/
theorem Valid.eq_none_iff_of_insert (h : s.Valid) (hr : (s.insert g addr data).result = .ok (victim, t, g')) :
    victim = none ↔ s.lines.length < s.capacity := by
  obtain ⟨rest, -, -, ⟨hroom, rfl, -⟩ | ⟨hfull, he⟩⟩ := of_insert hr
  · exact iff_of_true rfl hroom
  · have hne : s.lines ≠ [] := List.ne_nil_of_length_pos (Nat.lt_of_lt_of_le h.pos hfull)
    obtain ⟨v, rest', g₁, he', -⟩ := evict_eq_ok hne g
    obtain ⟨rfl, -⟩ := Prod.mk.inj (Except.ok.inj (he'.symm.trans he))
    exact iff_of_false (Option.some_ne_none v) (Nat.not_lt.mpr hfull)

end Outcomes

variable {rest : List Line} {victim : Option Line} {l : Line}

theorem Valid.added (hv : s.Valid) (h : s.lookup l.tag = none) (hd : s.lineSize ∣ l.tag)
    (hl : l.data.length = s.lineSize) (hperm : s.lines.Perm (victim.toList ++ rest))
    (hroom : rest.length < s.capacity) (time : Nat) : (s.added rest l time).Valid where
  lines := hv.lines.replaced h hd hl hperm (List.perm_append_singleton l rest)
  room := by
    simp only [FullyAssociative.added, List.length_append, List.length_singleton]
    omega
  pos := hv.pos

theorem inserted_added (hv : s.Valid) (h : s.lookup l.tag = none) (hd : s.lineSize ∣ l.tag)
    (hl : l.data.length = s.lineSize) (hperm : s.lines.Perm (victim.toList ++ rest)) (time : Nat) :
    Inserted s.lookup (s.added rest l time).lookup l.tag l victim :=
  hv.lines.inserted h hd hl hperm (List.perm_append_singleton l rest)

end CacheSim.FullyAssociative
