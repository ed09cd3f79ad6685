import CacheSim.Proofs.Store.Places
import CacheSim.Proofs.Store.Recency

/-!
# LRU stores

What the operations of an LRU store do to the lines of its places, whether there
is one place or a set for every index: a change or a touch changes one line of
one place (`Lru.linesAt_update`, `Lru.linesAt_touch`), and an insertion adds a
line to one place and takes out one that was used first there, if there is no
room (`Lru.insert`).
-/

namespace CacheSim

open Directory

/-! ## The victims of LRU -/

namespace FullyAssociative

variable {s : FullyAssociative} {addr : Nat}

theorem getElem?_of_swapRemove {lines rest : List Line} {i : Nat} {v : Line}
    (h : swapRemove lines i = some (v, rest)) : lines[i]? = some v := by
  unfold swapRemove at h
  split at h
  · rename_i hl _
    rw [hl, (Prod.mk.inj (Option.some.inj h)).1]
  · cases h

/-- The line that is taken out was used first. -/
theorem evict_of_lru (hp : s.policy = .lru) (hne : s.lines ≠ []) (g : Generator) :
    ∃ v rest, (s.evict g).result = .ok (some v, { s with lines := rest }, g) ∧ s.lines.Perm (v :: rest) ∧
      ∀ l ∈ s.lines, v.lastAccess ≤ l.lastAccess := by
  have hne : s.lines.map (·.lastAccess) ≠ [] := by simpa
  obtain ⟨i, hi, hvictim, hleast⟩ := Policy.victim?_lru hne g
  rw [List.length_map] at hi
  obtain ⟨v, rest, hr⟩ := swapRemove_eq_some hi
  have hv : s.lines[i] = v := by
    have := getElem?_of_swapRemove hr
    rwa [List.getElem?_eq_getElem hi, Option.some.injEq] at this
  refine ⟨v, rest, by simp [evict, hp, hvictim, hr], perm_of_swapRemove hr, fun l hl => ?_⟩
  have := hleast _ (List.mem_map_of_mem hl)
  rwa [List.getElem_map, hv] at this

/-- An insertion takes out a line that was used first, if the store is full. -/
theorem insert_of_lru (hp : s.policy = .lru) (hpos : 0 < s.capacity) (hroom : s.lines.length ≤ s.capacity)
    (hn : s.lookup addr = none) (g : Generator) (data : Bytes) :
    ∃ victim rest, (s.insert g addr data).result =
        .ok (victim, s.added rest (.fresh addr data (s.time + 1)) (s.time + 1), g) ∧
      s.lines.Perm (victim.toList ++ rest) ∧ LeastRecent s.capacity s.lines victim := by
  rcases Nat.lt_or_eq_of_le hroom with hfree | hfull
  · exact ⟨none, s.lines, insert_of_free hn hfree g data, .refl _, .free hfree⟩
  · have hne : s.lines ≠ [] := by
      intro he
      rw [he, List.length_nil] at hfull
      omega
    obtain ⟨v, rest, he, hperm, hleast⟩ := evict_of_lru hp hne g
    have hrest : rest.length < s.capacity := Nat.le_trans (Nat.le_of_eq hperm.length_eq.symm) hroom
    exact ⟨some v, rest, (insert_of_full hn hfull.ge he data).trans (if_pos hrest), hperm, .full hfull hleast⟩

end FullyAssociative

/-- Without a free way, the lines are the ways one by one. -/
theorem Ways.map_some_lines {w : Ways} (h : w.findIdx? Option.isNone = none) : w.lines.map some = w := by
  have hs : ∀ x ∈ w, x.isSome := by simpa using h
  clear h
  induction w with
  | nil => rfl
  | cons x w ih =>
    obtain ⟨l, rfl⟩ := Option.isSome_iff_exists.mp (hs _ (List.mem_cons_self ..))
    have hrest := ih fun y hy => hs y (List.mem_cons_of_mem _ hy)
    show some l :: (lines w).map some = some l :: w
    rw [hrest]

/-- Without a free way, a way holds the line of its own number. -/
theorem Ways.getD_of_full {w : Ways} {i : Nat} (h : w.findIdx? Option.isNone = none) (hi : i < w.lines.length) :
    w.getD i none = some w.lines[i] := by
  conv_lhs => rw [← Ways.map_some_lines h]
  rw [List.getD_eq_getElem?_getD, List.getElem?_map, List.getElem?_eq_getElem hi]
  rfl

namespace SetAssociative

variable {s : SetAssociative} {addr : Nat}

/-- The way for a new block is free, or it has the line that was used first. -/
theorem chooseWay_of_lru {w : Ways} (hp : s.policy = .lru) (hpos : 0 < w.length) (g : Generator) :
    ∃ i, s.chooseWay w g = .ok (i, g) ∧ i < w.length ∧ LeastRecent w.length w.lines (w.getD i none) := by
  cases hfree : w.findIdx? Option.isNone with
  | some i =>
    have hi : s.chooseWay w g = .ok (i, g) := by simp [chooseWay, hfree]
    obtain ⟨hlt, hnone, -⟩ := List.findIdx?_eq_some_iff_getElem.mp hfree
    have hway : w.getD i none = none := by
      rw [List.getD_eq_getElem?_getD, List.getElem?_eq_getElem hlt]
      exact Option.isNone_iff_eq_none.mp hnone
    refine ⟨i, hi, hlt, ?_⟩
    rw [hway]
    exact .free ((getD_eq_none_iff_of_chooseWay hi hlt).mp hway)
  | none =>
    have hlen := Ways.length_lines_of_full hfree
    have hne := Ways.times_ne_nil hfree (List.ne_nil_of_length_pos hpos)
    obtain ⟨i, hi, hvictim, hleast⟩ := Policy.victim?_lru hne g
    rw [List.length_map] at hi
    refine ⟨i, by simp [chooseWay, hfree, hp, hvictim], by omega, ?_⟩
    rw [Ways.getD_of_full hfree hi]
    refine .full hlen fun l hl => ?_
    have := hleast _ (List.mem_map_of_mem hl)
    rwa [List.getElem_map] at this

/-- An insertion takes a line out of the set of the new block, one that was used
first, if the set is full. -/
theorem insert_of_lru (hp : s.policy = .lru) (hpos : 0 < (s.setOf addr).length) (hn : s.lookup addr = none)
    (g : Generator) (data : Bytes) :
    ∃ i, (s.insert g addr data).result =
        .ok ((s.setOf addr).getD i none, s.placed i (.fresh addr data (s.time + 1)) (s.time + 1), g) ∧
      i < (s.setOf addr).length ∧
      LeastRecent (s.setOf addr).length (s.setOf addr).lines ((s.setOf addr).getD i none) := by
  obtain ⟨i, hi, hlt, hleast⟩ := chooseWay_of_lru hp hpos g
  exact ⟨i, by simp [insert, hn, hi, placed], hlt, hleast⟩

theorem setOf_mem (s : SetAssociative) (addr : Nat) : s.setOf addr ∈ s.sets.toList :=
  Vector.mem_toList_iff.mpr (Vector.getElem_mem _)

theorem toList_withSet (s : SetAssociative) (addr : Nat) (w : Ways) :
    (s.withSet addr w).sets.toList = s.sets.toList.set (s.mapping.setIndex addr) w :=
  Vector.toList_set (s.mapping.setIndex addr).isLt

end SetAssociative

namespace Store

variable {s t u : Store} {i addr : Nat}

/-! ## LRU stores -/

/-- The victims are chosen by LRU, and all places have room for as many lines. -/
def Lru (s : Store) : Prop :=
  match s.organization with
  | .direct _ => False
  | .full f => f.policy = .lru ∧ 0 < f.capacity
  | .sets a => a.policy = .lru ∧ 0 < a.ways ∧ ∀ w ∈ a.sets.toList, w.length = a.ways

/-- The store `t` is an LRU store with the places of `s`. -/
structure LruLike (s t : Store) : Prop where
  lru : t.Lru
  places : t.places = s.places
  placeOf : t.placeOf = s.placeOf
  room : t.room = s.room
  lineSize : t.lineSize = s.lineSize

theorem LruLike.refl (h : s.Lru) : s.LruLike s :=
  ⟨h, rfl, rfl, rfl, rfl⟩

theorem LruLike.trans (h : s.LruLike t) (h' : t.LruLike u) : s.LruLike u :=
  ⟨h'.lru, h'.places.trans h.places, h'.placeOf.trans h.placeOf, h'.room.trans h.room, h'.lineSize.trans h.lineSize⟩

theorem LruLike.euclidean (h : s.LruLike t) (h' : s.LruLike u) : t.LruLike u :=
  ⟨h'.lru, h'.places.trans h.places.symm, h'.placeOf.trans h.placeOf.symm, h'.room.trans h.room.symm,
    h'.lineSize.trans h.lineSize.symm⟩

theorem Lru.room_pos (h : s.Lru) : 0 < s.room := by
  obtain ⟨d | f | a, g⟩ := s
  · exact h.elim
  · exact h.2
  · exact h.2.1

/-- A new fully associative store. -/
theorem full_of_geometry {g : Geometry} {gen : Generator} (h : ofGeometry? g gen = .ok s)
    (hk : g.kind = .fullyAssociative) :
    0 < g.lines ∧ s = ⟨.full { capacity := g.lines, lineSize := g.lineSize, policy := g.policy }, gen⟩ := by
  simp only [hk, ofGeometry?, FullyAssociative.ofSizes?] at h
  split at h
  · exact ⟨‹_›, (Except.ok.inj h).symm⟩
  · cases h

/-- A new set associative store. -/
theorem sets_of_geometry {g : Geometry} {gen : Generator} (h : ofGeometry? g gen = .ok s)
    (hk : g.kind = .setAssociative) :
    0 < g.ways ∧ ∃ m : Mapping, m.sets = g.lines / g.ways ∧ m.lineSize = g.lineSize ∧
      s = ⟨.sets ⟨m, g.ways, g.policy, Vector.replicate m.sets (List.replicate g.ways none), 0⟩, gen⟩ := by
  simp only [hk, ofGeometry?, SetAssociative.ofSizes?, Mapping.ofSizes?] at h
  split at h
  · split at h
    · split at h
      · split at h
        · exact ⟨‹_›, _, rfl, rfl, (Except.ok.inj h).symm⟩
        · cases h
      · cases h
    · cases h
  · cases h

/-- New stores with LRU are LRU stores, and have no lines. -/
theorem lru_of_geometry {g : Geometry} {gen : Generator} (h : ofGeometry? g gen = .ok s) (hp : g.policy = .lru)
    (hk : g.kind ≠ .directMapped) : s.Lru ∧ s.time = 0 ∧ ∀ i, s.linesAt i = [] := by
  cases hkind : g.kind with
  | directMapped => exact absurd hkind hk
  | fullyAssociative =>
    obtain ⟨hpos, rfl⟩ := full_of_geometry h hkind
    exact ⟨⟨hp, hpos⟩, rfl, fun _ => rfl⟩
  | setAssociative =>
    obtain ⟨hpos, m, -, -, rfl⟩ := sets_of_geometry h hkind
    refine ⟨⟨hp, hpos, fun w hw => ?_⟩, rfl, fun i => ?_⟩
    · rw [Vector.toList_replicate] at hw
      rw [List.eq_of_mem_replicate hw, List.length_replicate]
    · show Ways.lines ((Vector.replicate m.sets (List.replicate g.ways none)).toList.getD i []) = []
      rw [Vector.toList_replicate, List.getD_eq_getElem?_getD, List.getElem?_replicate]
      split
      · exact Ways.lines_replicate g.ways
      · rfl

/-- The store at a later time. -/
def later (s : Store) : Store :=
  { s with
    organization := match s.organization with
      | .direct d => .direct { d with time := d.time + 1 }
      | .full f => .full { f with time := f.time + 1 }
      | .sets a => .sets { a with time := a.time + 1 } }

theorem touch_eq (s : Store) (addr : Nat) : s.touch addr = s.later.update addr (·.touched (s.time + 1)) := by
  obtain ⟨d | f | a, g⟩ := s <;> rfl

theorem linesAt_later (s : Store) (i : Nat) : s.later.linesAt i = s.linesAt i := by
  obtain ⟨d | f | a, g⟩ := s <;> rfl

theorem time_later (s : Store) : s.later.time = s.time + 1 := by
  obtain ⟨d | f | a, g⟩ := s <;> rfl

theorem Lru.later (h : s.Lru) : s.LruLike s.later := by
  obtain ⟨d | f | a, g⟩ := s
  · exact h.elim
  · exact ⟨h, rfl, rfl, rfl, rfl⟩
  · exact ⟨h, rfl, rfl, rfl, rfl⟩

/-- The lines of a set associative store with other ways in one set. -/
theorem linesAt_withSet (a : SetAssociative) (g g' : Generator) (addr : Nat) (w : Ways) (i : Nat) :
    linesAt ⟨.sets (a.withSet addr w), g'⟩ i =
      if (a.mapping.setIndex addr : Nat) = i then w.lines else linesAt ⟨.sets a, g⟩ i := by
  have hlt : (a.mapping.setIndex addr : Nat) < a.sets.toList.length := by
    rw [Vector.length_toList]
    exact (a.mapping.setIndex addr).isLt
  show Ways.lines ((a.withSet addr w).sets.toList.getD i []) = _
  rw [a.toList_withSet, List.getD_eq_getElem?_getD, List.getElem?_set, if_pos hlt, apply_ite (Option.getD · []),
    apply_ite Ways.lines, ← List.getD_eq_getElem?_getD]
  rfl

/-- A change of a block changes the lines of its place. -/
theorem Lru.linesAt_update (h : s.Lru) (hi : i < s.places) (addr : Nat) (f : Line → Line) :
    (s.update addr f).linesAt i = if s.placeOf addr = i then changed (s.linesAt i) addr f else s.linesAt i := by
  obtain ⟨d | a | a, g⟩ := s
  · exact h.elim
  · obtain rfl : i = 0 := Nat.lt_one_iff.mp hi
    rfl
  · show linesAt ⟨.sets (a.withSet addr ((a.setOf addr).update addr f)), g⟩ i = if (a.mapping.setIndex addr : Nat) = i then _ else _
    rw [linesAt_withSet a g g addr, Ways.lines_update]
    split
    · rename_i he
      rw [← he, linesAt_sets a g, SetAssociative.setOf_eq]
    · rfl

theorem Lru.update (h : s.Lru) (addr : Nat) (f : Line → Line) : s.LruLike (s.update addr f) := by
  obtain ⟨d | a | a, g⟩ := s
  · exact h.elim
  · exact ⟨h, rfl, rfl, rfl, rfl⟩
  · refine ⟨⟨h.1, h.2.1, fun w hw => ?_⟩, rfl, rfl, rfl, rfl⟩
    rcases List.mem_or_eq_of_mem_set (a.toList_withSet addr _ ▸ hw) with hw | rfl
    · exact h.2.2 w hw
    · exact List.length_map .. |>.trans (h.2.2 _ (a.setOf_mem addr))

theorem time_update (s : Store) (addr : Nat) (f : Line → Line) : (s.update addr f).time = s.time := by
  obtain ⟨d | a | a, g⟩ := s
  · exact DirectMapped.time_update d addr f
  · rfl
  · rfl

theorem time_touch (s : Store) (addr : Nat) : (s.touch addr).time = s.time + 1 := by
  rw [touch_eq, time_update, time_later]

theorem Lru.touch (h : s.Lru) (addr : Nat) : s.LruLike (s.touch addr) :=
  s.touch_eq addr ▸ h.later.trans (h.later.lru.update ..)

theorem Lru.linesAt_touch (h : s.Lru) (hi : i < s.places) (addr : Nat) :
    (s.touch addr).linesAt i =
      if s.placeOf addr = i then changed (s.linesAt i) addr (·.touched (s.time + 1)) else s.linesAt i := by
  rw [touch_eq, h.later.lru.linesAt_update (h.later.places ▸ hi), h.later.placeOf, linesAt_later]

/-- Where there are several places, none has more lines than there is room for. -/
theorem Lru.length_linesAt_le (h : s.Lru) (hi : i < s.places) (hne : s.placeOf addr ≠ i) :
    (s.linesAt (s.placeOf addr)).length ≤ s.room := by
  obtain ⟨d | f | a, g⟩ := s
  · exact h.elim
  · exact absurd (Nat.lt_one_iff.mp hi).symm hne
  · show (linesAt ⟨.sets a, g⟩ (a.mapping.setIndex addr)).length ≤ a.ways
    rw [linesAt_sets a g, ← h.2.2 _ (a.setOf_mem addr)]
    exact Ways.length_lines_le _

/-- A resident block cannot be inserted. -/
theorem Lru.insert_of_resident (h : s.Lru) (hn : s.lookup addr ≠ none) (data : Bytes) :
    (s.insert addr data).result = .error (.residentBlock addr) := by
  obtain ⟨l, hl⟩ := Option.ne_none_iff_exists'.mp hn
  obtain ⟨d | a | a, g⟩ := s
  · exact h.elim
  · have ha : a.lookup addr = some l := hl
    simp [Store.insert, FullyAssociative.insert, ha]
  · have ha : a.lookup addr = some l := hl
    simp [Store.insert, SetAssociative.insert, ha]

/-- An insertion puts the new line into its place, and takes out one that was used
first there if there is no room. -/
theorem Lru.insert (h : s.Lru) (hroom : (s.linesAt (s.placeOf addr)).length ≤ s.room) (hn : s.lookup addr = none)
    (data : Bytes) :
    ∃ victim rest t, (s.insert addr data).result = .ok (victim, t) ∧ s.LruLike t ∧ t.time = s.time + 1 ∧
      (s.linesAt (s.placeOf addr)).Perm (victim.toList ++ rest) ∧
      (t.linesAt (s.placeOf addr)).Perm (.fresh addr data (s.time + 1) :: rest) ∧
      LeastRecent s.room (s.linesAt (s.placeOf addr)) victim ∧
      ∀ i < s.places, s.placeOf addr ≠ i → t.linesAt i = s.linesAt i := by
  obtain ⟨d | a | a, g⟩ := s
  · exact h.elim
  · obtain ⟨victim, rest, hr, hperm, hleast⟩ := FullyAssociative.insert_of_lru h.1 h.2 hroom hn g data
    refine ⟨victim, rest, ⟨.full (a.added rest (.fresh addr data (a.time + 1)) (a.time + 1)), g⟩, by simp [Store.insert, hr],
      ⟨h, rfl, rfl, rfl, rfl⟩, rfl, hperm, List.perm_append_singleton _ rest, hleast, fun i hi hne => ?_⟩
    exact absurd (Nat.lt_one_iff.mp hi).symm hne
  · have hwidth : (a.setOf addr).length = a.ways := h.2.2 _ (a.setOf_mem addr)
    obtain ⟨i, hr, hlt, hleast⟩ := SetAssociative.insert_of_lru h.1 (hwidth ▸ h.2.1) hn g data
    have hthere : linesAt ⟨.sets a, g⟩ (a.mapping.setIndex addr) = (a.setOf addr).lines := linesAt_sets a g _
    have hnew : ∀ j, linesAt ⟨.sets (a.placed i (.fresh addr data (a.time + 1)) (a.time + 1)), g⟩ j =
        if (a.mapping.setIndex addr : Nat) = j then Ways.lines ((a.setOf addr).set i (some (.fresh addr data (a.time + 1))))
          else linesAt ⟨.sets a, g⟩ j :=
      linesAt_withSet { a with time := a.time + 1 } g g addr _
    refine ⟨(a.setOf addr).getD i none, Ways.lines ((a.setOf addr).eraseIdx i),
      ⟨.sets (a.placed i (.fresh addr data (a.time + 1)) (a.time + 1)), g⟩, by simp [Store.insert, hr],
      ⟨⟨h.1, h.2.1, fun w hw => ?_⟩, rfl, rfl, rfl, rfl⟩, rfl, hthere ▸ Ways.lines_perm hlt, ?_, ?_, fun j _ hne => ?_⟩
    · rcases List.mem_or_eq_of_mem_set (SetAssociative.toList_withSet { a with time := a.time + 1 } addr _ ▸ hw) with hw | rfl
      · exact h.2.2 w hw
      · exact List.length_set.trans hwidth
    · exact (hnew _).trans (if_pos rfl) ▸ Ways.lines_set_perm hlt _
    · show LeastRecent a.ways (linesAt ⟨.sets a, g⟩ (a.mapping.setIndex addr)) _
      rw [hthere, ← hwidth]
      exact hleast
    · exact (hnew j).trans (if_neg hne)

end Store

end CacheSim
