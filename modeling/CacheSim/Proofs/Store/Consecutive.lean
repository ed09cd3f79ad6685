import CacheSim.Proofs.Store.BoundedMap
import CacheSim.Proofs.Store.Mapping

/-!
# Consecutive blocks in a store

The places of a store are the sets of a mapping (`val_setIndex`), which spreads blocks
evenly.  So there is room for consecutive blocks up to the capacity of a store, wherever
they begin and however the store is organised: a place never holds more than its share of
them (`Filled.length_linesAt_le`), the next one of them evicts nothing (`Filled.insert`),
and in the end all of them are resident (`run_fill`).
-/

namespace CacheSim.Store

variable {s t : Store} {addr i : Nat} {blocks : List Bytes} {data : Bytes}

/-! ## The places as sets -/

/-- The mapping of blocks to the places of a store. -/
def mapping (s : Store) (hs : 0 < s.lineSize) : Mapping :=
  ⟨s.places, s.lineSize, Nat.zero_lt_of_lt (s.placeOf_lt 0), hs⟩

theorem val_setIndex (s : Store) (hs : 0 < s.lineSize) (addr : Nat) :
    ((s.mapping hs).setIndex addr : Nat) = s.placeOf addr := by
  obtain ⟨d | f | a, g⟩ := s
  · rfl
  · exact Nat.mod_one _
  · rfl

/-! ## Blocks one behind the other -/

/-- The store holds the blocks that begin at an address, one behind the other, and no other
ones. -/
structure Filled (s : Store) (addr : Nat) (blocks : List Bytes) : Prop where
  valid : s.Valid
  lineSize_pos : 0 < s.lineSize
  dvd : s.lineSize ∣ addr
  holds : ∀ {k data}, blocks[k]? = some data → ∃ l, s.lookup (addr + k * s.lineSize) = some l ∧ l.data = data
  only : ∀ {b l}, s.lookup b = some l → ∃ k < blocks.length, b = addr + k * s.lineSize

theorem Filled.index_inj (h : s.Filled addr blocks) {j k : Nat}
    (heq : addr + j * s.lineSize = addr + k * s.lineSize) : j = k :=
  Nat.mul_right_cancel h.lineSize_pos (Nat.add_left_cancel heq)

/-- The lines at a place hold blocks that belong there. -/
theorem Filled.exists_of_mem (h : s.Filled addr blocks) (hi : i < s.places) {l : Line} (hl : l ∈ s.linesAt i) :
    ∃ k < blocks.length, addr + k * s.lineSize = l.tag ∧
      (s.mapping h.lineSize_pos).setIndex (addr + k * s.lineSize) = ⟨i, hi⟩ := by
  have hmem : l ∈ s.lines := s.lines_eq ▸ List.mem_flatMap.mpr ⟨i, List.mem_range.mpr hi, hl⟩
  obtain ⟨k, hk, htag⟩ := h.only (h.valid.lookup_of_mem hmem)
  refine ⟨k, hk, htag.symm, Fin.ext ?_⟩
  rw [val_setIndex, ← htag]
  exact (h.valid.place hi).2.1 l hl

/-- A place holds no more than its share of the blocks. -/
theorem Filled.length_linesAt_le (h : s.Filled addr blocks) (hi : i < s.places) :
    (s.linesAt i).length ≤ (s.mapping h.lineSize_pos).share addr blocks.length ⟨i, hi⟩ := by
  set m := s.mapping h.lineSize_pos
  have hsub : ((s.linesAt i).map (·.tag)).toFinset ⊆
      ((Finset.range blocks.length).filter fun k => m.setIndex (addr + k * m.lineSize) = ⟨i, hi⟩).image
        fun k => addr + k * m.lineSize := by
    intro tag htag
    obtain ⟨l, hl, rfl⟩ := List.mem_map.mp (List.mem_toFinset.mp htag)
    obtain ⟨k, hk, htag, hset⟩ := h.exists_of_mem hi hl
    exact Finset.mem_image.mpr ⟨k, Finset.mem_filter.mpr ⟨Finset.mem_range.mpr hk, hset⟩, htag⟩
  calc (s.linesAt i).length
      = ((s.linesAt i).map (·.tag)).toFinset.card := by
        rw [List.toFinset_card_of_nodup (h.valid.place hi).1.nodup, List.length_map]
    _ ≤ _ := Finset.card_le_card hsub
    _ ≤ _ := Finset.card_image_le
    _ = m.share addr blocks.length ⟨i, hi⟩ := (Nat.count_eq_card_filter_range ..).symm

/-- While there is room in the store, there is room for the next block at its own place. -/
theorem Filled.room (h : s.Filled addr blocks) (hroom : blocks.length < s.capacity) :
    (s.linesAt (s.placeOf (addr + blocks.length * s.lineSize))).length < s.room := by
  set m := s.mapping h.lineSize_pos
  have hshare := h.length_linesAt_le (s.placeOf_lt (addr + blocks.length * s.lineSize))
  have hset : m.setIndex (addr + blocks.length * m.lineSize) =
      ⟨_, s.placeOf_lt (addr + blocks.length * s.lineSize)⟩ := Fin.ext (s.val_setIndex h.lineSize_pos _)
  rw [← hset, Mapping.share_eq, if_neg (Nat.lt_irrefl _), Nat.add_zero] at hshare
  refine Nat.lt_of_le_of_lt hshare ((Nat.div_lt_iff_lt_mul m.sets_pos).mpr ?_)
  rwa [s.capacity_eq, Nat.mul_comm] at hroom

/-- The next block is not resident yet. -/
theorem Filled.lookup_eq_none (h : s.Filled addr blocks) :
    s.lookup (addr + blocks.length * s.lineSize) = none := by
  refine Option.eq_none_iff_forall_ne_some.mpr fun l hl => ?_
  obtain ⟨k, hk, heq⟩ := h.only hl
  exact Nat.ne_of_gt hk (h.index_inj heq)

theorem Filled.inserted (h : s.Filled addr blocks) {n time : Nat} (hf : s.Follows t n)
    (hi : Directory.Inserted s.lookup t.lookup (addr + blocks.length * s.lineSize)
      (.fresh (addr + blocks.length * s.lineSize) data time) none) : t.Filled addr (blocks ++ [data]) := by
  refine ⟨hf.valid, hf.lineSize ▸ h.lineSize_pos, hf.lineSize ▸ h.dvd, fun {k bytes} hk => ?_, fun {b l} hl => ?_⟩
  · rw [hf.lineSize]
    rcases Nat.lt_or_ge k blocks.length with hlt | hge
    · rw [List.getElem?_append_left hlt] at hk
      obtain ⟨l, hl, hbytes⟩ := h.holds hk
      exact ⟨l, (hi.others _ (fun heq => Nat.ne_of_lt hlt (h.index_inj heq)) (by simp)).trans hl, hbytes⟩
    · rw [List.getElem?_append_right hge, List.getElem?_singleton] at hk
      split at hk
      · obtain rfl : k = blocks.length := by omega
        exact ⟨_, hi.fresh, Option.some.inj hk⟩
      · cases hk
  · rw [hf.lineSize, List.length_append, List.length_singleton]
    obtain ⟨rfl, -⟩ | hold := hi.of_some hl
    · exact ⟨blocks.length, Nat.lt_succ_self _, rfl⟩
    · obtain ⟨k, hk, heq⟩ := h.only hold
      exact ⟨k, Nat.lt_succ_of_lt hk, heq⟩

/-- While there is room in the store, the next block evicts nothing. -/
theorem Filled.insert (h : s.Filled addr blocks) (hroom : blocks.length < s.capacity)
    (hlen : data.length = s.lineSize) :
    ∃ t, (s.insert (addr + blocks.length * s.lineSize) data).result = .ok (none, t) ∧ s.Follows t 1 ∧
      t.Filled addr (blocks ++ [data]) := by
  have hd : s.lineSize ∣ addr + blocks.length * s.lineSize := Nat.dvd_add h.dvd (Nat.dvd_mul_left ..)
  obtain ⟨victim, t, hr, hf, hi⟩ := h.valid.insert_eq_ok h.lookup_eq_none hd hlen
  obtain rfl : victim = none := (h.valid.insert_place h.lookup_eq_none hd hr).1.mpr (h.room hroom)
  exact ⟨t, hr, hf, h.inserted hf hi⟩

/-! ## Runs -/

/-- The calls that insert blocks one behind the other. -/
def fill (lineSize addr : Nat) : List Bytes → List Call
  | [] => []
  | data :: rest => .insert addr data :: fill lineSize (addr + lineSize) rest

/-- As long as there is room in the store, no block evicts another one. -/
theorem Filled.run (h : s.Filled addr blocks) {rest : List Bytes}
    (hroom : blocks.length + rest.length ≤ s.capacity) (hlen : ∀ data ∈ rest, data.length = s.lineSize) :
    ∃ t, (run (fill s.lineSize (addr + blocks.length * s.lineSize) rest) s).result =
        .ok (rest.map fun _ => .victim none, t) ∧ t.Filled addr (blocks ++ rest) := by
  induction rest generalizing s blocks with
  | nil => exact ⟨s, rfl, (List.append_nil blocks).symm ▸ h⟩
  | cons data rest ih =>
    rw [List.length_cons] at hroom
    obtain ⟨t, hr, hf, ht⟩ := h.insert (by omega) (hlen data (List.mem_cons_self ..))
    obtain ⟨u, hu, hfilled⟩ := ih ht (by rw [hf.capacity, List.length_append, List.length_singleton]; omega)
      fun data hdata => hf.lineSize ▸ hlen data (List.mem_cons_of_mem _ hdata)
    rw [hf.lineSize, List.length_append, List.length_singleton, Nat.add_mul, Nat.one_mul, ← Nat.add_assoc] at hu
    refine ⟨u, run_cons_eq_ok.mpr ⟨.victim none, t, _, ?_, hu, rfl⟩, ?_⟩
    · simp [perform, hr]
    · rwa [List.append_assoc, List.singleton_append] at hfilled

/-- A store has room for as many consecutive blocks as its capacity says. -/
theorem run_fill {g : Geometry} {gen : Generator} (h₀ : ofGeometry? g gen = .ok s) (hs : 0 < g.lineSize)
    (hd : g.lineSize ∣ addr) (hroom : blocks.length ≤ s.capacity)
    (hlen : ∀ data ∈ blocks, data.length = g.lineSize) :
    ∃ t, (run (fill g.lineSize addr blocks) s).result = .ok (blocks.map fun _ => .victim none, t) ∧
      t.Filled addr blocks := by
  obtain ⟨hv, hsize, hempty, -⟩ := valid_ofGeometry? h₀
  rw [← hsize] at hs hd hlen ⊢
  have hfilled : s.Filled addr [] := ⟨hv, hs, hd, fun hk => by simp at hk, fun hl => by simp [hempty] at hl⟩
  obtain ⟨t, hr, ht⟩ := hfilled.run (by simpa using hroom) hlen
  exact ⟨t, by simpa using hr, ht⟩

end CacheSim.Store
