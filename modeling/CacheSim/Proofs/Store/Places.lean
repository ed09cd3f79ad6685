import CacheSim.Proofs.Store.Residents
import Mathlib.Data.List.Nodup

/-!
# The places of a store

Every block has one place: a slot, a set, or the only place of a fully
associative store.  The lines of a store are those of its places one after
another (`lines_eq`), a block is looked up among the lines of its place
(`lookup_eq`), and an insertion takes a line out of the place of the new block
if and only if there is no room left there (`Valid.insert_place`).
-/

namespace CacheSim

theorem map_getD_range {α : Type} (l : List α) (d : α) : (List.range l.length).map (l.getD · d) = l := by
  refine List.ext_getElem (by simp) fun i h₁ h₂ => ?_
  simp [List.getD_eq_getElem?_getD, h₂]

namespace Store

open Directory

variable {s t : Store} {addr b : Nat} {l : Line}

/-- The number of places. -/
def places (s : Store) : Nat :=
  match s.organization with
  | .direct d => d.mapping.sets
  | .full _ => 1
  | .sets a => a.mapping.sets

/-- The place of a block. -/
def placeOf (s : Store) (addr : Nat) : Nat :=
  match s.organization with
  | .direct d => d.mapping.setIndex addr
  | .full _ => 0
  | .sets a => a.mapping.setIndex addr

/-- The lines at a place. -/
def linesAt (s : Store) (i : Nat) : List Line :=
  match s.organization with
  | .direct d => (d.slots.toList.getD i none).toList
  | .full f => f.lines
  | .sets a => Ways.lines (a.sets.toList.getD i [])

/-- The number of lines that a place has room for. -/
def room (s : Store) : Nat :=
  match s.organization with
  | .direct _ => 1
  | .full f => f.capacity
  | .sets a => a.ways

theorem capacity_eq (s : Store) : s.capacity = s.places * s.room := by
  obtain ⟨d | f | a, g⟩ := s
  · exact (Nat.mul_one _).symm
  · exact (Nat.one_mul _).symm
  · rfl

theorem placeOf_lt (s : Store) (addr : Nat) : s.placeOf addr < s.places := by
  obtain ⟨d | f | a, g⟩ := s
  · exact (d.mapping.setIndex addr).isLt
  · exact Nat.one_pos
  · exact (a.mapping.setIndex addr).isLt

/-- The lines are those of the places, one place after another. -/
theorem lines_eq (s : Store) : s.lines = (List.range s.places).flatMap s.linesAt := by
  obtain ⟨d | f | a, g⟩ := s
  · have h := map_getD_range d.slots.toList none
    rw [Vector.length_toList] at h
    show d.slots.toList.filterMap id = (List.range d.mapping.sets).flatMap fun i => (d.slots.toList.getD i none).toList
    rw [List.filterMap_eq_flatMap_toList]
    conv_lhs => rw [← h]
    rw [List.flatMap_map]
    rfl
  · simp [lines, places, linesAt]
  · have h := map_getD_range a.sets.toList []
    rw [Vector.length_toList] at h
    show a.sets.toList.flatMap Ways.lines =
      (List.range a.mapping.sets).flatMap fun i => Ways.lines (a.sets.toList.getD i [])
    conv_lhs => rw [← h]
    rw [List.flatMap_map]

theorem linesAt_direct (d : DirectMapped) (g : Generator) (i : Fin d.mapping.sets) :
    linesAt ⟨.direct d, g⟩ i = (d.slot i).toList := by
  simp [linesAt, DirectMapped.slot, List.getD_eq_getElem?_getD]

theorem linesAt_sets (a : SetAssociative) (g : Generator) (i : Fin a.mapping.sets) :
    linesAt ⟨.sets a, g⟩ i = (a.set i).lines := by
  simp [linesAt, SetAssociative.set, List.getD_eq_getElem?_getD]

/-- A block is looked up among the lines of its place. -/
theorem lookup_eq (s : Store) (b : Nat) : s.lookup b = ofLines (s.linesAt (s.placeOf b)) b := by
  obtain ⟨d | f | a, g⟩ := s
  · show d.lookup b = ofLines (linesAt _ (d.mapping.setIndex b)) b
    rw [linesAt_direct, DirectMapped.lookup_eq, DirectMapped.slotOf]
    cases d.slot (d.mapping.setIndex b) <;> simp [ofLines, Option.filter]
  · rfl
  · show a.lookup b = ofLines (linesAt _ (a.mapping.setIndex b)) b
    rw [linesAt_sets]
    rfl

/-- The lines of a place are blocks of this place, and no more than it has room for. -/
theorem Valid.place (h : s.Valid) {i : Nat} (hi : i < s.places) :
    ValidLines (s.linesAt i) s.lineSize ∧ (∀ l ∈ s.linesAt i, s.placeOf l.tag = i) ∧
      (s.linesAt i).length ≤ s.room := by
  obtain ⟨d | f | a, g⟩ := s
  · have hd : d.Valid := h
    rw [linesAt_direct d g ⟨i, hi⟩]
    cases hslot : d.slot ⟨i, hi⟩ with
    | none => exact ⟨validLines_nil _, by simp, Nat.zero_le _⟩
    | some l =>
      refine ⟨⟨?_, ?_, ?_⟩, ?_, Nat.le_refl _⟩ <;> simp
      · exact hd.dvd hslot
      · exact hd.length hslot
      · exact congrArg Fin.val (hd.setIndex hslot)
  · obtain rfl : i = 0 := Nat.lt_one_iff.mp hi
    exact ⟨FullyAssociative.Valid.lines h, fun _ _ => rfl, FullyAssociative.Valid.room h⟩
  · have ha := SetAssociative.Valid.sets h ⟨i, hi⟩
    rw [linesAt_sets a g ⟨i, hi⟩]
    exact ⟨ha.lines, fun l hl => congrArg Fin.val (ha.setIndex l hl),
      (Ways.length_lines_le _).trans_eq ha.width⟩

/-- No two resident lines hold the same block. -/
theorem Valid.nodup_tags (h : s.Valid) : (s.lines.map (·.tag)).Nodup := by
  rw [s.lines_eq, List.map_flatMap, List.nodup_flatMap]
  refine ⟨fun i hi => (h.place (List.mem_range.mp hi)).1.nodup, ?_⟩
  refine List.nodup_range.imp_of_mem fun {i j} hi hj hne => ?_
  intro tag hti htj
  obtain ⟨k, hk, rfl⟩ := List.mem_map.mp hti
  obtain ⟨l, hl, htag⟩ := List.mem_map.mp htj
  have hki := (h.place (List.mem_range.mp hi)).2.1 k hk
  have hlj := (h.place (List.mem_range.mp hj)).2.1 l hl
  exact hne (hki.symm.trans (htag ▸ hlj))

/-- Exactly the resident lines are found, each under its tag. -/
theorem Valid.lookup_eq_some_iff (h : s.Valid) : s.lookup b = some l ↔ l ∈ s.lines ∧ l.tag = b := by
  refine ⟨fun hl => ?_, fun ⟨hl, ht⟩ => ht ▸ h.lookup_of_mem hl⟩
  rw [s.lookup_eq, (h.place (s.placeOf_lt b)).1.ofLines_eq_some_iff] at hl
  rw [s.lines_eq]
  exact ⟨List.mem_flatMap.mpr ⟨_, List.mem_range.mpr (s.placeOf_lt b), hl.1⟩, hl.2⟩

end Store

/-! ## Room for a new block -/

/-- An insertion takes a line out of the place of the new block, if there is no
room left. -/
theorem Store.Valid.insert_place {s t : Store} {addr : Nat} {data : Bytes} {victim : Option Line} (h : s.Valid)
    (hn : s.lookup addr = none) (hd : s.lineSize ∣ addr) (hr : (s.insert addr data).result = .ok (victim, t)) :
    (victim = none ↔ (s.linesAt (s.placeOf addr)).length < s.room) ∧
      ∀ v ∈ victim, v ∈ s.linesAt (s.placeOf addr) := by
  obtain ⟨d | f | a, g⟩ := s
  · obtain ⟨rfl, -⟩ : d.slotOf addr = victim ∧ _ = t := by
      simpa [insert, DirectMapped.insert_eq_ok (s := d) hn hd] using hr
    show (_ ↔ (linesAt _ (d.mapping.setIndex addr)).length < 1) ∧ ∀ v ∈ _, v ∈ linesAt _ (d.mapping.setIndex addr)
    rw [linesAt_direct, DirectMapped.slotOf]
    cases d.slot (d.mapping.setIndex addr) <;> simp
  · obtain ⟨v, rest, g', hi, hperm, -⟩ := FullyAssociative.insert_eq_ok h hn g data
    obtain ⟨rfl, -⟩ : v = victim ∧ _ = t := by simpa [insert, hi] using hr
    refine ⟨FullyAssociative.Valid.eq_none_iff_of_insert h hi, fun w hw => ?_⟩
    exact hperm.mem_iff.mpr (List.mem_append_left _ (Option.mem_toList.mpr hw))
  · obtain ⟨i, g', hi, -⟩ := SetAssociative.insert_eq_ok h hn g data
    obtain ⟨rfl, -⟩ : (a.setOf addr).getD i none = victim ∧ _ = t := by simpa [insert, hi] using hr
    have hplace : linesAt ⟨.sets a, g⟩ (a.mapping.setIndex addr) = (a.setOf addr).lines := linesAt_sets a g _
    show (_ ↔ (linesAt _ (a.mapping.setIndex addr)).length < a.ways) ∧ ∀ v ∈ _, v ∈ linesAt _ (a.mapping.setIndex addr)
    rw [hplace]
    exact SetAssociative.Valid.eq_none_iff_of_insert h hi

end CacheSim
