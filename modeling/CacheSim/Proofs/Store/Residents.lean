import CacheSim.Proofs.Cache.Untimed
import Mathlib.Algebra.BigOperators.Group.List.Basic

/-!
# Which blocks are resident, and how many

An access and a touch leave the resident blocks and the number of lines as they
are, and an insertion adds one line for the one that it evicts, if any.
-/

namespace CacheSim

theorem Ways.length_lines_set {w : Ways} {i : Nat} (h : i < w.length) (l : Line) :
    (lines (w.set i (some l))).length + (w.getD i none).toList.length = w.lines.length + 1 := by
  rw [(lines_set_perm h l).length_eq, (lines_perm h).length_eq, List.length_append, List.length_cons]
  omega

namespace DirectMapped

theorem lines_eq (s : DirectMapped) : s.lines = Ways.lines s.slots.toList := rfl

theorem length_lines_placed (s : DirectMapped) (l : Line) (time : Nat) :
    (s.placed l time).lines.length + (s.slotOf l.tag).toList.length = s.lines.length + 1 := by
  have hi : (s.mapping.setIndex l.tag : Nat) < s.slots.toList.length := by simp
  have hslot : s.slots.toList.getD (s.mapping.setIndex l.tag) none = s.slotOf l.tag := by
    simp [slotOf, slot, List.getD_eq_getElem?_getD]
  have hset := Ways.length_lines_set hi l
  rw [hslot] at hset
  rw [lines_eq, lines_eq, ← hset, DirectMapped.placed, Vector.toList_set]

theorem length_lines_update (s : DirectMapped) (addr : Nat) {f : Line → Line} (hf : ∀ l, (f l).tag = l.tag) :
    (s.update addr f).lines.length = s.lines.length := by
  cases h : s.lookup addr with
  | none => rw [update_of_none h]
  | some l =>
    have hslot := (lookup_eq_some_iff.mp h).1
    have hlen := s.length_lines_placed (f l) s.time
    rw [hf, (lookup_eq_some_iff.mp h).2, hslot] at hlen
    rw [update_of_some h (hf l)]
    exact Nat.add_right_cancel hlen

end DirectMapped

namespace SetAssociative

theorem length_lines_withSet (s : SetAssociative) (addr : Nat) (w : Ways) :
    (s.withSet addr w).lines.length + (s.setOf addr).lines.length = s.lines.length + w.lines.length := by
  have hi : (s.mapping.setIndex addr : Nat) < s.sets.toList.length := by simp
  have hold : s.sets.toList.map (·.lines.length) =
      (s.sets.toList.map (·.lines.length)).set (s.mapping.setIndex addr) (s.setOf addr).lines.length := by
    rw [← List.map_set]
    refine congrArg _ (List.set_getElem_self hi).symm |>.trans ?_
    simp [setOf]
  simp only [lines, withSet, List.length_flatMap, Vector.toList_set, List.map_set]
  rw [hold, List.set_set, List.sum_set, List.sum_set]
  simp only [List.length_map, if_pos hi]
  omega

theorem length_lines_update (s : SetAssociative) (addr : Nat) (f : Line → Line) :
    (s.update addr f).lines.length = s.lines.length := by
  have h := s.length_lines_withSet addr ((s.setOf addr).update addr f)
  rw [Ways.lines_update, Directory.changed, List.length_map] at h
  exact Nat.add_right_cancel h

end SetAssociative

namespace Store

variable {s t : Store} {addr : Nat}

theorem size_update (s : Store) (addr : Nat) {f : Line → Line} (hf : ∀ l, (f l).tag = l.tag) :
    (s.update addr f).size = s.size := by
  obtain ⟨d | a | a, g⟩ := s
  · exact DirectMapped.length_lines_update d addr hf
  · exact List.length_map ..
  · exact SetAssociative.length_lines_update a addr f

theorem size_touch (s : Store) (addr : Nat) : (s.touch addr).size = s.size := by
  obtain ⟨d | a | a, g⟩ := s
  · exact DirectMapped.length_lines_update _ addr fun _ => rfl
  · exact List.length_map ..
  · exact SetAssociative.length_lines_update _ addr _

/-- An access leaves other data in the line of its block. -/
theorem eq_update_of_access {p q : Packet} (h : (s.access p).result = .ok (some (q, t))) :
    ∃ block data, t = s.update block (·.holding data) := by
  rw [access_eq] at h
  obtain ⟨block, -, h⟩ := Sim.bind_eq_ok.mp h
  split at h
  · cases h
  · obtain ⟨x, -, h⟩ := Sim.bind_eq_ok.mp h
    obtain ⟨-, rfl⟩ := Prod.mk.inj (Option.some.inj (Except.ok.inj h))
    exact ⟨block, x.2, rfl⟩

/-- A packet that is completed was none, or is accessed. -/
theorem complete_eq_ok {kept : Option Packet} (h : (s.complete kept).result = .ok t) :
    t = s ∨ ∃ p q, (s.access p).result = .ok (some (q, t)) := by
  cases kept with
  | none => exact .inl (Except.ok.inj h).symm
  | some p =>
    simp only [complete, Sim.result_bind] at h
    obtain ⟨_ | ⟨q, u⟩, hacc, h⟩ := Sim.bind_eq_ok.mp h
    · cases h
    · obtain rfl := Except.ok.inj h
      exact .inr ⟨p, q, hacc⟩

theorem size_access {p q : Packet} (h : (s.access p).result = .ok (some (q, t))) : t.size = s.size := by
  obtain ⟨block, data, rfl⟩ := eq_update_of_access h
  exact size_update s block fun _ => rfl

theorem size_complete {kept : Option Packet} (h : (s.complete kept).result = .ok t) : t.size = s.size := by
  obtain rfl | ⟨p, q, hacc⟩ := complete_eq_ok h
  · rfl
  · exact size_access hacc

theorem lookup_touch_eq_none_iff (s : Store) (addr b : Nat) :
    (s.touch addr).lookup b = none ↔ s.lookup b = none :=
  (updated_touch s addr).eq_none_iff b

theorem lookup_access_eq_none_iff {p q : Packet} (h : (s.access p).result = .ok (some (q, t))) (b : Nat) :
    t.lookup b = none ↔ s.lookup b = none := by
  obtain ⟨block, data, rfl⟩ := eq_update_of_access h
  exact Directory.Updated.eq_none_iff (updated_update (f := (·.holding data)) (fun _ => rfl) block) b

theorem lookup_complete_eq_none_iff {kept : Option Packet} (h : (s.complete kept).result = .ok t) (b : Nat) :
    t.lookup b = none ↔ s.lookup b = none := by
  obtain rfl | ⟨p, q, hacc⟩ := complete_eq_ok h
  · rfl
  · exact lookup_access_eq_none_iff hacc b

/-- An insertion adds a line, and takes out its victim. -/
theorem Valid.size_insert (h : s.Valid) (hn : s.lookup addr = none) (hd : s.lineSize ∣ addr) {data : Bytes}
    {victim : Option Line} (hr : (s.insert addr data).result = .ok (victim, t)) :
    t.size + victim.toList.length = s.size + 1 := by
  obtain ⟨d | a | a, g⟩ := s
  · obtain ⟨rfl, rfl⟩ : d.slotOf addr = victim ∧ _ = t := by
      simpa [insert, DirectMapped.insert_eq_ok (s := d) hn hd] using hr
    exact d.length_lines_placed (.fresh addr data (d.time + 1)) _
  · obtain ⟨v, rest, g', hi, hperm, -⟩ := FullyAssociative.insert_eq_ok h hn g data
    obtain ⟨rfl, rfl⟩ : v = victim ∧ _ = t := by simpa [insert, hi] using hr
    have hlen := hperm.length_eq
    rw [List.length_append] at hlen
    show (rest ++ [_]).length + _ = a.lines.length + 1
    rw [List.length_append, List.length_singleton, hlen]
    omega
  · obtain ⟨i, g', hi, hlt⟩ := SetAssociative.insert_eq_ok h hn g data
    obtain ⟨rfl, rfl⟩ : (a.setOf addr).getD i none = victim ∧ _ = t := by simpa [insert, hi] using hr
    have hset := Ways.length_lines_set hlt (.fresh addr data (a.time + 1))
    have hall := SetAssociative.length_lines_withSet { a with time := a.time + 1 } addr
      ((a.setOf addr).set i (some (.fresh addr data (a.time + 1))))
    show (SetAssociative.lines _).length + _ = a.lines.length + 1
    have hsame : (SetAssociative.setOf { a with time := a.time + 1 } addr).lines = (a.setOf addr).lines := rfl
    have hlines : (SetAssociative.lines { a with time := a.time + 1 }) = a.lines := rfl
    rw [hsame, hlines] at hall
    have hplaced : (a.placed i (.fresh addr data (a.time + 1)) (a.time + 1)).lines.length =
        (SetAssociative.withSet { a with time := a.time + 1 } addr
          ((a.setOf addr).set i (some (.fresh addr data (a.time + 1))))).lines.length := rfl
    omega

/-- A line that is resident is looked up under its tag. -/
theorem Valid.lookup_of_mem (h : s.Valid) {l : Line} (hl : l ∈ s.lines) : s.lookup l.tag = some l := by
  obtain ⟨d | a | a, g⟩ := s
  · obtain ⟨i, hi, hslot⟩ := Vector.getElem_of_mem (Vector.mem_toList_iff.mp (by simpa [lines, DirectMapped.lines] using hl))
    have hslot : d.slot ⟨i, hi⟩ = some l := hslot
    refine DirectMapped.lookup_eq_some_iff.mpr ⟨?_, rfl⟩
    rw [DirectMapped.slotOf, DirectMapped.Valid.setIndex h hslot, hslot]
  · exact (FullyAssociative.Valid.lines h).ofLines_eq_some_iff.mpr ⟨hl, rfl⟩
  · obtain ⟨w, hw, hl⟩ := List.mem_flatMap.mp hl
    obtain ⟨i, hi, rfl⟩ := Vector.getElem_of_mem (Vector.mem_toList_iff.mp hw)
    have hset := SetAssociative.Valid.sets h ⟨i, hi⟩
    show a.lookup l.tag = _
    rw [SetAssociative.lookup_eq, SetAssociative.setOf_eq, hset.setIndex l hl]
    exact hset.lines.ofLines_eq_some_iff.mpr ⟨hl, rfl⟩

theorem Valid.size_of_empty (h : s.Valid) (hn : ∀ a, s.lookup a = none) : s.size = 0 := by
  refine List.length_eq_zero_iff.mpr (List.eq_nil_iff_forall_not_mem.mpr fun l hl => ?_)
  have hs := h.lookup_of_mem hl
  rw [hn] at hs
  cases hs

end Store

end CacheSim
