import CacheSim.Proofs.Packet
import CacheSim.Proofs.Store.Lines
import CacheSim.Proofs.Store.Replacement
import CacheSim.Store.SetAssociative
import Mathlib.Algebra.Order.BigOperators.Group.List
import Mathlib.Algebra.Order.Group.Nat

/-!
# The directory of a set associative store

Every set keeps the lines of its own blocks, and an insertion changes one way
of one set.
-/

namespace CacheSim

open Directory

/-! ## The ways of a set -/

namespace Ways

variable {w : Ways} {i : Nat}

theorem lookup_eq (w : Ways) : w.lookup = ofLines w.lines := rfl

theorem lines_replicate (n : Nat) : lines (List.replicate n none) = [] := by
  simp [lines, List.filterMap_replicate_of_none]

theorem lines_update (w : Ways) (addr : Nat) (f : Line → Line) :
    (w.update addr f).lines = changed w.lines addr f := by
  simp only [lines, update, changed, List.filterMap_map, List.map_filterMap]
  rfl

theorem length_lines_le (w : Ways) : w.lines.length ≤ w.length :=
  List.length_filterMap_le id w

/-- Without a free way, there are as many lines as ways. -/
theorem length_lines_of_full (h : w.findIdx? Option.isNone = none) : w.lines.length = w.length := by
  have hs : ∀ x ∈ w, x.isSome := by simpa using h
  clear h
  induction w with
  | nil => rfl
  | cons x w ih =>
    obtain ⟨l, rfl⟩ := Option.isSome_iff_exists.mp (hs _ (List.mem_cons_self ..))
    have := ih fun y hy => hs y (List.mem_cons_of_mem _ hy)
    simpa [lines] using this

/-- Without a free way, there is a line to choose. -/
theorem times_ne_nil (h : w.findIdx? Option.isNone = none) (hw : w ≠ []) : w.lines.map (·.lastAccess) ≠ [] := by
  intro he
  have hlen := length_lines_of_full h
  rw [List.map_eq_nil_iff.mp he] at hlen
  exact hw (List.eq_nil_of_length_eq_zero hlen.symm)

/-- The lines apart from those of one way. -/
theorem lines_perm (h : i < w.length) :
    w.lines.Perm ((w.getD i none).toList ++ lines (w.eraseIdx i)) := by
  have hp := ((List.getElem_cons_eraseIdx_perm h).symm.filterMap id)
  rw [List.getD_eq_getElem?_getD, List.getElem?_eq_getElem h, Option.getD_some]
  cases hw : w[i] with
  | none => simpa [lines, hw] using hp
  | some l => simpa [lines, hw] using hp

theorem lines_set_perm (h : i < w.length) (l : Line) :
    (lines (w.set i (some l))).Perm (l :: lines (w.eraseIdx i)) := by
  simpa [lines] using (List.set_perm_cons_eraseIdx h (some l)).filterMap id

end Ways

namespace SetAssociative

variable {s : SetAssociative} {addr : Nat}

/-- The ways of a set. -/
def set (s : SetAssociative) (i : Fin s.mapping.sets) : Ways :=
  s.sets[i]

/-- The ways hold different blocks of one set, and there are as many as in any
other set. -/
structure ValidWays (m : Mapping) (ways : Nat) (i : Fin m.sets) (w : Ways) : Prop where
  lines : ValidLines w.lines m.lineSize
  setIndex : ∀ l ∈ w.lines, m.setIndex l.tag = i
  width : w.length = ways

/-- All sets hold blocks of their own. -/
structure Valid (s : SetAssociative) : Prop where
  sets : ∀ i, ValidWays s.mapping s.ways i (s.set i)
  pos : 0 < s.ways

theorem setOf_eq (s : SetAssociative) (addr : Nat) : s.setOf addr = s.set (s.mapping.setIndex addr) := rfl

theorem lookup_eq (s : SetAssociative) (addr : Nat) :
    s.lookup addr = ofLines (s.setOf addr).lines addr := rfl

theorem Valid.setOf (h : s.Valid) (addr : Nat) :
    ValidWays s.mapping s.ways (s.mapping.setIndex addr) (s.setOf addr) :=
  h.sets _

/-- A store of free ways holds nothing. -/
theorem valid_of_free (h : ∀ i, s.set i = List.replicate s.ways none) (hp : 0 < s.ways) :
    s.Valid ∧ ∀ a, s.lookup a = none := by
  have hfree := Ways.lines_replicate s.ways
  refine ⟨⟨fun i => ?_, hp⟩, fun a => ?_⟩
  · rw [h]
    exact ⟨hfree ▸ validLines_nil _, by simp [hfree], List.length_replicate⟩
  · rw [lookup_eq, setOf_eq, h, hfree]
    rfl

theorem valid_ofSizes? {lines ways lineSize : Nat} {policy : Policy}
    (h : ofSizes? lines ways lineSize policy = .ok s) :
    s.Valid ∧ s.mapping.lineSize = lineSize ∧ (∀ a, s.lookup a = none) ∧ s.time = 0 := by
  simp only [ofSizes?, Mapping.ofSizes?] at h
  split at h
  · split at h
    · split at h
      · split at h
        · obtain rfl := Except.ok.inj h
          refine ⟨(valid_of_free (fun i => ?_) ‹_›).1, rfl, (valid_of_free (fun i => ?_) ‹_›).2, rfl⟩ <;>
            exact Vector.getElem_replicate _
        · cases h
      · cases h
    · cases h
  · cases h

theorem Valid.sound (h : s.Valid) : Sound s.lookup s.mapping.lineSize where
  tag hl := (h.setOf _).lines.sound.tag hl
  dvd hl := (h.setOf _).lines.sound.dvd hl
  length hl := (h.setOf _).lines.sound.length hl

/-! ## Changing one set -/

theorem set_withSet (s : SetAssociative) (addr : Nat) (w : Ways) (i : Fin s.mapping.sets) :
    (s.withSet addr w).set i = if s.mapping.setIndex addr = i then w else s.set i := by
  show (s.sets.set _ _)[(i : Nat)] = _
  rw [Vector.getElem_set]
  by_cases h : s.mapping.setIndex addr = i
  · rw [if_pos h, if_pos (congrArg Fin.val h)]
  · rw [if_neg h, if_neg fun he => h (Fin.ext he)]
    rfl

/-- All sets have the same number of ways. -/
def Wide (s : SetAssociative) (n : Nat) : Prop :=
  ∀ i, (s.set i).length = n

theorem Wide.withSet {n : Nat} (h : s.Wide n) {w : Ways} (hw : w.length = n) : (s.withSet addr w).Wide n := by
  intro i
  have key := s.set_withSet addr w i
  show List.length (set _ _) = n
  rw [key]
  split
  · exact hw
  · exact h i

theorem Wide.update {n : Nat} (h : s.Wide n) (addr : Nat) (f : Line → Line) : (s.update addr f).Wide n :=
  h.withSet (by rw [Ways.update, List.length_map]; exact h _)

theorem lookup_withSet (s : SetAssociative) (addr : Nat) (w : Ways) (b : Nat) :
    (s.withSet addr w).lookup b =
      if s.mapping.setIndex addr = s.mapping.setIndex b then ofLines w.lines b else s.lookup b := by
  show ofLines ((s.withSet addr w).set (s.mapping.setIndex b)).lines b = _
  rw [set_withSet]
  split <;> rfl

theorem Valid.withSet (h : s.Valid) {w : Ways}
    (hw : ValidWays s.mapping s.ways (s.mapping.setIndex addr) w) : (s.withSet addr w).Valid := by
  refine ⟨fun (i : Fin s.mapping.sets) => ?_, h.pos⟩
  have key := s.set_withSet addr w i
  show ValidWays s.mapping s.ways i _
  rw [key]
  split
  · rename_i hi
    exact hi ▸ hw
  · exact h.sets i

theorem Valid.withTime (h : s.Valid) (time : Nat) : ({ s with time } : SetAssociative).Valid :=
  ⟨h.sets, h.pos⟩

/-! ## Updates -/

theorem ValidWays.update {m : Mapping} {ways : Nat} {i : Fin m.sets} {w : Ways} {f : Line → Line}
    (h : ValidWays m ways i w) (hf : ∀ l, (f l).tag = l.tag)
    (hl : ∀ l, w.lookup addr = some l → (f l).data.length = m.lineSize) :
    ValidWays m ways i (w.update addr f) where
  lines := by
    rw [Ways.lines_update]
    exact h.lines.changed hf hl
  setIndex := by
    rw [Ways.lines_update]
    simp only [changed, List.mem_map]
    rintro _ ⟨l, hm, rfl⟩
    split
    · rw [hf]; exact h.setIndex l hm
    · exact h.setIndex l hm
  width := by
    rw [Ways.update, List.length_map]
    exact h.width

theorem Valid.update {f : Line → Line} (h : s.Valid) (hf : ∀ l, (f l).tag = l.tag)
    (hl : ∀ l, s.lookup addr = some l → (f l).data.length = s.mapping.lineSize) :
    (s.update addr f).Valid :=
  h.withSet ((h.setOf addr).update hf hl)

theorem updated_update {f : Line → Line} (hf : ∀ l, (f l).tag = l.tag) (addr : Nat) :
    Updated s.lookup (s.update addr f).lookup addr f := by
  intro b
  show (s.withSet addr _).lookup b = _
  rw [lookup_withSet]
  by_cases hi : s.mapping.setIndex addr = s.mapping.setIndex b
  · rw [if_pos hi, Ways.lines_update, updated_changed hf addr b, setOf_eq, hi]
    rfl
  · rw [if_neg hi, if_neg fun e => hi (congrArg _ e.symm)]

/-! ## Insertions -/

/-- In a set that is not empty of ways there is a way for a new block. -/
theorem chooseWay_eq_ok {w : Ways} (hw : w ≠ []) (g : Generator) :
    ∃ i g', s.chooseWay w g = .ok (i, g') ∧ i < w.length := by
  unfold chooseWay
  cases hfree : w.findIdx? Option.isNone with
  | some free => exact ⟨free, g, rfl, (List.findIdx?_eq_some_iff_findIdx_eq.mp hfree).1⟩
  | none =>
    obtain ⟨i, g', hi, hlt⟩ := s.policy.victim?_eq_ok (Ways.times_ne_nil hfree hw) g
    rw [List.length_map, Ways.length_lines_of_full hfree] at hlt
    exact ⟨i, g', by simp [hi], hlt⟩

/-- The store with a line in a way of its set. -/
def placed (s : SetAssociative) (i : Nat) (l : Line) (time : Nat) : SetAssociative :=
  { s with time }.withSet l.tag ((s.setOf l.tag).set i (some l))

theorem Wide.placed {n : Nat} (h : s.Wide n) (i : Nat) (l : Line) (time : Nat) : (s.placed i l time).Wide n :=
  Wide.withSet (s := { s with time }) h (by rw [List.length_set]; exact h _)

/-- An insertion puts a line into some way of its set; the victim is what was there. -/
theorem insert_eq_ok (hv : s.Valid) (h : s.lookup addr = none) (g : Generator) (data : Bytes) :
    ∃ i g', (s.insert g addr data).result =
        .ok ((s.setOf addr).getD i none, s.placed i (.fresh addr data (s.time + 1)) (s.time + 1), g') ∧
      i < (s.setOf addr).length := by
  have hne : s.setOf addr ≠ [] := by
    intro he
    have hw := (hv.setOf addr).width
    have := hv.pos
    rw [he, List.length_nil] at hw
    omega
  obtain ⟨i, g', hi, hlt⟩ := chooseWay_eq_ok (s := s) hne g
  exact ⟨i, g', by simp [insert, h, hi, placed], hlt⟩

variable {i : Nat} {l : Line}

theorem Valid.placed (hv : s.Valid) (h : s.lookup l.tag = none) (hd : s.mapping.lineSize ∣ l.tag)
    (hl : l.data.length = s.mapping.lineSize) (hi : i < (s.setOf l.tag).length) (time : Nat) :
    (s.placed i l time).Valid := by
  have hw := hv.setOf l.tag
  refine (hv.withTime time).withSet ⟨?_, fun k hk => ?_, ?_⟩
  · exact hw.lines.replaced h hd hl (Ways.lines_perm hi) (Ways.lines_set_perm hi l)
  · rcases List.mem_cons.mp ((Ways.lines_set_perm hi l).mem_iff.mp hk) with rfl | hk
    · rfl
    · exact hw.setIndex k ((Ways.lines_perm hi).mem_iff.mpr (List.mem_append_right _ hk))
  · rw [List.length_set]
    exact hw.width

theorem inserted_placed (hv : s.Valid) (h : s.lookup l.tag = none) (hd : s.mapping.lineSize ∣ l.tag)
    (hl : l.data.length = s.mapping.lineSize) (hi : i < (s.setOf l.tag).length) (time : Nat) :
    Inserted s.lookup (s.placed i l time).lookup l.tag l ((s.setOf l.tag).getD i none) := by
  have hw := hv.setOf l.tag
  have hin := hw.lines.inserted h hd hl (Ways.lines_perm hi) (Ways.lines_set_perm hi l)
  have hlook : ∀ b, (s.placed i l time).lookup b =
      if s.mapping.setIndex l.tag = s.mapping.setIndex b
        then ofLines (Ways.lines ((s.setOf l.tag).set i (some l))) b else s.lookup b :=
    fun b => lookup_withSet { s with time } l.tag _ b
  have hset : ∀ v ∈ (s.setOf l.tag).getD i none, s.mapping.setIndex l.tag = s.mapping.setIndex v.tag :=
    fun v hv => (hw.setIndex v ((Ways.lines_perm hi).mem_iff.mpr
      (List.mem_append_left _ (Option.mem_toList.mpr hv)))).symm
  refine ⟨?_, fun v hv => ?_, fun v hv => ?_, fun b hb hbv => ?_⟩
  · rw [hlook, if_pos rfl]
    exact hin.fresh
  · rw [lookup_eq, setOf_eq, ← hset v hv]
    exact hin.resident v hv
  · rw [hlook, if_pos (hset v hv)]
    exact hin.evicted v hv
  · rw [hlook]
    split
    · rename_i he
      rw [hin.others b hb hbv, setOf_eq, he]
      rfl
    · rfl

/-! ## Room for a new block -/

variable {t : SetAssociative} {data : Bytes} {g g' : Generator} {victim : Option Line}

/-- The way that is chosen is free if and only if some way is. -/
theorem getD_eq_none_iff_of_chooseWay {w : Ways} (h : s.chooseWay w g = .ok (i, g')) (hi : i < w.length) :
    w.getD i none = none ↔ w.lines.length < w.length := by
  unfold chooseWay at h
  rw [List.getD_eq_getElem?_getD, List.getElem?_eq_getElem hi, Option.getD_some]
  cases hfree : w.findIdx? Option.isNone with
  | some free =>
    rw [hfree] at h
    obtain ⟨rfl, -⟩ := Prod.mk.inj (Except.ok.inj h)
    have hnone : w[free] = none := by
      simpa using (List.findIdx?_eq_some_iff_getElem.mp hfree).2.1
    exact iff_of_true hnone (List.length_filterMap_lt_length_iff_exists.mpr ⟨_, List.getElem_mem hi, hnone⟩)
  | none =>
    have hlen := w.length_lines_of_full hfree
    have hsome : w[i].isNone = false := List.findIdx?_eq_none_iff.mp hfree _ (List.getElem_mem hi)
    refine iff_of_false (fun hn => ?_) (by omega)
    rw [hn] at hsome
    cases hsome

/-- An insertion puts the line into the way that is chosen. -/
theorem of_insert (hr : (s.insert g addr data).result = .ok (victim, t, g')) :
    ∃ i, s.chooseWay (s.setOf addr) g = .ok (i, g') ∧ victim = (s.setOf addr).getD i none ∧
      t = s.placed i (.fresh addr data (s.time + 1)) (s.time + 1) := by
  simp only [insert, Sim.result_bind, Sim.result_require, Sim.result_liftM] at hr
  obtain ⟨-, -, hr⟩ := Sim.bind_eq_ok.mp hr
  obtain ⟨⟨i, g₁⟩, hi, hr⟩ := Sim.bind_eq_ok.mp hr
  simp only [Sim.result_trace, Sim.ok_bind, Sim.result_pure] at hr
  obtain ⟨rfl, hrest⟩ := Prod.mk.inj (Except.ok.inj hr)
  obtain ⟨rfl, rfl⟩ := Prod.mk.inj hrest
  exact ⟨i, hi, rfl, rfl⟩

/-- A set associative store takes a line out if and only if the set is full. -/
theorem Valid.eq_none_iff_of_insert (h : s.Valid) (hr : (s.insert g addr data).result = .ok (victim, t, g')) :
    (victim = none ↔ (s.setOf addr).lines.length < s.ways) ∧ ∀ v ∈ victim, v ∈ (s.setOf addr).lines := by
  obtain ⟨i, hi, rfl, -⟩ := of_insert hr
  have hwidth := (h.setOf addr).width
  have hne : s.setOf addr ≠ [] := by
    intro he
    have := h.pos
    rw [he, List.length_nil] at hwidth
    omega
  obtain ⟨j, g₁, hj, hlt⟩ := chooseWay_eq_ok (s := s) hne g
  obtain ⟨rfl, -⟩ := Prod.mk.inj (Except.ok.inj (hj.symm.trans hi))
  refine ⟨hwidth ▸ getD_eq_none_iff_of_chooseWay hi hlt, fun v hv => ?_⟩
  exact (Ways.lines_perm hlt).mem_iff.mpr (List.mem_append_left _ (Option.mem_toList.mpr hv))

theorem Valid.length_lines_le (hv : s.Valid) : s.lines.length ≤ s.capacity := by
  have hw : ∀ w ∈ s.sets.toList, (Ways.lines w).length ≤ s.ways := by
    intro w hm
    obtain ⟨i, hi, rfl⟩ := Vector.getElem_of_mem (Vector.mem_toList_iff.mp hm)
    rw [← (hv.sets ⟨i, hi⟩).width]
    exact Ways.length_lines_le _
  calc s.lines.length = (s.sets.toList.map fun w => (Ways.lines w).length).sum := List.length_flatMap ..
    _ ≤ (s.sets.toList.map fun _ => s.ways).sum := List.sum_le_sum hw
    _ = s.capacity := by simp [capacity]

end SetAssociative

end CacheSim
