import CacheSim.Proofs.Store.Directory
import Mathlib.Data.List.Nodup
import Mathlib.Data.List.Perm.Basic

/-!
# The directory of a list of lines

A list of lines whose tags occur once, in any order: a line is found if and
only if it is there.  The fully associative store is one such list, and every
set of a set associative store is another.
-/

namespace CacheSim.Directory

variable {lines : List Line} {addr size : Nat}

/-- The directory that looks a tag up in a list. -/
def ofLines (lines : List Line) : Directory := fun addr =>
  lines.find? (·.tag == addr)

/-- No tag occurs twice, and every line holds a block. -/
structure ValidLines (lines : List Line) (size : Nat) : Prop where
  nodup : (lines.map (·.tag)).Nodup
  dvd : ∀ l ∈ lines, size ∣ l.tag
  length : ∀ l ∈ lines, l.data.length = size

theorem validLines_nil (size : Nat) : ValidLines [] size :=
  ⟨List.nodup_nil, by simp, by simp⟩

theorem ofLines_eq_none_iff : ofLines lines addr = none ↔ ∀ l ∈ lines, l.tag ≠ addr := by
  simp [ofLines, List.find?_eq_none]

namespace ValidLines

theorem ofLines_eq_some_iff (h : ValidLines lines size) {l : Line} :
    ofLines lines addr = some l ↔ l ∈ lines ∧ l.tag = addr := by
  constructor
  · intro hl
    exact ⟨List.mem_of_find?_eq_some hl, by simpa using List.find?_some hl⟩
  · rintro ⟨hl, rfl⟩
    cases hf : lines.find? (·.tag == l.tag) with
    | none => simpa using List.find?_eq_none.mp hf l hl
    | some k =>
      have htag : k.tag = l.tag := by simpa using List.find?_some hf
      rw [ofLines, hf, List.inj_on_of_nodup_map h.nodup (List.mem_of_find?_eq_some hf) hl htag]

theorem sound (h : ValidLines lines size) : Sound (ofLines lines) size where
  tag hl := (h.ofLines_eq_some_iff.mp hl).2
  dvd hl := by
    obtain ⟨hm, rfl⟩ := h.ofLines_eq_some_iff.mp hl
    exact h.dvd _ hm
  length hl := h.length _ (h.ofLines_eq_some_iff.mp hl).1

end ValidLines

/-! ## Updates -/

/-- The lines with those of a tag changed. -/
def changed (lines : List Line) (addr : Nat) (f : Line → Line) : List Line :=
  lines.map fun l => if l.tag = addr then f l else l

theorem tags_changed {f : Line → Line} (hf : ∀ l, (f l).tag = l.tag) (addr : Nat) :
    (changed lines addr f).map (·.tag) = lines.map (·.tag) := by
  simp only [changed, List.map_map]
  refine List.map_congr_left fun l _ => ?_
  simp only [Function.comp]
  split
  · exact hf l
  · rfl

theorem ValidLines.changed {f : Line → Line} (h : ValidLines lines size)
    (hf : ∀ l, (f l).tag = l.tag)
    (hl : ∀ l, ofLines lines addr = some l → (f l).data.length = size) :
    ValidLines (changed lines addr f) size where
  nodup := by rw [tags_changed hf]; exact h.nodup
  dvd := by
    simp only [Directory.changed, List.mem_map]
    rintro _ ⟨l, hm, rfl⟩
    split
    · rw [hf]; exact h.dvd l hm
    · exact h.dvd l hm
  length := by
    simp only [Directory.changed, List.mem_map]
    rintro _ ⟨l, hm, rfl⟩
    split
    · rename_i ht
      exact hl l (h.ofLines_eq_some_iff.mpr ⟨hm, ht⟩)
    · exact h.length l hm

theorem updated_changed {f : Line → Line} (hf : ∀ l, (f l).tag = l.tag) (addr : Nat) :
    Updated (ofLines lines) (ofLines (changed lines addr f)) addr f := by
  intro b
  have hcomp : ((fun l : Line => l.tag == b) ∘ fun l => if l.tag = addr then f l else l) =
      fun l => l.tag == b := by
    funext l
    simp only [Function.comp]
    split <;> simp [hf]
  simp only [ofLines, changed, List.find?_map, hcomp]
  cases hl : lines.find? (·.tag == b) with
  | none => split <;> rfl
  | some l =>
    have ht : l.tag = b := by simpa using List.find?_some hl
    simp only [Option.map_some, ht]
    split <;> rfl

/-! ## Insertions -/

variable {lines' rest : List Line} {victim : Option Line} {l : Line}

/-- Lines with one added and the victim left out, in any order. -/
theorem ValidLines.replaced (h : ValidLines lines size) (hn : ofLines lines l.tag = none)
    (hd : size ∣ l.tag) (hl : l.data.length = size) (hperm : lines.Perm (victim.toList ++ rest))
    (hperm' : lines'.Perm (l :: rest)) : ValidLines lines' size := by
  have hold : ∀ {k}, k ∈ rest → k ∈ lines := fun hk => hperm.mem_iff.mpr (List.mem_append_right _ hk)
  have hnd := (hperm.map (·.tag)).nodup_iff.mp h.nodup
  rw [List.map_append, List.nodup_append] at hnd
  refine ⟨?_, fun k hk => ?_, fun k hk => ?_⟩
  · rw [(hperm'.map (·.tag)).nodup_iff, List.map_cons, List.nodup_cons]
    refine ⟨fun hm => ?_, hnd.2.1⟩
    obtain ⟨k, hk, hkt⟩ := List.mem_map.mp hm
    exact ofLines_eq_none_iff.mp hn k (hold hk) hkt
  · rcases List.mem_cons.mp (hperm'.mem_iff.mp hk) with rfl | hk
    · exact hd
    · exact h.dvd k (hold hk)
  · rcases List.mem_cons.mp (hperm'.mem_iff.mp hk) with rfl | hk
    · exact hl
    · exact h.length k (hold hk)

theorem ValidLines.inserted (h : ValidLines lines size) (hn : ofLines lines l.tag = none)
    (hd : size ∣ l.tag) (hl : l.data.length = size) (hperm : lines.Perm (victim.toList ++ rest))
    (hperm' : lines'.Perm (l :: rest)) :
    Inserted (ofLines lines) (ofLines lines') l.tag l victim := by
  have h' := h.replaced hn hd hl hperm hperm'
  have hnd := (hperm.map (·.tag)).nodup_iff.mp h.nodup
  rw [List.map_append, List.nodup_append] at hnd
  have hmem : ∀ {k}, k ∈ lines' ↔ k = l ∨ k ∈ rest := fun {k} =>
    hperm'.mem_iff.trans List.mem_cons
  have hold : ∀ {v}, v ∈ victim → v ∈ lines := fun hv =>
    hperm.mem_iff.mpr (List.mem_append_left _ (Option.mem_toList.mpr hv))
  refine ⟨?_, fun v hv => ?_, fun v hv => ?_, fun b hb hbv => ?_⟩
  · exact h'.ofLines_eq_some_iff.mpr ⟨hmem.mpr (.inl rfl), rfl⟩
  · exact h.ofLines_eq_some_iff.mpr ⟨hold hv, rfl⟩
  · rw [ofLines_eq_none_iff]
    intro k hk hkt
    rcases hmem.mp hk with rfl | hk
    · exact ofLines_eq_none_iff.mp hn v (hold hv) hkt.symm
    · exact hnd.2.2 v.tag (List.mem_map_of_mem (Option.mem_toList.mpr hv)) k.tag
        (List.mem_map_of_mem hk) hkt.symm
  · ext k
    rw [h'.ofLines_eq_some_iff, h.ofLines_eq_some_iff, hmem, hperm.mem_iff, List.mem_append,
      Option.mem_toList]
    constructor
    · rintro ⟨rfl | hk, rfl⟩
      · exact absurd rfl hb
      · exact ⟨.inr hk, rfl⟩
    · rintro ⟨hk | hk, rfl⟩
      · exact absurd rfl (hbv k hk)
      · exact ⟨.inr hk, rfl⟩

end CacheSim.Directory
