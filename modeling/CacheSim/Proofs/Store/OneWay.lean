import CacheSim.Proofs.Alike.Basic
import CacheSim.Proofs.Store.SetAssociative
import CacheSim.Proofs.Store.DirectMapped

/-!
# Sets of one way

A set associative store with one way in every set is a direct mapped store: the
way of a set is the slot (`SetAssociative.single`).  There is only one candidate
for a victim, so the policy and the generator have no say (`chooseWay_of_single`),
and the two stores go the same way (`Store.oneWay_bisimulation`).
-/

namespace CacheSim

/-- The shape with a slot for every line. -/
def Geometry.direct (g : Geometry) : Geometry :=
  { g with kind := .directMapped }

/-- The shape with a set for every line. -/
def Geometry.oneWay (g : Geometry) (policy : Policy) : Geometry :=
  { g with kind := .setAssociative, ways := 1, policy }

namespace Ways

variable {w : Ways}

/-- The only way of a set. -/
def only (w : Ways) : Option Line :=
  w.getD 0 none

theorem eq_only (h : w.length = 1) : w = [w.only] := by
  obtain ⟨x, rfl⟩ := List.length_eq_one_iff.mp h
  rfl

theorem lines_of_single (h : w.length = 1) : w.lines = w.only.toList := by
  rw [eq_only h]
  show List.filterMap id [w.only] = w.only.toList
  cases w.only <;> rfl

theorem only_update (h : w.length = 1) (addr : Nat) (f : Line → Line) :
    (w.update addr f).only = w.only.map fun l => if l.tag = addr then f l else l := by
  conv_lhs => rw [eq_only h]
  rfl

end Ways

namespace SetAssociative

variable {a : SetAssociative} {addr : Nat}

/-- Every set has one way. -/
def OneWay (a : SetAssociative) : Prop :=
  ∀ i, (a.set i).length = 1

/-- The direct mapped store whose slots are the first ways of the sets. -/
def single (a : SetAssociative) : DirectMapped where
  mapping := a.mapping
  slots := a.sets.map Ways.only
  time := a.time

theorem slotOf_single (a : SetAssociative) (addr : Nat) : a.single.slotOf addr = (a.setOf addr).only := by
  show (a.sets.map Ways.only)[(a.mapping.setIndex addr : Nat)] = _
  rw [Vector.getElem_map]
  rfl

theorem OneWay.setOf (h : a.OneWay) (addr : Nat) : (a.setOf addr).length = 1 :=
  h _

theorem OneWay.lookup_single (h : a.OneWay) (addr : Nat) : a.single.lookup addr = a.lookup addr := by
  rw [DirectMapped.lookup_eq, slotOf_single, lookup_eq, Ways.lines_of_single (h.setOf addr)]
  cases (a.setOf addr).only <;> simp [Directory.ofLines, Option.filter]

theorem OneWay.lines_single (h : a.OneWay) : a.single.lines = a.lines := by
  have hset : ∀ w ∈ a.sets.toList, Ways.lines w = w.only.toList := by
    intro w hw
    obtain ⟨i, hi, rfl⟩ := Vector.getElem_of_mem (Vector.mem_toList_iff.mp hw)
    exact Ways.lines_of_single (h ⟨i, hi⟩)
  rw [lines, List.flatMap_congr hset, DirectMapped.lines, single, Vector.toList_map, List.filterMap_map,
    List.filterMap_eq_flatMap_toList]
  rfl

/-! ## Changing the way of a set -/

theorem single_withSet (a : SetAssociative) (addr : Nat) (w : Ways) :
    (a.withSet addr w).single = { a.single with slots := a.single.slots.set (a.mapping.setIndex addr) w.only } := by
  simp only [single, withSet, Vector.map_set]

theorem OneWay.update (h : a.OneWay) (addr : Nat) (f : Line → Line) : (a.update addr f).OneWay :=
  Wide.update h addr f

theorem OneWay.single_update (h : a.OneWay) (addr : Nat) (f : Line → Line) :
    (a.update addr f).single = a.single.update addr f := by
  have hset := single_withSet a addr ((a.setOf addr).update addr f)
  rw [Ways.only_update (h.setOf addr), ← slotOf_single] at hset
  refine hset.trans ?_
  cases hl : a.single.lookup addr with
  | none =>
    have hsame : ((a.single.slotOf addr).map fun l => if l.tag = addr then f l else l) = a.single.slotOf addr := by
      rw [DirectMapped.lookup_eq, Option.filter_eq_none_iff] at hl
      cases hs : a.single.slotOf addr with
      | none => rfl
      | some l =>
        have hne : l.tag ≠ addr := by simpa using hl l hs
        rw [Option.map_some, if_neg hne]
    have hself : a.single.slots.set (a.mapping.setIndex addr) (a.single.slotOf addr) = a.single.slots :=
      Vector.set_getElem_self ..
    rw [hsame, hself, DirectMapped.update_of_none hl]
  | some l =>
    obtain ⟨hs, ht⟩ := DirectMapped.lookup_eq_some_iff.mp hl
    rw [hs, Option.map_some, if_pos ht]
    simp only [DirectMapped.update, hl]
    rfl

theorem OneWay.touch (h : a.OneWay) (addr : Nat) : (a.touch addr).OneWay :=
  OneWay.update (a := { a with time := a.time + 1 }) h addr _

theorem OneWay.single_touch (h : a.OneWay) (addr : Nat) : (a.touch addr).single = a.single.touch addr :=
  OneWay.single_update (a := { a with time := a.time + 1 }) h addr (·.touched (a.time + 1))

/-! ## Insertions -/

/-- With one way there is one candidate, whoever chooses. -/
theorem chooseWay_of_single {w : Ways} (hw : w.length = 1) (g : Generator) :
    ∃ g', a.chooseWay w g = .ok (0, g') := by
  have hne : w ≠ [] := by
    rintro rfl
    cases hw
  obtain ⟨i, g', hi, hlt⟩ := chooseWay_eq_ok (s := a) hne g
  obtain rfl : i = 0 := by omega
  exact ⟨g', hi⟩

theorem OneWay.placed (h : a.OneWay) (l : Line) (time : Nat) : (a.placed 0 l time).OneWay :=
  Wide.placed h 0 l time

theorem OneWay.single_placed (h : a.OneWay) (l : Line) (time : Nat) :
    (a.placed 0 l time).single = a.single.placed l time := by
  have honly : Ways.only ((a.setOf l.tag).set 0 (some l)) = some l := by
    rw [Ways.eq_only (h.setOf l.tag)]
    rfl
  refine (single_withSet { a with time } l.tag _).trans ?_
  rw [honly]
  rfl

end SetAssociative

namespace Store

/-- A set associative store of one way in every set, and the direct mapped store
with the same lines, over blocks of `n` bytes. -/
inductive OneWay (n : Nat) : Store → Store → Prop where
  | intro {a : SetAssociative} (h : a.OneWay) (hw : a.ways = 1) (hn : a.mapping.lineSize = n) (g g' : Generator) :
    OneWay n ⟨.sets a, g⟩ ⟨.direct a.single, g'⟩

variable {n : Nat} {s t : Store}

theorem OneWay.lines (h : OneWay n s t) : s.lines = t.lines := by
  cases h with
  | intro h hw hn g g' => exact h.lines_single.symm

theorem OneWay.capacity (h : OneWay n s t) : s.capacity = t.capacity := by
  cases h with
  | @intro a h hw hn g g' =>
    show a.mapping.sets * a.ways = a.mapping.sets
    rw [hw, Nat.mul_one]

/-- A new block takes the place of the same line in both stores, or is resident
in both. -/
theorem OneWay.insert (h : OneWay n s t) {addr : Nat} (hd : n ∣ addr) (data : Bytes) :
    Alike (SameWith (OneWay n)) (s.insert addr data).result (t.insert addr data).result := by
  obtain @⟨a, h, hw, rfl, g, g'⟩ := h
  have hlookup := h.lookup_single addr
  have ht : a.single.mapping.tag addr = addr := Block.align_of_dvd hd
  cases hl : a.lookup addr with
  | some l =>
    rw [hl] at hlookup
    have hsets : (Store.insert ⟨.sets a, g⟩ addr data).result = .error (.residentBlock addr) := by
      simp [Store.insert, SetAssociative.insert, hl]
    have hdirect : (Store.insert ⟨.direct a.single, g'⟩ addr data).result = .error (.residentBlock addr) := by
      simp [Store.insert, DirectMapped.insert, ht, hlookup, throw, throwThe, MonadExceptOf.throw]
    rw [hsets, hdirect]
    exact .error _
  | none =>
    rw [hl] at hlookup
    obtain ⟨g₁, hway⟩ := SetAssociative.chooseWay_of_single (a := a) (h.setOf addr) g
    have hsets : (Store.insert ⟨.sets a, g⟩ addr data).result = .ok ((a.setOf addr).only,
        ⟨.sets (a.placed 0 (.fresh addr data (a.time + 1)) (a.time + 1)), g₁⟩) := by
      simp [Store.insert, SetAssociative.insert, hl, hway, SetAssociative.placed, Ways.only]
    have hdirect : (Store.insert ⟨.direct a.single, g'⟩ addr data).result = .ok (a.single.slotOf addr,
        ⟨.direct (a.single.placed (.fresh addr data (a.time + 1)) (a.time + 1)), g'⟩) := by
      simp only [Store.insert, DirectMapped.insert_eq_ok hlookup hd]
      rfl
    rw [hsets, hdirect, ← h.single_placed, SetAssociative.slotOf_single]
    exact .ok ⟨rfl, .intro (h.placed _ _) hw rfl g₁ g'⟩

/-- Stores of one way in every set go the same way as direct mapped ones. -/
theorem oneWay_bisimulation (n : Nat) : Bisimulation n (OneWay n) where
  lineSize := by
    rintro _ _ ⟨h, hw, hn, g, g'⟩
    exact ⟨hn, hn⟩
  size h := congrArg List.length h.lines
  capacity h := h.capacity
  lookup := by
    rintro _ _ ⟨h, hw, hn, g, g'⟩
    exact funext fun addr => (h.lookup_single addr).symm
  update := by
    rintro _ _ ⟨h, hw, hn, g, g'⟩ addr f -
    have hu : OneWay n ⟨.sets (SetAssociative.update _ addr f), g⟩ ⟨.direct _, g'⟩ := .intro (h.update addr f) hw hn g g'
    rwa [h.single_update] at hu
  touch := by
    rintro _ _ ⟨h, hw, hn, g, g'⟩ addr
    have ht : OneWay n ⟨.sets (SetAssociative.touch _ addr), g⟩ ⟨.direct _, g'⟩ := .intro (h.touch addr) hw hn g g'
    rwa [h.single_touch] at ht
  insert h addr data hd := h.insert hd data

/-- A new set associative store of one way and a new direct mapped one, if there are
lines and they have bytes. -/
theorem oneWay_new (g : Geometry) (policy : Policy) (gen gen' : Generator) :
    Alike (OneWay g.lineSize) (Store.ofGeometry? (g.oneWay policy) gen) (Store.ofGeometry? g.direct gen') := by
  cases hm : Mapping.ofSizes? g.lines g.lineSize with
  | error e =>
    have hsets : ofGeometry? (g.oneWay policy) gen = .error e := by
      simp [Store.ofGeometry?, Geometry.oneWay, SetAssociative.ofSizes?, Nat.mod_one, hm]
    have hdirect : ofGeometry? g.direct gen' = .error e := by
      simp [Store.ofGeometry?, Geometry.direct, DirectMapped.ofSizes?, hm]
    rw [hsets, hdirect]
    exact .error e
  | ok m =>
    let a : SetAssociative := { mapping := m, ways := 1, policy, sets := .replicate m.sets [none] }
    have hone : a.OneWay := fun i => by simp [a, SetAssociative.set]
    have hslots : DirectMapped.ofSizes? g.lines g.lineSize = .ok a.single := by
      simp [DirectMapped.ofSizes?, hm, a, SetAssociative.single, Ways.only]
    have hn : m.lineSize = g.lineSize := (DirectMapped.valid_ofSizes? hslots).2.1
    have hsets : ofGeometry? (g.oneWay policy) gen = .ok ⟨.sets a, gen⟩ := by
      simp [Store.ofGeometry?, Geometry.oneWay, SetAssociative.ofSizes?, Nat.mod_one, hm, a]
    have hdirect : ofGeometry? g.direct gen' = .ok ⟨.direct a.single, gen'⟩ := by
      simp [Store.ofGeometry?, Geometry.direct, hslots]
    rw [hsets, hdirect]
    exact .ok (.intro hone rfl hn gen gen')

end Store

end CacheSim
