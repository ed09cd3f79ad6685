import CacheSim.Proofs.Store.Queues

/-!
# What a store draws

A store that chooses its victims at random takes one index from its generator for
every eviction, below the number of lines at the place of the new block, which is
full, and evicts the line with this index (`Store.Draw`, `Store.Sized.perform`).
Nothing else takes an index, and a store that does not choose at random takes none.

So a run takes as many indices as it evicts lines, and each of them decides the
eviction with the same number (`Store.Sized.run_draws`).  No rules need be kept for
this, only that the calls are answered.
-/

namespace CacheSim

namespace Generator

/-- Some indices below `n`, drawn one after another. -/
def indices (n : Nat) : Nat → Generator → Except Fault (List Nat × Generator)
  | 0, g => .ok ([], g)
  | k + 1, g => do
    let (i, g) ← g.index n
    let (rest, g) ← indices n k g
    return (i :: rest, g)

theorem indices_succ_eq_ok {g g₁ g₂ : Generator} {n k i : Nat} {rest : List Nat} (h : g.index n = .ok (i, g₁))
    (hrest : g₁.indices n k = .ok (rest, g₂)) : g.indices n (k + 1) = .ok (i :: rest, g₂) := by
  simp only [indices, h, hrest, Sim.ok_bind]
  rfl

end Generator

/-! ## The choice of a victim -/

namespace Policy

variable {policy : Policy} {times : List Nat} {g g' : Generator}

/-- LRU draws nothing. -/
theorem victim?_of_lru (times : List Nat) (g : Generator) :
    Policy.lru.victim? times g = .ok (leastIndex? times, g) := by
  cases times with
  | nil => rfl
  | cons t times => rfl

/-- The victim that is drawn. -/
theorem index_of_victim? {i : Nat} (h : Policy.random.victim? times g = .ok (some i, g')) :
    g.index times.length = .ok (i, g') := by
  unfold victim? at h
  split at h
  · simp at h
  · obtain ⟨⟨j, g₁⟩, hj, h⟩ := Sim.bind_eq_ok.mp h
    obtain ⟨hi, rfl⟩ := Prod.mk.inj (Except.ok.inj h)
    rwa [Option.some.inj hi] at hj

/-- What makes room for a new block among some lines: nothing, or the line that the policy
chooses if there are as many lines as there is room for. -/
inductive Choice (policy : Policy) (room : Nat) (lines : List Line) (g : Generator) : Option Line → Generator → Prop where
  | free : Choice policy room lines g none g
  | chosen {i : Nat} {v : Line} {g' : Generator} (full : lines.length = room)
      (index : policy.victim? (lines.map (·.lastAccess)) g = .ok (some i, g')) (victim : lines[i]? = some v) :
    Choice policy room lines g (some v) g'

variable {room : Nat} {lines : List Line} {victim : Option Line} {v : Line}

theorem Choice.of_none (h : policy.Choice room lines g none g') : g' = g := by
  cases h
  rfl

theorem Choice.of_lru (h : Policy.lru.Choice room lines g victim g') : g' = g := by
  cases h with
  | free => rfl
  | chosen full index victim =>
    rw [victim?_of_lru] at index
    exact (Prod.mk.inj (Except.ok.inj index)).2.symm

theorem Choice.of_random (h : Policy.random.Choice room lines g (some v) g') :
    ∃ i, g.index room = .ok (i, g') ∧ lines.length = room ∧ lines[i]? = some v := by
  obtain - | ⟨full, index, victim⟩ := h
  have hindex := index_of_victim? index
  rw [List.length_map, full] at hindex
  exact ⟨_, hindex, full, victim⟩

end Policy

namespace FullyAssociative

variable {s t : FullyAssociative} {addr : Nat} {data : Bytes} {g g' : Generator} {victim : Option Line}

theorem choice_of_evict (hroom : s.lines.length = s.capacity) (hpos : 0 < s.capacity)
    (hr : (s.evict g).result = .ok (victim, t, g')) :
    s.policy.Choice s.capacity s.lines g victim g' := by
  have hne : s.lines.map (·.lastAccess) ≠ [] := by
    rw [ne_eq, List.map_eq_nil_iff]
    rintro he
    rw [he] at hroom
    exact Nat.ne_of_lt hpos hroom
  obtain ⟨i, g₁, hi, hlt⟩ := s.policy.victim?_eq_ok hne g
  obtain ⟨v, rest, hremove⟩ := swapRemove_eq_some (by simpa using hlt)
  have hevict : (s.evict g).result = .ok (some v, { s with lines := rest }, g₁) := by simp [evict, hi, hremove]
  obtain ⟨rfl, hrest⟩ := Prod.mk.inj (Except.ok.inj (hevict.symm.trans hr))
  obtain ⟨rfl, rfl⟩ := Prod.mk.inj hrest
  exact .chosen hroom hi (getElem?_of_swapRemove hremove)

/-- An insertion adds a line, after the victim was chosen. -/
theorem choice_of_insert (hroom : s.lines.length ≤ s.capacity) (hpos : 0 < s.capacity)
    (hr : (s.insert g addr data).result = .ok (victim, t, g')) :
    s.policy.Choice s.capacity s.lines g victim g' ∧
      ∃ rest, t = s.added rest (.fresh addr data (s.time + 1)) (s.time + 1) ∧ rest.length < s.capacity := by
  obtain ⟨rest, rfl, hlt, ⟨-, rfl, rfl⟩ | ⟨hfull, he⟩⟩ := of_insert hr
  · exact ⟨.free, rest, rfl, hlt⟩
  · exact ⟨choice_of_evict (Nat.le_antisymm hroom hfull) hpos he, rest, rfl, hlt⟩

end FullyAssociative

namespace SetAssociative

variable {s t : SetAssociative} {addr i : Nat} {data : Bytes} {g g' : Generator} {victim : Option Line}

/-- A way is free, or that of a victim among the lines of all ways. -/
theorem choice_of_chooseWay {w : Ways} (hpos : 0 < w.length) (h : s.chooseWay w g = .ok (i, g')) :
    s.policy.Choice w.length w.lines g (w.getD i none) g' := by
  unfold chooseWay at h
  cases hfree : w.findIdx? Option.isNone with
  | some free =>
    rw [hfree] at h
    obtain ⟨rfl, rfl⟩ := Prod.mk.inj (Except.ok.inj h)
    obtain ⟨hlt, hnone, -⟩ := List.findIdx?_eq_some_iff_getElem.mp hfree
    rw [List.getD_eq_getElem?_getD, List.getElem?_eq_getElem hlt, Option.getD_some, Option.isNone_iff_eq_none.mp hnone]
    exact .free
  | none =>
    rw [hfree] at h
    have hne := Ways.times_ne_nil hfree (List.ne_nil_of_length_pos hpos)
    obtain ⟨j, g₁, hj, hlt⟩ := s.policy.victim?_eq_ok hne g
    rw [List.length_map] at hlt
    rw [hj] at h
    obtain ⟨rfl, rfl⟩ := Prod.mk.inj (Except.ok.inj h)
    rw [Option.getD_some, Ways.getD_of_full hfree hlt]
    exact .chosen (Ways.length_lines_of_full hfree) hj (List.getElem?_eq_getElem hlt)

theorem choice_of_insert (hwide : s.Wide s.ways) (hpos : 0 < s.ways)
    (hr : (s.insert g addr data).result = .ok (victim, t, g')) :
    s.policy.Choice s.ways (s.setOf addr).lines g victim g' ∧
      ∃ i, t = s.placed i (.fresh addr data (s.time + 1)) (s.time + 1) := by
  obtain ⟨i, hi, rfl, rfl⟩ := of_insert hr
  have hwidth : (s.setOf addr).length = s.ways := hwide _
  refine ⟨?_, i, rfl⟩
  have hchoice := choice_of_chooseWay (hwidth ▸ hpos) hi
  rwa [hwidth] at hchoice

end SetAssociative

/-! ## Calls -/

namespace Store

variable {s t : Store} {c : Call} {reply : Reply} {addr : Nat}

/-- The store chooses its victims at random. -/
def Random (s : Store) : Prop :=
  match s.organization with
  | .direct _ => False
  | .full f => f.policy = .random
  | .sets a => a.policy = .random

/-- There are no more lines than there is room for, and the same room at every place. -/
def Sized (s : Store) : Prop :=
  match s.organization with
  | .direct _ => True
  | .full f => f.lines.length ≤ f.capacity ∧ 0 < f.capacity
  | .sets a => a.Wide a.ways ∧ 0 < a.ways

/-- The line that a call evicts. -/
def Reply.victim? : Reply → Option Line
  | .victim line => line
  | .touched | .found _ | .accessed _ => none

/-- What a call does to the generator of a store: an eviction by a store that chooses at random
draws one index, that of the victim among the lines at the place of the new block, and nothing
else draws any. -/
inductive Draw (s : Store) : Call → Reply → Store → Prop where
  | drawn {addr : Nat} {data : Bytes} {v : Line} {t : Store} {i : Nat} (random : s.Random)
      (index : s.generator.index s.room = .ok (i, t.generator))
      (full : (s.linesAt (s.placeOf addr)).length = s.room) (victim : (s.linesAt (s.placeOf addr))[i]? = some v) :
    Draw s (.insert addr data) (.victim (some v)) t
  | kept {c : Call} {reply : Reply} {t : Store} (spared : s.Random → reply.victim? = none)
      (generator : t.generator = s.generator) :
    Draw s c reply t

/-- The store `t` is a state of the store `s`. -/
structure Succeeds (s t : Store) : Prop where
  sized : t.Sized
  random : t.Random ↔ s.Random
  room : t.room = s.room
  lineSize : t.lineSize = s.lineSize

theorem Sized.succeeds (h : s.Sized) : s.Succeeds s :=
  ⟨h, .rfl, rfl, rfl⟩

theorem Sized.update (h : s.Sized) (addr : Nat) (f : Line → Line) : s.Succeeds (s.update addr f) := by
  obtain ⟨d | a | a, g⟩ := s
  · exact ⟨trivial, .rfl, rfl, congrArg Mapping.lineSize (d.mapping_update addr f)⟩
  · exact ⟨⟨(List.length_map ..).trans_le h.1, h.2⟩, .rfl, rfl, rfl⟩
  · exact ⟨⟨h.1.update addr f, h.2⟩, .rfl, rfl, rfl⟩

theorem Sized.touch (h : s.Sized) (addr : Nat) : s.Succeeds (s.touch addr) := by
  obtain ⟨d | a | a, g⟩ := s
  · exact ⟨trivial, .rfl, rfl, congrArg Mapping.lineSize (DirectMapped.mapping_update { d with time := d.time + 1 } ..)⟩
  · exact ⟨⟨(List.length_map ..).trans_le h.1, h.2⟩, .rfl, rfl, rfl⟩
  · exact ⟨⟨SetAssociative.Wide.update (s := { a with time := a.time + 1 }) h.1 addr _, h.2⟩, .rfl, rfl, rfl⟩

/-- A choice of the policy of a store, at the place of the new block. -/
theorem draw_of_choice {policy : Policy} {data : Bytes} {victim : Option Line}
    (hpolicy : s.Random ↔ policy = .random)
    (h : policy.Choice s.room (s.linesAt (s.placeOf addr)) s.generator victim t.generator) :
    s.Draw (.insert addr data) (.victim victim) t := by
  cases victim with
  | none => exact .kept (fun _ => rfl) h.of_none
  | some v =>
    cases policy with
    | random =>
      obtain ⟨i, hindex, hfull, hvictim⟩ := h.of_random
      exact .drawn (hpolicy.mpr rfl) hindex hfull hvictim
    | lru => exact .kept (fun hrandom => absurd (hpolicy.mp hrandom) nofun) h.of_lru

theorem Sized.insert (h : s.Sized) {data : Bytes} {victim : Option Line}
    (hr : (s.insert addr data).result = .ok (victim, t)) :
    s.Succeeds t ∧ s.Draw (.insert addr data) (.victim victim) t := by
  obtain ⟨d | f | a, g⟩ := s
  · simp only [Store.insert, Sim.result_bind, Sim.result_liftM] at hr
    obtain ⟨⟨v, d'⟩, hinsert, hr⟩ := Sim.bind_eq_ok.mp hr
    obtain ⟨rfl, rfl⟩ := Prod.mk.inj (Except.ok.inj hr)
    have hmapping := DirectMapped.mapping_of_insert hinsert
    exact ⟨⟨trivial, .rfl, rfl, congrArg Mapping.lineSize hmapping⟩, .kept (fun hrandom => hrandom.elim) rfl⟩
  · simp only [Store.insert, Sim.result_bind] at hr
    obtain ⟨⟨v, f', g'⟩, hinsert, hr⟩ := Sim.bind_eq_ok.mp hr
    obtain ⟨rfl, rfl⟩ := Prod.mk.inj (Except.ok.inj hr)
    obtain ⟨hchoice, rest, rfl, hlt⟩ := FullyAssociative.choice_of_insert h.1 h.2 hinsert
    refine ⟨⟨⟨?_, h.2⟩, .rfl, rfl, rfl⟩, draw_of_choice .rfl hchoice⟩
    rw [FullyAssociative.added, List.length_append, List.length_singleton]
    exact hlt
  · simp only [Store.insert, Sim.result_bind] at hr
    obtain ⟨⟨v, a', g'⟩, hinsert, hr⟩ := Sim.bind_eq_ok.mp hr
    obtain ⟨rfl, rfl⟩ := Prod.mk.inj (Except.ok.inj hr)
    obtain ⟨hchoice, i, rfl⟩ := SetAssociative.choice_of_insert h.1 h.2 hinsert
    have hplace : linesAt ⟨.sets a, g⟩ (a.mapping.setIndex addr) = (a.setOf addr).lines := linesAt_sets a g _
    exact ⟨⟨⟨h.1.placed i _ _, h.2⟩, .rfl, rfl, rfl⟩, draw_of_choice .rfl (hplace ▸ hchoice)⟩

/-- What a call that is answered draws. -/
theorem Sized.perform (h : s.Sized) (hr : (s.perform c).result = .ok (reply, t)) :
    s.Succeeds t ∧ s.Draw c reply t := by
  cases c with
  | insert addr data =>
    simp only [Store.perform, Sim.result_bind] at hr
    obtain ⟨⟨victim, u⟩, hinsert, hr⟩ := Sim.bind_eq_ok.mp hr
    obtain ⟨rfl, rfl⟩ := Prod.mk.inj (Except.ok.inj hr)
    exact h.insert hinsert
  | touch addr =>
    obtain ⟨rfl, rfl⟩ := Prod.mk.inj (Except.ok.inj hr)
    exact ⟨h.touch addr, .kept (fun _ => rfl) rfl⟩
  | lookup addr =>
    obtain ⟨rfl, rfl⟩ := Prod.mk.inj (Except.ok.inj hr)
    exact ⟨h.succeeds, .kept (fun _ => rfl) rfl⟩
  | access p =>
    simp only [Store.perform, Sim.result_bind] at hr
    obtain ⟨answer, haccess, hr⟩ := Sim.bind_eq_ok.mp hr
    cases answer with
    | none =>
      obtain ⟨rfl, rfl⟩ := Prod.mk.inj (Except.ok.inj hr)
      exact ⟨h.succeeds, .kept (fun _ => rfl) rfl⟩
    | some x =>
      obtain ⟨block, data, hx⟩ := eq_update_of_access haccess
      obtain ⟨rfl, rfl⟩ := Prod.mk.inj (Except.ok.inj hr)
      rw [hx]
      exact ⟨h.update block _, .kept (fun _ => rfl) rfl⟩

/-! ## Runs -/

/-- The eviction of a call that has a reply: the lines that were at the place of its block, and
the victim. -/
def eviction? (s : Store) (c : Call) (reply : Reply) : Option (List Line × Line) :=
  reply.victim?.map fun v => (s.linesAt (s.placeOf (c.block s.lineSize)), v)

/-- The evictions that calls make. -/
def evictions : List Call → Store → List (List Line × Line)
  | [], _ => []
  | c :: rest, s =>
    match (s.perform c).result with
    | .ok (reply, t) => (s.eviction? c reply).toList ++ evictions rest t
    | .error _ => []

theorem evictions_cons {rest : List Call} (h : (s.perform c).result = .ok (reply, t)) :
    evictions (c :: rest) s = (s.eviction? c reply).toList ++ evictions rest t := by
  rw [evictions, h]

variable {calls : List Call} {replies : List Reply}

theorem Succeeds.trans {u : Store} (h : s.Succeeds t) (h' : t.Succeeds u) : s.Succeeds u :=
  ⟨h'.sized, h'.random.trans h.random, h'.room.trans h.room, h'.lineSize.trans h.lineSize⟩

theorem Sized.succeeds_of_run (h : s.Sized) (hr : (run calls s).result = .ok (replies, t)) : s.Succeeds t := by
  induction calls generalizing s replies with
  | nil =>
    obtain ⟨-, rfl⟩ := Prod.mk.inj (Except.ok.inj hr)
    exact h.succeeds
  | cons c rest ih =>
    obtain ⟨reply, u, tail, hu, hrest, rfl⟩ := run_cons_eq_ok.mp hr
    obtain ⟨hsucceeds, -⟩ := h.perform hu
    exact hsucceeds.trans (ih hsucceeds.sized hrest)

/-- The victims are those that are replied. -/
theorem map_evictions (hr : (run calls s).result = .ok (replies, t)) :
    (evictions calls s).map (·.2) = replies.filterMap Reply.victim? := by
  induction calls generalizing s replies with
  | nil =>
    obtain ⟨rfl, -⟩ := Prod.mk.inj (Except.ok.inj hr)
    rfl
  | cons c rest ih =>
    obtain ⟨reply, u, tail, hu, hrest, rfl⟩ := run_cons_eq_ok.mp hr
    rw [evictions_cons hu, List.map_append, ih hrest, eviction?]
    cases hv : reply.victim? <;> simp [hv]

/-- A store that does not choose at random draws nothing. -/
theorem Sized.run_kept (h : s.Sized) (hs : ¬s.Random) (hr : (run calls s).result = .ok (replies, t)) :
    t.generator = s.generator := by
  induction calls generalizing s replies with
  | nil =>
    obtain ⟨-, rfl⟩ := Prod.mk.inj (Except.ok.inj hr)
    rfl
  | cons c rest ih =>
    obtain ⟨reply, u, tail, hu, hrest, rfl⟩ := run_cons_eq_ok.mp hr
    obtain ⟨hsucceeds, hdraw⟩ := h.perform hu
    rw [ih hsucceeds.sized (mt hsucceeds.random.mp hs) hrest]
    cases hdraw with
    | drawn random index full victim => exact absurd random hs
    | kept spared generator => exact generator

/-- A store that chooses at random draws an index for every eviction, and the first one decides
the first eviction, the second the second, and so on. -/
theorem Sized.run_draws (h : s.Sized) (hs : s.Random) (hr : (run calls s).result = .ok (replies, t)) :
    ∃ picks, s.generator.indices s.room (evictions calls s).length = .ok (picks, t.generator) ∧
      List.Forall₂ (fun e i => e.1.length = s.room ∧ e.1[i]? = some e.2) (evictions calls s) picks := by
  induction calls generalizing s replies with
  | nil =>
    obtain ⟨-, rfl⟩ := Prod.mk.inj (Except.ok.inj hr)
    exact ⟨[], rfl, .nil⟩
  | cons c rest ih =>
    obtain ⟨reply, u, tail, hu, hrest, rfl⟩ := run_cons_eq_ok.mp hr
    obtain ⟨hsucceeds, hdraw⟩ := h.perform hu
    obtain ⟨picks, hpicks, hdecide⟩ := ih hsucceeds.sized (hsucceeds.random.mpr hs) hrest
    rw [hsucceeds.room] at hpicks hdecide
    rw [evictions_cons hu]
    cases hdraw with
    | drawn random index full victim =>
      exact ⟨_ :: picks, Generator.indices_succ_eq_ok index hpicks, .cons ⟨full, victim⟩ hdecide⟩
    | kept spared generator =>
      rw [eviction?, spared hs]
      exact ⟨picks, generator ▸ hpicks, hdecide⟩

/-! ## New stores -/

theorem direct_of_geometry {g : Geometry} {gen : Generator} (h : ofGeometry? g gen = .ok s)
    (hk : g.kind = .directMapped) : ∃ d, s = ⟨.direct d, gen⟩ := by
  simp only [hk, ofGeometry?] at h
  obtain ⟨o, hd, h⟩ := Sim.bind_eq_ok.mp h
  cases hofSizes : DirectMapped.ofSizes? g.lines g.lineSize with
  | error e =>
    rw [hofSizes] at hd
    cases hd
  | ok d =>
    rw [hofSizes] at hd
    obtain rfl := Except.ok.inj hd
    exact ⟨d, (Except.ok.inj h).symm⟩

/-- A new store is empty and has some room, and chooses at random if its shape says so. -/
theorem sized_of_geometry {g : Geometry} {gen : Generator} (h : ofGeometry? g gen = .ok s) :
    s.Sized ∧ s.generator = gen ∧ (s.Random ↔ g.kind ≠ .directMapped ∧ g.policy = .random) := by
  cases hk : g.kind with
  | directMapped =>
    obtain ⟨d, rfl⟩ := direct_of_geometry h hk
    exact ⟨trivial, rfl, iff_of_false id fun hrandom => hrandom.1 rfl⟩
  | fullyAssociative =>
    obtain ⟨hpos, rfl⟩ := full_of_geometry h hk
    exact ⟨⟨Nat.zero_le _, hpos⟩, rfl, (and_iff_right nofun).symm⟩
  | setAssociative =>
    obtain ⟨hpos, m, -, -, rfl⟩ := sets_of_geometry h hk
    refine ⟨⟨fun i => ?_, hpos⟩, rfl, (and_iff_right nofun).symm⟩
    simp [SetAssociative.set]

end Store

end CacheSim
