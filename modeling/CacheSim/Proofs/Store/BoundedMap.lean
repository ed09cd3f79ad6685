import CacheSim.Proofs.Store.Calls
import CacheSim.Proofs.Store.Places
import CacheSim.Random.Seeded

/-!
# A store is a bounded map

What a store is after any calls that keep its rules (`Store.BoundedMap`): a map
of limited size from blocks to lines, every line at the place of its block, with
last accesses that lie in the past and are all different.  And what every such
call does to the map and replies (`Store.Effect`): in particular, an insertion
takes out one line of the place of the new block, as it is then, if and only if
there is no room left at this place.

`Store.run_bounded` says this of all runs from an empty store.
-/

namespace CacheSim

namespace Store

open Directory

variable {s t : Store} {addr n : Nat} {c : Call} {reply : Reply}

/-- A map of limited size from blocks to lines. -/
structure BoundedMap (s : Store) : Prop where
  /-- No two lines have the same tag. -/
  nodup : (s.lines.map (·.tag)).Nodup
  bounded : s.size ≤ s.capacity
  lookup : ∀ b l, s.lookup b = some l ↔ l ∈ s.lines ∧ l.tag = b
  /-- The lines are those of the places, which all have the same room. -/
  places : s.lines = (List.range s.places).flatMap s.linesAt ∧ s.capacity = s.places * s.room
  /-- Every line is at the place of its own tag. -/
  placed : ∀ i < s.places, (s.linesAt i).length ≤ s.room ∧ ∀ l ∈ s.linesAt i, s.placeOf l.tag = i
  times : ∀ l ∈ s.lines, l.allocTime ≤ l.lastAccess ∧ l.lastAccess ≤ s.time
  distinct : (s.lines.map (·.lastAccess)).Nodup

/-- What a call replies and does to a store. -/
inductive Effect (s : Store) : Call → Reply → Store → Prop where
  /-- One line of the place of the new block, as it is now, makes room for it, if
  there is none left. -/
  | inserted {addr : Nat} {data : Bytes} {victim : Option Line} {t : Store}
      (room : victim = none ↔ (s.linesAt (s.placeOf addr)).length < s.room)
      (resident : ∀ v ∈ victim, v ∈ s.linesAt (s.placeOf addr))
      (size : t.size + victim.toList.length = s.size + 1)
      (lookup : Inserted s.lookup t.lookup addr (.fresh addr data (s.time + 1)) victim) :
    Effect s (.insert addr data) (.victim victim) t
  | touched {addr : Nat} {t : Store} (size : t.size = s.size)
      (lookup : Updated s.lookup t.lookup addr (·.touched (s.time + 1))) :
    Effect s (.touch addr) .touched t
  | found (addr : Nat) : Effect s (.lookup addr) (.found (s.lookup addr)) s
  | absent {p : Packet} (lookup : s.lookup (p.block s.lineSize) = none) :
    Effect s (.access p) (.accessed none) s
  | accessed {p : Packet} {l : Line} {t : Store} (resident : s.lookup (p.block s.lineSize) = some l)
      (size : t.size = s.size)
      (lookup : Updated s.lookup t.lookup (p.block s.lineSize) (·.holding (p.stored l.data s.lineSize))) :
    Effect s (.access p) (.accessed (some (p.loaded l.data s.lineSize))) t

/-- The logical time that a call takes. -/
def Call.duration : Call → Nat
  | .insert .. | .touch _ => 1
  | .lookup _ | .access _ => 0

/-! ## What a call does -/

theorem Follows.refl (h : s.Valid) : s.Follows s 0 :=
  ⟨h, rfl, rfl, rfl⟩

/-- A call that keeps the rules is answered. -/
theorem Valid.perform_eq_ok (h : s.Valid) (hc : s.Allows c) :
    ∃ reply t, (s.perform c).result = .ok (reply, t) ∧ s.Follows t c.duration ∧ s.Effect c reply t := by
  cases c with
  | insert addr data =>
    obtain ⟨hd, hn, hl⟩ := hc
    obtain ⟨victim, t, hr, hf, hi⟩ := h.insert_eq_ok hn hd hl
    obtain ⟨hroom, hvictim⟩ := h.insert_place hn hd hr
    exact ⟨.victim victim, t, by simp [perform, hr], hf, .inserted hroom hvictim (h.size_insert hn hd hr) hi⟩
  | touch addr =>
    exact ⟨.touched, s.touch addr, rfl, h.follows_touch addr, .touched (s.size_touch addr) (s.updated_touch addr)⟩
  | lookup addr => exact ⟨.found (s.lookup addr), s, rfl, .refl h, .found addr⟩
  | access p =>
    cases hl : s.lookup (p.block s.lineSize) with
    | none => exact ⟨.accessed none, s, by simp [perform, access_of_not_resident hc.1 hl], .refl h, .absent hl⟩
    | some l =>
      obtain ⟨hs, hfits, data, hdata, hsize⟩ := hc
      have hcarries : p.Carries := fun _ => ⟨data, hdata, hsize⟩
      have hacc := h.access_of_lookup hs hfits hcarries hl
      have hlen := Packet.length_stored hfits hcarries (h.sound.length hl)
      have hu := s.updated_update (f := (·.holding (p.stored l.data s.lineSize))) (fun _ => rfl) (p.block s.lineSize)
      refine ⟨.accessed (some (p.loaded l.data s.lineSize)),
        s.update (p.block s.lineSize) (·.holding (p.stored l.data s.lineSize)), by simp [perform, hacc], ?_, ?_⟩
      · exact h.follows_update (fun _ => rfl) fun _ _ => hlen
      · exact .accessed hl (s.size_update _ fun _ => rfl) hu

/-! ## Times -/

/-- Lines were accessed in the past, no two of them at the same time. -/
structure Timely (s : Store) : Prop where
  order : ∀ {b l}, s.lookup b = some l → l.allocTime ≤ l.lastAccess ∧ l.lastAccess ≤ s.time
  distinct : ∀ {a b k l}, s.lookup a = some k → s.lookup b = some l → k.lastAccess = l.lastAccess → a = b

theorem timely_of_empty (h : ∀ b, s.lookup b = none) : s.Timely :=
  ⟨fun {b l} hl => by simp [h] at hl, fun {a b k l} hk => by simp [h] at hk⟩

/-- Only the line under one address is other than before, and it is accessed now. -/
theorem Timely.accessed (h : s.Timely) (ht : t.time = s.time + 1) (addr : Nat)
    (hnew : ∀ l, t.lookup addr = some l → l.allocTime ≤ l.lastAccess ∧ l.lastAccess = s.time + 1)
    (hold : ∀ b l, b ≠ addr → t.lookup b = some l → s.lookup b = some l) : t.Timely := by
  have hlt : ∀ b l, b ≠ addr → t.lookup b = some l → l.lastAccess < s.time + 1 := fun b l hb hl =>
    Nat.lt_succ_of_le (h.order (hold b l hb hl)).2
  refine ⟨fun {b l} hl => ?_, fun {a b k l} hk hl he => ?_⟩
  · by_cases hb : b = addr
    · obtain ⟨halloc, hlast⟩ := hnew l (hb ▸ hl)
      exact ⟨halloc, by omega⟩
    · obtain ⟨halloc, hlast⟩ := h.order (hold b l hb hl)
      exact ⟨halloc, by omega⟩
  · by_cases ha : a = addr <;> by_cases hb : b = addr
    · exact ha.trans hb.symm
    · have hnow := (hnew k (ha ▸ hk)).2
      have hpast := hlt b l hb hl
      omega
    · have hnow := (hnew l (hb ▸ hl)).2
      have hpast := hlt a k ha hk
      omega
    · exact h.distinct (hold a k ha hk) (hold b l hb hl) he

theorem Timely.touched (h : s.Timely) (ht : t.time = s.time + 1)
    (hu : Updated s.lookup t.lookup addr (·.touched (s.time + 1))) : t.Timely := by
  refine h.accessed ht addr (fun l hl => ?_) fun b l hb hl => (hu.apply_of_ne hb) ▸ hl
  rw [hu.apply_self] at hl
  obtain ⟨k, hk, rfl⟩ := Option.map_eq_some_iff.mp hl
  obtain ⟨halloc, hlast⟩ := h.order hk
  exact ⟨by show k.allocTime ≤ s.time + 1; omega, rfl⟩

theorem Timely.inserted (h : s.Timely) (ht : t.time = s.time + 1) {data : Bytes} {victim : Option Line}
    (hi : Inserted s.lookup t.lookup addr (.fresh addr data (s.time + 1)) victim) : t.Timely := by
  refine h.accessed ht addr (fun l hl => ?_) fun b l hb hl => ?_
  · obtain rfl := Option.some.inj (hl.symm.trans hi.fresh)
    exact ⟨Nat.le_refl _, rfl⟩
  · exact (hi.of_some hl).resolve_left fun hf => hb hf.1

theorem Timely.held (h : s.Timely) (ht : t.time = s.time) {data : Bytes}
    (hu : Updated s.lookup t.lookup addr (·.holding data)) : t.Timely := by
  have hold : ∀ {b l}, t.lookup b = some l → ∃ k, s.lookup b = some k ∧ k.allocTime = l.allocTime ∧
      k.lastAccess = l.lastAccess := by
    intro b l hl
    rw [hu b] at hl
    split at hl
    · obtain ⟨k, hk, rfl⟩ := Option.map_eq_some_iff.mp hl
      exact ⟨k, hk, rfl, rfl⟩
    · exact ⟨l, hl, rfl, rfl⟩
  refine ⟨fun {b l} hl => ?_, fun {a b k l} hk hl he => ?_⟩
  · obtain ⟨k, hk, halloc, hlast⟩ := hold hl
    rw [← halloc, ← hlast, ht]
    exact h.order hk
  · obtain ⟨k', hk', -, hlastk⟩ := hold hk
    obtain ⟨l', hl', -, hlastl⟩ := hold hl
    exact h.distinct hk' hl' (hlastk.trans (he.trans hlastl.symm))

theorem Timely.step (h : s.Timely) (he : s.Effect c reply t) (ht : t.time = s.time + c.duration) : t.Timely := by
  cases he with
  | inserted room resident size lookup => exact h.inserted ht lookup
  | touched size lookup => exact h.touched ht lookup
  | found addr => exact h
  | absent lookup => exact h
  | accessed resident size lookup => exact h.held ht lookup

theorem Timely.nodup_lastAccess (h : s.Timely) (hv : s.Valid) : (s.lines.map (·.lastAccess)).Nodup := by
  have htags := List.pairwise_map.mp hv.nodup_tags
  refine List.pairwise_map.mpr (htags.imp_of_mem fun {k l} hk hl hne he => hne ?_)
  exact h.distinct (hv.lookup_of_mem hk) (hv.lookup_of_mem hl) he

/-! ## Runs -/

theorem Valid.boundedMap (hv : s.Valid) (ht : s.Timely) : s.BoundedMap where
  nodup := hv.nodup_tags
  bounded := hv.size_le_capacity
  lookup _ _ := hv.lookup_eq_some_iff
  places := ⟨s.lines_eq, s.capacity_eq⟩
  placed _ hi := ⟨(hv.place hi).2.2, (hv.place hi).2.1⟩
  times _ hl := ht.order (hv.lookup_of_mem hl)
  distinct := ht.nodup_lastAccess hv

theorem Call.duration_le_one (c : Call) : c.duration ≤ 1 := by
  cases c <;> simp [duration]

/-- Calls that keep the rules are all answered. -/
theorem Valid.run_eq_ok (hv : s.Valid) (ht : s.Timely) {calls : List Call} (hc : s.Admits calls) :
    ∃ replies t, (run calls s).result = .ok (replies, t) ∧ t.Valid ∧ t.Timely ∧
      t.time ≤ s.time + calls.length := by
  induction calls generalizing s with
  | nil => exact ⟨[], s, rfl, hv, ht, Nat.le_refl _⟩
  | cons c rest ih =>
    obtain ⟨hallows, hrest⟩ := hc
    obtain ⟨reply, u, hu, hf, he⟩ := hv.perform_eq_ok hallows
    rw [hu] at hrest
    obtain ⟨replies, t, hr, hvt, htt, htime⟩ := ih hf.valid (ht.step he hf.time) hrest
    have hone := c.duration_le_one
    have hnow := hf.time
    refine ⟨reply :: replies, t, ?_, hvt, htt, ?_⟩
    · rw [run, Sim.result_bind, hu, Sim.ok_bind, Sim.result_bind, hr]
      rfl
    · rw [List.length_cons]
      omega

/-- After any calls that keep the rules, a store that was empty is a bounded map,
all calls were answered, and so is the next one that keeps the rules. -/
theorem run_bounded {g : Geometry} {gen : Generator} {calls : List Call} (h₀ : ofGeometry? g gen = .ok s)
    (hc : s.Admits calls) :
    ∃ replies t, (run calls s).result = .ok (replies, t) ∧ t.BoundedMap ∧ t.time ≤ calls.length ∧
      ∀ c, t.Allows c → ∃ reply u, (t.perform c).result = .ok (reply, u) ∧ t.Effect c reply u := by
  obtain ⟨hv, -, hempty, hzero⟩ := valid_ofGeometry? h₀
  obtain ⟨replies, t, hr, hvt, htt, htime⟩ := hv.run_eq_ok (timely_of_empty hempty) hc
  rw [hzero, Nat.zero_add] at htime
  refine ⟨replies, t, hr, hvt.boundedMap htt, htime, fun c hallows => ?_⟩
  obtain ⟨reply, u, hu, -, he⟩ := hvt.perform_eq_ok hallows
  exact ⟨reply, u, hu, he⟩

/-- The theorem at a set that takes three blocks into two ways, after the first of
them was touched and the second one written. -/
theorem run_bounded_of_eviction :
    ∃ s, ofGeometry? ⟨.setAssociative, 4, 6, 2, 1, .lru⟩ (.seeded 0) = .ok s ∧
      ∃ replies t, (run [.insert 0 [1, 2, 3, 4], .insert 12 [5, 6, 7, 8], .access (.write 13 [9] 0), .touch 0,
          .insert 24 [0, 0, 0, 0], .lookup 12] s).result = .ok (replies, t) ∧ t.BoundedMap ∧ t.time ≤ 6 ∧
        ∀ c, t.Allows c → ∃ reply u, (t.perform c).result = .ok (reply, u) ∧ t.Effect c reply u := by
  have h₀ : ofGeometry? ⟨.setAssociative, 4, 6, 2, 1, .lru⟩ (.seeded 0) = .ok _ := rfl
  exact ⟨_, h₀, run_bounded h₀ (by decide)⟩

end Store

end CacheSim
