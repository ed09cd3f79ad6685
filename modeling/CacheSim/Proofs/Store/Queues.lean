import CacheSim.Proofs.Alike.Basic
import CacheSim.Proofs.Store.LeastRecent

/-!
# LRU stores are queues

A queue that serves the calls of a store (`LruQueue.perform`), without times, and
the places of an LRU store as such queues (`Store.Ranks`).  A call of a block of
the place and the same call of its queue go the same way and reply the same but
for the times of the lines (`Ranks.perform`); the calls of other places leave the
place as it is (`Ranks.elsewhere`).
-/

namespace CacheSim

open Directory

theorem Block.align_of_align? {size addr block : Nat} (h : align? size addr = .ok block) : align size addr = block := by
  unfold align? at h
  split at h
  · cases h
  · exact Except.ok.inj h

namespace Store

/-- The block that a call is about. -/
def Call.block (size : Nat) : Call → Nat
  | .insert addr _ | .touch addr | .lookup addr => addr
  | .access p => p.block size

/-- A reply without the times of its line. -/
def Reply.timeless : Reply → Reply
  | .victim line => .victim (line.map Line.timeless)
  | .touched => .touched
  | .found line => .found (line.map Line.timeless)
  | .accessed p => .accessed p

end Store

/-- Makes a call of a queue with room for so many blocks of the given size. -/
def LruQueue.perform (q : LruQueue) (room size : Nat) : Store.Call → Except Fault (Store.Reply × LruQueue)
  | .insert addr data =>
    if ofLines q addr = none then .ok (.victim q[room - 1]?, q.insert room addr data)
    else .error (.residentBlock addr)
  | .touch addr => .ok (.touched, q.touch addr)
  | .lookup addr => .ok (.found (ofLines q addr), q)
  | .access p => do
    let block ← Block.align? size p.addr
    match ofLines q block with
    | none => .ok (.accessed none, q)
    | some l => do
      let x ← p.against l.data size
      .ok (.accessed (some x.1), changed q block (·.holding x.2))

/-- The blocks of a queue after a call. -/
def Store.Call.reorder (room : Nat) (tags : List Nat) : Store.Call → List Nat
  | .insert addr _ => LruQueue.promote room addr tags
  | .touch addr => if addr ∈ tags then LruQueue.promote room addr tags else tags
  | .lookup _ | .access _ => tags

theorem LruQueue.tags_held (q : LruQueue) (addr : Nat) (data : Bytes) :
    LruQueue.tags (changed q addr (·.holding data)) = q.tags :=
  tags_changed (f := (·.holding data)) (fun _ => rfl) addr

/-- What a call does to the blocks of a queue, and which of them it replies. -/
theorem LruQueue.tags_perform {q q' : LruQueue} {room size : Nat} {c : Store.Call} {reply : Store.Reply}
    (h : q.perform room size c = .ok (reply, q')) (hnodup : q.tags.Nodup) (hlen : q.length ≤ room) (hpos : 0 < room) :
    q'.tags = c.reorder room q.tags := by
  cases c with
  | insert addr data =>
    rw [perform] at h
    split at h
    · obtain ⟨-, rfl⟩ := Prod.mk.inj (Except.ok.inj h)
      exact tags_insert hpos (ofLines_eq_none_iff_tags.mp ‹_›) data
    · cases h
  | touch addr =>
    obtain ⟨-, rfl⟩ := Prod.mk.inj (Except.ok.inj h)
    exact tags_touch hnodup hlen
  | lookup addr =>
    obtain ⟨-, rfl⟩ := Prod.mk.inj (Except.ok.inj h)
    rfl
  | access p =>
    obtain ⟨block, -, h⟩ := Sim.bind_eq_ok.mp h
    cases hl : ofLines q block with
    | none =>
      rw [hl] at h
      obtain ⟨-, rfl⟩ := Prod.mk.inj (Except.ok.inj h)
      rfl
    | some l =>
      rw [hl] at h
      obtain ⟨x, -, h⟩ := Sim.bind_eq_ok.mp h
      obtain ⟨-, rfl⟩ := Prod.mk.inj (Except.ok.inj h)
      exact tags_held q block x.2

namespace Store

variable {s t : Store} {i addr : Nat} {q : LruQueue} {c : Call} {reply : Reply}

/-- The lines of a place of an LRU store, all of them blocks of this place, form a queue. -/
structure Ranks (s : Store) (i : Nat) (q : LruQueue) : Prop where
  lru : s.Lru
  bound : i < s.places
  ranked : Ranked s.time (s.linesAt i) q
  room : q.length ≤ s.room
  placed : ∀ l ∈ q, s.placeOf l.tag = i

/-- The answer of a store like `s` and that of a queue, which is that of its place. -/
structure Serves (s : Store) (i : Nat) (x : Reply × Store) (y : Reply × LruQueue) : Prop where
  reply : x.1.timeless = y.1
  like : s.LruLike x.2
  ranks : x.2.Ranks i y.2

namespace Ranks

/-- A block of the place is looked up in the queue. -/
theorem lookup (h : s.Ranks i q) (hi : s.placeOf addr = i) : (s.lookup addr).map Line.timeless = ofLines q addr := by
  rw [s.lookup_eq, hi]
  exact h.ranked.ofLines_eq addr

theorem lookup_eq_none_iff (h : s.Ranks i q) (hi : s.placeOf addr = i) : s.lookup addr = none ↔ addr ∉ q.tags := by
  rw [← LruQueue.ofLines_eq_none_iff_tags, ← h.lookup hi, Option.map_eq_none_iff]

theorem touch (h : s.Ranks i q) (hi : s.placeOf addr = i) : (s.touch addr).Ranks i (q.touch addr) := by
  have hlike := h.lru.touch addr
  have hperm := q.touch_perm addr
  refine ⟨hlike.lru, hlike.places ▸ h.bound, ?_, ?_, fun l hl => ?_⟩
  · rw [time_touch, h.lru.linesAt_touch h.bound, if_pos hi]
    exact h.ranked.touched addr
  · rw [hperm.length_eq, hlike.room]
    exact h.room
  · rw [hlike.placeOf]
    exact h.placed l (hperm.mem_iff.mp hl)

theorem held (h : s.Ranks i q) (hi : s.placeOf addr = i) (data : Bytes) :
    (s.update addr (·.holding data)).Ranks i (changed q addr (·.holding data)) := by
  have hlike := h.lru.update addr (·.holding data)
  refine ⟨hlike.lru, hlike.places ▸ h.bound, ?_, ?_, fun l hl => ?_⟩
  · rw [time_update, h.lru.linesAt_update h.bound, if_pos hi]
    exact h.ranked.held addr data
  · rw [changed, List.length_map, hlike.room]
    exact h.room
  · obtain ⟨k, hk, hkl⟩ := List.mem_map.mp hl
    have htag : l.tag = k.tag := by
      rw [← hkl]
      split <;> rfl
    rw [hlike.placeOf, htag]
    exact h.placed k hk

theorem insert (h : s.Ranks i q) (hi : s.placeOf addr = i) (hn : s.lookup addr = none) (data : Bytes) :
    ∃ victim t, (s.insert addr data).result = .ok (victim, t) ∧ victim.map Line.timeless = q[s.room - 1]? ∧
      s.LruLike t ∧ t.Ranks i (q.insert s.room addr data) := by
  subst hi
  obtain ⟨victim, rest, t, hr, hlike, htime, hperm, hperm', hleast, -⟩ :=
    h.lru.insert (h.ranked.length_eq ▸ h.room) hn data
  have hnone : ofLines (s.linesAt (s.placeOf addr)) addr = none := s.lookup_eq addr ▸ hn
  obtain ⟨hranked, hvictim⟩ := h.ranked.inserted hnone hperm hperm' hleast
  refine ⟨victim, t, hr, hvictim, hlike, hlike.lru, hlike.places ▸ h.bound, htime ▸ hranked, ?_, fun l hl => ?_⟩
  · rw [hlike.room]
    exact LruQueue.length_insert_le h.lru.room_pos addr data
  · rw [hlike.placeOf]
    rcases List.mem_cons.mp hl with rfl | hl
    · rfl
    · exact h.placed l (List.mem_of_mem_take hl)

/-- A call of a block of the place goes the way of the same call of the queue. -/
theorem perform (h : s.Ranks i q) (hi : s.placeOf (c.block s.lineSize) = i) :
    Alike (s.Serves i) (s.perform c).result (q.perform s.room s.lineSize c) := by
  cases c with
  | insert addr data =>
    have hi : s.placeOf addr = i := hi
    have hlookup := h.lookup hi
    by_cases hn : s.lookup addr = none
    · obtain ⟨victim, t, hr, hvictim, hlike, hranks⟩ := h.insert hi hn data
      rw [LruQueue.perform, if_pos (by rw [← hlookup, hn]; rfl)]
      simp only [Store.perform, Sim.result_bind, hr, Sim.ok_bind, Sim.result_pure]
      exact .ok ⟨congrArg Reply.victim hvictim, hlike, hranks⟩
    · rw [LruQueue.perform, if_neg (by rwa [← hlookup, Option.map_eq_none_iff])]
      simp only [Store.perform, Sim.result_bind, h.lru.insert_of_resident hn data, Sim.error_bind]
      exact .error _
  | touch addr => exact .ok ⟨rfl, h.lru.touch addr, h.touch hi⟩
  | lookup addr => exact .ok ⟨congrArg Reply.found (h.lookup hi), .refl h.lru, h⟩
  | access p =>
    have hi : s.placeOf (p.block s.lineSize) = i := hi
    simp only [Store.perform, Sim.result_bind, access_eq, LruQueue.perform, bind_assoc]
    refine .after _ fun block hblock => ?_
    obtain rfl : p.block s.lineSize = block := Block.align_of_align? hblock
    have hlookup := h.lookup hi
    cases hl : s.lookup (p.block s.lineSize) with
    | none =>
      rw [hl] at hlookup
      rw [← hlookup]
      exact .ok ⟨rfl, .refl h.lru, h⟩
    | some l =>
      rw [hl] at hlookup
      rw [← hlookup]
      simp only [Option.map_some, bind_assoc, Sim.ok_bind, Sim.result_pure]
      exact .after _ fun x _ => .ok ⟨rfl, h.lru.update .., h.held hi x.2⟩

/-- A store with the lines of the place as they are. -/
theorem of_linesAt_eq (h : s.Ranks i q) (hlike : s.LruLike t) (hlines : t.linesAt i = s.linesAt i)
    (htime : t.time = s.time ∨ t.time = s.time + 1) : t.Ranks i q where
  lru := hlike.lru
  bound := hlike.places ▸ h.bound
  ranked := by
    rw [hlines]
    rcases htime with ht | ht
    · exact ht ▸ h.ranked
    · exact ht ▸ h.ranked.later
  room := hlike.room ▸ h.room
  placed := hlike.placeOf ▸ h.placed

/-- A call of another place changes no line of this one. -/
theorem elsewhere (h : s.Ranks i q) (hi : s.placeOf (c.block s.lineSize) ≠ i)
    (hr : (s.perform c).result = .ok (reply, t)) : t.linesAt i = s.linesAt i ∧ s.LruLike t ∧ t.Ranks i q := by
  suffices hkey : s.LruLike t ∧ t.linesAt i = s.linesAt i ∧ (t.time = s.time ∨ t.time = s.time + 1) from
    ⟨hkey.2.1, hkey.1, h.of_linesAt_eq hkey.1 hkey.2.1 hkey.2.2⟩
  cases c with
  | insert addr data =>
    have hi : s.placeOf addr ≠ i := hi
    simp only [Store.perform, Sim.result_bind, Sim.result_pure] at hr
    obtain ⟨x, hx, hr⟩ := Sim.bind_eq_ok.mp hr
    have hn : s.lookup addr = none := by
      by_contra hn
      rw [h.lru.insert_of_resident hn] at hx
      cases hx
    obtain ⟨victim, rest, u, hu, hlike, htime, -, -, -, hothers⟩ :=
      h.lru.insert (h.lru.length_linesAt_le h.bound hi) hn data
    obtain rfl := Except.ok.inj (hu.symm.trans hx)
    obtain ⟨-, rfl⟩ := Prod.mk.inj (Except.ok.inj hr)
    exact ⟨hlike, hothers i h.bound hi, .inr htime⟩
  | touch addr =>
    obtain ⟨-, rfl⟩ := Prod.mk.inj (Except.ok.inj hr)
    exact ⟨h.lru.touch addr, (h.lru.linesAt_touch h.bound addr).trans (if_neg hi), .inr (s.time_touch addr)⟩
  | lookup addr =>
    obtain ⟨-, rfl⟩ := Prod.mk.inj (Except.ok.inj hr)
    exact ⟨.refl h.lru, rfl, .inl rfl⟩
  | access p =>
    have hi : s.placeOf (p.block s.lineSize) ≠ i := hi
    simp only [Store.perform, Sim.result_bind, access_eq, bind_assoc] at hr
    obtain ⟨block, hblock, hr⟩ := Sim.bind_eq_ok.mp hr
    obtain rfl : p.block s.lineSize = block := Block.align_of_align? hblock
    cases hl : s.lookup (p.block s.lineSize) with
    | none =>
      rw [hl] at hr
      obtain ⟨-, rfl⟩ := Prod.mk.inj (Except.ok.inj hr)
      exact ⟨.refl h.lru, rfl, .inl rfl⟩
    | some l =>
      rw [hl] at hr
      simp only [bind_assoc, Sim.ok_bind, Sim.result_pure] at hr
      obtain ⟨x, -, hr⟩ := Sim.bind_eq_ok.mp hr
      obtain ⟨-, rfl⟩ := Prod.mk.inj (Except.ok.inj hr)
      exact ⟨h.lru.update .., (h.lru.linesAt_update h.bound ..).trans (if_neg hi), .inl (s.time_update ..)⟩

/-- What a call that is answered does to a place. -/
theorem step (h : s.Ranks i q) (hr : (s.perform c).result = .ok (reply, t)) :
    s.LruLike t ∧ ∃ q', t.Ranks i q' ∧
      q'.tags = if s.placeOf (c.block s.lineSize) = i then c.reorder s.room q.tags else q.tags := by
  by_cases hi : s.placeOf (c.block s.lineSize) = i
  · have halike := h.perform hi
    rw [hr] at halike
    obtain ⟨⟨reply', q'⟩, hq, hserves⟩ := halike.exists_of_ok
    refine ⟨hserves.like, q', hserves.ranks, ?_⟩
    rw [if_pos hi, LruQueue.tags_perform hq h.ranked.nodup_tags h.room h.lru.room_pos]
  · obtain ⟨-, hlike, hranks⟩ := h.elsewhere hi hr
    exact ⟨hlike, q, hranks, (if_neg hi).symm⟩

end Ranks

/-- The places of a new store are empty queues. -/
theorem ranks_of_geometry {g : Geometry} {gen : Generator} (h : ofGeometry? g gen = .ok s) (hp : g.policy = .lru)
    (hk : g.kind ≠ .directMapped) (hi : i < s.places) : s.Ranks i [] := by
  obtain ⟨hlru, htime, hlines⟩ := lru_of_geometry h hp hk
  exact ⟨hlru, hi, hlines i ▸ .nil s.time, Nat.zero_le _, by simp⟩

end Store

end CacheSim
