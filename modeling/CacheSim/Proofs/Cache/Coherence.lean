import CacheSim.Proofs.Cache.Service

/-!
# A cache over a flat memory

A cache shows the bytes of the flat memory on which the requests were performed
that it has answered (`Cache.Shows`).  While a fetch is under way it shows those
after the fetch, whose answer is to come.  So a request is answered with what
the flat memory answers, at once (`Shows.image_of_pending`) or when its block
comes (`Shows.completion_eq`).
-/

namespace CacheSim.Cache

variable {ρ μ : Type} [LawfulMemory μ] {D : Nat → Prop} {c d : Cache ρ μ}
  {q r : EventQueue AccessEvent} {id : Nat} {p : Packet} {current : Option (Nat × Packet)}
  {flat : FlatMemory}

/-- The bytes shown are those of a flat memory, or those after the fetch of the
request in service, whose answer is to come. -/
def Shows (c : Cache ρ μ) (current : Option (Nat × Packet)) (flat : FlatMemory) : Prop :=
  match c.service, current with
  | .fetch .., some (_, p) =>
    c.image = flat.perform (p.fetch c.lineSize) ∧ c.lane.coming = [flat.answer (p.fetch c.lineSize)]
  | _, _ => c.image = flat

theorem shows_of_idle (hs : c.service = .idle) : c.Shows current flat ↔ c.image = flat := by
  simp only [Shows, hs]

theorem shows_of_access (hs : c.service = .access id) : c.Shows current flat ↔ c.image = flat := by
  simp only [Shows, hs]

theorem shows_of_fetch {since : Tick} {kept : Option Packet} (hs : c.service = .fetch id since kept) :
    c.Shows (some (id, p)) flat ↔ c.image = flat.perform (p.fetch c.lineSize) ∧
      c.lane.coming = [flat.answer (p.fetch c.lineSize)] := by
  simp only [Shows, hs]

/-- The bytes shown are those of the flat memory before or after the request in service. -/
theorem Consistent.image_of_shows (h : c.Consistent D q current) (hsh : c.Shows current flat) :
    c.image = flat ∨ ∃ id p, current = some (id, p) ∧ c.image = flat.perform p := by
  cases h.stage with
  | idle hs => exact .inl ((shows_of_idle hs).mp hsh)
  | access hs => exact .inl ((shows_of_access hs).mp hsh)
  | @fetch id p _ hs =>
    have himage := ((shows_of_fetch hs).mp hsh).1
    unfold Packet.fetch at himage
    split at himage
    · exact .inr ⟨id, p, rfl, himage⟩
    · exact .inl himage

/-- Calls that change neither the bytes shown nor what is to come. -/
theorem Shows.of_eq (h : c.Shows current flat) (hs : d.service = c.service) (hi : d.image = c.image)
    (hc : d.lane.coming = c.lane.coming) (hg : d.geometry = c.geometry) : d.Shows current flat := by
  unfold Shows at *
  rw [hs, hi, hc, show d.lineSize = c.lineSize from congrArg Geometry.lineSize hg]
  exact h

/-- When an access is scheduled, the bytes shown are those of the flat memory. -/
theorem Shows.image_of_pending (hsh : c.Shows current flat) (h : c.Consistent D q current)
    (hne : q.pending ≠ []) : c.image = flat := by
  cases h.stage with
  | idle _ hq => exact absurd hq hne
  | access hs => exact (shows_of_access hs).mp hsh
  | fetch _ _ hq => exact absurd hq hne

/-- The fetch of a block keeps the cache over its flat memory. -/
theorem Fetching.shows [LawfulRequestor ρ] {now : Tick} (hd : Fetching D c d q id p now)
    (himage : c.image = flat) : d.Shows (some (id, p)) flat := by
  have hsize : d.lineSize = c.lineSize := congrArg Geometry.lineSize hd.geometry
  rw [shows_of_fetch hd.service, hsize, hd.image, hd.coming, himage]
  exact ⟨rfl, rfl⟩

/-- A request whose block comes is answered by the flat memory. -/
theorem Shows.completion_eq (hsh : c.Shows (some (id, p)) flat) (h : c.Consistent D q (some (id, p)))
    {a : Packet} {data : Bytes} (howed : a ∈ c.lane.owed) (hdata : a.payload = some data) :
    p.completion c.lineSize (c.image.write (p.block c.lineSize) data) a = flat.answer p ∧
      p.outcome c.lineSize (c.image.write (p.block c.lineSize) data) = flat.perform p := by
  cases h.stage with
  | access _ _ _ hc => exact absurd (Lane.owed_eq_nil_of_coming hc) (List.ne_nil_of_mem howed)
  | fetch hs hw =>
    obtain ⟨himage, hcoming⟩ := (shows_of_fetch hs).mp hsh
    obtain rfl : a = flat.answer (p.fetch c.lineSize) := by
      have hmem : a ∈ c.lane.coming := List.mem_append_left _ howed
      rwa [hcoming, List.mem_singleton] at hmem
    rw [hw.access.isBlock_fetch.payload_answer flat, Packet.addr_fetch] at hdata
    obtain rfl := Option.some.inj hdata
    rw [himage, FlatMemory.write_read]
    exact p.completion_fetch _ flat

end CacheSim.Cache
