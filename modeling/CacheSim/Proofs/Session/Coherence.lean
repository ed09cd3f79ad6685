import CacheSim.Proofs.Session.Supply
import CacheSim.Proofs.Store.Residents

/-!
# The bytes on their way

Where the bytes of a session are while packets wait, fetches are under way and
accesses go past the timing path: the bytes of the memory after the writebacks
that wait for it, under the resident blocks, are those of a flat memory, then
after the fetch whose answer is owed, and then after the accesses that overtook
this answer (`Coherent`).  The answer that is owed is the one from before them,
so what overtook it is lost when the block is inserted (`Coherent.filled`), and
what is done to the memory while a writeback of the block waits is overwritten
(`Coherent.shadowed`).
-/

namespace CacheSim.Session

open Cache

variable {v v' : View} {a : Action} {p : Packet}

/-- Where the store, the lane and the accesses that overtook an answer stand to
a flat memory. -/
structure Coherent (store : Store) (size : Nat) (flat : FlatMemory) (l : Lane (Recorded FreeMemory))
    (overtaking : List Packet) : Prop where
  shown : store.overlay l.settled = flat.after (l.unanswered ++ overtaking)
  owed : l.owed = flat.answers l.unanswered
  /-- The blocks on their way are not resident. -/
  absent : ∀ q ∈ l.unanswered ++ l.held, q.IsBlock size ∧ store.lookup q.addr = none
  overtaking : ∀ q ∈ overtaking, q.InBlock size ∧ ∃ f ∈ l.unanswered, f.addr = q.block size

variable {store : Store} {size : Nat} {flat : FlatMemory} {l k : Lane (Recorded FreeMemory)}
  {overtaking pushed taken : List Packet}

theorem Coherent.overtaking_eq_nil (h : Coherent store size flat l overtaking) (hn : l.unanswered = []) :
    overtaking = [] := by
  refine List.eq_nil_iff_forall_not_mem.mpr fun q hq => ?_
  obtain ⟨-, f, hf, -⟩ := h.overtaking q hq
  rw [hn] at hf
  exact List.not_mem_nil hf

/-- While no fetch is outstanding, the cache shows the flat memory. -/
theorem Coherent.of_quiet (h : Coherent store size flat l overtaking) (hf : l.fetches = []) :
    overtaking = [] ∧ store.overlay l.backing = flat := by
  obtain ⟨hn, hsettled⟩ := l.settled_of_quiet hf
  have hover := h.overtaking_eq_nil hn
  refine ⟨hover, ?_⟩
  rw [← hsettled, h.shown, hn, hover]
  rfl

/-! ## Packets move -/

/-- The memory takes packets, at most one fetch among all that it has. -/
theorem Coherent.took (h : Coherent store size flat l overtaking) (hsize : store.lineSize = size) (hpos : 0 < size)
    (hl : l.Sound (fun _ => True) size) (took : l.Took k pushed taken)
    (hpushed : ∀ q ∈ pushed, q.command.needsResponse ∧ q.IsBlock size ∧ store.lookup q.addr = none)
    (hone : k.unanswered.length ≤ 1) : Coherent store size flat k overtaking := by
  subst hsize
  obtain ⟨fetches, hmem, hunanswered, howed, hsettled⟩ := hl.took_settled took fun q hq => (hpushed q hq).1
  have hmoved : ∀ q ∈ taken ++ k.held, q.IsBlock store.lineSize ∧ store.lookup q.addr = none := by
    rw [← took.held]
    exact List.forall_mem_append.mpr
      ⟨fun q hq => h.absent q (List.mem_append_right _ hq), fun q hq => (hpushed q hq).2⟩
  have hfetches : ∀ f ∈ fetches, f.InBlock store.lineSize ∧ store.lookup (f.block store.lineSize) = none := by
    intro f hf
    obtain ⟨hb, hn⟩ := hmoved f (List.mem_append_left _ (hmem f hf))
    exact ⟨hb.inBlock, hb.block_eq.symm ▸ hn⟩
  have habsent : ∀ q ∈ k.unanswered ++ k.held, q.IsBlock store.lineSize ∧ store.lookup q.addr = none := by
    rw [hunanswered]
    refine List.forall_mem_append.mpr ⟨List.forall_mem_append.mpr ⟨fun q hq => ?_, fun q hq => ?_⟩, fun q hq => ?_⟩
    · exact h.absent q (List.mem_append_left _ hq)
    · exact hmoved q (List.mem_append_left _ (hmem q hq))
    · exact hmoved q (List.mem_append_right _ hq)
  have hovertaking : ∀ q ∈ overtaking, q.InBlock store.lineSize ∧
      ∃ f ∈ k.unanswered, f.addr = q.block store.lineSize := by
    intro q hq
    obtain ⟨hb, f, hf, haddr⟩ := h.overtaking q hq
    exact ⟨hb, f, hunanswered ▸ List.mem_append_left _ hf, haddr⟩
  -- a fetch is taken only if no other answer is owed, so nothing overtook one yet
  cases fetches with
  | nil =>
    rw [List.append_nil] at hunanswered
    refine ⟨?_, ?_, habsent, hovertaking⟩
    · rw [hsettled, hunanswered]
      exact h.shown
    · rw [howed, hunanswered, FlatMemory.answers_nil, List.append_nil]
      exact h.owed
  | cons f rest =>
    have hnil : l.unanswered = [] := by
      rw [hunanswered, List.length_append, List.length_cons] at hone
      exact List.length_eq_zero_iff.mp (by omega)
    have hover := h.overtaking_eq_nil hnil
    have hshown := h.shown
    rw [hnil, hover, List.append_nil, FlatMemory.after_nil] at hshown
    rw [hnil, List.nil_append] at hunanswered
    refine ⟨?_, ?_, habsent, hovertaking⟩
    · rw [hsettled, Store.overlay_after_of_absent hpos hfetches, hshown, hunanswered, hover, List.append_nil]
    · rw [howed, h.owed, hnil, hunanswered, ← Store.answers_overlay_of_absent hpos hfetches, hshown]
      rfl

/-! ## Accesses past the timing path -/

theorem Effect.lane_eq (h : Effect v p store l) :
    l.unanswered = v.lane.unanswered ∧ l.owed = v.lane.owed ∧ l.held = v.lane.held := by
  cases h <;> exact ⟨rfl, rfl, rfl⟩

theorem Effect.lookup_eq_none_iff (h : Effect v p store l) (b : Nat) :
    store.lookup b = none ↔ v.store.lookup b = none := by
  cases h with
  | resident access => exact Store.lookup_access_eq_none_iff access b
  | absent => rfl

/-- An access is performed on the bytes shown unless its block waits for the memory. -/
theorem Effect.overlay_eq (h : Effect v p store l) (hv : v.Sane) (hp : p.IsAccess v.size)
    (hw : ∀ w ∈ v.lane.waiting, w.InBlock v.size ∧ w.block v.size ≠ p.block v.size) :
    store.overlay l.settled = (v.store.overlay v.lane.settled).perform p := by
  cases h with
  | resident _ _ _ overlay => exact overlay _
  | absent absent =>
    have hsettled : (v.lane.performed p).settled = v.lane.settled.perform p :=
      FlatMemory.perform_after hv.pos hp.inBlock hw _
    rw [hsettled, Store.overlay_perform_of_absent]
    · exact hv.lineSize ▸ hv.pos
    · exact hv.lineSize ▸ hp.inBlock
    · exact hv.lineSize ▸ absent

/-- What is done to a block on its way is done to the memory. -/
theorem Effect.eq_of_absent (h : Effect v p store l) (hn : v.store.lookup (p.block v.size) = none) :
    store = v.store ∧ l = v.lane.performed p := by
  cases h with
  | resident _ resident => simp [hn] at resident
  | absent => exact ⟨rfl, rfl⟩

/-- What is done to a block that waits for the memory is overwritten. -/
theorem Coherent.shadowed (h : Coherent v.store v.size flat v.lane overtaking) (hv : v.Sane)
    (hp : p.IsAccess v.size) (he : Effect v p store l) {w : Packet} (hwaiting : v.lane.waiting = [w])
    (hcommand : w.command = .writebackDirty) (haddr : w.addr = p.block v.size) :
    Coherent store v.size flat l overtaking := by
  have hheld : w ∈ v.lane.held := (Lane.mem_waiting_iff.mp (hwaiting ▸ List.mem_singleton_self w)).1
  obtain ⟨hb, hn⟩ := h.absent w (List.mem_append_right _ hheld)
  obtain ⟨rfl, rfl⟩ := he.eq_of_absent (haddr ▸ hn)
  -- the writeback that waits is over the whole block, and comes after the access
  have hsettled : (v.lane.performed p).settled = v.lane.settled := by
    have hwrite : w.command.isWrite := by rw [hcommand]; rfl
    obtain ⟨data, hdata, hlength⟩ := hb.carries hwrite
    show (v.lane.contents.perform p).after v.lane.waiting = v.lane.contents.after v.lane.waiting
    rw [hwaiting, FlatMemory.after_cons, FlatMemory.after_cons, FlatMemory.perform_of_write _ hwrite hdata,
      FlatMemory.perform_of_write _ hwrite hdata]
    have hblock : ∀ q ∈ [p], q.InBlock v.size ∧ q.block v.size = w.addr :=
      fun q hq => List.mem_singleton.mp hq ▸ ⟨hp.inBlock, haddr.symm⟩
    exact FlatMemory.write_block_after hv.pos hb.dvd (hlength.trans hb.size_eq) hblock v.lane.contents
  exact ⟨hsettled ▸ h.shown, h.owed, h.absent, h.overtaking⟩

/-- The packets that wait and are not answered are writebacks, in other blocks
than one of which none is parked. -/
theorem Supplied.apart (hs : Supplied v) (hv : v.Sane) {b : Nat}
    (hparked : ∀ w ∈ v.lane.port.parked, w.command = .writebackDirty → w.addr ≠ b) :
    ∀ w ∈ v.lane.waiting, w.InBlock v.size ∧ w.block v.size ≠ b := by
  intro w hw
  obtain ⟨hheld, hno⟩ := Lane.mem_waiting_iff.mp hw
  have hb := (hv.lane.blocks w hheld).1
  have hcommand := (hs.asked w (List.mem_append_right _ hheld)).resolve_left (by simp [hno])
  rw [hv.lane.held_eq.2] at hw
  exact ⟨hb.inBlock, hb.block_eq.symm ▸ hparked w (Option.mem_toList.mp (List.mem_filter.mp hw).1) hcommand⟩

variable {contents : FlatMemory} {history : List (Option Nat × Packet)} {fill : Packet} {victim : Option Line}

theorem after_history_concat (contents : FlatMemory) (history : List (Option Nat × Packet)) (origin : Option Nat)
    (p : Packet) : contents.after ((history ++ [(origin, p)]).map (·.2)) =
      (contents.after (history.map (·.2))).perform p := by
  rw [List.map_append, FlatMemory.after_append]
  rfl

/-- An access past the timing path is lost or lasts as it was noted. -/
theorem Coherent.noted (h : Coherent v.store v.size (contents.after (v.history.map (·.2))) v.lane v.overtaking)
    (hv : v.Sane) (hs : Supplied v) (hp : p.IsAccess v.size) (he : Effect v p store l)
    (hn : Noted v p history overtaking) :
    Coherent store v.size (contents.after (history.map (·.2))) l overtaking := by
  obtain ⟨hunanswered, howed, hheld⟩ := he.lane_eq
  have habsent : ∀ q ∈ l.unanswered ++ l.held, q.IsBlock v.size ∧ store.lookup q.addr = none := by
    rw [hunanswered, hheld]
    exact fun q hq => (h.absent q hq).imp_right (he.lookup_eq_none_iff _).mpr
  cases hn with
  | @shadowed w parked command addr =>
    refine h.shadowed hv hp he ?_ command addr
    rw [hv.lane.held_eq.2, parked]
    simp [command, Command.needsResponse, Command.response?]
  | overtakes parked unanswered addr =>
    refine ⟨?_, ?_, habsent, ?_⟩
    · rw [he.overlay_eq hv hp (hs.apart hv parked), h.shown, hunanswered, ← List.append_assoc,
        FlatMemory.after_append _ (_ ++ _)]
      rfl
    · rw [howed, hunanswered]
      exact h.owed
    · rw [hunanswered]
      refine List.forall_mem_append.mpr ⟨h.overtaking, fun q hq => ?_⟩
      obtain rfl := List.mem_singleton.mp hq
      exact ⟨hp.inBlock, _, unanswered, addr⟩
  | lasting parked unanswered =>
    have hothers : ∀ q ∈ v.lane.unanswered, q.InBlock v.size ∧ q.block v.size ≠ p.block v.size := by
      intro q hq
      have hb := (h.absent q (List.mem_append_left _ hq)).1
      exact ⟨hb.inBlock, hb.block_eq.symm ▸ unanswered q hq⟩
    have hafter : ∀ q ∈ v.lane.unanswered ++ v.overtaking,
        q.InBlock v.size ∧ q.block v.size ≠ p.block v.size := by
      refine List.forall_mem_append.mpr ⟨hothers, fun q hq => ?_⟩
      obtain ⟨hb, f, hf, haddr⟩ := h.overtaking q hq
      exact ⟨hb, haddr ▸ unanswered f hf⟩
    have hflat := after_history_concat contents v.history none p
    refine ⟨?_, ?_, habsent, ?_⟩
    · rw [he.overlay_eq hv hp (hs.apart hv parked), h.shown, hunanswered, hflat,
        FlatMemory.perform_after hv.pos hp.inBlock hafter]
    · rw [howed, hunanswered, hflat, FlatMemory.answers_perform hv.pos hp.inBlock hothers]
      exact h.owed
    · rw [hunanswered]
      exact h.overtaking

/-! ## The request in service -/

/-- An access that hits is performed on the bytes shown. -/
theorem Coherent.hit (h : Coherent v.store v.size flat v.lane overtaking) (hquiet : v.lane.fetches = [])
    {q : Packet} {t : Store} {addr : Nat} (hacc : (v.store.access p).result = .ok (some (q, t)))
    (himage : (t.touch addr).overlay v.lane.backing = v.image.perform p) :
    v.image.answer p = flat.answer p ∧
      Coherent (t.touch addr) v.size (flat.perform p) v.lane overtaking := by
  obtain ⟨hn, hsettled⟩ := v.lane.settled_of_quiet hquiet
  obtain ⟨hover, hflat⟩ := h.of_quiet hquiet
  have hshown : v.image = flat := hflat
  have howed := h.owed
  rw [hn] at howed
  refine ⟨by rw [hshown], ?_, ?_, fun q hq => ?_, h.overtaking⟩
  · rw [hsettled, himage, hshown, hn, hover]
    rfl
  · rw [howed, hn]
    rfl
  · refine (h.absent q hq).imp_right fun hnone => ?_
    rwa [Store.lookup_touch_eq_none_iff, Store.lookup_access_eq_none_iff hacc]

/-- The block that comes is the one before what overtook it. -/
theorem Coherent.completion_eq (h : Coherent v.store v.size flat v.lane overtaking) (hv : v.Sane)
    (hp : p.IsAccess v.size) (hunanswered : v.lane.unanswered = [p.fetch v.size]) (hheld : v.lane.held = [])
    (howed : v.lane.owed = [fill]) {data : Bytes} (hdata : fill.payload = some data) :
    p.completion v.size (v.image.write (p.block v.size) data) fill = flat.answer p ∧
      p.outcome v.size (v.image.write (p.block v.size) data) = flat.perform p := by
  have hb := hp.isBlock_fetch
  obtain rfl : fill = flat.answer (p.fetch v.size) := by
    have h' := h.owed
    rw [howed, hunanswered, FlatMemory.answers_cons_of_needsResponse _ _ hp.needsResponse_fetch] at h'
    exact (List.cons.inj h').1
  rw [hb.payload_answer flat, Packet.addr_fetch] at hdata
  obtain rfl := Option.some.inj hdata
  have himage : v.image = (flat.perform (p.fetch v.size)).after overtaking := by
    have hshown := h.shown
    rw [Lane.settled, Lane.waiting, hheld, hunanswered] at hshown
    rw [View.image, Lane.backing, hheld]
    exact hshown
  have hover : ∀ q ∈ overtaking, q.InBlock v.size ∧ q.block v.size = p.block v.size := by
    intro q hq
    obtain ⟨hq, f, hf, haddr⟩ := h.overtaking q hq
    rw [hunanswered, List.mem_singleton] at hf
    exact ⟨hq, by rw [← haddr, hf, Packet.addr_fetch]⟩
  rw [himage, FlatMemory.write_block_after hv.pos (p.dvd_block _) (FlatMemory.length_read ..) hover,
    FlatMemory.write_read]
  exact p.completion_fetch _ flat

/-- Once the block came, what overtook it is lost. -/
theorem Coherent.filled (hquiet : k.fetches = []) (took : l.Took k (Store.writebacks victim) taken)
    (hfree : l.held = []) (hgave : l.owed = [])
    (hvictim : ∀ w ∈ Store.writebacks victim, w.IsBlock size ∧ store.lookup w.addr = none)
    (himage : store.overlay k.backing = flat) : Coherent store size flat k [] := by
  obtain ⟨hn, hsettled⟩ := k.settled_of_quiet hquiet
  have hheld := took.held
  rw [hfree, List.nil_append] at hheld
  refine ⟨?_, ?_, ?_, fun q hq => absurd hq List.not_mem_nil⟩
  · rw [hsettled, himage, hn]
    rfl
  · have hno : ∀ q ∈ taken, q.command.needsResponse = false := by
      intro q hq
      rw [command_of_mem_writebacks (hheld ▸ List.mem_append_left _ hq)]
      rfl
    rw [took.owed, hgave, hn, FlatMemory.answers_eq_nil_iff.mpr hno]
    rfl
  · rw [hn, List.nil_append]
    exact fun q hq => hvictim q (hheld ▸ List.mem_append_right _ hq)

/-! ## What an access past the timing path is told -/

/-- The memory answers for a block of which no writeback waits. -/
theorem Coherent.answer_eq (h : Coherent v.store v.size flat v.lane overtaking) (hv : v.Sane) (hp : p.IsAccess v.size)
    (hw : ∀ w ∈ v.lane.waiting, w.InBlock v.size ∧ w.block v.size ≠ p.block v.size) :
    (v.store.overlay v.lane.contents).answer p = (flat.after (v.lane.unanswered ++ overtaking)).answer p := by
  rw [← h.shown]
  refine FlatMemory.answer_congr hv.pos hp.fits fun a ha => ?_
  refine Store.overlay_apply_congr (FlatMemory.after_apply_of_ne hv.pos (fun w hmem => ?_) _).symm
  obtain ⟨hb, hne⟩ := hw w hmem
  exact ⟨hb, ha ▸ hne.symm⟩

/-- What is outstanding for another block does not show. -/
theorem Coherent.answer_after (h : Coherent store size flat l overtaking) (hpos : 0 < size) (hp : p.IsAccess size)
    (hn : ∀ f ∈ l.unanswered, f.addr ≠ p.block size) :
    (flat.after (l.unanswered ++ overtaking)).answer p = flat.answer p := by
  refine FlatMemory.answer_congr hpos hp.fits fun a ha => ?_
  refine FlatMemory.after_apply_of_ne hpos (List.forall_mem_append.mpr ⟨fun f hf => ?_, fun q hq => ?_⟩) flat
  · have hb := (h.absent f (List.mem_append_left _ hf)).1
    exact ⟨hb.inBlock, by rw [ha, hb.block_eq]; exact (hn f hf).symm⟩
  · obtain ⟨hb, f, hf, haddr⟩ := h.overtaking q hq
    exact ⟨hb, by rw [ha, ← haddr]; exact (hn f hf).symm⟩

end CacheSim.Session
