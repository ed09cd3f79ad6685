import CacheSim.Proofs.Session.Supply
import CacheSim.Proofs.Store.Residents
import CacheSim.Random.Seeded

/-!
# Every request is answered once

What the ports were sent are the answers to the requests that were accepted on
them, in order, and the answer to the one in service is still to come.  All of
it is counted: an access is a hit or a miss, a miss is a sample once its block
came, and every block that came is resident or was written back (`Balanced`).

Answers are compared without their bytes (`Packet.header`): the packet that is
answered keeps its request, its address, its size and its label, and only its
command turns into that of the answer.
-/

namespace CacheSim

namespace Packet

/-- All of a packet but its bytes. -/
def header (p : Packet) : Packet :=
  { p with payload := none }

/-- All of the answer to a packet but its bytes. -/
def answerHeader (p : Packet) : Packet :=
  { p with command := p.command.response?.getD p.command, payload := none }

@[simp] theorem header_answer (m : FlatMemory) (p : Packet) : (m.answer p).header = p.answerHeader := rfl

/-- The answer to the fetch of a block, or what is made of it, answers the request. -/
theorem header_completion {p a : Packet} {size : Nat} (h : a.header = (p.fetch size).answerHeader)
    (m : FlatMemory) : (p.completion size m a).header = p.answerHeader := by
  unfold completion kept
  unfold fetch at h
  split
  · rename_i hk
    split at hk
    · rwa [if_pos ‹_›] at h
    · cases hk
  · rename_i q hk
    split at hk
    · cases hk
    · rw [header_answer, ← Option.some.inj hk]

end Packet

theorem FlatMemory.map_header_answers (m : FlatMemory) (ps : List Packet) :
    (m.answers ps).map Packet.header =
      (ps.filter (·.command.needsResponse)).map Packet.answerHeader := by
  induction ps generalizing m with
  | nil => rfl
  | cons p ps ih =>
    cases h : p.command.needsResponse with
    | true =>
      rw [answers_cons_of_needsResponse m ps h, List.filter_cons, if_pos h, List.map_cons, List.map_cons, ih]
      rfl
    | false =>
      rw [answers_cons_of_not_needsResponse m ps h, List.filter_cons, if_neg (by simp [h]), ih]

/-- What the memory owes are the answers to what it did not answer. -/
theorem Lane.Took.owed_headers {l k : Lane (Recorded FreeMemory)} {pushed taken : List Packet}
    (took : l.Took k pushed taken) (h : l.owed.map Packet.header = l.unanswered.map Packet.answerHeader) :
    k.owed.map Packet.header = k.unanswered.map Packet.answerHeader := by
  rw [took.owed, took.unanswered, List.map_append, List.map_append, h, FlatMemory.map_header_answers]

/-- A request in service waits for its access or for its block. -/
theorem Service.length_port? (s : Service) :
    s.port?.toList.length = (if s.phase = .waitMem then 1 else 0) + (if s.phase = .waitAccess then 1 else 0) := by
  cases s <;> rfl

namespace Session

open Cache

variable {v v' : View} {a : Action}

/-- The packets of a port. -/
def on (id : Nat) (ps : List (Nat × Packet)) : List Packet :=
  (ps.filter (·.1 = id)).map (·.2)

theorem on_append (id : Nat) (ps qs : List (Nat × Packet)) : on id (ps ++ qs) = on id ps ++ on id qs := by
  rw [on, List.filter_append, List.map_append]
  rfl

theorem on_concat (id j : Nat) (p : Packet) (ps : List (Nat × Packet)) :
    on id (ps ++ [(j, p)]) = on id ps ++ if j = id then [p] else [] := by
  rw [on_append]
  by_cases h : j = id <;> simp [on, h]

namespace View

/-- How many requests in service wait for a block. -/
def fetching (v : View) : Nat :=
  if v.service.phase = .waitMem then 1 else 0

/-- The writebacks that were sent to the memory, whether it has them or not. -/
def writebacks (v : View) : List Packet :=
  v.lane.asked.filter (·.command = .writebackDirty)

end View

/-- The answers that were sent, and the counts of what was done. -/
structure Balanced (v : View) : Prop where
  owed : v.lane.owed.map Packet.header = v.lane.unanswered.map Packet.answerHeader
  sent : ∀ id, (v.sent id).map Packet.header = (on id v.completed).map Packet.answerHeader
  accesses : v.stats.hits + v.stats.misses = v.completed.length + v.fetching
  samples : v.stats.missLatency.samples + v.fetching = v.stats.misses
  blocks : v.writebacks.length + v.store.size = v.stats.missLatency.samples

/-- A request that is answered is one more answer on its port. -/
theorem Balanced.sent_answered (h : Balanced v) {id : Nat} {p r : Packet} (hr : r.header = p.answerHeader)
    (j : Nat) : ((v.sent j ++ if id = j then [r] else []).map Packet.header) =
      (on j (v.completed ++ [(id, p)])).map Packet.answerHeader := by
  rw [List.map_append, h.sent, on_concat, List.map_append]
  split
  · rw [List.map_singleton, List.map_singleton, hr]
  · rfl

theorem filter_writebackDirty (victim : Option Line) :
    (Store.writebacks victim).filter (·.command = .writebackDirty) = Store.writebacks victim :=
  List.filter_eq_self.mpr fun _ hw => decide_eq_true (command_of_mem_writebacks hw)

theorem Balanced.step (h : Balanced v) (hv : v.Sane) (hsupply : Supplied v) (hs : Step a v v') :
    Balanced v' := by
  have haccesses := h.accesses
  have hsamples := h.samples
  have hblocks := h.blocks
  simp only [View.fetching, View.writebacks] at haccesses hsamples hblocks
  cases hs with
  | moved took =>
    refine ⟨took.owed_headers h.owed, h.sent, h.accesses, h.samples, ?_⟩
    simp only [View.writebacks, took.asked, List.append_nil]
    exact hblocks
  | accepted service =>
    rw [service] at haccesses hsamples
    exact ⟨h.owed, h.sent, haccesses, hsamples, h.blocks⟩
  | functional access effect noted =>
    cases effect with
    | resident hacc =>
      exact ⟨h.owed, h.sent, h.accesses, h.samples, (Store.size_access hacc).symm ▸ h.blocks⟩
    | absent => exact ⟨h.owed, h.sent, h.accesses, h.samples, h.blocks⟩
  | hit service current access coming hit =>
    rw [service] at haccesses hsamples
    refine ⟨h.owed, h.sent_answered (Packet.header_answer ..), ?_, hsamples, ?_⟩
    · simp [View.fetching, View.answered, Service.phase] at haccesses ⊢
      omega
    · show _ + (Store.touch _ _).size = _
      rw [Store.size_touch, Store.size_access hit]
      exact hblocks
  | @missed _ id p since lane taken service current access coming absent took =>
    rw [service] at haccesses hsamples
    have hcommand : (p.fetch v.size).command ≠ .writebackDirty := fun hc => by
      have hneeds := access.needsResponse_fetch
      rw [hc] at hneeds
      cases hneeds
    refine ⟨took.owed_headers h.owed, h.sent, ?_, ?_, ?_⟩
    · simp [View.fetching, Service.phase] at haccesses ⊢
      omega
    · simp [View.fetching, Service.phase] at hsamples ⊢
      exact hsamples
    · simp only [View.writebacks, took.asked, List.filter_append, List.filter_singleton,
        decide_eq_false hcommand]
      simpa using hblocks
  | @filled _ id p since other due a data victim t store stats lane taken service current access absent held owed
      answer payload length insert complete took image hits misses samples =>
    rw [service] at haccesses hsamples
    have hdue : due.header = (p.fetch v.size).answerHeader := by
      have howed := h.owed
      rw [owed, hsupply.unanswered_eq service current held] at howed
      exact List.singleton_inj.mp howed
    have ha : a.header = (p.fetch v.size).answerHeader := by
      rw [← hdue, answer]
      rfl
    have hsize : store.size + victim.toList.length = v.store.size + 1 := by
      rw [← hv.valid.size_insert absent (hv.lineSize ▸ p.dvd_block _) insert, Store.size_complete complete]
    refine ⟨took.owed_headers ?_, h.sent_answered (Packet.header_completion ha _), ?_, ?_, ?_⟩
    · rw [Lane.owed_gave, Lane.unanswered_gave, owed, hsupply.unanswered_eq service current held]
      rfl
    · simp [View.fetching, View.answered, Service.phase, hits, misses] at haccesses ⊢
      omega
    · simp [View.fetching, View.answered, Service.phase, misses, samples] at hsamples ⊢
      exact hsamples
    · show (lane.asked.filter _).length + store.size = stats.missLatency.samples
      rw [took.asked, Lane.asked_gave, List.filter_append, List.length_append, filter_writebackDirty, samples]
      simp only [Store.writebacks, List.length_map]
      omega

theorem balanced_of_fresh {g : Geometry} {gen : Generator} {contents : FlatMemory} (hv : v.Sane)
    (h : v.Fresh g gen contents) : Balanced v := by
  have hphase : v.fetching = 0 := by simp [View.fetching, h.service, Service.phase]
  have hsize := hv.valid.size_of_empty (Store.valid_ofGeometry? h.store).2.2.1
  refine ⟨?_, fun id => ?_, ?_, ?_, ?_⟩
  · rw [h.owed, h.unanswered]
    rfl
  · rw [h.sent, h.completed]
    rfl
  · rw [hphase, h.stats, h.completed]
    rfl
  · rw [hphase, h.stats]
    rfl
  · rw [View.writebacks, Lane.asked, h.received, h.held, hsize, h.stats]
    rfl

/-! ## The accounts of a session -/

variable {s : Session}

/-- The request in service, where the cache has it: in the event that is
scheduled, kept until its block comes, or sent on as the fetch itself. -/
def inService (s : Session) : Option Packet :=
  match s.cache.phase with
  | .idle => none
  | .waitAccess => s.queue.pending.head?.map (·.2.packet)
  | .waitMem => s.cache.original.or s.outstanding.head?

/-- The request in service, if it came from a port. -/
def servedOn (s : Session) (id : Nat) : List Packet :=
  if s.cache.waitingPort = some id then s.inService.toList else []

/-- Every request is answered once, and everything is counted. -/
structure Accounted (s : Session) : Prop where
  /-- What a port was sent, and the request in service if it is that of the
  port, are the accepted requests of the port. -/
  answers : ∀ id, (s.cache.sentOn id).map Packet.header ++ (s.servedOn id).map Packet.answerHeader =
    (on id s.accepted).map Packet.answerHeader
  accesses : s.cache.stats.hits + s.cache.stats.misses + (if s.cache.phase = .waitAccess then 1 else 0) =
    s.accepted.length
  samples : s.cache.stats.missLatency.samples + (if s.cache.phase = .waitMem then 1 else 0) =
    s.cache.stats.misses
  /-- A block that came is resident or was written back. -/
  blocks : (s.asked.filter (·.command = .writebackDirty)).length + s.cache.store.size =
    s.cache.stats.missLatency.samples

/-- The cache has the request in service. -/
theorem Steady.current_eq (h : s.Steady) (hs : Supplied s.view) :
    s.cache.waitingPort = s.current.map (·.1) ∧ s.inService = s.current.map (·.2) := by
  have hout := h.outstanding_eq hs
  have hagrees := (Consistent.sane h).agrees
  have hcons : s.cache.Consistent (fun _ => True) s.queue s.current := h
  unfold inService
  generalize hcurrent : s.current = current at hcons
  cases hcons.stage with
  | idle hservice => simp [hagrees.waitingPort_eq hservice, hagrees.phase_eq hservice]
  | access hservice _ hq => simp [hagrees.waitingPort_eq hservice, hagrees.phase_eq hservice, hq]
  | @fetch id p since hservice =>
    rw [hout, View.awaited_of_fetch hservice hcurrent, hagrees.waitingPort_eq hservice, hagrees.phase_eq hservice,
      hagrees.original_eq hservice]
    refine ⟨rfl, ?_⟩
    simp only [Service.phase, Service.kept?, List.head?_cons, Option.map_some]
    cases hk : p.kept s.cache.lineSize with
    | some q => rw [Packet.kept_eq_some hk, Option.some_or]
    | none =>
      rw [Option.none_or]
      exact congrArg some (Packet.fetch_of_kept_none hk)

theorem Steady.servedOn_eq (h : s.Steady) (hs : Supplied s.view) (id : Nat) :
    s.servedOn id = on id s.current.toList := by
  obtain ⟨hport, hpacket⟩ := h.current_eq hs
  rw [servedOn, hport, hpacket]
  cases s.current with
  | none => simp [on]
  | some c => by_cases hc : c.1 = id <;> simp [on, hc]

theorem Steady.accounted (h : s.Steady) (hs : Supplied s.view) (hb : Balanced s.view) : s.Accounted := by
  refine ⟨fun id => ?_, ?_, ?_, hb.blocks⟩
  · rw [h.servedOn_eq hs, accepted_eq, on_append, List.map_append]
    exact congrArg (· ++ _) (hb.sent id)
  · have haccesses : s.cache.stats.hits + s.cache.stats.misses = s.completed.length + s.view.fetching := hb.accesses
    have hbusy := s.cache.service.length_port?
    have hport := ((Consistent.sane h).agrees.waitingPort_eq rfl).symm.trans (h.current_eq hs).1
    rw [hport, Option.toList_map, List.length_map, show s.cache.service.phase = s.cache.phase from h.phase_view] at hbusy
    rw [haccesses, accepted_eq, List.length_append, hbusy, ← Nat.add_assoc, View.fetching, h.phase_view]
  · have hsamples := hb.samples
    rwa [View.fetching, h.phase_view] at hsamples

variable {period : Nat} {g : Geometry} {gen : Generator} {requestors : List (Nat → Bool)}
  {memory : Nat → Bool} {contents : FlatMemory} {actions : List Action}

/-- After any calls of conforming peers, in any order, every accepted request
was answered once, on its port and in order, but for the one in service, and
the statistics account for all of them. -/
theorem run_accounted (hpos : 0 < g.lineSize)
    (hrun : (start period g gen requestors memory contents >>= run actions).result = .ok s) : s.Accounted := by
  obtain ⟨hsteady, hs, hb⟩ := run_start (I := fun v => Supplied v ∧ Balanced v) hpos
    (fun hv hf => ⟨supplied_of_fresh hf, balanced_of_fresh hv hf⟩)
    (fun _ _ _ _ hv hstep h => ⟨h.1.step hstep, h.2.step hv h.1 hstep⟩) hrun
  exact hsteady.accounted hs hb

/-- The theorem at two misses, the answer to the first of which is refused once
and waits on its port while the other port is served, and a hit. -/
theorem run_accounted_of_refusals :
    ∃ s, (start 1 ⟨.setAssociative, 4, 2, 2, 1, .random⟩ (.seeded 0) [fun n => n != 0, fun _ => true] (fun _ => true)
        (fun _ => 0) >>= run [.offer 0 (.write 1 [7] 0), .fire, .answer 0, .offer 1 (.read 4 4 1), .fire, .answer 0,
          .retryResponse 0, .offer 0 (.read 0 2 2), .fire]).result = .ok s ∧ s.Accounted :=
  (Sim.exists_eq_ok (by rfl)).imp fun _ h => ⟨h, run_accounted (by decide) h⟩

end Session

end CacheSim
