import CacheSim.Proofs.Cache.Lane
import CacheSim.Proofs.Store.Basic

/-!
# What the memory was asked

A memory with a record of the requests that it accepted, and the lane in front
of it.  Whenever packets move, the memory takes some from the front of those
that wait (`Lane.Took`): when one is put on the lane (`Sound.push_took`), and
when the waiting ones are offered again (`Sound.retried_took`).  So what was
asked of the memory, received or waiting, only grows at the end (`Took.asked`),
and a fetch stays outstanding until it is answered (`Took.fetches`).  A fetch is
the last to wait, so the memory has performed all others once it takes it
(`Sound.took_settled`).
-/

namespace CacheSim

/-- A memory with a record of the requests that it accepted. -/
structure Recorded (μ : Type) where
  memory : μ
  /-- The accepted requests, the first one in front. -/
  received : List Packet := []
  /-- Those of them whose answers it owes. -/
  unanswered : List Packet := []

namespace Recorded

variable {μ : Type}

/-- The record after a request was offered to the memory. -/
def offered (m : Recorded μ) (p : Packet) (reply : Handshake × μ) : Handshake × Recorded μ :=
  match reply with
  | (.accepted, memory) => (.accepted, {
      memory
      received := m.received ++ [p]
      unanswered := m.unanswered ++ [p].filter (·.command.needsResponse) })
  | (.refused p, memory) => (.refused p, { m with memory })

instance [LawfulMemory μ] : LawfulMemory (Recorded μ) where
  receive m p := do
    let reply ← RequestReceiver.receive m.memory p
    return m.offered p reply
  functional m p := do
    let (answer, memory) ← RequestReceiver.functional m.memory p
    return (answer, { m with memory })
  ranges m := RequestReceiver.ranges m.memory
  handle m p := m.offered p (LawfulMemory.handle m.memory p)
  Serves m p := LawfulMemory.Serves m.memory p
  contents m := LawfulMemory.contents m.memory
  owed m := LawfulMemory.owed m.memory
  result_receive h := by simp [LawfulMemory.result_receive h]
  handle_cases {m p} h := by
    rcases hr : LawfulMemory.handle m.memory p with ⟨hs, memory⟩
    have hc := LawfulMemory.handle_cases h
    rw [hr] at hc
    rcases hc with ⟨rfl, hc⟩ | ⟨rfl, hc⟩
    · exact .inl ⟨rfl, hc⟩
    · exact .inr ⟨rfl, hc⟩
  serves_handle {m p q} h hq := by
    have hs := LawfulMemory.serves_handle h hq
    rcases hr : LawfulMemory.handle m.memory p with ⟨_ | _, memory⟩ <;> rw [hr] at hs <;> exact hs

end Recorded

namespace Lane

variable {μ : Type} {l k : Lane (Recorded μ)}

/-- The requests that the memory accepted. -/
def received (l : Lane (Recorded μ)) : List Packet :=
  l.port.peer.received

/-- The accepted requests whose answers are owed. -/
def unanswered (l : Lane (Recorded μ)) : List Packet :=
  l.port.peer.unanswered

variable [LawfulMemory μ]

/-- All that was asked of the memory: what it received, and what waits for it. -/
def asked (l : Lane (Recorded μ)) : List Packet :=
  l.received ++ l.held

/-- The fetches that were asked for and not answered. -/
def fetches (l : Lane (Recorded μ)) : List Packet :=
  l.unanswered ++ l.held.filter (·.command.needsResponse)

/-- The packets `pushed` joined those that wait, and the memory accepted the
first ones, `taken`. -/
structure Took (l k : Lane (Recorded μ)) (pushed taken : List Packet) : Prop where
  held : l.held ++ pushed = taken ++ k.held
  received : k.received = l.received ++ taken
  unanswered : k.unanswered = l.unanswered ++ taken.filter (·.command.needsResponse)
  contents : k.contents = l.contents.after taken
  owed : k.owed = l.owed ++ l.contents.answers taken

variable {pushed taken : List Packet}

theorem Took.refl (l : Lane (Recorded μ)) : l.Took l [] [] := by
  constructor <;> simp

theorem Took.trans {j : Lane (Recorded μ)} {pushed' taken' : List Packet} (h : l.Took k pushed taken)
    (h' : k.Took j pushed' taken') : l.Took j (pushed ++ pushed') (taken ++ taken') where
  held := by rw [← List.append_assoc, h.held, List.append_assoc, h'.held, List.append_assoc]
  received := by rw [h'.received, h.received, List.append_assoc]
  unanswered := by rw [h'.unanswered, h.unanswered, List.filter_append, List.append_assoc]
  contents := by rw [h'.contents, h.contents, FlatMemory.after_append]
  owed := by rw [h'.owed, h.owed, h.contents, FlatMemory.answers_append, List.append_assoc]

/-- What is asked of the memory is never taken back, and keeps its order. -/
theorem Took.asked (h : l.Took k pushed taken) : k.asked = l.asked ++ pushed := by
  rw [Lane.asked, Lane.asked, h.received, List.append_assoc, ← h.held, List.append_assoc]

theorem Took.fetches (h : l.Took k pushed taken) :
    k.fetches = l.fetches ++ pushed.filter (·.command.needsResponse) := by
  rw [Lane.fetches, Lane.fetches, h.unanswered, List.append_assoc, ← List.filter_append, ← h.held,
    List.filter_append, List.append_assoc]

/-! ## Packets move -/

variable {D : Nat → Prop} {size : Nat} {p : Packet}

/-- A packet that is offered to the memory while nothing waits. -/
theorem forwarded_took {port : MemSidePort (Recorded μ)} (hp : port.parked = none)
    (hs : LawfulMemory.Serves port.peer p) :
    ∃ taken, (Lane.mk port none).Took ⟨port.forwarded p, none⟩ [p] taken := by
  rcases hr : LawfulMemory.handle port.peer.memory p with ⟨handshake, memory⟩
  have hc := LawfulMemory.handle_cases (m := port.peer.memory) hs
  have hreply : LawfulMemory.handle port.peer p = port.peer.offered p (handshake, memory) :=
    congrArg (port.peer.offered p) hr
  rw [hr] at hc
  rcases hc with ⟨rfl, hcont, howed⟩ | ⟨rfl, hcont, howed⟩
  · refine ⟨[p], ?_⟩
    simp only [MemSidePort.forwarded, hreply, Recorded.offered]
    exact ⟨by simp [Lane.held, hp], rfl, rfl, hcont, howed⟩
  · refine ⟨[], ?_⟩
    simp only [MemSidePort.forwarded, hreply, Recorded.offered]
    exact ⟨by simp [Lane.held, hp], by simp [Lane.received], by simp [Lane.unanswered], hcont,
      howed.trans (by simp [Lane.owed, LawfulMemory.owed])⟩

/-- A packet that is put on the lane joins those that wait. -/
theorem Sound.push_took (h : l.Sound D size) (hd : l.deferred = none) (hb : p.IsBlock size) (hD : D p.addr) :
    ∃ taken, l.Took (l.push p) [p] taken := by
  cases hp : l.port.parked with
  | none =>
    obtain ⟨taken, ht⟩ := forwarded_took hp (h.serves p hb hD)
    have hl : l = ⟨l.port, none⟩ := by rw [← hd]
    rw [push_of_free hp, hd]
    exact ⟨taken, hl ▸ ht⟩
  | some w =>
    have hpush : l.push p = { l with deferred := some p } := by simp only [push, hp]
    rw [hpush]
    exact ⟨[], by simp [Lane.held, hp, hd], (List.append_nil _).symm, (List.append_nil _).symm, rfl,
      (List.append_nil _).symm⟩

/-- A victim that is written back joins a lane on which nothing waits. -/
theorem Sound.writebacks_took (h : l.Sound D size) (hd : l.deferred = none) {victim : Option Line}
    (hb : ∀ w ∈ Store.writebacks victim, w.IsBlock size) (hD : ∀ w ∈ Store.writebacks victim, D w.addr) :
    ∃ taken, l.Took (l.pushAll (Store.writebacks victim)) (Store.writebacks victim) taken := by
  cases victim with
  | none => exact ⟨[], .refl l⟩
  | some v =>
    exact h.push_took hd (hb _ (List.mem_singleton_self _)) (hD _ (List.mem_singleton_self _))

/-- When the waiting packets are offered again, none joins them. -/
theorem Sound.retried_took (h : l.Sound D size) (hp : l.port.parked = some p) :
    ∃ taken, l.Took l.retried [] taken := by
  have hserves : ∀ q ∈ l.held, LawfulMemory.Serves l.port.peer q := fun q hq =>
    have hb := h.blocks q hq
    h.serves q hb.1 hb.2
  have hserve := hserves p (by simp [Lane.held, hp])
  have hfree : l.port.freed.parked = none := rfl
  obtain ⟨taken, ht⟩ := forwarded_took hfree hserve
  have hheld : [p] = taken ++ (Lane.mk (l.port.freed.forwarded p) none).held := ht.held
  cases hd : l.deferred with
  | none =>
    rw [retried_of_alone hp hd]
    exact ⟨taken, by simpa [Lane.held, hp, hd] using hheld, ht.received, ht.unanswered, ht.contents, ht.owed⟩
  | some f =>
    cases hpark : (l.port.freed.forwarded p).parked with
    | none =>
      have hf := MemSidePort.serves_forwarded (m := l.port.freed) hserve
        (hserves f (by simp [Lane.held, hd]))
      obtain ⟨taken', ht'⟩ := forwarded_took hpark hf
      have hall := ht.trans ht'
      rw [retried_of_accepted hp hd hpark]
      exact ⟨_, by simpa [Lane.held, hp, hd, MemSidePort.freed] using hall.held, hall.received, hall.unanswered,
        hall.contents, hall.owed⟩
    | some w =>
      obtain ⟨rfl, rfl⟩ : w = p ∧ taken = [] := by
        simpa [Lane.held, hpark, List.cons_eq_append_iff, and_comm] using hheld
      rw [retried_of_refused hp hd hpark]
      exact ⟨[], by simp [Lane.held, hp, hd, hpark], ht.received, ht.unanswered, ht.contents, ht.owed⟩

/-! ## The packets that are not answered -/

/-- The packets that wait and are not answered. -/
def waiting (l : Lane (Recorded μ)) : List Packet :=
  l.held.filter (!·.command.needsResponse)

/-- The memory after the waiting packets that are not answered. -/
def settled (l : Lane (Recorded μ)) : FlatMemory :=
  l.contents.after l.waiting

omit [LawfulMemory μ] in
theorem mem_waiting_iff {q : Packet} : q ∈ l.waiting ↔ q ∈ l.held ∧ q.command.needsResponse = false := by
  simp [waiting]

/-- While no fetch is outstanding, all that waits is not answered. -/
theorem settled_of_quiet (h : l.fetches = []) : l.unanswered = [] ∧ l.settled = l.backing := by
  obtain ⟨hn, hheld⟩ := List.append_eq_nil_iff.mp h
  have hno := List.filter_eq_nil_iff.mp hheld
  refine ⟨hn, ?_⟩
  rw [settled, waiting, List.filter_eq_self.mpr fun q hq => by simpa using hno q hq]
  rfl

/-- A fetch that waits is behind the packets that are not answered. -/
theorem Sound.held_eq (h : l.Sound D size) :
    l.held = l.waiting ++ l.held.filter (·.command.needsResponse) ∧
      l.waiting = l.port.parked.toList.filter (!·.command.needsResponse) := by
  cases hd : l.deferred with
  | none => cases hp : l.port.parked with
    | none => simp [waiting, held, hp, hd]
    | some w => cases hw : w.command.needsResponse <;> simp [waiting, held, hp, hd, hw]
  | some f =>
    obtain ⟨hf, w, hp, hw⟩ := h.behind f hd
    simp [waiting, held, hp, hd, hf, hw]

/-- Of the packets that the memory takes, the fetches find it settled. -/
theorem Sound.took_settled (h : l.Sound D size) (took : l.Took k pushed taken)
    (hpushed : ∀ q ∈ pushed, q.command.needsResponse) :
    ∃ fetches, (∀ f ∈ fetches, f ∈ taken) ∧ k.unanswered = l.unanswered ++ fetches ∧
      k.owed = l.owed ++ l.settled.answers fetches ∧ k.settled = l.settled.after fetches := by
  have hno : ∀ q ∈ l.waiting, q.command.needsResponse = false := fun q hq => (mem_waiting_iff.mp hq).2
  have hneeds : ∀ q ∈ l.held.filter (·.command.needsResponse) ++ pushed, q.command.needsResponse :=
    List.forall_mem_append.mpr ⟨fun q hq => (List.mem_filter.mp hq).2, hpushed⟩
  have hheld := took.held
  rw [h.held_eq.1, List.append_assoc] at hheld
  -- what is taken reaches into the fetches, or ends before them
  obtain ⟨fetches, rfl, hrest⟩ | ⟨rest, hwaiting, hrest⟩ := List.append_eq_append_iff.mp hheld
  · have hf : ∀ f ∈ fetches, f.command.needsResponse := fun f hf => hneeds f (hrest ▸ List.mem_append_left _ hf)
    have hk : k.waiting = [] := List.filter_eq_nil_iff.mpr fun q hq => by
      simp [hneeds q (hrest ▸ List.mem_append_right _ hq)]
    refine ⟨fetches, fun f hf => List.mem_append_right _ hf, ?_, ?_, ?_⟩
    · rw [took.unanswered, List.filter_append, List.filter_eq_nil_iff.mpr fun q hq => by simp [hno q hq],
        List.nil_append, List.filter_eq_self.mpr hf]
    · rw [took.owed, FlatMemory.answers_append, FlatMemory.answers_eq_nil_iff.mpr hno, List.nil_append]
      rfl
    · rw [settled, hk, FlatMemory.after_nil, took.contents, FlatMemory.after_append]
      rfl
  · have ht : ∀ q ∈ taken, q.command.needsResponse = false := fun q hq =>
      hno q (hwaiting ▸ List.mem_append_left _ hq)
    have hk : k.waiting = rest := by
      rw [waiting, hrest, List.filter_append,
        List.filter_eq_self.mpr fun q hq => by simp [hno q (hwaiting ▸ List.mem_append_right _ hq)],
        List.filter_eq_nil_iff.mpr fun q hq => by simp [hneeds q hq], List.append_nil]
    refine ⟨[], by simp, ?_, ?_, ?_⟩
    · rw [took.unanswered, List.filter_eq_nil_iff.mpr fun q hq => by simp [ht q hq]]
    · rw [took.owed, FlatMemory.answers_eq_nil_iff.mpr ht]
      rfl
    · rw [settled, hk, took.contents, ← FlatMemory.after_append, ← hwaiting]
      rfl

end Lane

end CacheSim
