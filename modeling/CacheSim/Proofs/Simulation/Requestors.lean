import CacheSim.Proofs.Requestor.Scripted
import CacheSim.Proofs.Simulation.Plan

/-!
# The requestors of a system

`Plan.Attached` says that every requestor is linked to its script and to its port
(`ScriptedRequestor.Linked`), for the accesses that the cache answered and the
one that it has in service.  It is kept when the requestors ask for responses
(`Attached.asked`), when the access in service is answered, which signals to all
ports (`Attached.answered`), and when one requestor does something
(`Attached.set`).
-/

namespace CacheSim.Plan

open ScriptedRequestor (Linked Offers)

/-- The replies to the accesses of a requestor. -/
def given (u : Plan) (done : List Acceptance) (id : Nat) : List (Acceptance × Bytes) :=
  (u.start.replay done).filter (·.1.id == id)

/-- Every requestor is linked to its port, and a port owes a signal only while an
access is in service. -/
structure Attached (u : Plan) (now : Tick) (rs : List ScriptedRequestor)
    (ports : List (CpuSidePort Mailbox)) (done : List Acceptance) (current : Option Acceptance) : Prop where
  length : rs.length = ports.length
  count : rs.length = u.ports
  linked : ∀ i r port, rs[i]? = some r → ports[i]? = some port →
    r.id = i ∧ r.clock = u.clock ∧ r.now ≤ now ∧
      Linked (u.script i) (u.given done i) (current.filter (·.id == i)) r port
  waits : ∀ port ∈ ports, port.needsRetry → current ≠ none
  known : ∀ a ∈ done ++ current.toList, a.id < u.ports

variable {u : Plan} {now : Tick} {rs : List ScriptedRequestor} {ports : List (CpuSidePort Mailbox)}
  {done : List Acceptance} {current : Option Acceptance} {a : Acceptance} {i : Nat}
  {r : ScriptedRequestor} {port : CpuSidePort Mailbox}

theorem Attached.mono (h : u.Attached now rs ports done current) {later : Nat} (hle : now ≤ later) :
    u.Attached later rs ports done current where
  length := h.length
  count := h.count
  linked i r port hr hp :=
    have ⟨hid, hclock, hnow, hl⟩ := h.linked i r port hr hp
    ⟨hid, hclock, Nat.le_trans hnow hle, hl⟩
  waits := h.waits
  known := h.known

/-- The port of a requestor. -/
theorem Attached.exists_port (h : u.Attached now rs ports done current) (hr : rs[i]? = some r) :
    ∃ port, ports[i]? = some port := by
  have hlt := (List.getElem?_eq_some_iff.mp hr).1
  exact ⟨_, List.getElem?_eq_getElem (h.length ▸ hlt)⟩

/-- The requestor at a port. -/
theorem Attached.exists_requestor (h : u.Attached now rs ports done current) (hp : ports[i]? = some port) :
    ∃ r, rs[i]? = some r := by
  have hlt := (List.getElem?_eq_some_iff.mp hp).1
  exact ⟨_, List.getElem?_eq_getElem (h.length ▸ hlt)⟩

theorem Attached.asks (h : u.Attached now rs ports done current) : ∀ port ∈ ports, port.Asks := by
  intro port hmem
  obtain ⟨i, hp⟩ := List.mem_iff_getElem?.mp hmem
  obtain ⟨r, hr⟩ := h.exists_requestor hp
  exact (h.linked i r port hr hp).2.2.2.asks

/-- A requestor has the number of its port. -/
theorem Attached.id_eq (h : u.Attached now rs ports done current) (hr : rs[i]? = some r) : r.id = i := by
  obtain ⟨port, hp⟩ := h.exists_port hr
  exact (h.linked i r port hr hp).1

/-- The requestors are numbered by their ports. -/
theorem Attached.ids (h : u.Attached now rs ports done current) :
    rs.map (·.id) = List.range' 0 ports.length := by
  refine List.ext_getElem (by simp [h.length]) fun i hi _ => ?_
  have hi' : i < rs.length := by simpa using hi
  simpa using h.id_eq (List.getElem?_eq_getElem hi')

/-- All requestors ask for the responses that they refused. -/
theorem Attached.asked (h : u.Attached now rs ports done current) :
    u.Attached now rs (ports.map CpuSidePort.asked) done current where
  length := by simpa using h.length
  count := h.count
  linked i r port' hr hp := by
    rw [List.getElem?_map, Option.map_eq_some_iff] at hp
    obtain ⟨port, hp, rfl⟩ := hp
    have ⟨hid, hclock, hnow, hl⟩ := h.linked i r port hr hp
    exact ⟨hid, hclock, hnow, hl.asked⟩
  waits port' hmem hneeds := by
    obtain ⟨port, hp, rfl⟩ := List.mem_map.mp hmem
    exact h.waits port hp (CpuSidePort.needsRetry_of_asked hneeds)
  known := h.known

/-! ## Answers -/

theorem isResponse_answer (u : Plan) (done : List Acceptance) (a : Acceptance) :
    (u.answer done a).command.isResponse :=
  FlatMemory.isResponse_answer_toPacket _ a.access a.id

theorem context_answer (u : Plan) (done : List Acceptance) (a : Acceptance) :
    (u.answer done a).request.context = a.id :=
  Access.context_toPacket a.access a.id

theorem payload_answer (u : Plan) (done : List Acceptance) (a : Acceptance) :
    (u.answer done a).payload = some ((u.start.updates (done.map (·.access))).outcome a.access) :=
  FlatMemory.payload_answer_toPacket _ a.access a.id

/-- A reply is that to an answered access. -/
theorem mem_of_mem_given {g : Acceptance × Bytes} (h : g ∈ u.given done i) : g.1 ∈ done := by
  have hmem : g.1 ∈ (u.start.replay done).map (·.1) :=
    List.mem_map.mpr ⟨g, (List.mem_filter.mp h).1, rfl⟩
  rwa [FlatMemory.map_fst_replay] at hmem

/-- An answered access gives its requestor one reply more, and the others none. -/
theorem given_concat (u : Plan) (done : List Acceptance) (a : Acceptance) (i : Nat) :
    u.given (done ++ [a]) i = u.given done i ++
      if a.id = i then [(a, (u.start.updates (done.map (·.access))).outcome a.access)] else [] := by
  rw [given, FlatMemory.replay_concat, List.filter_append, given]
  by_cases hi : a.id = i <;> simp [hi]

/-- The access in service is answered on its port, and all ports give the signals
that they owe. -/
theorem Attached.answered (h : u.Attached now rs ports done (some a)) :
    u.Attached now rs (Cache.answeredPorts ports a.id (u.answer done a)) (done ++ [a]) none := by
  have hport : ∀ i r port, rs[i]? = some r → ports[i]? = some port →
      Linked (u.script i) (u.given (done ++ [a]) i) none r
        (if a.id = i then port.delivered (u.answer done a) else port) := by
    intro i r port hr hp
    obtain ⟨hid, -, -, hl⟩ := h.linked i r port hr hp
    rw [given_concat]
    by_cases hi : a.id = i
    · rw [if_pos hi, if_pos hi]
      rw [Option.filter_some_pos (by simpa using hi)] at hl
      exact hl.delivered (u.isResponse_answer done a)
        ((u.context_answer done a).trans (hi.trans hid.symm)) (u.payload_answer done a)
    · rw [if_neg hi, if_neg hi, List.append_nil]
      rwa [Option.filter_some_neg (by simpa using hi)] at hl
  refine ⟨by simpa [Cache.answeredPorts] using h.length, h.count, fun i r port' hr hp => ?_,
    fun port' hmem hneeds => ?_, by simpa using h.known⟩
  · rw [Cache.getElem?_answeredPorts, Option.map_eq_some_iff] at hp
    obtain ⟨port, hp, rfl⟩ := hp
    obtain ⟨hid, hclock, hnow, -⟩ := h.linked i r port hr hp
    exact ⟨hid, hclock, hnow, (hport i r port hr hp).notified⟩
  · obtain ⟨i, hp⟩ := List.mem_iff_getElem?.mp hmem
    rw [Cache.getElem?_answeredPorts, Option.map_eq_some_iff] at hp
    obtain ⟨port, hp, rfl⟩ := hp
    obtain ⟨r, hr⟩ := h.exists_requestor hp
    simp [(hport i r port hr hp).needsRetry_notified] at hneeds

theorem burdens_answeredPorts_le (ports : List (CpuSidePort Mailbox)) (id : Nat) (p : Packet) :
    CpuSidePort.burdens (Cache.answeredPorts ports id p) ≤ CpuSidePort.burdens ports := by
  refine CpuSidePort.sum_map_le (by simp [Cache.answeredPorts]) fun i new port hnew hport => ?_
  rw [Cache.getElem?_answeredPorts, hport] at hnew
  obtain rfl := Option.some.inj hnew
  rw [CpuSidePort.burden_notified]
  split
  · exact port.burden_delivered_le p
  · exact Nat.le_refl _

/-! ## One requestor after another -/

/-- One requestor and its port change, with what the cache has in service for them. -/
theorem Attached.set (h : u.Attached now rs ports done current) (hi : i < rs.length)
    {current' : Option Acceptance} {r : ScriptedRequestor} {port : CpuSidePort Mailbox}
    (hid : r.id = i) (hclock : r.clock = u.clock) (hnow : r.now ≤ now)
    (hl : Linked (u.script i) (u.given done i) (current'.filter (·.id == i)) r port)
    (hown : ∀ j, j ≠ i → current'.filter (·.id == j) = current.filter (·.id == j))
    (hneeds : port.needsRetry → current' ≠ none) (hsome : current ≠ none → current' ≠ none)
    (hknown : ∀ a ∈ current', a.id < u.ports) :
    u.Attached now (rs.set i r) (ports.set i port) done current' := by
  have hi' : i < ports.length := h.length ▸ hi
  refine ⟨by simpa using h.length, by simpa using h.count, fun j r' port' hr' hp' => ?_,
    fun port' hmem hneeds' => ?_, fun a ha => ?_⟩
  · by_cases hj : i = j
    · subst hj
      rw [List.getElem?_set_self hi] at hr'
      rw [List.getElem?_set_self hi'] at hp'
      obtain rfl := Option.some.inj hr'
      obtain rfl := Option.some.inj hp'
      exact ⟨hid, hclock, hnow, hl⟩
    · rw [List.getElem?_set_ne hj] at hr' hp'
      rw [hown j (Ne.symm hj)]
      exact h.linked j r' port' hr' hp'
  · rcases List.mem_or_eq_of_mem_set hmem with hmem | rfl
    · exact hsome (h.waits port' hmem hneeds')
    · exact hneeds hneeds'
  · rcases List.mem_append.mp ha with ha | ha
    · exact h.known a (List.mem_append_left _ ha)
    · exact hknown a (by simpa using ha)

/-- The offer of a requestor is accepted, and its access is in service. -/
theorem Attached.accepted (h : u.Attached now rs ports done none) (hi : i < rs.length) (hid : r.id = i)
    (hclock : r.clock = u.clock) (hnow : r.now = now) {access : Access} {issued : Tick}
    (ho : Offers (u.script i) (u.given done i) r port access issued) :
    u.Attached now (rs.set i (r.concluded .accepted)) (ports.set i port) done (some ⟨now, i, access⟩) := by
  have hown : (some ⟨now, i, access⟩ : Option Acceptance).filter (·.id == i) = some ⟨r.now, r.id, access⟩ := by
    rw [Option.filter_some_pos (by simp), hnow, hid]
  refine h.set hi ((r.id_concluded _).trans hid) ((r.clock_concluded _).trans hclock)
    (Nat.le_of_eq ((r.now_concluded _).trans hnow)) ?_ ?_ (fun _ => by simp) (fun _ => by simp) fun a ha => ?_
  · rw [hown]
    exact ho.accepted.2
  · intro j hj
    rw [Option.filter_some_neg (by simpa using Ne.symm hj)]
    rfl
  · obtain rfl := Option.some.inj ha
    exact h.count ▸ hi

end CacheSim.Plan
