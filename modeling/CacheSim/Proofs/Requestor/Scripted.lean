import CacheSim.Proofs.Memory.Replay
import CacheSim.Proofs.Requestor.Mailbox
import CacheSim.Proofs.Requestor.Turn

/-!
# A requestor that plays a script at its port

`Linked` ties a requestor to its script, to the accesses that the cache answered
for it, and to the port that its mailbox is behind.  Everything that happens at
the port keeps it: the requestor asks for a response (`Linked.asked`), gets an
answer (`Linked.delivered`) or a signal (`Linked.notified`), and reads its mail
(`Linked.cycle`).  What it does next is an offer (`Linked.next?_cases`), which is
accepted or refused (`Offers.accepted`, `Offers.refused`).  Of a call at any other
time, `cycle_eq_ok` and `next?_eq_some` say what it has done.
-/

namespace CacheSim

namespace ScriptedRequestor

/-- The accesses of the script: those completed, the current one and those to come. -/
def accesses (r : ScriptedRequestor) : List Access :=
  r.completions.map (·.access) ++ r.outstanding.toList.map (·.access) ++ r.remaining

/-- What a completed access gave. -/
def reply (r : ScriptedRequestor) (c : Completion) : Acceptance × Bytes :=
  (⟨c.accepted, r.id, c.access⟩, c.data)

/-- The completed accesses and what they gave, in order. -/
def replies (r : ScriptedRequestor) : List (Acceptance × Bytes) :=
  r.completions.map r.reply

/-- The outstanding access, if its request was accepted. -/
def acceptance? (r : ScriptedRequestor) : Option Acceptance :=
  r.outstanding.bind fun o => o.accepted.map fun tick => ⟨tick, r.id, o.access⟩

/-- The accesses whose requests were accepted, in order. -/
def acceptances (r : ScriptedRequestor) : List Acceptance :=
  r.replies.map (·.1) ++ r.acceptance?.toList

/-- Where the current access of a requestor is: the one that the cache has in
service, if any, and the one whose response was not read yet. -/
inductive Exchange (r : ScriptedRequestor) (port : CpuSidePort Mailbox) :
    Option Acceptance → List (Acceptance × Bytes) → Prop
  | free (turn : r.At .free) (sent : port.sent = []) (retry : port.needsRetry = false)
    (signalled : port.peer.signalled = false) : Exchange r port none []
  | refused {access : Access} {issued : Tick} (turn : r.At (.refused access issued (access.toPacket r.id)))
    (issued_le : issued ≤ r.now) (sent : port.sent = []) (signal : port.peer.signalled = !port.needsRetry) :
    Exchange r port none []
  | served {access : Access} {issued accepted : Tick} (turn : r.At (.accepted access issued accepted))
    (issued_le : issued ≤ accepted) (sent : port.sent = []) (retry : port.needsRetry = false)
    (signalled : port.peer.signalled = false) : Exchange r port (some ⟨accepted, r.id, access⟩) []
  | answered {access : Access} {issued accepted : Tick} {p : Packet} {data : Bytes}
    (turn : r.At (.accepted access issued accepted)) (issued_le : issued ≤ accepted)
    (sent : port.sent = [p]) (isResponse : p.command.isResponse) (context : p.request.context = r.id)
    (payload : p.payload = some data) (retry : port.needsRetry = false)
    (signalled : port.peer.signalled = false) : Exchange r port none [(⟨accepted, r.id, access⟩, data)]

/-- The requestor plays its script, was given the replies `given` so far, and has
`own` in service. -/
structure Linked (script : List Access) (given : List (Acceptance × Bytes)) (own : Option Acceptance)
    (r : ScriptedRequestor) (port : CpuSidePort Mailbox) : Prop where
  accesses : r.accesses = script
  asks : port.Asks
  timely : ∀ c ∈ r.log, c.issued ≤ c.accepted ∧ c.accepted < c.responded
  exchange : ∃ unread, Exchange r port own unread ∧ r.replies ++ unread = given

variable {script : List Access} {given unread : List (Acceptance × Bytes)} {own : Option Acceptance}
  {r : ScriptedRequestor} {port : CpuSidePort Mailbox} {p : Packet}

/-! ## What happens at the port -/

theorem parked_of_sent (h : port.sent = []) : port.parked = none := by
  simpa using (List.append_eq_nil_iff.mp h).2

/-- An exchange sees of a port what was sent and the signals. -/
theorem Exchange.of_port (h : Exchange r port own unread) {port' : CpuSidePort Mailbox}
    (hsent : port'.sent = port.sent) (hretry : port'.needsRetry = port.needsRetry)
    (hsignal : port'.peer.signalled = port.peer.signalled) : Exchange r port' own unread := by
  cases h with
  | free ht hs hr hg => exact .free ht (hsent.trans hs) (hretry.trans hr) (hsignal.trans hg)
  | refused ht hi hs hg => exact .refused ht hi (hsent.trans hs) (by rw [hsignal, hretry, hg])
  | served ht hi hs hr hg => exact .served ht hi (hsent.trans hs) (hretry.trans hr) (hsignal.trans hg)
  | answered ht hi hs hp hc hd hr hg =>
    exact .answered ht hi (hsent.trans hs) hp hc hd (hretry.trans hr) (hsignal.trans hg)

/-- Only a response that was not read is held, and then no signal is owed. -/
theorem Exchange.retry_of_parked (h : Exchange r port own unread) (hp : port.parked ≠ none) :
    port.needsRetry = false := by
  cases h with
  | free _ _ hr => exact hr
  | refused _ _ hs => exact absurd (parked_of_sent hs) hp
  | served _ _ _ hr => exact hr
  | answered _ _ _ _ _ _ hr => exact hr

/-- The requestor asks for a response that it refused. -/
theorem Linked.asked (h : Linked script given own r port) : Linked script given own r port.asked := by
  obtain ⟨unread, hx, hgiven⟩ := h.exchange
  cases hp : port.parked with
  | none => rwa [CpuSidePort.asked_of_free hp]
  | some p =>
    have hretry := hx.retry_of_parked (by simp [hp])
    have hquiet : port.asked =
        ({ port with parked := none, peer := { port.peer with answerRefused := false } }.delivered p) := by
      rw [h.asks.asked_of_parked hp, CpuSidePort.retried]
      exact CpuSidePort.notified_of_quiet (by simpa using hretry)
    refine ⟨h.accesses, h.asks.asked, h.timely, unread, ?_, hgiven⟩
    refine hx.of_port h.asks.sent_asked ?_ ?_ <;> rw [hquiet]
    · exact CpuSidePort.needsRetry_delivered _ p
    · exact CpuSidePort.signalled_delivered _ p

/-- The port gives the signal that it owes. -/
theorem Linked.notified (h : Linked script given own r port) : Linked script given own r port.notified := by
  obtain ⟨unread, hx, hgiven⟩ := h.exchange
  refine ⟨h.accesses, h.asks.notified, h.timely, unread, ?_, hgiven⟩
  cases hr : port.needsRetry with
  | false => rwa [CpuSidePort.notified_of_quiet hr]
  | true =>
    cases hx with
    | refused ht hi hs hg =>
      rw [CpuSidePort.notified_of_needsRetry hr (parked_of_sent hs)]
      exact .refused ht hi hs rfl
    | _ => simp_all

/-- After a signal, none is owed any more. -/
theorem Linked.needsRetry_notified (h : Linked script given own r port) : port.notified.needsRetry = false := by
  obtain ⟨unread, hx, -⟩ := h.exchange
  cases hr : port.needsRetry with
  | false => rwa [CpuSidePort.notified_of_quiet hr]
  | true =>
    have hfree : port.parked = none := Classical.byContradiction fun hp => by
      simp [hx.retry_of_parked hp] at hr
    rw [CpuSidePort.notified_of_needsRetry hr hfree]

/-- The cache answers the access that it has in service. -/
theorem Linked.delivered {a : Acceptance} {data : Bytes} (h : Linked script given (some a) r port)
    (hp : p.command.isResponse) (hc : p.request.context = r.id) (hd : p.payload = some data) :
    Linked script (given ++ [(a, data)]) none r (port.delivered p) := by
  obtain ⟨unread, hx, hgiven⟩ := h.exchange
  cases hx with
  | @served access issued accepted ht hi hs hr hg =>
    have hfree := parked_of_sent hs
    have hasks : port.peer.answerRefused = false := by rw [h.asks, hfree]; rfl
    have hsent : (port.delivered p).sent = [p] := by rw [CpuSidePort.sent_delivered hfree, hs]; rfl
    refine ⟨h.accesses, .delivered hasks hfree p, h.timely, [(⟨accepted, r.id, access⟩, data)], ?_, ?_⟩
    · exact .answered ht hi hsent hp hc hd (by simpa using hr) (by simpa using hg)
    · rw [← hgiven, List.append_nil]

/-- Without mail, only the time of the requestor changes. -/
theorem Linked.cycle_of_empty (h : Linked script given own r port) {now cycle : Nat}
    (hclock : r.clock.ticksOf cycle = .ok now) (hnow : r.now ≤ now) (hmail : port.peer.inbox.items = []) :
    (r.cycle cycle port.peer).result = .ok ({ r with now }, port.peer.empty.2) ∧
      Linked script given own { r with now } { port with peer := port.peer.empty.2 } := by
  obtain ⟨unread, hx, hgiven⟩ := h.exchange
  have hempty : port.peer.empty.2 = port.peer := by
    obtain ⟨name, id, needsRetry, parked, peer⟩ := port
    obtain ⟨owner, inbox, refuse, refused, answerRefused, signalled, retries, rangeChanges⟩ := peer
    obtain ⟨items, limit⟩ := inbox
    obtain rfl : items = [] := hmail
    rfl
  have hnone : port.peer.empty.1 = [] := hmail
  rw [hempty]
  refine ⟨?_, h.accesses, h.asks, h.timely, unread, ?_, hgiven⟩
  · simp [ScriptedRequestor.cycle, hclock, hnone, hempty]
  · cases hx with
    | free ht hs hr hg => exact .free ⟨ht.outstanding, ht.refused⟩ hs hr hg
    | refused ht hi hs hg => exact .refused ⟨ht.outstanding, ht.refused⟩ (Nat.le_trans hi hnow) hs hg
    | served ht hi hs hr hg => exact .served ⟨ht.outstanding, ht.refused⟩ hi hs hr hg
    | answered ht hi hs hp hc hd hr hg => exact .answered ⟨ht.outstanding, ht.refused⟩ hi hs hp hc hd hr hg

/-- Mail is the response to the current access, which completes it. -/
theorem Linked.cycle_of_mail (h : Linked script given own r port) {now cycle : Nat}
    (hclock : r.clock.ticksOf cycle = .ok now) (hpast : ∀ g ∈ given, g.1.tick < now)
    (hmail : port.peer.inbox.items ≠ []) :
    ∃ c, (r.cycle cycle port.peer).result =
        .ok ({ r with now, outstanding := none, log := c :: r.log }, port.peer.empty.2) ∧
      Linked script given own { r with now, outstanding := none, log := c :: r.log }
        { port with peer := port.peer.empty.2 } := by
  obtain ⟨unread, hx, hgiven⟩ := h.exchange
  have hasks : CpuSidePort.Asks { port with peer := port.peer.empty.2 } := h.asks
  cases hx with
  | free _ hs => exact absurd (List.append_eq_nil_iff.mp hs).1 hmail
  | refused _ _ hs => exact absurd (List.append_eq_nil_iff.mp hs).1 hmail
  | served _ _ hs => exact absurd (List.append_eq_nil_iff.mp hs).1 hmail
  | @answered access issued accepted p data ht hi hs hp hc hd hr hg =>
    have hsplit : port.peer.inbox.items = [p] ∧ port.parked = none := by
      have hs' : port.peer.inbox.items ++ port.parked.toList = [p] := hs
      rcases List.append_eq_singleton_iff.mp hs' with ⟨hnil, -⟩ | ⟨hone, hnone⟩
      · exact absurd hnil hmail
      · exact ⟨hone, by simpa using hnone⟩
    obtain ⟨hone, hfree⟩ := hsplit
    have hbox : port.peer.empty.1 = [p] := hone
    have hlt : accepted < now := hpast (⟨accepted, r.id, access⟩, data) (by simp [← hgiven])
    refine ⟨⟨access, issued, accepted, now, data⟩, ?_, ?_, hasks, ?_, [], .free ⟨rfl, ht.refused⟩ ?_ hr hg, ?_⟩
    · simp [ScriptedRequestor.cycle, hclock, hbox, ScriptedRequestor.receive, hp, ht.outstanding, hc, Packet.data?, hd]
    · rw [← h.accesses]
      simp [ScriptedRequestor.accesses, completions, ht.outstanding]
    · rintro c hc
      rcases List.mem_cons.mp hc with rfl | hc
      · exact ⟨hi, hlt⟩
      · exact h.timely c hc
    · show _ ++ port.parked.toList = _
      rw [hfree]
      rfl
    · rw [← hgiven]
      simp [replies, completions, reply]

/-- The requestor reads its mail, which leaves a response that its port holds. -/
theorem Linked.cycle (h : Linked script given own r port) {now cycle : Nat}
    (hclock : r.clock.ticksOf cycle = .ok now) (hnow : r.now ≤ now) (hpast : ∀ g ∈ given, g.1.tick < now) :
    ∃ r', (r.cycle cycle port.peer).result = .ok (r', port.peer.empty.2) ∧
      Linked script given own r' { port with peer := port.peer.empty.2 } ∧
      r'.id = r.id ∧ r'.clock = r.clock ∧ r'.now = now := by
  by_cases hmail : port.peer.inbox.items = []
  · obtain ⟨hcycle, hl⟩ := h.cycle_of_empty hclock hnow hmail
    exact ⟨_, hcycle, hl, rfl, rfl, rfl⟩
  · obtain ⟨c, hcycle, hl⟩ := h.cycle_of_mail hclock hpast hmail
    exact ⟨_, hcycle, hl, rfl, rfl, rfl⟩

/-! ## What a requestor can tell -/

/-- The fields of the requestor are those of a turn. -/
theorem Linked.exists_at (h : Linked script given own r port) : ∃ turn, r.At turn := by
  obtain ⟨unread, hx, -⟩ := h.exchange
  cases hx with
  | free ht => exact ⟨_, ht⟩
  | refused ht => exact ⟨_, ht⟩
  | served ht => exact ⟨_, ht⟩
  | answered ht => exact ⟨_, ht⟩

theorem Linked.replies_prefix (h : Linked script given own r port) : r.replies <+: given := by
  obtain ⟨unread, -, rfl⟩ := h.exchange
  exact List.prefix_append _ _

/-- The accepted accesses are those that the cache answered and the one that it
has in service. -/
theorem Linked.acceptances_eq (h : Linked script given own r port) :
    r.acceptances = given.map (·.1) ++ own.toList := by
  obtain ⟨unread, hx, rfl⟩ := h.exchange
  unfold acceptances acceptance?
  cases hx with
  | free ht => simp [ht.outstanding]
  | refused ht => simp [ht.outstanding]
  | served ht => simp [ht.outstanding]
  | answered ht => simp [ht.outstanding]

theorem map_access_replies (r : ScriptedRequestor) :
    (r.replies.map (·.1)).map (·.access) = r.completions.map (·.access) := by
  rw [replies, List.map_map, List.map_map]
  rfl

/-- Accesses are accepted in the order of the script. -/
theorem acceptances_prefix (r : ScriptedRequestor) : r.acceptances.map (·.access) <+: r.accesses := by
  rw [acceptances, List.map_append, map_access_replies, accesses, List.append_assoc,
    List.prefix_append_right_inj]
  cases ho : r.outstanding with
  | none => simp [acceptance?, ho]
  | some o => cases ha : o.accepted <;> simp [acceptance?, ho, ha]

/-- A requestor that is done has completed its script. -/
theorem completions_of_isDone (h : r.isDone) : r.completions.map (·.access) = r.accesses := by
  obtain ⟨ht, hr⟩ := at_of_isDone h
  simp [accesses, ht.outstanding, hr]

/-! ## Offers -/

/-- A requestor makes an offer at its port: all its accesses before were completed,
and the port can take the request. -/
structure Offers (script : List Access) (given : List (Acceptance × Bytes)) (r : ScriptedRequestor)
    (port : CpuSidePort Mailbox) (access : Access) (issued : Tick) : Prop where
  sending : r.Sending access issued
  accesses : r.accesses = script
  issued_le : issued ≤ r.now
  timely : ∀ c ∈ r.log, c.issued ≤ c.accepted ∧ c.accepted < c.responded
  replies : r.replies = given
  asks : port.Asks
  sent : port.sent = []
  retry : port.needsRetry = false
  signalled : port.peer.signalled = false

/-- A requestor without an offer is done, waits for a signal or for a response. -/
theorem Linked.next?_cases (h : Linked script given own r port) :
    (r.next? port.peer = none ∧
      (own ≠ none ∨ port.needsRetry ∨ r.isDone ∨ port.sent ≠ [])) ∨
    ∃ access issued r' m, r.next? port.peer = some (⟨access.toPacket r.id⟩, r', m) ∧ own = none ∧ r'.id = r.id ∧
      r'.clock = r.clock ∧ r'.now = r.now ∧ m.refuse = port.peer.refuse ∧
      Offers script given r' { port with peer := m } access issued := by
  obtain ⟨unread, hx, hgiven⟩ := h.exchange
  cases hx with
  | served ht => exact .inl ⟨ht.next?_of_accepted _, .inl (by simp)⟩
  | answered ht _ hs => exact .inl ⟨ht.next?_of_accepted _, .inr (.inr (.inr (by simp [hs])))⟩
  | @refused access issued ht hi hs hg =>
    cases hr : port.needsRetry with
    | true => exact .inl ⟨by simp [ht.next?_of_refused, hg, hr], .inr (.inl rfl)⟩
    | false =>
      have hreplies : r.replies = given := by simpa using hgiven
      refine .inr ⟨access, issued, { r with refused := none }, { port.peer with signalled := false }, ?_, rfl, rfl,
        rfl, rfl, rfl, ⟨⟨ht.outstanding, rfl⟩, h.accesses, hi, h.timely, hreplies, h.asks, hs, rfl, rfl⟩⟩
      simp [ht.next?_of_refused, hg, hr]
  | free ht hs hr hg =>
    cases hrem : r.remaining with
    | nil => exact .inl ⟨ht.next?_of_done hrem _, .inr (.inr (.inl (ht.isDone hrem)))⟩
    | cons access rest =>
      have hreplies : r.replies = given := by simpa using hgiven
      refine .inr ⟨access, r.now, _, _, ht.next?_of_free hrem _, rfl, rfl, rfl, rfl, rfl,
        ⟨⟨rfl, ht.refused⟩, ?_, Nat.le_refl _, h.timely, hreplies, h.asks, hs, hr, hg⟩⟩
      rw [← h.accesses]
      simp [ScriptedRequestor.accesses, completions, ht.outstanding, hrem]

variable {access : Access} {issued : Tick}

/-- The offer is accepted: its access is in service. -/
theorem Offers.accepted (h : Offers script given r port access issued) :
    (r.conclude .accepted).result = .ok (r.concluded .accepted) ∧
      Linked script given (some ⟨r.now, r.id, access⟩) (r.concluded .accepted) port := by
  have hreplies : (r.concluded .accepted).replies = given := h.replies
  refine ⟨r.result_conclude _, ?_, h.asks, h.timely, [],
    .served (h.sending.concluded .accepted) h.issued_le h.sent h.retry h.signalled, ?_⟩
  · rw [← h.accesses]
    simp [ScriptedRequestor.accesses, completions, concluded, h.sending.outstanding]
  · rw [hreplies, List.append_nil]

/-- The offer is refused, and the port owes a signal. -/
theorem Offers.refused (h : Offers script given r port access issued) :
    (r.conclude (.refused (access.toPacket r.id))).result = .ok (r.concluded (.refused (access.toPacket r.id))) ∧
      Linked script given none (r.concluded (.refused (access.toPacket r.id))) { port with needsRetry := true } := by
  have hreplies : (r.concluded (.refused (access.toPacket r.id))).replies = given := h.replies
  refine ⟨r.result_conclude _, h.accesses, h.asks, h.timely, [],
    .refused (h.sending.concluded _) h.issued_le h.sent h.signalled, ?_⟩
  rw [hreplies, List.append_nil]

/-! ## What a call has done -/

variable {r' : ScriptedRequestor} {m m' : Mailbox} {cycle : Nat} {offer : Offer}

theorem foldlM_receive_eq_ok {ps : List Packet} (h : (ps.foldlM receive r).result = .ok r') :
    r'.id = r.id ∧ r'.refusals = r.refusals := by
  refine Sim.foldlM_keeps (I := fun x => x.id = r.id ∧ x.refusals = r.refusals) h ⟨rfl, rfl⟩ ?_
  intro x y p hreceive hx
  obtain ⟨access, issued, accepted, data, -, rfl⟩ := receive_eq_ok hreceive
  exact hx

/-- The requestor has taken its mail, one response after another. -/
theorem cycle_eq_ok (h : (r.cycle cycle m).result = .ok (r', m')) :
    m' = m.empty.2 ∧ ∃ now, r.clock.ticksOf cycle = .ok now ∧
      (m.inbox.items.foldlM receive { r with now }).result = .ok r' := by
  simp only [ScriptedRequestor.cycle, Sim.result_bind, Sim.result_liftM] at h
  obtain ⟨now, hnow, h⟩ := Sim.bind_eq_ok.mp h
  obtain ⟨r₁, hr, h⟩ := Sim.bind_eq_ok.mp h
  obtain ⟨rfl, rfl⟩ := Prod.mk.inj (Except.ok.inj h)
  exact ⟨rfl, now, hnow, hr⟩

/-- An offer uses up a signal, or begins the next access. -/
theorem next?_eq_some (h : r.next? m = some (offer, r', m')) :
    r' = { r with refused := none } ∧ m' = { m with signalled := false } ∨
      (∃ remaining outstanding, r' = { r with remaining, outstanding }) ∧ m' = m := by
  unfold next? at h
  split at h
  · cases h
  · split at h
    · split at h
      · cases h
        exact .inl ⟨rfl, rfl⟩
      · cases h
    · split at h
      · cases h
      · cases h
        exact .inr ⟨⟨_, _, rfl⟩, rfl⟩

/-- An offer counts no refusal, and leaves the counted signals and the mail alone. -/
theorem kept_of_next? (h : r.next? m = some (offer, r', m')) :
    r'.refusals = r.refusals ∧ m'.retries = m.retries ∧ m'.inbox = m.inbox := by
  rcases next?_eq_some h with ⟨rfl, rfl⟩ | ⟨⟨_, _, rfl⟩, rfl⟩
  · exact ⟨rfl, rfl, rfl⟩
  · exact ⟨rfl, rfl, rfl⟩

end ScriptedRequestor

end CacheSim
