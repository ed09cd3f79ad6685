import CacheSim.Proofs.Port
import CacheSim.Requestor.Scripted

/-!
# The turns of a requestor

Two fields of a requestor say how far its current access is: the access that is
outstanding, and the request that was refused.  Between two calls they are those
of a `Turn` (`ScriptedRequestor.At`).  A request that is sent leaves its turn
(`At.sends`) and comes to the next one when it is answered (`Sending.concluded`);
the response completes the access (`At.receive`).  These are the steps of a turn
(`Turn.Step`).
-/

namespace CacheSim

/-- How far the current access of a requestor is. -/
inductive Turn where
  /-- There is none. -/
  | free
  /-- Its request was refused, and handed back as `packet`. -/
  | refused (access : Access) (issued : Tick) (packet : Packet)
  /-- Its request was accepted, and the response did not come yet. -/
  | accepted (access : Access) (issued accepted : Tick)
  deriving DecidableEq, Inhabited

namespace Turn

/-- The access that is outstanding. -/
@[simp] def outstanding : Turn → Option Outstanding
  | free => none
  | refused access issued _ => some { access, issued }
  | accepted access issued tick => some { access, issued, accepted := some tick }

/-- The request that was refused. -/
@[simp] def held : Turn → Option Packet
  | free | accepted .. => none
  | refused _ _ packet => some packet

/-- At this turn, the request of the access can be sent. -/
inductive Sends (now : Tick) : Turn → Access → Tick → Prop
  | first (access : Access) : Sends now free access now
  | again {access : Access} {issued : Tick} {packet : Packet} : Sends now (refused access issued packet) access issued

/-- The turn after a request was answered. -/
def next (now : Tick) (access : Access) (issued : Tick) : Handshake → Turn
  | .accepted => accepted access issued now
  | .refused packet => refused access issued packet

/-- A request is sent and answered, or a response completes the access. -/
inductive Step (now : Tick) : Turn → Turn → Prop
  | send {t : Turn} {access : Access} {issued : Tick} (h : t.Sends now access issued) (answer : Handshake) :
    Step now t (next now access issued answer)
  | complete {access : Access} {issued tick : Tick} : Step now (accepted access issued tick) free

end Turn

namespace ScriptedRequestor

/-- The fields are those of a turn. -/
structure At (r : ScriptedRequestor) (t : Turn) : Prop where
  outstanding : r.outstanding = t.outstanding
  refused : r.refused = t.held

/-- The request of an access is on its way. -/
structure Sending (r : ScriptedRequestor) (access : Access) (issued : Tick) : Prop where
  outstanding : r.outstanding = some { access, issued }
  refused : r.refused = none

/-- The requestor after the answer to its request. -/
def concluded (r : ScriptedRequestor) : Handshake → ScriptedRequestor
  | .accepted => { r with outstanding := r.outstanding.map fun o => { o with accepted := some r.now } }
  | .refused packet => { r with refused := some packet, refusals := r.refusals + 1 }

@[simp] theorem id_concluded (r : ScriptedRequestor) (answer : Handshake) : (r.concluded answer).id = r.id := by
  cases answer <;> rfl

@[simp] theorem now_concluded (r : ScriptedRequestor) (answer : Handshake) : (r.concluded answer).now = r.now := by
  cases answer <;> rfl

@[simp] theorem clock_concluded (r : ScriptedRequestor) (answer : Handshake) :
    (r.concluded answer).clock = r.clock := by
  cases answer <;> rfl

variable {r r' : ScriptedRequestor} {m m' : Mailbox} {offer : Offer} {t : Turn} {access : Access} {issued tick : Tick}
  {packet : Packet}

theorem At.isDone (h : r.At .free) (hr : r.remaining = []) : r.isDone := by
  simp [ScriptedRequestor.isDone, hr, h.outstanding, h.refused]

theorem at_of_isDone (h : r.isDone) : r.At .free ∧ r.remaining = [] := by
  obtain ⟨⟨hrest, hout⟩, hrefused⟩ : (r.remaining = [] ∧ r.outstanding = none) ∧ r.refused = none := by
    simpa [ScriptedRequestor.isDone] using h
  exact ⟨⟨hout, hrefused⟩, hrest⟩

/-! ## Requests -/

theorem At.next?_of_accepted (h : r.At (.accepted access issued tick)) (m : Mailbox) : r.next? m = none := by
  simp [next?, h.outstanding]

theorem At.next?_of_refused (h : r.At (.refused access issued packet)) (m : Mailbox) :
    r.next? m =
      if m.signalled then some (⟨packet⟩, { r with refused := none }, { m with signalled := false }) else none := by
  simp [next?, h.outstanding, h.refused]

theorem At.next?_of_done (h : r.At .free) (hr : r.remaining = []) (m : Mailbox) : r.next? m = none := by
  simp [next?, h.outstanding, h.refused, hr]

theorem At.next?_of_free {rest : List Access} (h : r.At .free) (hr : r.remaining = access :: rest) (m : Mailbox) :
    r.next? m = some (⟨access.toPacket r.id⟩,
      { r with remaining := rest, outstanding := some { access, issued := r.now } }, m) := by
  simp [next?, h.outstanding, h.refused, hr]

/-- A request that is sent is the one that was refused, for which a signal is used
up, or that of the next access. -/
theorem At.sends (h : r.At t) (hnext : r.next? m = some (offer, r', m')) :
    (∃ access issued, t = .refused access issued offer.packet ∧ m.signalled ∧ r' = { r with refused := none } ∧
        r'.Sending access issued ∧ m' = { m with signalled := false }) ∨
      ∃ access rest, t = .free ∧ r.remaining = access :: rest ∧ offer = ⟨access.toPacket r.id⟩ ∧
        r' = { r with remaining := rest, outstanding := some { access, issued := r.now } } ∧
        r'.Sending access r.now ∧ m' = m := by
  cases t with
  | accepted access issued tick =>
    rw [h.next?_of_accepted] at hnext
    cases hnext
  | refused access issued packet =>
    rw [h.next?_of_refused] at hnext
    split at hnext
    · cases hnext
      exact .inl ⟨access, issued, rfl, ‹_›, rfl, ⟨h.outstanding, rfl⟩, rfl⟩
    · cases hnext
  | free =>
    cases hr : r.remaining with
    | nil =>
      rw [h.next?_of_done hr] at hnext
      cases hnext
    | cons access rest =>
      rw [h.next?_of_free hr] at hnext
      cases hnext
      exact .inr ⟨access, rest, rfl, rfl, rfl, rfl, ⟨rfl, h.refused⟩, rfl⟩

/-- What is sent can be sent at the turn. -/
theorem At.exists_sends (h : r.At t) (hnext : r.next? m = some (offer, r', m')) :
    ∃ access issued, t.Sends r.now access issued ∧ r'.Sending access issued ∧ r'.now = r.now := by
  rcases h.sends hnext with ⟨access, issued, rfl, -, rfl, hs, -⟩ | ⟨access, rest, rfl, -, -, rfl, hs, -⟩
  · exact ⟨access, issued, .again, hs, rfl⟩
  · exact ⟨access, _, .first access, hs, rfl⟩

theorem result_conclude (r : ScriptedRequestor) (answer : Handshake) :
    (r.conclude answer).result = .ok (r.concluded answer) := by
  cases answer <;> simp [conclude, concluded]

theorem Sending.concluded (h : r.Sending access issued) (answer : Handshake) :
    (r.concluded answer).At (.next r.now access issued answer) := by
  cases answer with
  | accepted => exact ⟨by simp [ScriptedRequestor.concluded, h.outstanding, Turn.next], h.refused⟩
  | refused packet => exact ⟨h.outstanding, rfl⟩

/-! ## Responses -/

/-- A response completed the access that waited for it. -/
theorem receive_eq_ok {p : Packet} (h : (r.receive p).result = .ok r') :
    ∃ access issued accepted data, r.outstanding = some ⟨access, issued, some accepted⟩ ∧
      r' = { r with outstanding := none, log := ⟨access, issued, accepted, r.now, data⟩ :: r.log } := by
  simp only [receive, Sim.result_bind] at h
  obtain ⟨-, -, h⟩ := Sim.bind_eq_ok.mp h
  split at h
  · rename_i access issued accepted hout
    simp only [Sim.result_bind, Sim.result_debug, Sim.ok_bind] at h
    obtain ⟨-, -, h⟩ := Sim.bind_eq_ok.mp h
    obtain ⟨data, -, h⟩ := Sim.bind_eq_ok.mp h
    exact ⟨access, issued, accepted, data, hout, (Except.ok.inj h).symm⟩
  · cases h

/-- A response ends the turn of an accepted access. -/
theorem At.receive {p : Packet} (h : r.At t) (hr : (r.receive p).result = .ok r') :
    ∃ access issued tick data, t = .accepted access issued tick ∧ r'.At .free ∧
      r' = { r with outstanding := none, log := ⟨access, issued, tick, r.now, data⟩ :: r.log } := by
  obtain ⟨access, issued, tick, data, hout, rfl⟩ := receive_eq_ok hr
  have hrefused := h.refused
  rw [h.outstanding] at hout
  cases t with
  | free => cases hout
  | refused => cases hout
  | accepted =>
    cases hout
    exact ⟨access, issued, tick, data, rfl, ⟨rfl, hrefused⟩, rfl⟩

end ScriptedRequestor

end CacheSim
