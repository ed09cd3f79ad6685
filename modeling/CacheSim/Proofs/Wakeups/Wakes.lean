import CacheSim.Proofs.Traffic.Peers
import CacheSim.Proofs.Wakeups.Calls
import CacheSim.Random.Seeded

/-!
# No wake-up is lost and none is spurious

A cache between any requestors and any memory, after any calls in any order
that do not fault.  A requestor that waits for a signal waits for the cache or
for itself, since every call keeps the ports vigilant (`Cache.Moves.vigilant`,
`PeerCall.run_vigilant`), and the call that takes away what it waits for gives
the signal.  `run_wakes` puts this together with when requests are refused and
what the record of the port says.
-/

namespace CacheSim

variable {ρ μ : Type} [ResponseReceiver ρ]

/-- All ports of a cache are vigilant. -/
def Cache.Vigilant (c : Cache (Watched ρ) μ) : Prop :=
  ∀ (id : Nat) (port : CpuSidePort (Watched ρ)), c.cpuPorts[id]? = some port → port.Vigilant c.blocked

theorem Cache.Moves.vigilant {c d : Cache (Watched ρ) μ} (h : c.Moves d) (hv : c.Vigilant) : d.Vigilant := by
  intro id port' hport'
  have hid := h id
  rw [hport'] at hid
  cases hc : c.cpuPorts[id]? with
  | none =>
    rw [hc] at hid
    cases hid
  | some port =>
    rw [hc] at hid
    cases hid with
    | some hstep => exact hstep.vigilant (hv id port hc)

omit [ResponseReceiver ρ] in
/-- A new port was asked nothing. -/
theorem Cache.vigilant_build {name : String} {g : Geometry} {store : Store} {requestors : List ρ} {memory : μ}
    {c : Cache (Watched ρ) μ} (h : (build name g store (requestors.map (⟨·, []⟩)) memory).result = .ok c) :
    c.Vigilant := by
  obtain ⟨-, rfl⟩ := build_eq_ok h
  intro id port hport
  rw [getElem?_connect, List.getElem?_map] at hport
  cases hr : requestors[id]? with
  | none => simp [hr] at hport
  | some r =>
    rw [hr] at hport
    obtain rfl := Option.some.inj hport
    exact ⟨⟨rfl, rfl, trivial⟩, fun h => by cases h⟩

namespace PeerCall

variable [RequestReceiver μ] {c d : Cache (Watched ρ) μ} {id : Nat} {port : CpuSidePort (Watched ρ)}

/-- Makes the calls of a list. -/
def run : List PeerCall → Cache (Watched ρ) μ → Sim (Cache (Watched ρ) μ)
  | [], c => pure c
  | call :: rest, c => do
    let c ← call.perform c
    run rest c

theorem run_vigilant {calls : List PeerCall} (h : (run calls c).result = .ok d) (hv : c.Vigilant) : d.Vigilant := by
  induction calls generalizing c with
  | nil =>
    obtain rfl := Except.ok.inj h
    exact hv
  | cons call rest ih =>
    simp only [run, Sim.result_bind] at h
    obtain ⟨b, hb, h⟩ := Sim.bind_eq_ok.mp h
    exact ih h ((perform_moves hb).vigilant hv)

open PortEvent

/-- A signal that was owed still waits for the answer that the port holds or for
the cache, or it was given, and once only. -/
def WaitsOrSignalled (busy : Prop) (port port' : CpuSidePort (Watched ρ)) : Prop :=
  port'.needsRetry ∧ (port'.parked.isSome ∨ busy) ∧ signals port'.peer.log = signals port.peer.log ∨
    ¬port'.needsRetry ∧ signals port'.peer.log = signals port.peer.log + 1

/-- A requestor that offers requests on a port is refused when it should be, and
is signalled when it should be. -/
structure Wakes (c : Cache (Watched ρ) μ) (id : Nat) (port : CpuSidePort (Watched ρ)) : Prop where
  /-- A signal that is owed waits for the answer that the port holds, or for the cache. -/
  awaited : port.needsRetry → port.parked.isSome ∨ c.blocked
  /-- A refused request is handed back, and leaves nothing but the mark of the refusal. -/
  refuses : c.Refuses port → ∀ queue p,
    (c.offer queue id p).result = .ok (.refused p, c.setCpuPort id { port with needsRetry := true }, queue)
  /-- All other requests are accepted, unless they fault. -/
  accepts : ¬c.Refuses port → ∀ queue p handshake d queue',
    (c.offer queue id p).result = .ok (handshake, d, queue') → handshake = .accepted
  /-- A call that takes away the last thing that a signal waits for gives the signal. -/
  next : port.needsRetry → ∀ call d, (perform c call).result = .ok d →
    ∃ port', d.cpuPorts[id]? = some port' ∧ WaitsOrSignalled d.blocked port port'
  /-- A signal is owed if a request was refused since the last signal. -/
  needsRetry : port.needsRetry = owes port.peer.log
  /-- An answer is held if the last one was handed back. -/
  parked : port.parked.isSome = holds port.peer.log
  /-- Every signal was owed, and was given while no answer was held. -/
  orderly : Orderly port.peer.log
  /-- Every group of refusals has one signal, but for the last one as long as its signal is owed. -/
  groups : groups port.peer.log = signals port.peer.log + port.needsRetry.toNat

/-- What a call does to a port that owes a signal. -/
theorem next_of_needsRetry {call : PeerCall} (hv : c.Vigilant) (hport : c.cpuPorts[id]? = some port)
    (hn : port.needsRetry) (h : (call.perform c).result = .ok d) :
    ∃ port', d.cpuPorts[id]? = some port' ∧ WaitsOrSignalled d.blocked port port' := by
  have hmoves := perform_moves h
  have hid := hmoves id
  rw [hport] at hid
  cases hd : d.cpuPorts[id]? with
  | none =>
    rw [hd] at hid
    cases hid
  | some port' =>
    rw [hd] at hid
    cases hid with
    | some hstep =>
      have hbefore := (hv id port hport).matched
      have hafter := hmoves.vigilant hv id port' hd
      refine ⟨port', rfl, ?_⟩
      -- the group of refusals is the same one, so what changes is whether its signal was given
      have hgroups := hstep.groups_eq hn hbefore
      rw [hbefore.orderly.groups_eq, hafter.matched.orderly.groups_eq, ← hbefore.needsRetry,
        ← hafter.matched.needsRetry, hn] at hgroups
      cases hn' : port'.needsRetry with
      | true =>
        rw [hn'] at hgroups
        exact .inl ⟨hn', hafter.awaited hn', Nat.add_right_cancel hgroups⟩
      | false =>
        rw [hn'] at hgroups
        exact .inr ⟨by simp [hn'], hgroups⟩

/-- After any calls in any order that do not fault, on any number of ports, no
signal is lost and none is given without need. -/
theorem run_wakes {name : String} {g : Geometry} {store : Store} {requestors : List ρ} {memory : μ}
    {calls : List PeerCall}
    (hrun : (Cache.build name g store (requestors.map (⟨·, []⟩)) memory >>= run calls).result = .ok c)
    (hport : c.cpuPorts[id]? = some port) : Wakes c id port := by
  obtain ⟨b, hb, hrun⟩ := Sim.bind_eq_ok.mp ((Sim.result_bind ..).symm.trans hrun)
  have hvs := run_vigilant hrun (Cache.vigilant_build hb)
  have hv := hvs id port hport
  exact {
    awaited := hv.awaited
    refuses := fun h => Cache.offer_of_refuses hport h
    accepts := fun h _ _ _ _ _ ho => (Cache.offer_of_not_refuses hport h ho).choose_spec.1
    next := fun hn _ _ h => next_of_needsRetry hvs hport hn h
    needsRetry := hv.matched.needsRetry
    parked := hv.matched.parked
    orderly := hv.matched.orderly
    groups := by rw [hv.matched.orderly.groups_eq, hv.matched.needsRetry] }

/-- The theorem at two ports: the answer on the first one is handed back, a
request is refused on the second one while the cache is busy and on the first
one while it holds the answer, and each is signalled once. -/
theorem run_wakes_of_refusals :
    ∃ c : Cache (Watched FreeRequestor) FreeMemory,
      (Cache.build "cache" ⟨.fullyAssociative, 4, 2, 2, 1, .lru⟩ ⟨.full ⟨2, 4, .lru, [], 0⟩, .seeded 0⟩
        ([⟨fun n => n != 0, 0, []⟩, ⟨fun _ => true, 0, []⟩].map (⟨·, []⟩)) ⟨fun _ => true, 0, fun _ => 0, []⟩ >>=
        run [.offer ⟨⟨1⟩, 0, []⟩ 0 (.read 0 4 0), .fire 1 ⟨.read 0 4 0⟩, .offer ⟨⟨1⟩, 1, []⟩ 1 (.read 4 4 1),
          .fill 2 { Packet.read 0 4 0 with command := .readResp, payload := some [0, 0, 0, 0] },
          .offer ⟨⟨1⟩, 2, []⟩ 0 (.read 4 4 2), .retryResponse 0]).result = .ok c ∧
      c.cpuPorts.map (·.peer.log) = [[.signalled, .taken, .refused, .returned], [.signalled, .refused]] ∧
      ∀ id port, c.cpuPorts[id]? = some port → Wakes c id port := by
  refine (Sim.exists_eq_ok (by rfl)).imp fun c h => ⟨h, ?_, fun _ _ hport => run_wakes h hport⟩
  have hlogs := congrArg (fun r => r.toOption.map fun c => c.cpuPorts.map (·.peer.log)) h
  exact Option.some.inj (hlogs.symm.trans rfl)

end PeerCall

end CacheSim
