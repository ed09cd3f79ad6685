import CacheSim.Proofs.Wakeups.Wakes

/-!
# The control fields follow the service

A cache assigns its control fields one by one, on the way of a request through
several calls.  Whoever its peers are, and whatever they ask of it in whatever
order, the fields belong together after every call that does not fault, and the
service that they stand for moves as `Service.Step` says (`PeerCall.perform_refines`):
a request is accepted and hits, or it misses and its block comes.
-/

namespace CacheSim

/-- A call that goes on with the request in service. -/
def PeerCall.serves : PeerCall → Bool
  | fire .. | fill .. => true
  | _ => false

/-- What a call does to the service of a cache. -/
inductive Service.Step : PeerCall → Service → Service → Prop
  /-- A request is accepted. -/
  | accept {queue : EventQueue AccessEvent} {id : Nat} {p : Packet} : Step (.offer queue id p) idle (access id)
  /-- The access is a hit, which is answered. -/
  | hit {now : Tick} {e : AccessEvent} {id : Nat} : Step (.fire now e) (access id) idle
  /-- The access is a miss, for which the request is kept if it is not the fetch itself. -/
  | miss {now : Tick} {e : AccessEvent} {id : Nat} {kept : Option Packet} (h : kept = none ∨ kept = some e.packet) :
    Step (.fire now e) (access id) (fetch id now kept)
  /-- The block comes, and the request is answered. -/
  | answer {now : Tick} {p : Packet} {id : Nat} {since : Tick} {kept : Option Packet} (h : since ≤ now) :
    Step (.fill now p) (fetch id since kept) idle
  /-- Another call, or a request is refused. -/
  | stay {call : PeerCall} (s : Service) (h : call.serves = false) : Step call s s

/-- What some calls do to it, one after another. -/
inductive Service.Steps : List PeerCall → Service → Service → Prop
  | nil (s : Service) : Steps [] s s
  | cons {call : PeerCall} {calls : List PeerCall} {s t u : Service} (first : Step call s t) (rest : Steps calls t u) :
    Steps (call :: calls) s u

/-! ## What a call does to the fields -/

namespace Cache

variable {ρ μ : Type} {c d : Cache ρ μ} {p : Packet} {now : Tick} {call : PeerCall}

/-- The fields are set for another service. -/
theorem refines_of_entering {k : Control} {s : Service} (h : d.toControl = k.entering s)
    (hstep : Service.Step call c.service s) : d.toControl.Agrees ∧ Service.Step call c.service d.service := by
  rw [h]
  exact ⟨k.agrees_entering s, (k.service_entering s).symm ▸ hstep⟩

/-- The fields stay as they are. -/
theorem refines_of_eq (ha : c.toControl.Agrees) (hd : d.toControl = c.toControl) (h : call.serves = false) :
    d.toControl.Agrees ∧ Service.Step call c.service d.service := by
  rw [hd]
  exact ⟨ha, .stay _ h⟩

variable [ResponseReceiver ρ]

/-- After an answer, the fields are those of an idle cache, if no request is kept. -/
theorem control_of_reply (h : (c.reply p).result = .ok d) (ho : c.original = none) :
    d.toControl = c.toControl.entering .idle := by
  obtain ⟨-, _, _, _, _, -, -, -, -, rfl⟩ := reply_eq_send h
  simp [Control.entering, ho]

variable [RequestReceiver μ]

theorem fire_refines {e : AccessEvent} (ha : c.toControl.Agrees) (h : (c.fire now e).result = .ok d) :
    d.toControl.Agrees ∧ Service.Step (.fire now e) c.service d.service := by
  obtain ⟨hphase, hcases⟩ := fire_eq_ok h
  obtain ⟨id, hs⟩ := ha.exists_access hphase
  have hnone : c.original = none := ha.original_eq hs
  rcases hcases with ⟨b, answer, hreply, -, hb, -⟩ | ⟨-, -, original, hkept, hd⟩
  · refine refines_of_entering (control_of_reply hreply ((congrArg Control.original hb).trans hnone)) ?_
    rw [hs]
    exact .hit
  · have hd' : d.toControl = c.toControl.entering (.fetch id now original) := by
      rw [hd, ha.eq_of_service hs]
      rfl
    refine refines_of_entering hd' ?_
    rw [hs]
    exact .miss (hkept.imp_left fun h => h.trans hnone)

theorem fill_refines (ha : c.toControl.Agrees) (h : (c.fill now p).result = .ok d) :
    d.toControl.Agrees ∧ Service.Step (.fill now p) c.service d.service := by
  obtain ⟨hphase, hle, missLatency, -, b, answer, hreply, -, hb, -⟩ := fill_eq_ok h
  obtain ⟨id, hs⟩ := ha.exists_fetch hphase
  refine refines_of_entering (control_of_reply hreply (congrArg Control.original hb)) ?_
  rw [hs]
  exact .answer hle

end Cache

namespace PeerCall

open Cache

variable {ρ μ : Type} [ResponseReceiver ρ] [RequestReceiver μ] {c d : Cache (Watched ρ) μ} {call : PeerCall}
  {calls : List PeerCall}

/-- After any call, the fields belong together, and the service has taken a step. -/
theorem perform_refines (ha : c.toControl.Agrees) (h : (call.perform c).result = .ok d) :
    d.toControl.Agrees ∧ Service.Step call c.service d.service := by
  cases call with
  | offer queue id p =>
    simp only [perform, Sim.result_bind] at h
    obtain ⟨⟨handshake, b, queue'⟩, ho, h⟩ := Sim.bind_eq_ok.mp h
    cases hport : c.cpuPorts[id]? with
    | none => simp [Cache.offer, cpuPort, hport] at ho
    | some port =>
      by_cases hr : c.Refuses port
      · rw [offer_of_refuses hport hr] at ho
        cases ho
        obtain rfl := Except.ok.inj h
        exact refines_of_eq ha rfl rfl
      · obtain ⟨tick, rfl, -, rfl, -⟩ := offer_of_not_refuses hport hr ho
        obtain rfl := Except.ok.inj h
        have hs := ha.service_eq_idle_iff.mpr (not_refuses_iff.mp hr).2
        rw [ha.serving_access hs id]
        refine refines_of_entering (s := .access id) rfl ?_
        rw [hs]
        exact .accept
  | fire now e => exact fire_refines ha h
  | fill now p => exact fill_refines ha h
  | retryResponse id =>
    obtain ⟨port, port', -, -, rfl⟩ := retryResponse_eq_ok h
    exact refines_of_eq ha rfl rfl
  | retryRequest => exact refines_of_eq ha (retryRequest_eq_ok h).2 rfl
  | functional id p =>
    simp only [perform, Sim.result_bind] at h
    obtain ⟨⟨answer, b⟩, hf, h⟩ := Sim.bind_eq_ok.mp h
    obtain rfl := Except.ok.inj h
    exact refines_of_eq ha (functional_eq_ok hf).2 rfl
  | rangesChanged =>
    obtain rfl := Except.ok.inj h
    exact refines_of_eq ha rfl rfl

theorem run_refines (ha : c.toControl.Agrees) (h : (run calls c).result = .ok d) :
    d.toControl.Agrees ∧ Service.Steps calls c.service d.service := by
  induction calls generalizing c with
  | nil =>
    obtain rfl := Except.ok.inj h
    exact ⟨ha, .nil _⟩
  | cons call rest ih =>
    simp only [run, Sim.result_bind] at h
    obtain ⟨b, hb, h⟩ := Sim.bind_eq_ok.mp h
    obtain ⟨hab, hstep⟩ := perform_refines ha hb
    obtain ⟨had, hsteps⟩ := ih hab h
    exact ⟨had, .cons hstep hsteps⟩

/-- A new cache is idle.  After any calls in any order that do not fault, its fields
are those of a service that these calls have brought about. -/
theorem run_control {name : String} {g : Geometry} {store : Store} {requestors : List ρ} {memory : μ}
    (hrun : (build name g store (requestors.map (⟨·, []⟩)) memory >>= run calls).result = .ok c) :
    ∃ s, Service.Steps calls .idle s ∧ c.toControl = c.toControl.entering s := by
  obtain ⟨b, hb, hrun⟩ := Sim.bind_eq_ok.mp ((Sim.result_bind ..).symm.trans hrun)
  obtain ⟨-, rfl⟩ := build_eq_ok hb
  obtain ⟨ha, hsteps⟩ := run_refines Control.agrees_default hrun
  exact ⟨c.service, hsteps, ha.eq_entering⟩

end PeerCall

end CacheSim
