import CacheSim.Cache.Basic

/-!
# The control fields of a cache

The control fields are assigned one by one, and only some of their values belong
together (`Control.Agrees`).  These are the values of a `Service`: what the cache
does for the request that it serves.  `Control.service` reads it off the fields,
and `Control.entering` sets all fields for it, so that fields that agree are those
of their service (`Control.Agrees.eq_entering`).
-/

namespace CacheSim

/-- What a cache does for the request that it serves. -/
inductive Service where
  /-- It serves none. -/
  | idle
  /-- The access of the request from `port` is scheduled. -/
  | access (port : Nat)
  /-- The request from `port` missed at the tick `since`.  A request for a part
  of the block is kept until the block arrives. -/
  | fetch (port : Nat) (since : Tick) (kept : Option Packet)
  deriving DecidableEq, Inhabited

namespace Service

/-- What the cache is waiting for. -/
@[simp] def phase : Service → Phase
  | idle => .idle
  | access _ => .waitAccess
  | fetch .. => .waitMem

/-- The port of the request. -/
@[simp] def port? : Service → Option Nat
  | idle => none
  | access port => some port
  | fetch port _ _ => some port

/-- The request that is kept. -/
@[simp] def kept? : Service → Option Packet
  | idle | access _ => none
  | fetch _ _ kept => kept

end Service

namespace Control

/-- The control fields belong together. -/
structure Agrees (k : Control) : Prop where
  blocked : k.blocked = true ↔ k.phase ≠ .idle
  waiting : k.waitingPort.isSome ↔ k.phase ≠ .idle
  original : k.original.isSome → k.phase = .waitMem

/-- The service that the fields are those of. -/
def service (k : Control) : Service :=
  match k.phase, k.waitingPort with
  | .waitAccess, some id => .access id
  | .waitMem, some id => .fetch id k.missTime k.original
  | _, _ => .idle

/-- The fields set for a service. -/
def entering (k : Control) : Service → Control
  | .idle => { missTime := k.missTime }
  | .access id => { blocked := true, waitingPort := some id, missTime := k.missTime, phase := .waitAccess }
  | .fetch id since kept =>
    { blocked := true, waitingPort := some id, original := kept, missTime := since, phase := .waitMem }

variable {k : Control} {s : Service}

theorem agrees_default : Agrees {} :=
  ⟨by decide, by decide, by decide⟩

@[simp] theorem service_entering (k : Control) (s : Service) : (k.entering s).service = s := by
  cases s <;> rfl

theorem agrees_entering (k : Control) (s : Service) : (k.entering s).Agrees := by
  cases s <;> exact ⟨by simp [entering], by simp [entering], by simp [entering]⟩

namespace Agrees

/-- Fields that agree are those of their service. -/
theorem eq_entering (h : k.Agrees) : k = k.entering k.service := by
  obtain ⟨blocked, port, original, since, phase⟩ := k
  cases phase with
  | idle =>
    obtain rfl : blocked = false := by simpa using h.blocked
    obtain rfl : port = none := by simpa using h.waiting
    obtain rfl : original = none := by simpa using h.original
    rfl
  | waitAccess =>
    obtain rfl : blocked = true := by simpa using h.blocked
    obtain ⟨id, rfl⟩ : ∃ id, port = some id := by simpa [Option.isSome_iff_exists] using h.waiting
    obtain rfl : original = none := by simpa using h.original
    rfl
  | waitMem =>
    obtain rfl : blocked = true := by simpa using h.blocked
    obtain ⟨id, rfl⟩ : ∃ id, port = some id := by simpa [Option.isSome_iff_exists] using h.waiting
    rfl

theorem eq_of_service (h : k.Agrees) (hs : k.service = s) : k = k.entering s :=
  hs ▸ h.eq_entering

theorem phase_eq (h : k.Agrees) (hs : k.service = s) : k.phase = s.phase := by
  rw [h.eq_of_service hs]
  cases s <;> rfl

theorem waitingPort_eq (h : k.Agrees) (hs : k.service = s) : k.waitingPort = s.port? := by
  rw [h.eq_of_service hs]
  cases s <;> rfl

theorem original_eq (h : k.Agrees) (hs : k.service = s) : k.original = s.kept? := by
  rw [h.eq_of_service hs]
  cases s <;> rfl

theorem missTime_eq {id : Nat} {since : Tick} {kept : Option Packet} (h : k.Agrees)
    (hs : k.service = .fetch id since kept) : k.missTime = since := by
  rw [h.eq_of_service hs]
  rfl

theorem blocked_eq (h : k.Agrees) (hs : k.service = s) : k.blocked = decide (s ≠ .idle) := by
  rw [h.eq_of_service hs]
  cases s <;> rfl

theorem blocked_of_ne (h : k.Agrees) (hs : k.service ≠ .idle) : k.blocked = true := by
  rw [h.blocked_eq rfl, decide_eq_true hs]

theorem service_eq_idle_iff (h : k.Agrees) : k.service = .idle ↔ k.blocked = false := by
  rw [h.blocked_eq rfl]
  simp

theorem exists_access (h : k.Agrees) (hp : k.phase = .waitAccess) : ∃ id, k.service = .access id := by
  have hphase := (h.phase_eq rfl).symm.trans hp
  cases hs : k.service with
  | access id => exact ⟨id, rfl⟩
  | idle => simp [hs] at hphase
  | fetch => simp [hs] at hphase

theorem exists_fetch (h : k.Agrees) (hp : k.phase = .waitMem) : ∃ id, k.service = .fetch id k.missTime k.original := by
  have hphase := (h.phase_eq rfl).symm.trans hp
  cases hs : k.service with
  | fetch id since kept => exact ⟨id, by rw [h.missTime_eq hs, h.original_eq hs]; rfl⟩
  | idle => simp [hs] at hphase
  | access => simp [hs] at hphase

end Agrees

end Control

namespace Cache

variable {ρ μ : Type}

/-- The cache with its control fields set for a service. -/
def serving (c : Cache ρ μ) (s : Service) : Cache ρ μ :=
  { c with toControl := c.toControl.entering s }

@[simp] theorem service_serving (c : Cache ρ μ) (s : Service) : (c.serving s).service = s :=
  c.toControl.service_entering s

end Cache

/-- A request is taken when none is served. -/
theorem Control.Agrees.serving_access {ρ μ : Type} {c : Cache ρ μ} (h : c.toControl.Agrees)
    (hs : c.service = .idle) (id : Nat) :
    { c with blocked := true, waitingPort := some id, phase := .waitAccess } = c.serving (.access id) := by
  rw [h.original_eq hs]
  rfl

end CacheSim
