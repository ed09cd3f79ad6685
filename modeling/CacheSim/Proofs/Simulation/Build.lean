import CacheSim.Proofs.Config.Checked
import CacheSim.Proofs.Simulation.Step

/-!
# Systems that can be built

The system of a checked configuration and a trace is built, if the latency of the
memory is a word in ticks (`Simulation.result_build`).  Whatever bytes its memory
starts with, it follows its plan before the first cycle
(`Simulation.between_initial`).
-/

namespace CacheSim

/-- The script of a requestor; those beyond the trace have none. -/
def Trace.script (t : Trace) (id : Nat) : Script :=
  t.scripts.getD id {}

/-- All accesses fit in a line within a memory of some bytes. -/
def Trace.FitsIn (t : Trace) (lineSize range : Nat) : Prop :=
  ∀ script ∈ t.scripts, ∀ a ∈ script.accesses, a.FitsIn lineSize range

instance (t : Trace) (lineSize range : Nat) : Decidable (t.FitsIn lineSize range) :=
  inferInstanceAs (Decidable (∀ script ∈ t.scripts, ∀ a ∈ script.accesses, a.FitsIn lineSize range))

namespace Simulation

/-- What the system of a configuration and a trace is built for. -/
def plan (config : Config) (trace : Trace) (start : FlatMemory) : Plan where
  clock := ⟨config.clockPeriod.toNat⟩
  geometry := config.layout
  latency := config.memory.latency.toNat
  buffer := config.memory.buffer.toNat
  range := config.memory.range.bytes.toNat
  ports := config.cache.ports.toNat
  script id := (trace.script id).accesses
  start

/-- The system whose memory holds some bytes. -/
def loaded (s : Simulation) (bytes : Chunks) : Simulation :=
  s.withMemory { s.memory with bytes }

variable {config : Config} {trace : Trace} {start : FlatMemory}

theorem valid_plan (h : config.Checked)
    (hfits : trace.FitsIn config.lineSize.toNat config.memory.range.bytes.toNat) :
    (plan config trace start).Valid where
  period := h.period
  lineSize := h.lineSize
  cacheLatency := h.latency
  buffer := h.buffer
  range := config.memory.range.bytes.toNat_lt
  fits id a ha := by
    have hscript : a ∈ (trace.script id).accesses := ha
    rw [Trace.script, List.getD_eq_getElem?_getD] at hscript
    cases hs : trace.scripts[id]? with
    | none => simp [hs] at hscript
    | some script =>
      rw [hs] at hscript
      exact hfits script (List.mem_of_getElem? hs) a hscript

/-- The system before its first cycle. -/
def initial (config : Config) (trace : Trace) (store : Store) (bytes : Chunks) : Simulation where
  clock := ⟨config.clockPeriod.toNat⟩
  queue := .empty ⟨config.clockPeriod.toNat⟩
  cache := {
    name := "system.cache"
    geometry := config.layout
    store
    cpuPorts := Cache.connect "system.cache" 0 ((List.range config.cache.ports.toNat).map fun id =>
      ScriptedRequestor.mailboxFor (requestorName id) (trace.script id))
    memPort := {
      name := "system.cache" ++ ".mem_side"
      peer := {
        name := "system.mem"
        clock := ⟨config.clockPeriod.toNat⟩
        latency := config.memory.latency.toNat * config.clockPeriod.toNat
        range := ⟨0, config.memory.range.bytes.toNat⟩
        bytes
        inFlight := .empty (some config.memory.buffer.toNat) } } }
  requestors := (List.range config.cache.ports.toNat).map fun id =>
    .ofScript (requestorName id) id ⟨config.clockPeriod.toNat⟩ (trace.script id)

/-- The latency of the memory in ticks is a word. -/
theorem latency_lt (htime : (plan config trace start).InTime 0) :
    config.memory.latency.toNat * config.clockPeriod.toNat < Word.bound := by
  have hle : config.memory.latency.toNat ≤ 0 + max config.cache.latency.toNat config.memory.latency.toNat := by
    omega
  exact Nat.lt_trans (htime.tick_lt hle) (by decide)

/-- The system of a checked configuration is built around an empty store, if the latency of the
memory in ticks is a word. -/
theorem result_build (hv : config.validate = .ok ()) (hports : trace.scripts.length ≤ config.cache.ports.toNat) :
    ∃ store, Store.ofGeometry? config.layout (.seeded config.seed.toNat) = .ok store ∧
      (build config trace).result =
        if config.memory.latency.toNat * config.clockPeriod.toNat < Word.bound then
          .ok (.ok (initial config trace store .empty))
        else .error .mulOverflow := by
  have hc := Config.checked_of_validate hv
  obtain ⟨store, hstore⟩ := hc.store_eq_ok (.seeded config.seed.toNat)
  have hcheck : check config trace = .ok () := by
    simp only [check, hv, Except.mapError, bind, Except.bind, if_neg (Nat.not_lt.mpr hports)]
    rfl
  have hclock : Clock.ofPeriod? config.clockPeriod.toNat = .ok ⟨config.clockPeriod.toNat⟩ :=
    if_neg (Nat.ne_of_gt hc.period)
  have hne : config.cache.ports.toNat ≠ 0 := Nat.ne_of_gt hc.ports
  have hsize := (Store.valid_ofGeometry? hstore).2.1
  refine ⟨store, hstore, ?_⟩
  split
  · rename_i hlt
    have hlatency : Clock.ticksOf ⟨config.clockPeriod.toNat⟩ config.memory.latency.toNat =
        .ok (config.memory.latency.toNat * config.clockPeriod.toNat) :=
      Word.mul_eq_ok.mpr ⟨hlt, rfl⟩
    simp [build, hcheck, assemble, hclock, TimedMemory.build, hlatency, hc.geometry_eq_ok, hstore, Cache.build,
      hne, hsize, -List.getD_eq_getElem?_getD]
    rfl
  · rename_i hge
    have hlatency : Clock.ticksOf ⟨config.clockPeriod.toNat⟩ config.memory.latency.toNat = .error .mulOverflow :=
      Word.mul_eq_error.mpr ⟨Nat.le_of_not_lt hge, rfl⟩
    simp [build, hcheck, assemble, hclock, TimedMemory.build, hlatency]

/-- The system of a checked configuration is built, around an empty store. -/
theorem build_eq_ok (hv : config.validate = .ok ()) (hports : trace.scripts.length ≤ config.cache.ports.toNat)
    (htime : (plan config trace start).InTime 0) :
    ∃ store, Store.ofGeometry? config.layout (.seeded config.seed.toNat) = .ok store ∧
      (build config trace).result = .ok (.ok (initial config trace store .empty)) := by
  obtain ⟨store, hstore, hbuild⟩ := result_build hv hports
  exact ⟨store, hstore, hbuild.trans (if_pos (latency_lt htime))⟩

/-- A requestor before the first cycle. -/
theorem linked_ofScript (name : String) (id : Nat) (clock : Clock) (script : Script)
    {port : CpuSidePort Mailbox} (hpeer : port.peer = ScriptedRequestor.mailboxFor name script)
    (hparked : port.parked = none) (hretry : port.needsRetry = false) :
    ScriptedRequestor.Linked script.accesses [] none (.ofScript name id clock script) port := by
  refine ⟨rfl, ?_, (fun c hc => by cases hc), [], .free ⟨rfl, rfl⟩ ?_ hretry ?_, rfl⟩
  · rw [CpuSidePort.Asks, hpeer, hparked]
    rfl
  · show port.peer.inbox.items ++ port.parked.toList = []
    rw [hpeer, hparked]
    rfl
  · rw [hpeer]
    rfl

theorem getElem?_range_map {α : Type} (f : Nat → α) {n i : Nat} {a : α}
    (h : ((List.range n).map f)[i]? = some a) : i < n ∧ a = f i := by
  have hi : i < n := by simpa using (List.getElem?_eq_some_iff.mp h).1
  refine ⟨hi, ?_⟩
  rw [List.getElem?_map, List.getElem?_range hi] at h
  exact (Option.some.inj h).symm

/-- The port of a requestor before the first cycle. -/
theorem port_initial {store : Store} {bytes : Chunks} {i : Nat} {port : CpuSidePort Mailbox}
    (hp : (initial config trace store bytes).cache.cpuPorts[i]? = some port) :
    port.peer = ScriptedRequestor.mailboxFor (requestorName i) (trace.script i) ∧ port.parked = none ∧
      port.needsRetry = false := by
  have hp' : (Cache.connect "system.cache" 0 ((List.range config.cache.ports.toNat).map fun id =>
    ScriptedRequestor.mailboxFor (requestorName id) (trace.script id)))[i]? = some port := hp
  rw [Cache.getElem?_connect, Option.map_eq_some_iff] at hp'
  obtain ⟨peer, hpeer, rfl⟩ := hp'
  obtain ⟨-, rfl⟩ := getElem?_range_map _ hpeer
  exact ⟨rfl, rfl, rfl⟩

/-- Before the first cycle, nobody has offered anything. -/
theorem attached_initial (store : Store) (bytes : Chunks) :
    (plan config trace start).Attached 0 (initial config trace store bytes).requestors
      (initial config trace store bytes).cache.cpuPorts [] none := by
  refine ⟨?_, ?_, ?_, ?_, fun a ha => by cases ha⟩
  · simp [initial]
  · simp [initial, plan]
  · intro i r port hr hp
    obtain ⟨-, rfl⟩ := getElem?_range_map _ hr
    obtain ⟨hpeer, hparked, hretry⟩ := port_initial hp
    exact ⟨rfl, rfl, Nat.zero_le _, linked_ofScript _ _ _ _ hpeer hparked hretry⟩
  · intro port hmem hretry
    obtain ⟨i, hp⟩ := List.mem_iff_getElem?.mp hmem
    simp [(port_initial hp).2.2] at hretry

/-- Before the first cycle, the store is empty and nothing is in service. -/
theorem runs_initial {store : Store} {gen : Generator} {bytes : Chunks} (hc : config.Checked)
    (hstore : Store.ofGeometry? config.layout gen = .ok store) (hbytes : bytes.Valid)
    (htime : (plan config trace bytes.byte).InTime 0) :
    (plan config trace bytes.byte).Runs 0 (initial config trace store bytes).cache
      (initial config trace store bytes).queue [] none := by
  obtain ⟨hv, hsize, hn, hzero⟩ := Store.valid_ofGeometry? hstore
  have hready : 0 + config.memory.latency.toNat * config.clockPeriod.toNat < Word.bound := by
    rw [Nat.zero_add]
    exact latency_lt htime
  have hsane : (initial config trace store bytes).cache.Sane (plan config trace bytes.byte).Domain := by
    refine Cache.sane_of_empty hv hn hsize hc.lineSize rfl rfl rfl fun p hp hdomain => ?_
    refine ⟨hbytes, Nat.zero_le _, ?_, config.memory.range.bytes.toNat_lt, hp.carries, hready⟩
    rw [hp.size_eq]
    exact hdomain
  have hshows : (initial config trace store bytes).cache.Shows none bytes.byte :=
    (Cache.shows_of_idle rfl).mpr (Store.overlay_of_empty hn bytes.byte)
  exact ⟨hsane.idle rfl rfl rfl, hshows,
    ⟨Nat.le_refl _, Nat.le_refl _, Nat.le_refl _, Nat.le_of_eq hzero⟩, rfl, rfl,
    ⟨rfl, rfl, rfl, rfl, rfl, rfl, hbytes⟩, rfl, rfl⟩

/-- Before the first cycle, the system follows its plan. -/
theorem between_initial {store : Store} {gen : Generator} {bytes : Chunks} (hc : config.Checked)
    (hstore : Store.ofGeometry? config.layout gen = .ok store) (hbytes : bytes.Valid)
    (htime : (plan config trace bytes.byte).InTime 0) :
    (plan config trace bytes.byte).Between 0 0 (initial config trace store bytes) [] none 0 where
  clock := rfl
  nextCycle := rfl
  now := Nat.zero_le _
  runs := runs_initial hc hstore hbytes htime
  attached := (attached_initial store bytes).mono (Nat.zero_le _)
  wait := .idle rfl
  sorted := .nil
  past a ha := by cases ha

/-- The system of a checked configuration and a trace is built, and with any bytes
in its memory it follows its plan. -/
theorem build_follows (hv : config.validate = .ok ())
    (hports : trace.scripts.length ≤ config.cache.ports.toNat) {bytes : Chunks} (hbytes : bytes.Valid)
    (htime : (plan config trace bytes.byte).InTime 0) :
    ∃ store, (build config trace).result = .ok (.ok (initial config trace store .empty)) ∧
      (plan config trace bytes.byte).Between 0 0 (initial config trace store bytes) [] none 0 := by
  obtain ⟨store, hstore, hbuild⟩ := build_eq_ok hv hports htime
  exact ⟨store, hbuild, between_initial (Config.checked_of_validate hv) hstore hbytes htime⟩

end Simulation

end CacheSim
