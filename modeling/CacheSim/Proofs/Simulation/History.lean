import CacheSim.Proofs.Simulation.Step

/-!
# Histories of a system

A history lists the accepted accesses of all requestors in the order in which
they were accepted.  `Plan.Serial` says that the requestors cannot tell the
system from a flat memory that executes a history; what follows from it is that
no two accesses were accepted at the same time (`Serial.nodup_accepted`) and
that a lone requestor gets what its script alone determines
(`Serial.data_of_single`).  A system that follows its plan is serial
(`Between.serial`), and a history is no longer than the scripts
(`Serial.length_le`).
-/

namespace CacheSim.Plan

open ScriptedRequestor (Linked)

/-- The system and a history agree on what happened: every requestor plays its
script, its accepted accesses are its part of the history, and the completed ones
gave what the flat memory gives that executes the history.  A system that is done
holds the memory after the history. -/
structure Serial (u : Plan) (s : Simulation) (history : List Acceptance) : Prop where
  ids : s.requestors.map (·.id) = List.range u.ports
  sorted : history.Pairwise (·.tick < ·.tick)
  known : ∀ a ∈ history, a.id < u.ports
  accesses : ∀ r ∈ s.requestors, r.accesses = u.script r.id
  acceptances : ∀ r ∈ s.requestors, history.filter (·.id == r.id) = r.acceptances
  replies : ∀ r ∈ s.requestors, r.replies <+: (u.start.replay history).filter (·.1.id == r.id)
  memory : s.isDone → s.cache.store.overlay s.memory.bytes.byte = u.start.updates (history.map (·.access))

variable {u : Plan} {k j : Nat} {s : Simulation} {done : List Acceptance} {current : Option Acceptance}
  {rest : Nat} {now : Tick} {rs : List ScriptedRequestor} {ports : List (CpuSidePort Mailbox)}
  {history : List Acceptance} {i : Nat} {r : ScriptedRequestor}

/-! ## What a history tells -/

/-- A completed access is in the history. -/
theorem Serial.mem_history (h : u.Serial s history) (hr : r ∈ s.requestors) {c : Completion}
    (hc : c ∈ r.completions) : ⟨c.accepted, r.id, c.access⟩ ∈ history := by
  have hreply : (r.reply c).1 ∈ r.replies.map (·.1) :=
    List.mem_map_of_mem (List.mem_map_of_mem hc)
  have hmem : (r.reply c).1 ∈ history.filter (·.id == r.id) := by
    rw [h.acceptances r hr]
    exact List.mem_append_left _ hreply
  exact (List.mem_filter.mp hmem).1

/-- No two completed accesses were accepted at the same time. -/
theorem Serial.nodup_accepted (h : u.Serial s history) :
    ((s.requestors.flatMap (·.completions)).map (·.accepted)).Nodup := by
  have hnodup : (history.map (·.tick)).Nodup :=
    List.pairwise_map.mpr (h.sorted.imp fun hlt => Nat.ne_of_lt hlt)
  have hids : s.requestors.Pairwise (·.id ≠ ·.id) :=
    List.pairwise_map.mp (h.ids ▸ List.nodup_range)
  rw [List.map_flatMap, List.nodup_flatMap]
  refine ⟨fun r hr => ?_, hids.imp_of_mem fun {r₁ r₂} hr₁ hr₂ hne => ?_⟩
  · have hsub : (r.replies.map (·.1)).Sublist history := by
      refine List.Sublist.trans ?_ (List.filter_sublist (p := (·.id == r.id)))
      rw [h.acceptances r hr]
      exact List.sublist_append_left _ _
    have hticks : (r.replies.map (·.1)).map (·.tick) = r.completions.map (·.accepted) := by
      rw [ScriptedRequestor.replies, List.map_map, List.map_map]
      rfl
    exact hticks ▸ hnodup.sublist (hsub.map _)
  · intro tick h₁ h₂
    obtain ⟨c₁, hc₁, rfl⟩ := List.mem_map.mp h₁
    obtain ⟨c₂, hc₂, heq⟩ := List.mem_map.mp h₂
    have hsame := List.inj_on_of_nodup_map hnodup (h.mem_history hr₂ hc₂) (h.mem_history hr₁ hc₁) heq
    exact hne (congrArg Acceptance.id hsame).symm

theorem Serial.exists_requestor (h : u.Serial s history) (hi : i < u.ports) :
    ∃ r ∈ s.requestors, r.id = i := by
  have hid : i ∈ s.requestors.map (·.id) := by
    rw [h.ids]
    exact List.mem_range.mpr hi
  exact List.mem_map.mp hid

/-- If all scripts but the first are empty, the whole history is that of the first
requestor. -/
theorem Serial.id_eq_zero (h : u.Serial s history) (hsingle : ∀ id, id ≠ 0 → u.script id = []) :
    ∀ a ∈ history, a.id = 0 := by
  intro a ha
  by_contra hne
  obtain ⟨r, hr, hid⟩ := h.exists_requestor (h.known a ha)
  have hmem : a ∈ r.acceptances := by
    rw [← h.acceptances r hr]
    exact List.mem_filter.mpr ⟨ha, by simp [hid]⟩
  have haccess : a.access ∈ r.accesses := r.acceptances_prefix.subset (List.mem_map_of_mem hmem)
  rw [h.accesses r hr, hid, hsingle a.id hne] at haccess
  cases haccess

/-- A lone requestor gets what its script gives on the memory: of the system, only
how far it came is left. -/
theorem Serial.data_of_single (h : u.Serial s history) (hsingle : ∀ id, id ≠ 0 → u.script id = [])
    (hports : 0 < u.ports) :
    ∃ r, s.requestors.head? = some r ∧ r.completions.map (·.data) <+: u.start.outcomes (u.script 0) ∧
      (s.isDone → r.completions.map (·.data) = u.start.outcomes (u.script 0)) := by
  obtain ⟨r, hhead, hid⟩ : ∃ r, s.requestors.head? = some r ∧ r.id = 0 := by
    have hids := congrArg List.head? h.ids
    rw [List.head?_map, List.head?_range, if_neg (Nat.ne_of_gt hports), Option.map_eq_some_iff] at hids
    exact hids
  have hr := List.mem_of_head? hhead
  have hwhole : history = r.acceptances := by
    rw [← h.acceptances r hr, hid, List.filter_eq_self.mpr]
    simpa using h.id_eq_zero hsingle
  have hscript : history.map (·.access) <+: u.script 0 := by
    rw [hwhole, ← hid, ← h.accesses r hr]
    exact r.acceptances_prefix
  have hall : ∀ g ∈ u.start.replay history, (g.1.id == r.id) = true := fun g hg => by
    have ha : g.1 ∈ (u.start.replay history).map (·.1) := List.mem_map_of_mem hg
    rw [FlatMemory.map_fst_replay] at ha
    simp [h.id_eq_zero hsingle g.1 ha, hid]
  have hreplies : r.replies <+: u.start.replay history := by
    simpa [List.filter_eq_self.mpr hall] using h.replies r hr
  have hdata : r.completions.map (·.data) <+: u.start.outcomes (u.script 0) := by
    have hprefix := hreplies.map (·.2)
    rw [FlatMemory.map_snd_replay, ScriptedRequestor.replies, List.map_map] at hprefix
    exact hprefix.trans (u.start.outcomes_prefix hscript)
  refine ⟨r, hhead, hdata, fun hdone => hdata.eq_of_length ?_⟩
  have hlength := congrArg List.length (r.completions_of_isDone (s.isDone_of_mem hdone hr))
  rw [h.accesses r hr, hid, List.length_map] at hlength
  rw [List.length_map, FlatMemory.length_outcomes, hlength]

/-- The requestors of a system that is done have completed their scripts. -/
theorem Serial.completions_of_isDone (h : u.Serial s history) (hdone : s.isDone) :
    s.requestors.map (·.completions.map (·.access)) = (List.range u.ports).map u.script := by
  rw [← h.ids, List.map_map]
  refine List.map_congr_left fun r hr => ?_
  rw [r.completions_of_isDone (Simulation.isDone_of_mem hdone hr), h.accesses r hr]
  rfl

/-! ## The history of a plan -/

/-- The accepted accesses of a requestor are its part of the history. -/
theorem Attached.acceptances (h : u.Attached now rs ports done current) (hr : rs[i]? = some r) :
    (done ++ current.toList).filter (·.id == i) = r.acceptances := by
  obtain ⟨port, hp⟩ := h.exists_port hr
  obtain ⟨-, -, -, hl⟩ := h.linked i r port hr hp
  rw [hl.acceptances_eq, given, FlatMemory.map_fst_filter_replay, List.filter_append, Option.toList_filter]

/-- What the completed accesses of a requestor gave is what the history gives. -/
theorem Attached.replies (h : u.Attached now rs ports done current) (hr : rs[i]? = some r) :
    r.replies <+: u.given (done ++ current.toList) i := by
  obtain ⟨port, hp⟩ := h.exists_port hr
  obtain ⟨-, -, -, hl⟩ := h.linked i r port hr hp
  cases current with
  | none => simpa using hl.replies_prefix
  | some a =>
    rw [Option.toList_some, given_concat]
    exact hl.replies_prefix.trans (List.prefix_append _ _)

theorem Attached.accesses (h : u.Attached now rs ports done current) (hr : rs[i]? = some r) :
    r.accesses = u.script i := by
  obtain ⟨port, hp⟩ := h.exists_port hr
  exact (h.linked i r port hr hp).2.2.2.accesses

/-- Requests are accepted when they were issued or later, and before their
responses come. -/
theorem Attached.timely (h : u.Attached now rs ports done current) (hr : rs[i]? = some r) {c : Completion}
    (hc : c ∈ r.completions) : c.issued ≤ c.accepted ∧ c.accepted < c.responded := by
  obtain ⟨port, hp⟩ := h.exists_port hr
  exact (h.linked i r port hr hp).2.2.2.timely c (List.mem_reverse.mp hc)

/-- A system that follows its plan is not to be told from a flat memory. -/
theorem Between.serial (h : u.Between k j s done current rest) : u.Serial s (done ++ current.toList) where
  ids := by rw [h.attached.ids, ← h.attached.length, h.attached.count, List.range_eq_range']
  sorted := h.sorted
  known := h.attached.known
  accesses r hr := by
    obtain ⟨i, hi⟩ := List.mem_iff_getElem?.mp hr
    rw [h.attached.id_eq hi, h.attached.accesses hi]
  acceptances r hr := by
    obtain ⟨i, hi⟩ := List.mem_iff_getElem?.mp hr
    rw [h.attached.id_eq hi, h.attached.acceptances hi]
  replies r hr := by
    obtain ⟨i, hi⟩ := List.mem_iff_getElem?.mp hr
    rw [h.attached.id_eq hi]
    exact h.attached.replies hi
  memory hdone := by
    have hidle := h.runs.consistent.sane.agrees.service_eq_idle_iff.mpr (Simulation.free_of_isDone hdone)
    obtain rfl := h.runs.current_of_idle hidle
    rw [Option.toList_none, List.append_nil]
    exact h.runs.image_of_idle

/-! ## The length of a history -/

/-- Accesses are no more than the numbers of accesses of all ids. -/
theorem length_le_sum {n : Nat} {f : Nat → Nat} (hid : ∀ a ∈ history, a.id < n)
    (hf : ∀ i < n, (history.filter (·.id == i)).length ≤ f i) :
    history.length ≤ ((List.range n).map f).sum := by
  induction n generalizing history with
  | zero =>
    cases history with
    | nil => exact Nat.zero_le _
    | cons a history => exact absurd (hid a (List.mem_cons_self ..)) (Nat.not_lt_zero _)
  | succ n ih =>
    -- the accesses of the last id are counted apart from the others
    have hsplit := List.length_eq_length_filter_add (l := history) (·.id == n)
    have hlast := hf n (Nat.lt_succ_self n)
    have hothers : (history.filter (!·.id == n)).length ≤ ((List.range n).map f).sum := by
      refine ih (fun a ha => ?_) fun i hi => ?_
      · obtain ⟨hmem, hne⟩ := List.mem_filter.mp ha
        have hlt := hid a hmem
        have hne : a.id ≠ n := by simpa using hne
        omega
      · rw [List.filter_comm]
        exact Nat.le_trans (List.length_filter_le _ _) (hf i (Nat.lt_succ_of_lt hi))
    rw [List.range_succ, List.map_append, List.sum_append, List.map_singleton, List.sum_singleton]
    omega

/-- The number of accesses of all scripts. -/
def total (u : Plan) : Nat :=
  ((List.range u.ports).map fun i => (u.script i).length).sum

/-- No more accesses are accepted than the scripts have. -/
theorem Serial.length_le (h : u.Serial s history) : history.length ≤ u.total := by
  refine length_le_sum h.known fun i hi => ?_
  obtain ⟨r, hr, rfl⟩ := h.exists_requestor hi
  have hle := r.acceptances_prefix.length_le
  rwa [List.length_map, ← h.acceptances r hr, h.accesses r hr] at hle

end CacheSim.Plan
