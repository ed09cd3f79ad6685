import CacheSim.EventQueue
import CacheSim.Sim
import Mathlib.Data.List.Induction
import Mathlib.Data.List.Sort

/-!
# The order of events

Calls of an event queue and runs of them.  What was popped and what is pending
is always all that was scheduled, in the order of the times; events of one time
are in the order in which they were scheduled (`inOrder`).  The current time
lies between the two parts (`Consistent`).
-/

namespace CacheSim

namespace EventQueue

variable {ε : Type}

/-- A call of a queue. -/
inductive Call (ε : Type) where
  | schedule (event : ε) (tick : Tick)
  | advanceTo (tick : Tick)
  | pop
  | popDue (tick : Tick)

/-- The event that a call schedules. -/
def Call.scheduled? : Call ε → Option (Tick × ε)
  | .schedule event tick => some (tick, event)
  | .advanceTo _ | .pop | .popDue _ => none

/-- The events that calls schedule, in order. -/
def scheduled (calls : List (Call ε)) : List (Tick × ε) :=
  calls.filterMap Call.scheduled?

/-- What was taken from a queue, and the queue afterwards. -/
def taken (q : EventQueue ε) : Option (Tick × ε × EventQueue ε) → Option (Tick × ε) × EventQueue ε
  | some (tick, event, r) => (some (tick, event), r)
  | none => (none, q)

/-- Makes a call.  Answers the event that is popped, if there is one. -/
def perform (q : EventQueue ε) : Call ε → Except Fault (Option (Tick × ε) × EventQueue ε)
  | .schedule event tick => do return (none, ← q.schedule event tick)
  | .advanceTo tick => do return (none, ← q.advanceTo tick)
  | .pop => return q.taken q.pop?
  | .popDue tick => return q.taken (q.popDue? tick)

/-- Makes calls in order.  Answers the events that are popped. -/
def run : List (Call ε) → EventQueue ε → Except Fault (List (Tick × ε) × EventQueue ε)
  | [], q => return ([], q)
  | c :: rest, q => do
    let (event, q) ← q.perform c
    let (events, q) ← run rest q
    return (event.toList ++ events, q)

/-- The first event is not later than the second. -/
def notLater (a b : Tick × ε) : Bool :=
  a.1 ≤ b.1

/-- Events by their times; those of one time stay in their order. -/
def inOrder (events : List (Tick × ε)) : List (Tick × ε) :=
  events.mergeSort notLater

variable {tick : Tick} {event : ε} {events : List (Tick × ε)}

/-! ## The stable sort -/

theorem notLater_trans (a b c : Tick × ε) (hab : notLater a b) (hbc : notLater b c) : notLater a c :=
  decide_eq_true (Nat.le_trans (of_decide_eq_true hab) (of_decide_eq_true hbc))

theorem notLater_total (a b : Tick × ε) : notLater a b || notLater b a := by
  rw [Bool.or_eq_true, notLater, notLater, decide_eq_true_iff, decide_eq_true_iff]
  exact Nat.le_total ..

theorem pairwise_inOrder (events : List (Tick × ε)) : (inOrder events).Pairwise fun a b => a.1 ≤ b.1 :=
  (List.pairwise_mergeSort notLater_trans notLater_total events).imp of_decide_eq_true

/-- The events of one time are in their order. -/
theorem filter_inOrder (events : List (Tick × ε)) (tick : Tick) :
    (inOrder events).filter (·.1 = tick) = events.filter (·.1 = tick) := by
  have hsame : (events.filter (·.1 = tick)).Pairwise fun a b => notLater a b := by
    refine List.pairwise_of_forall_mem_list fun a ha b hb => decide_eq_true ?_
    simp only [List.mem_filter, decide_eq_true_iff] at ha hb
    exact Nat.le_of_eq (ha.2.trans hb.2.symm)
  have hsub := (List.sublist_mergeSort notLater_trans notLater_total hsame List.filter_sublist).filter
    fun x => decide (x.1 = tick)
  rw [List.filter_filter] at hsub
  simp only [Bool.and_self] at hsub
  exact (hsub.eq_of_length ((List.mergeSort_perm events notLater).filter _).length_eq.symm).symm

/-- Events in the order of their times are known from the events of every single time. -/
theorem eq_of_filter_eq {l l' : List (Tick × ε)} (h : l.Pairwise fun a b => a.1 ≤ b.1)
    (h' : l'.Pairwise fun a b => a.1 ≤ b.1)
    (hf : ∀ tick, l.filter (·.1 = tick) = l'.filter (·.1 = tick)) : l = l' := by
  have hmem : ∀ x, x ∈ l ↔ x ∈ l' := fun x => by
    have := congrArg (x ∈ ·) (hf x.1)
    simpa using this
  induction l generalizing l' with
  | nil =>
    cases l' with
    | nil => rfl
    | cons b l' => exact absurd ((hmem b).mpr (List.mem_cons_self ..)) List.not_mem_nil
  | cons a l ih =>
    cases l' with
    | nil => exact absurd ((hmem a).mp (List.mem_cons_self ..)) List.not_mem_nil
    | cons b l' =>
      obtain ⟨ha, hl⟩ := List.pairwise_cons.mp h
      obtain ⟨hb, hl'⟩ := List.pairwise_cons.mp h'
      have htick : a.1 = b.1 := by
        have hab : a.1 ≤ b.1 := by
          rcases List.mem_cons.mp ((hmem b).mpr (List.mem_cons_self ..)) with rfl | hm
          · exact Nat.le_refl _
          · exact ha b hm
        have hba : b.1 ≤ a.1 := by
          rcases List.mem_cons.mp ((hmem a).mp (List.mem_cons_self ..)) with rfl | hm
          · exact Nat.le_refl _
          · exact hb a hm
        exact Nat.le_antisymm hab hba
      have hfirst := hf a.1
      rw [List.filter_cons_of_pos (by simp), List.filter_cons_of_pos (by simpa using htick.symm)] at hfirst
      obtain ⟨rfl, hrest⟩ := List.cons.inj hfirst
      have hf' : ∀ tick, l.filter (·.1 = tick) = l'.filter (·.1 = tick) := fun tick => by
        have := hf tick
        rw [List.filter_cons, List.filter_cons] at this
        split at this
        · exact (List.cons.inj this).2
        · exact this
      refine congrArg (a :: ·) (ih hl hl' hf' fun x => ?_)
      have := congrArg (x ∈ ·) (hf' x.1)
      simpa using this

/-! ## Placing an event -/

theorem place_perm (tick : Tick) (event : ε) (events : List (Tick × ε)) :
    (place tick event events).Perm ((tick, event) :: events) := by
  induction events with
  | nil => exact .refl _
  | cons e rest ih =>
    rw [place]
    split
    · exact (ih.cons e).trans (.swap ..)
    · exact .refl _

/-- An event comes behind all that are not later. -/
theorem place_append {l r : List (Tick × ε)} (h : ∀ x ∈ l, x.1 ≤ tick) (event : ε) :
    place tick event (l ++ r) = l ++ place tick event r := by
  induction l with
  | nil => rfl
  | cons x l ih =>
    obtain ⟨hx, hl⟩ := List.forall_mem_cons.mp h
    rw [List.cons_append, place, if_pos hx, ih hl, List.cons_append]

theorem place_of_lt {r : List (Tick × ε)} (h : ∀ x ∈ r, tick < x.1) (event : ε) :
    place tick event r = (tick, event) :: r := by
  cases r with
  | nil => rfl
  | cons x r => rw [place, if_neg (Nat.not_le.mpr (h x (List.mem_cons_self ..)))]

/-- Events in order are those that are not later than a time, and then the later ones. -/
theorem exists_split (h : events.Pairwise fun a b => a.1 ≤ b.1) (tick : Tick) :
    ∃ l r, events = l ++ r ∧ (∀ x ∈ l, x.1 ≤ tick) ∧ ∀ x ∈ r, tick < x.1 := by
  induction events with
  | nil => exact ⟨[], [], rfl, by simp, by simp⟩
  | cons e rest ih =>
    obtain ⟨he, hrest⟩ := List.pairwise_cons.mp h
    by_cases hle : e.1 ≤ tick
    · obtain ⟨l, r, rfl, hl, hr⟩ := ih hrest
      exact ⟨e :: l, r, rfl, List.forall_mem_cons.mpr ⟨hle, hl⟩, hr⟩
    · have hlt : tick < e.1 := Nat.lt_of_not_le hle
      exact ⟨[], e :: rest, rfl, by simp, List.forall_mem_cons.mpr ⟨hlt, fun x hx => Nat.lt_of_lt_of_le hlt (he x hx)⟩⟩

/-- What is scheduled last comes behind all events that are not later. -/
theorem inOrder_concat (events : List (Tick × ε)) (tick : Tick) (event : ε) :
    inOrder (events ++ [(tick, event)]) = place tick event (inOrder events) := by
  have hsorted := pairwise_inOrder events
  have hfilter := filter_inOrder events
  obtain ⟨l, r, hsplit, hl, hr⟩ := exists_split hsorted tick
  rw [hsplit] at hsorted hfilter
  obtain ⟨hleft, hright, hcross⟩ := List.pairwise_append.mp hsorted
  rw [hsplit, place_append hl, place_of_lt hr]
  refine eq_of_filter_eq (pairwise_inOrder _) ?_ fun t => ?_
  · refine List.pairwise_append.mpr ⟨hleft, List.pairwise_cons.mpr ⟨fun x hx => (hr x hx).le, hright⟩, fun x hx => ?_⟩
    exact List.forall_mem_cons.mpr ⟨hl x hx, hcross x hx⟩
  · rw [filter_inOrder, List.filter_append, ← hfilter t, List.filter_append, List.filter_append, List.append_assoc]
    congr 1
    by_cases ht : tick = t
    · have hnone : r.filter (·.1 = t) = [] :=
        List.filter_eq_nil_iff.mpr fun x hx hxt => absurd (ht.trans (of_decide_eq_true hxt).symm) (Nat.ne_of_lt (hr x hx))
      simp [ht, hnone]
    · simp [ht]

/-! ## Calls -/

variable {q r : EventQueue ε} {c : Call ε} {x : Option (Tick × ε)} {all popped : List (Tick × ε)}

theorem popDue?_eq (q : EventQueue ε) (tick : Tick) :
    q.popDue? tick = if ∃ x ∈ q.pending.head?, x.1 ≤ tick then q.pop? else none := by
  unfold popDue? next?
  cases q.pending with
  | nil => simp
  | cons e rest => simp

/-- What is popped was the first of what was pending. -/
theorem pending_of_popDue? {tick now : Tick} {event : ε} (h : q.popDue? now = some (tick, event, r)) :
    q.pending = (tick, event) :: r.pending := by
  rw [popDue?_eq] at h
  split at h
  · unfold pop? at h
    split at h
    · cases h
    · rename_i hpending
      obtain ⟨rfl, rfl, rfl⟩ := by simpa using h
      exact hpending
  · cases h

/-- Time moves on where it neither goes back nor passes an event. -/
theorem advanceTo_eq_ok_iff :
    q.advanceTo tick = .ok r ↔ q.now ≤ tick ∧ (∀ next ∈ q.next?, tick ≤ next) ∧ r = { q with now := tick } := by
  constructor
  · intro h
    unfold advanceTo at h
    by_cases hle : q.now ≤ tick
    · cases hnext : q.next? with
      | none =>
        simp only [hle, hnext] at h
        exact ⟨hle, nofun, (Except.ok.inj h).symm⟩
      | some next =>
        by_cases htick : tick ≤ next
        · simp only [hle, hnext, htick] at h
          refine ⟨hle, fun n hn => ?_, (Except.ok.inj h).symm⟩
          obtain rfl := Option.some.inj hn
          exact htick
        · simp only [hle, hnext, htick] at h
          cases h
    · simp only [hle] at h
      cases h
  · rintro ⟨hle, hnext, rfl⟩
    exact advanceTo_eq_ok hle hnext

/-- What was popped and what is pending is all that was scheduled, in order, and
the current time lies between them. -/
structure Consistent (q : EventQueue ε) (all popped : List (Tick × ε)) : Prop where
  order : popped ++ q.pending = inOrder all
  past : ∀ x ∈ popped, x.1 ≤ q.now
  future : ∀ x ∈ q.pending, q.now ≤ x.1

theorem consistent_empty (clock : Clock) : (empty clock : EventQueue ε).Consistent [] [] :=
  ⟨by simp [empty, inOrder], by simp, by simp [empty]⟩

namespace Consistent

theorem pairwise_pending (h : q.Consistent all popped) : q.pending.Pairwise fun a b => a.1 ≤ b.1 :=
  (List.pairwise_append.mp (h.order ▸ pairwise_inOrder all)).2.1

theorem schedule (h : q.Consistent all popped) (hle : q.now ≤ tick) (event : ε) :
    ({ q with pending := place tick event q.pending } : EventQueue ε).Consistent (all ++ [(tick, event)]) popped where
  order := by
    rw [inOrder_concat, ← h.order]
    exact (place_append (fun x hx => Nat.le_trans (h.past x hx) hle) event).symm
  past := h.past
  future x hx := by
    rcases List.mem_cons.mp ((place_perm tick event q.pending).mem_iff.mp hx) with rfl | hx
    · exact hle
    · exact h.future x hx

/-- The first event is not later than any other. -/
theorem le_of_next (h : q.Consistent all popped) (hnext : ∀ next ∈ q.next?, tick ≤ next) :
    ∀ x ∈ q.pending, tick ≤ x.1 := by
  have hsorted := h.pairwise_pending
  unfold next? at hnext
  cases hp : q.pending with
  | nil => simp
  | cons e rest =>
    rw [hp] at hnext hsorted
    have he : tick ≤ e.1 := hnext e.1 rfl
    exact List.forall_mem_cons.mpr ⟨he, fun x hx => Nat.le_trans he ((List.pairwise_cons.mp hsorted).1 x hx)⟩

theorem advance (h : q.Consistent all popped) (hle : q.now ≤ tick) (hnext : ∀ x ∈ q.pending, tick ≤ x.1) :
    ({ q with now := tick } : EventQueue ε).Consistent all popped :=
  ⟨h.order, fun x hx => Nat.le_trans (h.past x hx) hle, hnext⟩

/-- The next event is taken, and time moves to it. -/
theorem pop {rest : List (Tick × ε)} (h : q.Consistent all popped) (hp : q.pending = (tick, event) :: rest) :
    ({ q with now := tick, pending := rest } : EventQueue ε).Consistent all (popped ++ [(tick, event)]) ∧
      q.now ≤ tick := by
  have hsorted := h.pairwise_pending
  have hnow := h.future
  rw [hp] at hsorted hnow
  obtain ⟨hrest, -⟩ := List.pairwise_cons.mp hsorted
  have hle : q.now ≤ tick := hnow (tick, event) (List.mem_cons_self ..)
  refine ⟨⟨?_, fun x hx => ?_, hrest⟩, hle⟩
  · rw [← h.order, hp, List.append_assoc]
    rfl
  · rcases List.mem_append.mp hx with hx | hx
    · exact Nat.le_trans (h.past x hx) hle
    · obtain rfl := List.mem_singleton.mp hx
      exact Nat.le_refl _

/-- What a call takes out comes behind all that was popped before, and time does not go back. -/
theorem taken (h : q.Consistent all popped) {y : Option (Tick × ε × EventQueue ε)}
    (hy : y = q.pop? ∨ y = none) (hr : q.taken y = (x, r)) :
    r.Consistent all (popped ++ x.toList) ∧ q.now ≤ r.now := by
  have hnone : q.Consistent all (popped ++ (none : Option (Tick × ε)).toList) ∧ q.now ≤ q.now :=
    ⟨(List.append_nil popped).symm ▸ h, Nat.le_refl _⟩
  rcases hy with rfl | rfl
  · cases hp : q.pending with
    | nil =>
      simp only [EventQueue.taken, pop?, hp] at hr
      obtain ⟨rfl, rfl⟩ := Prod.mk.inj hr
      exact hnone
    | cons e rest =>
      simp only [EventQueue.taken, pop?, hp] at hr
      obtain ⟨rfl, rfl⟩ := Prod.mk.inj hr
      exact h.pop hp
  · obtain ⟨rfl, rfl⟩ := Prod.mk.inj hr
    exact hnone

theorem step (h : q.Consistent all popped) (hr : q.perform c = .ok (x, r)) :
    r.Consistent (all ++ c.scheduled?.toList) (popped ++ x.toList) ∧ q.now ≤ r.now := by
  cases c with
  | schedule event tick =>
    obtain ⟨q', hq', hr⟩ := Sim.bind_eq_ok.mp hr
    obtain ⟨rfl, rfl⟩ := Prod.mk.inj (Except.ok.inj hr)
    unfold EventQueue.schedule at hq'
    split at hq'
    · rename_i hle
      obtain rfl := Except.ok.inj hq'
      exact ⟨(List.append_nil popped).symm ▸ h.schedule hle event, Nat.le_refl _⟩
    · cases hq'
  | advanceTo tick =>
    obtain ⟨q', hq', hr⟩ := Sim.bind_eq_ok.mp hr
    obtain ⟨rfl, rfl⟩ := Prod.mk.inj (Except.ok.inj hr)
    obtain ⟨hle, hnext, rfl⟩ := advanceTo_eq_ok_iff.mp hq'
    refine ⟨?_, hle⟩
    simpa [Call.scheduled?] using h.advance hle (h.le_of_next hnext)
  | pop =>
    rw [show all ++ Call.pop.scheduled?.toList = all from List.append_nil all]
    exact h.taken (.inl rfl) (Except.ok.inj hr)
  | popDue tick =>
    rw [show all ++ (Call.popDue tick).scheduled?.toList = all from List.append_nil all]
    refine h.taken ?_ (Except.ok.inj hr)
    rw [popDue?_eq]
    split
    · exact .inl rfl
    · exact .inr rfl

theorem run {calls : List (Call ε)} {events : List (Tick × ε)} (h : q.Consistent all popped)
    (hr : run calls q = .ok (events, r)) : r.Consistent (all ++ scheduled calls) (popped ++ events) := by
  induction calls generalizing q all popped events with
  | nil =>
    obtain ⟨rfl, rfl⟩ := Prod.mk.inj (Except.ok.inj hr)
    simpa [scheduled] using h
  | cons c rest ih =>
    obtain ⟨⟨x, q'⟩, hq', hr⟩ := Sim.bind_eq_ok.mp hr
    obtain ⟨⟨tail, r'⟩, hr', hr⟩ := Sim.bind_eq_ok.mp hr
    obtain ⟨rfl, rfl⟩ := Prod.mk.inj (Except.ok.inj hr)
    have hrest := ih (h.step hq').1 hr'
    have hall : scheduled (c :: rest) = c.scheduled?.toList ++ scheduled rest := by
      rw [scheduled, List.filterMap_cons]
      cases c.scheduled? <;> rfl
    rw [hall, ← List.append_assoc, ← List.append_assoc]
    exact hrest

end Consistent

end EventQueue

end CacheSim
