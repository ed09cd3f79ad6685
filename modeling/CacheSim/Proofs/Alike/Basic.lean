import CacheSim.Proofs.Store.Calls

/-!
# Alike computations

Two computations that go the same way: both answer, and the answers stand in a
relation, or both stop with the same fault (`Alike`).

Two stores go the same way for good if they are related by a
`Store.Bisimulation`: they look up the same lines, and every operation leads
from related stores to related ones and answers the same.  Calls of such stores
are then alike, one by one (`Bisimulation.perform`) and in any number
(`Bisimulation.run`).
-/

namespace CacheSim

/-- Both results are answers that stand in a relation, or the same fault.  In
contrast to `Agree`, related answers need not determine each other, and a fault
on one side is that of the other. -/
inductive Alike {α β : Type} (r : α → β → Prop) : Except Fault α → Except Fault β → Prop where
  | ok {a : α} {b : β} (h : r a b) : Alike r (.ok a) (.ok b)
  | error (f : Fault) : Alike r (.error f) (.error f)

/-- Pairs that begin with the same and end with what stands in a relation. -/
def SameWith {α β γ : Type} (r : β → γ → Prop) (x : α × β) (y : α × γ) : Prop :=
  x.1 = y.1 ∧ r x.2 y.2

namespace Alike

variable {α β γ δ : Type} {r : α → β → Prop} {r' : γ → δ → Prop} {x x' : Except Fault α} {y y' : Except Fault β}

/-- Where one side answers, so does the other. -/
theorem exists_of_ok {a : α} {y : Except Fault β} (h : Alike r (.ok a) y) : ∃ b, y = .ok b ∧ r a b := by
  cases h with
  | ok h => exact ⟨_, rfl, h⟩

theorem symm (h : Alike r x y) : Alike (fun b a => r a b) y x := by
  cases h with
  | ok h => exact .ok h
  | error f => exact .error f

theorem trans {z : Except Fault γ} {s : β → γ → Prop} (h : Alike r x y) (h' : Alike s y z) :
    Alike (fun a c => ∃ b, r a b ∧ s b c) x z := by
  cases h with
  | ok h =>
    cases h' with
    | ok h' => exact .ok ⟨_, h, h'⟩
  | error f =>
    cases h' with
    | error f => exact .error f

theorem mono {s : α → β → Prop} (h : Alike r x y) (hrs : ∀ a b, r a b → s a b) : Alike s x y := by
  cases h with
  | ok h => exact .ok (hrs _ _ h)
  | error f => exact .error f

/-- One computation after the other. -/
theorem bind {f : α → Except Fault γ} {g : β → Except Fault δ} (h : Alike r x y)
    (hf : ∀ a b, r a b → Alike r' (f a) (g b)) : Alike r' (x >>= f) (y >>= g) := by
  cases h with
  | ok h => exact hf _ _ h
  | error f => exact .error f

/-- One computation and then two that are alike on what it answers. -/
theorem after (x : Except Fault α) {f : α → Except Fault γ} {g : α → Except Fault δ}
    (hf : ∀ a, x = .ok a → Alike r' (f a) (g a)) : Alike r' (x >>= f) (x >>= g) := by
  cases x with
  | ok a => exact hf a rfl
  | error f => exact .error f

theorem ite (p : Prop) [Decidable p] (ht : Alike r x y) (hf : Alike r x' y') :
    Alike r (if p then x else x') (if p then y else y') := by
  split
  · exact ht
  · exact hf

theorem eq {y : Except Fault α} (h : Alike (· = ·) x y) : x = y := by
  cases h with
  | ok h => rw [h]
  | error f => rfl

/-- The same steps one after another. -/
theorem foldlM {f : α → γ → Sim α} {g : β → γ → Sim β} (l : List γ)
    (hfg : ∀ {a b}, r a b → ∀ c, Alike r (f a c).result (g b c).result) {a : α} {b : β} (h : r a b) :
    Alike r (l.foldlM f a).result (l.foldlM g b).result := by
  induction l generalizing a b with
  | nil => exact .ok h
  | cons c l ih =>
    simp only [List.foldlM_cons, Sim.result_bind]
    exact (hfg h c).bind fun _ _ h' => ih h'

/-- The same loop, as long as there is more to do in both. -/
theorem iterate {more : α → Bool} {more' : β → Bool} {step : α → Sim α} {step' : β → Sim β}
    (hmore : ∀ {a b}, r a b → more a = more' b) (hstep : ∀ {a b}, r a b → Alike r (step a).result (step' b).result)
    (n : Nat) {a : α} {b : β} (h : r a b) :
    Alike r (Sim.iterate more step n a).result (Sim.iterate more' step' n b).result := by
  induction n generalizing a b with
  | zero => exact .ok h
  | succ n ih =>
    simp only [Sim.result_iterate_succ, hmore h]
    exact .ite _ ((hstep h).bind fun _ _ h' => ih h') (.ok h)

end Alike

namespace Store

variable {n : Nat} {R : Store → Store → Prop} {s t : Store}

/-- A call that inserts no block but at its own address. -/
def Call.Aligned (n : Nat) : Call → Prop
  | .insert addr _ => n ∣ addr
  | .touch _ | .lookup _ | .access _ => True

instance Call.decidableAligned (n : Nat) : (c : Call) → Decidable (c.Aligned n)
  | .insert addr _ => inferInstanceAs (Decidable (n ∣ addr))
  | .touch _ | .lookup _ | .access _ => .isTrue trivial

/-- What leads from related stores to related ones, over blocks of `n` bytes. -/
structure Bisimulation (n : Nat) (R : Store → Store → Prop) : Prop where
  lineSize : ∀ {s t}, R s t → s.lineSize = n ∧ t.lineSize = n
  size : ∀ {s t}, R s t → s.size = t.size
  capacity : ∀ {s t}, R s t → s.capacity = t.capacity
  lookup : ∀ {s t}, R s t → s.lookup = t.lookup
  update : ∀ {s t}, R s t → ∀ addr {f : Line → Line}, (∀ l, (f l).tag = l.tag) → R (s.update addr f) (t.update addr f)
  touch : ∀ {s t}, R s t → ∀ addr, R (s.touch addr) (t.touch addr)
  insert : ∀ {s t}, R s t → ∀ addr data, n ∣ addr →
    Alike (SameWith R) (s.insert addr data).result (t.insert addr data).result

namespace Bisimulation

/-- An access is performed in both stores or in none. -/
theorem access (hR : Bisimulation n R) (h : R s t) (p : Packet) :
    Alike (Option.Rel (SameWith R)) (s.access p).result (t.access p).result := by
  obtain ⟨hs, ht⟩ := hR.lineSize h
  unfold Store.access
  simp only [hs, ht, ← hR.lookup h, Sim.result_bind, Sim.result_liftM]
  refine .after _ fun block _ => ?_
  cases s.lookup block with
  | none => exact .ok .none
  | some l =>
    have hupdate : ∀ data, R (s.update block (·.holding data)) (t.update block (·.holding data)) := fun data =>
      hR.update h block fun _ => rfl
    simp only [apply_ite Sim.result, Sim.result_bind, Sim.result_liftM, Sim.result_trace, Sim.ok_bind, Sim.result_pure]
    exact .ite _ (.after _ fun data _ => .ok (.some ⟨rfl, hupdate data⟩))
      (.after _ fun _ _ => .after _ fun q _ => .ok (.some ⟨rfl, hupdate l.data⟩))

theorem perform (hR : Bisimulation n R) (h : R s t) {c : Call} (hc : c.Aligned n) :
    Alike (SameWith R) (s.perform c).result (t.perform c).result := by
  cases c with
  | insert addr data =>
    simp only [Store.perform, Sim.result_bind, Sim.result_pure]
    refine (hR.insert h addr data hc).bind fun x y hxy => ?_
    obtain ⟨hvictim, h'⟩ := hxy
    exact .ok ⟨congrArg Reply.victim hvictim, h'⟩
  | touch addr => exact .ok ⟨rfl, hR.touch h addr⟩
  | lookup addr => exact .ok ⟨congrArg Reply.found (congrFun (hR.lookup h) addr), h⟩
  | access p =>
    simp only [Store.perform, Sim.result_bind]
    refine (hR.access h p).bind fun x y hxy => ?_
    cases hxy with
    | none => exact .ok ⟨rfl, h⟩
    | some hqs =>
      obtain ⟨hq, h'⟩ := hqs
      exact .ok ⟨congrArg (fun q => Reply.accessed (some q)) hq, h'⟩

/-- Related stores stay related, and reply the same, through any calls that insert
blocks at their own addresses. -/
theorem run (hR : Bisimulation n R) (h : R s t) {calls : List Call}
    (hc : ∀ c ∈ calls, c.Aligned n) :
    Alike (SameWith R) (run calls s).result (run calls t).result := by
  induction calls generalizing s t with
  | nil => exact .ok ⟨rfl, h⟩
  | cons c rest ih =>
    simp only [Store.run, Sim.result_bind, Sim.result_pure]
    obtain ⟨hc, hrest⟩ := List.forall_mem_cons.mp hc
    refine (hR.perform h hc).bind fun x y hxy => ?_
    obtain ⟨hreply, h'⟩ := hxy
    refine (ih h' hrest).bind fun x' y' hxy' => ?_
    obtain ⟨hreplies, h''⟩ := hxy'
    exact .ok ⟨by rw [hreply, hreplies], h''⟩

end Bisimulation

end Store

end CacheSim
