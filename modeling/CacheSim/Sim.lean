import CacheSim.Journal

/-!
# Computations of the simulator

A `Sim α` computes an `α` or stops with a `Fault`, and notes in a journal what
it does.  The journal is written and never read: every computation carries the
proof that its result does not depend on it.  So `Sim.result` forgets the
notes and keeps the meaning:

* `result_pure`, `result_bind`, `result_ofExcept`: it respects the structure of
  a computation;
* `result_note`, `result_fail`: a note changes nothing, a fault ends all;
* `result_mapM`, `result_iterate_succ`: a traversal is the list of its answers,
  and a loop is its first step and the rest of the loop;
* `foldlM_keeps`, `iterate_keeps`: what every step keeps if it answers, a fold
  or a loop keeps.
-/

namespace CacheSim

/-- A computation that may stop with a fault and keeps a journal. -/
structure Sim (α : Type) where
  run : Journal → Except Fault α × Journal
  /-- The journal has no influence on the result. -/
  quiet : ∀ j k, (run j).1 = (run k).1

namespace Sim

variable {α β : Type}

/-- What a computation answers, its notes left aside. -/
def result (x : Sim α) : Except Fault α :=
  (x.run Journal.off).1

theorem run_fst (x : Sim α) (j : Journal) : (x.run j).1 = x.result :=
  x.quiet j _

/-- The computation that answers `a`. -/
@[inline] protected def pure (a : α) : Sim α :=
  ⟨fun j => (.ok a, j), fun _ _ => rfl⟩

/-- The computation that stops. -/
@[inline] def fail (e : Fault) : Sim α :=
  ⟨fun j => (.error e, j), fun _ _ => rfl⟩

/-- A result as a computation without notes. -/
@[inline] def ofExcept (x : Except Fault α) : Sim α :=
  ⟨fun j => (x, j), fun _ _ => rfl⟩

/-- Writes a note. -/
@[inline] def note (n : Note) : Sim Unit :=
  ⟨fun j => (.ok (), j.record n), fun _ _ => rfl⟩

/-- Notes what happens to the whole system. -/
@[inline] def info (text : Unit → Except Fault String) : Sim Unit :=
  note ⟨.info, text⟩

/-- Notes a detail of the work of a component. -/
@[inline] def debug (text : Unit → Except Fault String) : Sim Unit :=
  note ⟨.debug, text⟩

/-- Notes the contents that the work of a component moves. -/
@[inline] def trace (text : Unit → Except Fault String) : Sim Unit :=
  note ⟨.trace, text⟩

/-- One computation after the other; a fault skips the second. -/
@[inline] protected def bind (x : Sim α) (f : α → Sim β) : Sim β where
  run j :=
    match x.run j with
    | (.ok a, j) => (f a).run j
    | (.error e, j) => (.error e, j)
  quiet j k := by
    have h := x.quiet j k
    generalize hj : x.run j = u at h
    generalize hk : x.run k = v at h
    obtain ⟨u, j'⟩ := u
    obtain ⟨v, k'⟩ := v
    obtain rfl : u = v := h
    cases u with
    | ok a => exact (f a).quiet j' k'
    | error e => rfl

@[always_inline]
instance : Monad Sim where
  pure := Sim.pure
  bind := Sim.bind

@[always_inline]
instance : MonadLift (Except Fault) Sim where
  monadLift := Sim.ofExcept

instance : Inhabited (Sim α) :=
  ⟨fail .emptyRange⟩

/-- Runs a computation with a reader at the journal: a note that has no text
stops it. -/
def observe (x : Sim α) (j : Journal) : Except Fault α × Journal :=
  let (r, k) := x.run j
  match k.fault? j.notes.size with
  | some e => (.error e, k)
  | none => (r, k)

/-- Stops with the fault unless the condition holds. -/
@[inline] def require (p : Prop) [Decidable p] (e : Fault) : Sim Unit :=
  if p then pure () else fail e

/-- The loop of `iterate`, journal in hand. -/
def iterateRun (more : α → Bool) (step : α → Sim α) :
    Nat → α → Journal → Except Fault α × Journal
  | 0, s, j => (.ok s, j)
  | n + 1, s, j =>
    if more s then
      match (step s).run j with
      | (.ok s, j) => iterateRun more step n s j
      | (.error e, j) => (.error e, j)
    else (.ok s, j)

/-- Repeats a step as long as there is more to do, at most `n` times. -/
def iterate (more : α → Bool) (step : α → Sim α) (n : Nat) (s : α) : Sim α where
  run := iterateRun more step n s
  quiet j k := by
    induction n generalizing s j k with
    | zero => rfl
    | succ n ih =>
      have h := (step s).quiet j k
      simp only [iterateRun]
      split
      · generalize (step s).run j = u at h
        generalize (step s).run k = v at h
        obtain ⟨u, j'⟩ := u
        obtain ⟨v, k'⟩ := v
        obtain rfl : u = v := h
        cases u with
        | ok s => exact ih s j' k'
        | error e => rfl
      · rfl

@[simp] theorem result_pure (a : α) : (pure a : Sim α).result = .ok a :=
  rfl

@[simp] theorem result_fail (e : Fault) : (fail e : Sim α).result = .error e :=
  rfl

@[simp] theorem result_ofExcept (x : Except Fault α) : (ofExcept x).result = x :=
  rfl

@[simp] theorem result_liftM (x : Except Fault α) : (liftM x : Sim α).result = x :=
  rfl

/-- A result goes on with what it answers. -/
@[simp] theorem ok_bind (a : α) (f : α → Except Fault β) : (Except.ok a >>= f) = f a :=
  rfl

@[simp] theorem error_bind (e : Fault) (f : α → Except Fault β) :
    ((Except.error e : Except Fault α) >>= f) = .error e :=
  rfl

theorem exists_eq_ok {x : Except Fault α} (h : x.isOk) : ∃ a, x = .ok a := by
  cases x with
  | ok a => exact ⟨a, rfl⟩
  | error e => cases h

/-- Two results one after the other answer if both do. -/
theorem bind_eq_ok {x : Except Fault α} {f : α → Except Fault β} {b : β} :
    (x >>= f) = .ok b ↔ ∃ a, x = .ok a ∧ f a = .ok b := by
  cases x with
  | error e => simp
  | ok a => simp

@[simp] theorem result_note (n : Note) : (note n).result = .ok () :=
  rfl

@[simp] theorem result_info (text : Unit → Except Fault String) : (info text).result = .ok () :=
  rfl

@[simp] theorem result_debug (text : Unit → Except Fault String) : (debug text).result = .ok () :=
  rfl

@[simp] theorem result_trace (text : Unit → Except Fault String) : (trace text).result = .ok () :=
  rfl

@[simp] theorem result_bind (x : Sim α) (f : α → Sim β) :
    (x >>= f).result = x.result >>= fun a => (f a).result := by
  show (Sim.bind x f).result = _
  unfold Sim.bind result
  dsimp only
  rcases h : x.run Journal.off with ⟨_ | a, j⟩
  · rfl
  · exact (f a).run_fst j

@[simp] theorem result_require (p : Prop) [Decidable p] (e : Fault) :
    (require p e).result = if p then .ok () else .error e := by
  unfold require; split <;> rfl

/-- A requirement that did not fail is met. -/
theorem of_require {p : Prop} [Decidable p] {e : Fault} {u : Unit} (h : (require p e).result = .ok u) : p := by
  rw [result_require] at h
  split at h
  · assumption
  · cases h

theorem result_mapM_loop {f : α → Sim β} {g : α → β} (l : List α) (acc : List β)
    (h : ∀ a ∈ l, (f a).result = .ok (g a)) :
    (List.mapM.loop f l acc).result = .ok (acc.reverse ++ l.map g) := by
  induction l generalizing acc with
  | nil => simp [List.mapM.loop]
  | cons a l ih =>
    have ha := h a (List.mem_cons_self ..)
    have hl := ih (g a :: acc) fun b hb => h b (List.mem_cons_of_mem a hb)
    simp [List.mapM.loop, ha, hl]

/-- Computations that all answer make a list of the answers. -/
theorem result_mapM {f : α → Sim β} {g : α → β} {l : List α}
    (h : ∀ a ∈ l, (f a).result = .ok (g a)) : (l.mapM f).result = .ok (l.map g) :=
  result_mapM_loop l [] h

@[simp] theorem result_iterate_zero (more : α → Bool) (step : α → Sim α) (s : α) :
    (iterate more step 0 s).result = .ok s :=
  rfl

theorem result_iterate_succ (more : α → Bool) (step : α → Sim α) (n : Nat) (s : α) :
    (iterate more step (n + 1) s).result =
      if more s then (step s).result >>= fun s => (iterate more step n s).result
      else .ok s := by
  show (iterateRun more step (n + 1) s Journal.off).1 = _
  simp only [iterateRun]
  split
  · unfold result
    rcases (step s).run Journal.off with ⟨_ | s, j⟩
    · rfl
    · exact (iterate more step n s).quiet j _
  · rfl

variable {I : α → Prop}

theorem foldlM_keeps {f : α → β → Sim α} {l : List β} {a b : α} (h : (l.foldlM f a).result = .ok b) (ha : I a)
    (hf : ∀ {x y c}, (f x c).result = .ok y → I x → I y) : I b := by
  induction l generalizing a with
  | nil =>
    obtain rfl := Except.ok.inj h
    exact ha
  | cons c l ih =>
    rw [List.foldlM_cons, result_bind] at h
    obtain ⟨x, hx, h⟩ := bind_eq_ok.mp h
    exact ih h (hf hx ha)

theorem iterate_keeps {more : α → Bool} {step : α → Sim α} {n : Nat} {a b : α}
    (h : (iterate more step n a).result = .ok b) (ha : I a)
    (hstep : ∀ {x y}, (step x).result = .ok y → I x → I y) : I b := by
  induction n generalizing a with
  | zero =>
    obtain rfl := Except.ok.inj h
    exact ha
  | succ n ih =>
    rw [result_iterate_succ] at h
    split at h
    · obtain ⟨x, hx, h⟩ := bind_eq_ok.mp h
      exact ih h (hstep hx ha)
    · obtain rfl := Except.ok.inj h
      exact ha

end Sim

end CacheSim
