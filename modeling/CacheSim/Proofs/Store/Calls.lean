import CacheSim.Proofs.Packet
import CacheSim.Store.Basic

/-!
# Calls of a store

The calls through which a store is used, what it replies, and runs of calls.
`Store.Allows` says which calls keep the rules of a store: a block is inserted
where it is not resident, whole and at its own address, and a packet that
accesses a block carries a payload and lies within the block.
-/

namespace CacheSim

namespace Store

/-- A call of a store. -/
inductive Call where
  | insert (addr : Nat) (data : Bytes)
  | touch (addr : Nat)
  | lookup (addr : Nat)
  | access (p : Packet)

/-- What a store replies to a call. -/
inductive Reply where
  | victim (line : Option Line)
  | touched
  | found (line : Option Line)
  /-- The packet after the access, if its block is resident. -/
  | accessed (p : Option Packet)
  deriving DecidableEq

/-- Makes a call. -/
def perform (s : Store) : Call → Sim (Reply × Store)
  | .insert addr data => do
    let (victim, s) ← s.insert addr data
    return (.victim victim, s)
  | .touch addr => pure (.touched, s.touch addr)
  | .lookup addr => pure (.found (s.lookup addr), s)
  | .access p => do
    match ← s.access p with
    | none => return (.accessed none, s)
    | some (p, s) => return (.accessed (some p), s)

/-- Makes calls in order. -/
def run : List Call → Store → Sim (List Reply × Store)
  | [], s => pure ([], s)
  | c :: rest, s => do
    let (reply, s) ← s.perform c
    let (replies, s) ← run rest s
    return (reply :: replies, s)

/-- Calls are answered if they are one by one. -/
theorem run_cons_eq_ok {s t : Store} {c : Call} {rest : List Call} {replies : List Reply} :
    (run (c :: rest) s).result = .ok (replies, t) ↔
      ∃ reply u tail, (s.perform c).result = .ok (reply, u) ∧ (run rest u).result = .ok (tail, t) ∧
        replies = reply :: tail := by
  simp only [run, Sim.result_bind, Sim.result_pure, Sim.bind_eq_ok, Prod.exists, Except.ok.injEq, Prod.mk.injEq]
  constructor
  · rintro ⟨reply, u, hu, tail, _, hrest, rfl, rfl⟩
    exact ⟨reply, u, tail, hu, hrest, rfl⟩
  · rintro ⟨reply, u, tail, hu, hrest, rfl⟩
    exact ⟨reply, u, hu, tail, t, hrest, rfl, rfl⟩

/-- A call that keeps the rules. -/
def Allows (s : Store) : Call → Prop
  | .insert addr data => s.lineSize ∣ addr ∧ s.lookup addr = none ∧ data.length = s.lineSize
  | .access p => 0 < s.lineSize ∧ p.Fits s.lineSize ∧ ∃ data ∈ p.payload, data.length = p.size
  | .touch _ | .lookup _ => True

instance (s : Store) : (c : Call) → Decidable (s.Allows c)
  | .insert addr data =>
    inferInstanceAs (Decidable (s.lineSize ∣ addr ∧ s.lookup addr = none ∧ data.length = s.lineSize))
  | .access p =>
    inferInstanceAs (Decidable (0 < s.lineSize ∧ p.Fits s.lineSize ∧ ∃ data ∈ p.payload, data.length = p.size))
  | .touch _ | .lookup _ => .isTrue trivial

/-- All calls keep the rules when their turn comes. -/
def Admits (s : Store) : List Call → Prop
  | [] => True
  | c :: rest =>
    s.Allows c ∧
      match (s.perform c).result with
      | .ok (_, t) => t.Admits rest
      | .error _ => True

instance decidableAdmits (s : Store) : (calls : List Call) → Decidable (s.Admits calls)
  | [] => .isTrue trivial
  | c :: rest =>
    have : Decidable (match (s.perform c).result with | .ok (_, t) => t.Admits rest | .error _ => True) :=
      match (s.perform c).result with
      | .ok (_, t) => decidableAdmits t rest
      | .error _ => .isTrue trivial
    inferInstanceAs (Decidable (_ ∧ _))

end Store

end CacheSim
