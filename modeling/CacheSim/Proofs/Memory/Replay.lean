import CacheSim.Requestor.Completion
import CacheSim.Proofs.Packet

/-!
# Accesses one after another

What the accesses of scripts do to a flat memory when they are executed one at
a time: a read gives the bytes of its range, and a write puts its bytes in place
and gives them back.  `FlatMemory.replay` lists what accepted accesses give in
the order of a history, which is what the completions of a system are compared
with.
-/

namespace CacheSim

/-- An access whose request was accepted. -/
structure Acceptance where
  /-- When its request was accepted. -/
  tick : Tick
  /-- The requestor. -/
  id : Nat
  access : Access
  deriving DecidableEq

/-- The port and the packet of an accepted access. -/
def Acceptance.request (a : Acceptance) : Nat × Packet :=
  (a.id, a.access.toPacket a.id)

namespace Access

variable {a : Access} {size limit : Nat}

/-- All bytes lie in one block, and this block lies below a limit. -/
structure FitsIn (a : Access) (size limit : Nat) : Prop where
  fits : Block.offset size a.addr.toNat + a.size ≤ size
  below : Block.align size a.addr.toNat + size ≤ limit

instance : Decidable (a.FitsIn size limit) :=
  decidable_of_iff
    (Block.offset size a.addr.toNat + a.size ≤ size ∧ Block.align size a.addr.toNat + size ≤ limit)
    ⟨fun ⟨hfits, hbelow⟩ => ⟨hfits, hbelow⟩, fun ⟨hfits, hbelow⟩ => ⟨hfits, hbelow⟩⟩

@[simp] theorem length_bytes (a : Access) : a.bytes.length = a.size := by
  simp only [bytes, List.length_append, List.length_take, Block.length_zeros]
  omega

theorem addr_toPacket (a : Access) (id : Nat) : (a.toPacket id).addr = a.addr.toNat := by
  unfold toPacket
  split <;> rfl

theorem context_toPacket (a : Access) (id : Nat) : (a.toPacket id).request.context = id := by
  unfold toPacket
  split <;> rfl

theorem FitsIn.isAccess (h : a.FitsIn size limit) (id : Nat) : (a.toPacket id).IsAccess size := by
  have hfits : Block.offset size a.addr.toNat + a.bytes.length ≤ size := by simpa using h.fits
  unfold toPacket
  split
  · exact ⟨rfl, h.fits, (fun hw => nomatch hw), .inl rfl⟩
  · exact ⟨rfl, hfits, fun _ => ⟨a.bytes, rfl, rfl⟩, .inl rfl⟩

end Access

namespace FlatMemory

/-- What an access gives: the bytes read, or those written. -/
def outcome (m : FlatMemory) (a : Access) : Bytes :=
  match a.kind with
  | .read => m.read a.addr.toNat a.size
  | .write => a.bytes

/-- The memory after an access. -/
def update (m : FlatMemory) (a : Access) : FlatMemory :=
  match a.kind with
  | .read => m
  | .write => m.write a.addr.toNat a.bytes

/-- The memory after accesses, executed in order. -/
def updates (m : FlatMemory) (as : List Access) : FlatMemory :=
  as.foldl update m

/-- What accesses give that are executed in order. -/
def outcomes (m : FlatMemory) : List Access → List Bytes
  | [] => []
  | a :: as => m.outcome a :: (m.update a).outcomes as

/-- Accepted accesses with what they give if they are executed in order. -/
def replay (m : FlatMemory) (history : List Acceptance) : List (Acceptance × Bytes) :=
  history.zip (m.outcomes (history.map (·.access)))

variable {m : FlatMemory}

/-! ## Accesses and their packets -/

theorem perform_toPacket (m : FlatMemory) (a : Access) (id : Nat) :
    m.perform (a.toPacket id) = m.update a := by
  cases hk : a.kind with
  | read =>
    simp only [Access.toPacket, update, hk]
    exact m.perform_of_read rfl
  | write =>
    simp only [Access.toPacket, update, hk]
    exact m.perform_of_write rfl rfl

theorem payload_answer_toPacket (m : FlatMemory) (a : Access) (id : Nat) :
    (m.answer (a.toPacket id)).payload = some (m.outcome a) := by
  cases hk : a.kind <;> simp only [Access.toPacket, outcome, hk] <;> rfl

theorem isResponse_answer_toPacket (m : FlatMemory) (a : Access) (id : Nat) :
    (m.answer (a.toPacket id)).command.isResponse := by
  unfold Access.toPacket
  split <;> rfl

/-! ## Histories -/

@[simp] theorem length_outcomes (m : FlatMemory) (as : List Access) :
    (m.outcomes as).length = as.length := by
  induction as generalizing m with
  | nil => rfl
  | cons a as ih => simp [outcomes, ih]

theorem outcomes_append (m : FlatMemory) (as bs : List Access) :
    m.outcomes (as ++ bs) = m.outcomes as ++ (m.updates as).outcomes bs := by
  induction as generalizing m with
  | nil => rfl
  | cons a as ih =>
    rw [List.cons_append, outcomes, outcomes, ih, List.cons_append]
    rfl

theorem outcomes_prefix (m : FlatMemory) {as bs : List Access} (h : as <+: bs) :
    m.outcomes as <+: m.outcomes bs := by
  obtain ⟨cs, rfl⟩ := h
  rw [outcomes_append]
  exact List.prefix_append _ _

theorem updates_concat (m : FlatMemory) (as : List Access) (a : Access) :
    m.updates (as ++ [a]) = (m.updates as).update a :=
  List.foldl_append

@[simp] theorem map_fst_replay (m : FlatMemory) (history : List Acceptance) :
    (m.replay history).map (·.1) = history := by
  refine List.map_fst_zip ?_
  simp

@[simp] theorem map_snd_replay (m : FlatMemory) (history : List Acceptance) :
    (m.replay history).map (·.2) = m.outcomes (history.map (·.access)) := by
  refine List.map_snd_zip ?_
  simp

/-- The last access of a history gives what the memory after the others gives. -/
theorem replay_concat (m : FlatMemory) (history : List Acceptance) (a : Acceptance) :
    m.replay (history ++ [a]) =
      m.replay history ++ [(a, (m.updates (history.map (·.access))).outcome a.access)] := by
  rw [replay, List.map_append, outcomes_append, List.zip_append (by simp)]
  rfl

/-- The accesses of one requestor in a history are those that its replies are for. -/
theorem map_fst_filter_replay (m : FlatMemory) (history : List Acceptance) (id : Nat) :
    ((m.replay history).filter (·.1.id == id)).map (·.1) = history.filter (·.id == id) := by
  have h := List.filter_map (p := (·.id == id)) (f := Prod.fst) (l := m.replay history)
  rw [map_fst_replay] at h
  exact h.symm

end FlatMemory

end CacheSim
