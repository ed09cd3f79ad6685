import CacheSim.Proofs.Port

/-!
# Peers that do as they like

A requestor that takes or refuses every response, and a memory that performs or
refuses every request, each as an arbitrary sequence of choices says.
-/

namespace CacheSim

/-- A requestor that takes responses as it chooses. -/
structure FreeRequestor where
  /-- Whether it takes the response that it is offered as the `n`th one. -/
  choices : Nat → Bool
  offered : Nat := 0
  taken : List Packet := []

namespace FreeRequestor

/-- Takes a response or hands it back. -/
def respond (r : FreeRequestor) (p : Packet) : Handshake × FreeRequestor :=
  if r.choices r.offered then
    (.accepted, { r with offered := r.offered + 1, taken := r.taken ++ [p] })
  else (.refused p, { r with offered := r.offered + 1 })

instance : LawfulRequestor FreeRequestor where
  receive r p := pure (r.respond p)
  retry r := r
  rangesChanged r := r
  respond := respond
  taken := taken
  result_receive _ _ := rfl
  respond_cases r p := by
    unfold respond
    split
    · exact .inl ⟨rfl, rfl⟩
    · exact .inr ⟨rfl, rfl⟩
  taken_retry _ := rfl

end FreeRequestor

/-- A memory over all addresses that accepts requests as it chooses. -/
structure FreeMemory where
  /-- Whether it accepts the request that it is offered as the `n`th one. -/
  choices : Nat → Bool
  offered : Nat := 0
  contents : FlatMemory
  /-- The answers to accepted requests that it did not give yet. -/
  owed : List Packet := []

namespace FreeMemory

/-- Performs a request or hands it back. -/
def handle (m : FreeMemory) (p : Packet) : Handshake × FreeMemory :=
  if m.choices m.offered then
    (.accepted, { m with
      offered := m.offered + 1
      contents := m.contents.perform p
      owed := m.owed ++ m.contents.answers [p] })
  else (.refused p, { m with offered := m.offered + 1 })

instance : LawfulMemory FreeMemory where
  receive m p := pure (m.handle p)
  functional m p := pure (m.contents.answer p, { m with contents := m.contents.perform p })
  ranges _ := []
  handle := handle
  Serves _ _ := True
  contents := contents
  owed := owed
  result_receive _ := rfl
  handle_cases {m p} _ := by
    unfold handle
    split
    · exact .inl ⟨rfl, rfl, rfl⟩
    · exact .inr ⟨rfl, rfl, rfl⟩
  serves_handle _ _ := trivial

end FreeMemory

end CacheSim
