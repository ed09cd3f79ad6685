import CacheSim.Proofs.Packet
import CacheSim.Sim

/-!
# Blanked bytes

What is left of a packet or a memory when all bytes are set to zero.  Whatever
is done with bytes can be done with blanked bytes as well, and gives the same
blanked (`Agree`): a block is cut or overlaid at the same places, and a packet
is answered by the same command.  Only lengths count.
-/

namespace CacheSim

/-- Two results are the same seen through `e`: an answer each, or a fault each. -/
inductive Agree {α β : Type} (e : α → β) : Except Fault α → Except Fault β → Prop
  | ok (a : α) : Agree e (.ok a) (.ok (e a))
  | error (f g : Fault) : Agree e (.error f) (.error g)

namespace Agree

variable {α β γ δ : Type} {e : α → β} {e' : γ → δ} {x x' : Except Fault α} {y y' : Except Fault β}

theorem of_eq {a : α} {b : β} (h : b = e a) : Agree e (.ok a) (.ok b) :=
  h ▸ .ok a

protected theorem refl (x : Except Fault α) : Agree id x x := by
  cases x with
  | ok a => exact .ok a
  | error f => exact .error f f

/-- One computation after the other, where the second one starts from an answer
of the first. -/
theorem bind_of_ok {f : α → Except Fault γ} {g : β → Except Fault δ} (h : Agree e x y)
    (hf : ∀ a, x = .ok a → Agree e' (f a) (g (e a))) : Agree e' (x >>= f) (y >>= g) := by
  cases h with
  | ok a => exact hf a rfl
  | error f g => exact .error f g

/-- One computation after the other. -/
theorem bind {f : α → Except Fault γ} {g : β → Except Fault δ} (h : Agree e x y)
    (hf : ∀ a, Agree e' (f a) (g (e a))) : Agree e' (x >>= f) (y >>= g) :=
  h.bind_of_ok fun a _ => hf a

/-- A choice that does not depend on what is different. -/
theorem ite {p q : Prop} [Decidable p] [Decidable q] (hpq : p ↔ q) (ht : Agree e x y) (hf : Agree e x' y') :
    Agree e (if p then x else x') (if q then y else y') := by
  by_cases hp : p
  · rwa [if_pos hp, if_pos (hpq.mp hp)]
  · rwa [if_neg hp, if_neg fun hq => hp (hpq.mpr hq)]

theorem require {p q : Prop} [Decidable p] [Decidable q] (hpq : p ↔ q) (f g : Fault) :
    Agree id (Sim.require p f).result (Sim.require q g).result := by
  rw [Sim.result_require, Sim.result_require]
  exact .ite hpq (.ok ()) (.error f g)

/-- What two results answer. -/
theorem toOption_eq (h : Agree e x y) : x.toOption.map e = y.toOption := by
  cases h <;> rfl

end Agree

/-! ## Bytes -/

namespace Block

/-- As many zeros as there are bytes. -/
def blank (data : Bytes) : Bytes :=
  data.map fun _ => 0

@[simp] theorem length_blank (data : Bytes) : (blank data).length = data.length :=
  List.length_map _

theorem blank_eq_zeros (data : Bytes) : blank data = zeros data.length :=
  List.map_const' ..

theorem blank_congr {data other : Bytes} (h : data.length = other.length) : blank data = blank other := by
  rw [blank_eq_zeros, blank_eq_zeros, h]

@[simp] theorem blank_zeros (size : Nat) : blank (zeros size) = zeros size := by
  rw [blank_eq_zeros, length_zeros]

theorem blank_overlay (block : Bytes) (offset : Nat) (data : Bytes) :
    blank (overlay block offset data) = overlay (blank block) offset (blank data) := by
  simp only [blank, overlay, List.map_append, List.map_take, List.map_drop, List.length_map]

theorem blank_slice (block : Bytes) (offset size : Nat) :
    blank (slice block offset size) = slice (blank block) offset size := by
  simp [blank, slice, List.map_take, List.map_drop]

end Block

/-! ## Packets -/

namespace Packet

/-- The packet with zeros for its payload. -/
def blank (p : Packet) : Packet :=
  { p with payload := p.payload.map Block.blank }

variable {p : Packet} {block : Bytes} {size : Nat}

@[simp] theorem addr_blank (p : Packet) : p.blank.addr = p.addr := rfl
@[simp] theorem size_blank (p : Packet) : p.blank.size = p.size := rfl
@[simp] theorem command_blank (p : Packet) : p.blank.command = p.command := rfl
@[simp] theorem payload_blank (p : Packet) : p.blank.payload = p.payload.map Block.blank := rfl

theorem fits_blank (p : Packet) (size : Nat) : p.blank.Fits size ↔ p.Fits size :=
  Iff.rfl

/-- Whether a request is one that a requestor may make does not depend on its bytes. -/
theorem isAccess_blank (p : Packet) (size : Nat) : p.blank.IsAccess size ↔ p.IsAccess size := by
  have hcarries : p.blank.Carries ↔ p.Carries := by
    simp only [Carries, command_blank, payload_blank, size_blank, Option.map_eq_some_iff]
    refine imp_congr_right fun _ => ⟨?_, ?_⟩
    · rintro ⟨-, ⟨data, hdata, rfl⟩, hlength⟩
      exact ⟨data, hdata, by rwa [Block.length_blank] at hlength⟩
    · rintro ⟨data, hdata, hlength⟩
      exact ⟨_, ⟨data, hdata, rfl⟩, by rwa [Block.length_blank]⟩
  exact ⟨fun h => ⟨h.needsResponse, h.fits, hcarries.mp h.carries, h.aroundRequest⟩,
    fun h => ⟨h.needsResponse, h.fits, hcarries.mpr h.carries, h.aroundRequest⟩⟩

theorem agree_data? (p : Packet) : Agree Block.blank p.data? p.blank.data? := by
  unfold data?
  rw [payload_blank]
  cases p.payload with
  | none => exact .error _ _
  | some data => exact .ok data

theorem agree_respond? (p : Packet) : Agree blank p.respond? p.blank.respond? := by
  unfold respond?
  rw [command_blank]
  cases p.command.response? with
  | none => exact .error _ _
  | some command => exact .ok _

/-- A packet that nobody gave a payload is the same blanked. -/
theorem agree_ofBlock? (p : Packet) (command : Command) (size : Nat) :
    Agree blank (ofBlock? p.request command size) (ofBlock? p.blank.request command size) :=
  .bind (.refl _) fun _ => .ok _

theorem agree_checkBlock (p : Packet) (block : Bytes) (size : Nat) :
    Agree id (p.checkBlock block size) (p.blank.checkBlock (Block.blank block) size) := by
  unfold checkBlock fits?
  simp only [Block.length_blank, addr_blank, fits_blank]
  exact .ite Iff.rfl (.bind (.refl _) fun _ => .ite Iff.rfl (.ok ()) (.error _ _)) (.error _ _)

theorem agree_readFromBlock (p : Packet) (block : Bytes) (size : Nat) :
    Agree blank (p.readFromBlock block size) (p.blank.readFromBlock (Block.blank block) size) := by
  refine .bind (p.agree_checkBlock block size) fun _ => .of_eq ?_
  simp only [blank, offset, Option.map_some, Block.blank_slice]

theorem agree_writeToBlock (p : Packet) (block : Bytes) (size : Nat) :
    Agree Block.blank (p.writeToBlock block size) (p.blank.writeToBlock (Block.blank block) size) :=
  .bind (p.agree_checkBlock block size) fun _ => .bind p.agree_data? fun data =>
    .of_eq (Block.blank_overlay block (p.offset size) data).symm

theorem agree_against (p : Packet) (block : Bytes) (size : Nat) :
    Agree (Prod.map blank Block.blank) (p.against block size) (p.blank.against (Block.blank block) size) :=
  .ite Iff.rfl (.bind (p.agree_writeToBlock block size) fun _ => .ok _)
    (.bind (p.agree_readFromBlock block size) fun _ => .ok _)

/-- A write leaves a block as long as it was. -/
theorem IsAccess.length_writeToBlock {data : Bytes} (h : p.IsAccess size) (hw : p.command.isWrite)
    (hlength : block.length = size) (hdata : p.writeToBlock block size = .ok data) : data.length = block.length := by
  obtain ⟨payload, hpayload, hsize⟩ := h.carries hw
  have hfits : p.offset size + p.size ≤ size := h.fits
  obtain ⟨-, -, hdata⟩ := Sim.bind_eq_ok.mp hdata
  obtain ⟨payload', hpayload', hdata⟩ := Sim.bind_eq_ok.mp hdata
  obtain rfl : payload = payload' := by
    rw [data?, hpayload] at hpayload'
    exact Except.ok.inj hpayload'
  obtain rfl := Except.ok.inj hdata
  exact Block.length_overlay (by omega)

theorem IsAccess.length_against {x : Packet × Bytes} (h : p.IsAccess size) (hlength : block.length = size)
    (hx : p.against block size = .ok x) : x.2.length = size := by
  unfold against at hx
  split at hx
  · obtain ⟨data, hdata, hx⟩ := Sim.bind_eq_ok.mp hx
    obtain rfl := Except.ok.inj hx
    exact (h.length_writeToBlock ‹_› hlength hdata).trans hlength
  · obtain ⟨q, -, hx⟩ := Sim.bind_eq_ok.mp hx
    obtain rfl := Except.ok.inj hx
    exact hlength

@[simp] theorem blank_allocate (p : Packet) : p.allocate.blank = p.blank.allocate := by
  cases hp : p.payload <;> simp [allocate, blank, hp]

theorem blank_writeback (addr : Nat) (data : Bytes) :
    (writeback addr data).blank = writeback addr (Block.blank data) := by
  simp [writeback, carrying, bare, ofRequest, blank]

end Packet

/-! ## Memories -/

namespace FlatMemory

/-- The memory of zeros. -/
def zeros : FlatMemory :=
  fun _ => 0

theorem read_zeros (addr size : Nat) : zeros.read addr size = Block.zeros size := by
  simp only [read, zeros, Block.zeros, List.map_const', List.length_range]

/-- Writing zeros into zeros changes nothing. -/
@[simp] theorem perform_zeros (p : Packet) : zeros.perform p.blank = zeros := by
  have hwrite : ∀ data : Bytes, zeros.write p.addr (Block.blank data) = zeros := fun data => by
    funext a
    simp only [write, zeros, Block.blank, List.getD_eq_getElem?_getD, List.getElem?_map]
    cases data[a - p.addr]? <;> simp
  unfold perform
  rw [Packet.command_blank]
  split
  · cases hp : p.payload with
    | none => simpa [Block.blank, Packet.payload_blank, hp] using hwrite []
    | some data => simpa [Packet.payload_blank, hp] using hwrite data
  · rfl

/-- The answer to a packet is as long whatever the memory holds. -/
@[simp] theorem answer_zeros (m : FlatMemory) (p : Packet) : zeros.answer p.blank = (m.answer p).blank := by
  obtain ⟨request, addr, size, command, payload, label⟩ := p
  cases hw : command.isWrite with
  | true => simp [answer, Packet.blank, hw]
  | false => simp [answer, Packet.blank, hw, read_zeros, Block.blank_eq_zeros]

theorem answers_zeros (m : FlatMemory) (p : Packet) :
    zeros.answers [p.blank] = (m.answers [p]).map Packet.blank := by
  simp only [answers, Packet.command_blank, answer_zeros m]
  split <;> rfl

end FlatMemory

end CacheSim
