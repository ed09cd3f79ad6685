import CacheSim.Text.Hex

/-!
# Cache lines

A resident block with the times that replacement looks at.
-/

namespace CacheSim

/-- A resident block. -/
structure Line where
  /-- The address of the block. -/
  tag : Nat
  data : Bytes
  /-- When the block came, in the logical time of its store. -/
  allocTime : Nat
  /-- When it was last touched, in the same time. -/
  lastAccess : Nat
  deriving DecidableEq, Inhabited

namespace Line

/-- A block that comes now. -/
def fresh (tag : Nat) (data : Bytes) (time : Nat) : Line :=
  { tag, data, allocTime := time, lastAccess := time }

/-- The line after an access at a time. -/
def touched (l : Line) (time : Nat) : Line :=
  { l with lastAccess := time }

/-- The line with other data. -/
def holding (l : Line) (data : Bytes) : Line :=
  { l with data }

/-- The line by its address. -/
def text (l : Line) : String :=
  s!"Line({Hex.number l.tag})"

/-- All fields but the bytes, of which only the number is shown. -/
def fieldText (l : Line) : String :=
  s!"Line \x7b tag: \"{Hex.number l.tag}\", size: {l.data.length}, "
    ++ s!"alloc_time: {l.allocTime}, last_access_time: {l.lastAccess} \x7d"

@[simp] theorem tag_fresh (tag : Nat) (data : Bytes) (time : Nat) : (fresh tag data time).tag = tag := rfl
@[simp] theorem data_fresh (tag : Nat) (data : Bytes) (time : Nat) : (fresh tag data time).data = data := rfl
@[simp] theorem tag_touched (l : Line) (time : Nat) : (l.touched time).tag = l.tag := rfl
@[simp] theorem data_touched (l : Line) (time : Nat) : (l.touched time).data = l.data := rfl
@[simp] theorem tag_holding (l : Line) (data : Bytes) : (l.holding data).tag = l.tag := rfl
@[simp] theorem data_holding (l : Line) (data : Bytes) : (l.holding data).data = data := rfl

end Line

end CacheSim
