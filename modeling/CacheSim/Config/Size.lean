import CacheSim.Text.Blank
import CacheSim.Text.ByteCount
import CacheSim.Text.Digits

/-!
# Memory sizes

A number of bytes, written as a number with an optional unit.  The prefixes are
binary: a kilobyte is 1024 bytes, however it is spelled.
-/

namespace CacheSim

/-- A number of bytes. -/
structure Size where
  bytes : UInt64
  deriving DecidableEq, Inhabited

namespace Size

/-- The units and the powers of two that they stand for. -/
def units : List (String × Nat) :=
  [("", 0), ("B", 0), ("kB", 10), ("KB", 10), ("KiB", 10), ("MB", 20), ("MiB", 20),
    ("GB", 30), ("GiB", 30)]

/-- Digits and a unit, blanks around both left aside.  The number and the size
have to fit into 64 bits. -/
def ofChars? (cs : List Char) : Option Size := do
  let digits := cs.takeWhile Char.isDigit
  let unit := trimBlanks (cs.dropWhile Char.isDigit)
  if digits.isEmpty then none
  let value := Digits.value digits
  if UInt64.size ≤ value then none
  let power ← units.lookup (String.ofList unit)
  let bytes := value <<< power
  if bytes < UInt64.size then some ⟨UInt64.ofNat bytes⟩ else none

/-- The size that a text means. -/
def ofString? (s : String) : Option Size :=
  ofChars? (trimBlanks s.toList)

/-- The size for readers. -/
def text (s : Size) : String :=
  ByteCount.text s.bytes.toNat

end Size

end CacheSim
