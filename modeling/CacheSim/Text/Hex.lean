/-!
# Hexadecimal text

Numbers as `0x2a`, bytes as two lower case digits each, and byte strings either
dumped with blanks between the bytes or packed without.
-/

namespace CacheSim

/-- The bytes of a payload, a line or a range of memory. -/
abbrev Bytes := List UInt8

namespace Hex

/-- The digits of a number, most significant first, without leading zeros. -/
def digits (n : Nat) : String :=
  String.ofList (Nat.toDigits 16 n)

/-- A number behind its marker. -/
def number (n : Nat) : String :=
  "0x" ++ digits n

/-- The two digits of a byte, high half first. -/
def byteDigits (b : UInt8) : List Char :=
  [Nat.digitChar (b.toNat / 16), Nat.digitChar (b.toNat % 16)]

/-- Bytes with a blank between two of them. -/
def dump (data : Bytes) : String :=
  " ".intercalate (data.map fun b => String.ofList (byteDigits b))

/-- Bytes without separators. -/
def pack (data : Bytes) : String :=
  String.ofList (data.flatMap byteDigits)

/-- All sixteen digits of a 64 bit word behind the marker. -/
def word (w : UInt64) : String :=
  let ds := Nat.toDigits 16 w.toNat
  "0x" ++ String.ofList (List.replicate (16 - ds.length) '0' ++ ds)

/-- The value of a digit of either case. -/
def digit? (c : Char) : Option Nat :=
  if c.isDigit then some (c.toNat - '0'.toNat)
  else if 'a' ≤ c ∧ c ≤ 'f' then some (c.toNat - 'a'.toNat + 10)
  else if 'A' ≤ c ∧ c ≤ 'F' then some (c.toNat - 'A'.toNat + 10)
  else none

/-- Reads packed bytes back. -/
def unpackChars : List Char → Option Bytes
  | [] => some []
  | [_] => none
  | h :: l :: rest => do
    let h ← digit? h
    let l ← digit? l
    return UInt8.ofNat (16 * h + l) :: (← unpackChars rest)

/-- Reads a packed byte string back. -/
def unpack? (s : String) : Option Bytes :=
  unpackChars s.toList

end Hex

end CacheSim
