import CacheSim.Text.Hex
import CacheSim.Yaml.Cursor

/-!
# Tags

A tag says what a node is.  It is an address, and most often only its end is
written, behind a handle that stands for its start.  An address is a row of
bytes: those that have no character of their own are written as a percent sign
and two digits, and they have to come in the lengths that characters have.
-/

namespace CacheSim.Yaml

/-- The address of what a node is. -/
abbrev Tag := Bytes

namespace Tag

/-- The address of a text. -/
def ofText (s : String) : Tag :=
  s.toUTF8.toList

/-- What the addresses of the standard types start with. -/
def standard : Tag :=
  ofText "tag:yaml.org,2002:"

/-- The tag of integers. -/
def integer : Tag :=
  standard ++ ofText "int"

/-- The tag of truth values. -/
def bool : Tag :=
  standard ++ ofText "bool"

/-- The tag of numbers with a fraction. -/
def real : Tag :=
  standard ++ ofText "float"

/-- The tag of null. -/
def null : Tag :=
  standard ++ ofText "null"

/-- What a tag that only this document knows says, and that is a text. -/
def localName? (t : Tag) : Option String :=
  match t with
  | 0x21 :: rest => String.fromUTF8? ⟨(if rest.isEmpty then t else rest).toArray⟩
  | _ => none

/-! ## Addresses -/

/-- The number of bytes of a character, from its first one. -/
def width? (b : Nat) : Option Nat :=
  if b < 0x80 then some 1
  else if b < 0xc0 then none
  else if b < 0xe0 then some 2
  else if b < 0xf0 then some 3
  else if b < 0xf8 then some 4
  else none

/-- A character of an address.  Brackets and commas belong to it only where
nothing else could be meant. -/
def isAddress (brackets : Bool) (c : Char) : Bool :=
  isWord c
    || [';', '/', '?', ':', '@', '&', '=', '+', '$', '.', '!', '~', '*', '\'', '(', ')'].contains c
    || (brackets && (c = ',' || c = '[' || c = ']'))

/-- The bytes of an address behind those in `done`, which are in reverse order,
and the number of characters behind `n`; `due` bytes of the last character are
still to come. -/
def bytes? (brackets : Bool) (due : Nat) (done : Bytes) (n : Nat) :
    List Char → Option (Bytes × Nat)
  | '%' :: a :: b :: rest =>
    match Hex.digit? a, Hex.digit? b with
    | some a, some b =>
      let byte := 16 * a + b
      if due = 0 then
        match width? byte with
        | some w => bytes? brackets (w - 1) (UInt8.ofNat byte :: done) (n + 3) rest
        | none => none
      else if 0x80 ≤ byte ∧ byte < 0xc0 then
        bytes? brackets (due - 1) (UInt8.ofNat byte :: done) (n + 3) rest
      else none
    | _, _ => none
  | '%' :: _ => none
  | c :: rest =>
    if due ≠ 0 then none
    else if isAddress brackets c then bytes? brackets 0 (UInt8.ofNat c.toNat :: done) (n + 1) rest
    else some (done.reverse, n)
  | [] => if due ≠ 0 then none else some (done.reverse, n)

/-- The address at a place, which has at least one character, and the place
behind it.  Nothing counts from a zero byte on. -/
def address? (brackets : Bool) (c : Cursor) : Option (Tag × Cursor) := do
  let (bytes, n) ← bytes? brackets 0 [] 0 c.rest
  if n = 0 then none else return (bytes.takeWhile (· ≠ 0), c.skip n)

/-! ## Handles -/

/-- A handle at a place: an exclamation mark, or a word between two of them. -/
def handle? (c : Cursor) : Option (String × Cursor) :=
  if c.starts '!' then
    let (word, after) := (c.skip 1).takeWhile isWord
    if after.starts '!' then some (String.ofList ('!' :: word ++ ['!']), after.skip 1)
    else if word.isEmpty then some ("!", after)
    else none
  else none

/-- A tag at a place as it is written: a handle, which is empty if the whole
address is there, and what follows it. -/
def written? (c : Cursor) : Option (String × Tag × Cursor) :=
  if (c.skip 1).starts '<' then do
    let (address, after) ← address? true (c.skip 2)
    if after.starts '>' then return ("", address, after.skip 1) else none
  else
    let (_, behind) := (c.skip 1).takeWhile isWord
    if behind.starts '!' then do
      let (handle, after) ← handle? c
      let (address, after) ← address? false after
      return (handle, address, after)
    else do
      let (bytes, n) ← bytes? false 0 [] 0 (c.skip 1).rest
      let address := bytes.takeWhile (· ≠ 0)
      let after := c.skip (1 + n)
      if address.isEmpty then return ("", ofText "!", after) else return ("!", address, after)

end Tag

end CacheSim.Yaml
