import CacheSim.Document
import CacheSim.Text.Digits
import CacheSim.Text.Hex

/-!
# Reading JSON

`parse?` reads a text that holds exactly one JSON value.  Numbers with a
fraction or an exponent, and minus zero, are not integers.  A string with half
of a surrogate pair is well-formed but has no text.
-/

namespace CacheSim.Json

/-- The blanks between tokens. -/
def isBlank (c : Char) : Bool :=
  c = ' ' || c = '\t' || c = '\n' || c = '\r'

/-- The text from the next token on. -/
def skipBlanks (cs : List Char) : List Char :=
  cs.dropWhile isBlank

/-- The character of an escape of one letter. -/
def escape? : Char → Option Char
  | '"' => some '"'
  | '\\' => some '\\'
  | '/' => some '/'
  | 'b' => some '\x08'
  | 'f' => some '\x0c'
  | 'n' => some '\n'
  | 'r' => some '\r'
  | 't' => some '\t'
  | _ => none

/-- The value of four hexadecimal digits. -/
def unit? (a b c d : Char) : Option Nat := do
  let a ← Hex.digit? a
  let b ← Hex.digit? b
  let c ← Hex.digit? c
  let d ← Hex.digit? d
  return ((a * 16 + b) * 16 + c) * 16 + d

/-- The character of a code point above the first plane, from its two halves. -/
def pair (high low : Nat) : Char :=
  Char.ofNat (0x10000 + (high - 0xd800) * 0x400 + (low - 0xdc00))

/-- Appends the character of a code, which must not be half of a surrogate pair. -/
def alone (done : Option (List Char)) (code : Nat) : Option (List Char) :=
  if 0xd800 ≤ code ∧ code < 0xe000 then none else done.map (Char.ofNat code :: ·)

/-- The rest of a string up to its closing quote.  The characters read so far
are in `done`, the last one in front; there are none any more once half of a
surrogate pair stood alone, but the rest has to be well-formed all the same. -/
def stringRest (done : Option (List Char)) : List Char → Option (Option String × List Char)
  | '"' :: rest => some (done.map fun cs => String.ofList cs.reverse, rest)
  | '\\' :: 'u' :: a :: b :: c :: d :: '\\' :: 'u' :: e :: f :: g :: h :: rest =>
    match unit? a b c d with
    | none => none
    | some code =>
      if 0xd800 ≤ code ∧ code < 0xdc00 then
        match unit? e f g h with
        | none => none
        | some low =>
          if 0xdc00 ≤ low ∧ low < 0xe000 then stringRest (done.map (pair code low :: ·)) rest
          else stringRest none ('\\' :: 'u' :: e :: f :: g :: h :: rest)
      else stringRest (alone done code) ('\\' :: 'u' :: e :: f :: g :: h :: rest)
  | '\\' :: 'u' :: a :: b :: c :: d :: rest =>
    match unit? a b c d with
    | none => none
    | some code => stringRest (alone done code) rest
  | '\\' :: c :: rest =>
    match escape? c with
    | none => none
    | some c => stringRest (done.map (c :: ·)) rest
  | c :: rest => if c.toNat < 0x20 then none else stringRest (done.map (c :: ·)) rest
  | [] => none
termination_by cs => cs.length

/-- The digits at the front of a text, and what follows. -/
def digits (cs : List Char) : List Char × List Char :=
  (cs.takeWhile Char.isDigit, cs.dropWhile Char.isDigit)

/-- A number: digits without a needless zero in front, then perhaps a fraction
and an exponent. -/
def number? (cs : List Char) : Option (Document × List Char) := do
  let (negative, cs₀) := match cs with
    | '-' :: rest => (true, rest)
    | _ => (false, cs)
  let (whole, cs₁) := digits cs₀
  if whole.isEmpty then none
  if 1 < whole.length ∧ whole.head? = some '0' then none
  let cs₂ ← match cs₁ with
    | '.' :: rest =>
      let (fraction, rest) := digits rest
      if fraction.isEmpty then none else some rest
    | _ => some cs₁
  let cs₃ ← match cs₂ with
    | c :: rest =>
      if c = 'e' ∨ c = 'E' then
        let rest := match rest with
          | '+' :: rest => rest
          | '-' :: rest => rest
          | _ => rest
        let (exponent, rest) := digits rest
        if exponent.isEmpty then none else some rest
      else some cs₂
    | [] => some cs₂
  let n := Digits.value whole
  if cs₃.length = cs₁.length ∧ ¬(negative ∧ n = 0) then
    return (.integer (if negative then -(n : Int) else n), cs₃)
  else
    return (.real (String.ofList (cs.take (cs.length - cs₃.length))), cs₃)

mutual

/-- A value at the front of a text, nested at most as deep as the first number. -/
def value? : Nat → List Char → Option (Document × List Char)
  | 0, _ => none
  | depth + 1, cs =>
    match cs with
    | 'n' :: 'u' :: 'l' :: 'l' :: rest => some (.null, rest)
    | 't' :: 'r' :: 'u' :: 'e' :: rest => some (.bool true, rest)
    | 'f' :: 'a' :: 'l' :: 's' :: 'e' :: rest => some (.bool false, rest)
    | '"' :: rest => (stringRest (some []) rest).map fun (s, rest) => (s.elim .garbled .text, rest)
    | '[' :: rest =>
      match skipBlanks rest with
      | ']' :: rest => some (.list [], rest)
      | rest => elements? depth [] rest
    | '{' :: rest =>
      match skipBlanks rest with
      | '}' :: rest => some (.record [], rest)
      | rest => members? depth (some []) rest
    | _ => number? cs

/-- The elements of a list up to its end; those read so far are in `done`. -/
def elements? : Nat → List Document → List Char → Option (Document × List Char)
  | 0, _, _ => none
  | depth + 1, done, cs =>
    match value? depth cs with
    | none => none
    | some (d, rest) =>
      match skipBlanks rest with
      | ',' :: rest => elements? depth (d :: done) (skipBlanks rest)
      | ']' :: rest => some (.list (d :: done).reverse, rest)
      | _ => none

/-- The entries of a record up to its end; those read so far are in `done`, unless
a key was garbled. -/
def members? : Nat → Option (List (String × Document)) → List Char →
    Option (Document × List Char)
  | 0, _, _ => none
  | depth + 1, done, cs =>
    match cs with
    | '"' :: rest =>
      match stringRest (some []) rest with
      | none => none
      | some (key, rest) =>
        match skipBlanks rest with
        | ':' :: rest =>
          match value? depth (skipBlanks rest) with
          | none => none
          | some (d, rest) =>
            let done := done.bind fun entries => key.map fun key => (key, d) :: entries
            match skipBlanks rest with
            | ',' :: rest => members? depth done (skipBlanks rest)
            | '}' :: rest => some (done.elim .garbled fun entries => .record entries.reverse, rest)
            | _ => none
        | _ => none
    | _ => none

end

/-- The value that a text holds, if it holds exactly one. -/
def parse? (s : String) : Option Document :=
  let cs := s.toList
  match value? (cs.length + 1) (skipBlanks cs) with
  | some (d, rest) => if (skipBlanks rest).isEmpty then some d else none
  | none => none

end CacheSim.Json
