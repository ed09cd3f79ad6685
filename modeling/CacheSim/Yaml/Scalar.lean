import CacheSim.Text.Digits
import CacheSim.Text.Hex
import CacheSim.Yaml.Cursor

/-!
# The texts of scalars

A scalar is plain, quoted or a block of lines.  Line breaks within a plain or a
quoted scalar are folded.  The functions answer the text and the place behind
the scalar, and each is given a number that bounds its steps.
-/

namespace CacheSim.Yaml

/-- How a scalar was written. -/
inductive Style where
  | plain
  | quoted
  /-- A block that keeps its lines. -/
  | literal
  /-- A block whose lines are folded. -/
  | folded
  deriving DecidableEq, Inhabited

/-- The value of digits to a base, at least one and all of them valid. -/
def digitsIn? (base : Nat) (ds : List Char) : Option Nat :=
  if ds.isEmpty then none
  else ds.foldlM (fun n c => do
    let d ← Hex.digit? c
    if d < base then some (base * n + d) else none) 0

/-! ## Plain scalars -/

/-- Whether a plain scalar can start here. -/
def startsPlain (flow : Bool) : List Char → Bool
  | [] => false
  | '-' :: rest => !endsToken rest
  | c :: rest =>
    if c = '?' || c = ':' then !flow && !endsToken rest
    else !(isBlank c || isBreak c || isFlowMark c ||
      ['#', '&', '*', '!', '|', '>', '\'', '"', '%', '@', '\x60'].contains c)

/-- The characters of a plain scalar up to a blank, a line break or a mark, behind
those in `done`, which are in reverse order; none if a colon stands before a
bracket. -/
def plainWord? (flow : Bool) (done : List Char) : List Char → Option (List Char)
  | [] => some done.reverse
  | c :: rest =>
    if isBlank c || isBreak c then some done.reverse
    else if flow && c = ':' && (rest.head?.any fun d => isFlowMark d || d = '?') then none
    else if (c = ':' && endsToken rest) || (flow && isFlowMark c) then some done.reverse
    else plainWord? flow (c :: done) rest

/-- A plain scalar, whose further lines start at column `least` or behind it in a
block.  What was read so far is in `done`, in reverse order; `gap` stands between it and
the next word, and `broken` tells that there is a line break in it.  A gap in
front of which the scalar ends is not part of it, but it is passed over; whether
it had a line break is answered too. -/
def plain? (flow : Bool) (least : Nat) (done gap : List Char) (broken : Bool) (c : Cursor) :
    Nat → Option (List Char × Bool × Cursor)
  | 0 => none
  | fuel + 1 => do
    if c.atDocumentMark || c.starts '#' then return (done.reverse, broken, c)
    let word ← plainWord? flow [] c.rest
    if word.isEmpty then return (done.reverse, broken, c)
    let done := word.reverse ++ (gap.reverse ++ done)
    let (blanks, next) := (c.skip word.length).takeWhile isBlank
    match next.lineBreak? with
    | none => plain? flow least done blanks false next fuel
    | some (first, next) => do
      let (more, next) ← next.breaks? least [] fuel
      if !flow && next.column < least then return (done.reverse, true, next)
      plain? flow least done (folded first more) true next fuel

/-! ## Quoted scalars -/

/-- The character that a backslash and a letter stand for. -/
def escape? : Char → Option Char
  | '0' => some '\x00'
  | 'a' => some '\x07'
  | 'b' => some '\x08'
  | 't' => some '\t'
  | '\t' => some '\t'
  | 'n' => some '\n'
  | 'v' => some '\x0b'
  | 'f' => some '\x0c'
  | 'r' => some '\r'
  | 'e' => some '\x1b'
  | ' ' => some ' '
  | '"' => some '"'
  | '/' => some '/'
  | '\\' => some '\\'
  | 'N' => some '\u0085'
  | '_' => some '\u00a0'
  | 'L' => some '\u2028'
  | 'P' => some '\u2029'
  | _ => none

/-- The number of digits of the code behind a backslash and a letter. -/
def codeLength? : Char → Option Nat
  | 'x' => some 2
  | 'u' => some 4
  | 'U' => some 8
  | _ => none

/-- The character of an escape behind its backslash, and the number of its
characters. -/
def escaped? : List Char → Option (Char × Nat)
  | [] => none
  | e :: rest =>
    match codeLength? e with
    | none => (escape? e).map fun x => (x, 1)
    | some n => do
      let code ← digitsIn? 16 (rest.take n)
      if n ≤ rest.length ∧ code.isValidChar then some (Char.ofNat code, n + 1) else none

/-- The rest of a scalar between quotes behind what is in `done`, in reverse
order.  A quote of a single quoted scalar is doubled; a double quoted one has
escapes, and an escaped line break is left out. -/
def quoted? (double : Bool) (done : List Char) (c : Cursor) : Nat → Option (List Char × Cursor)
  | 0 => none
  | fuel + 1 =>
    match c.rest with
    | [] => none
    | x :: rest =>
      if x = (if double then '"' else '\'') then
        if !double && rest.head? = some '\'' then quoted? double ('\'' :: done) (c.skip 2) fuel
        else some (done.reverse, c.skip 1)
      else if double && x = '\\' then
        match (c.skip 1).lineBreak? with
        | some (_, next) =>
          match next.breaks? 0 [] fuel with
          | none => none
          | some (more, next) =>
            if next.atDocumentMark then none
            else quoted? double (more.reverse ++ done) next fuel
        | none =>
          match escaped? rest with
          | none => none
          | some (x, n) => quoted? double (x :: done) (c.skip (1 + n)) fuel
      else if isBlank x || isBreak x then
        let (blanks, after) := c.takeWhile isBlank
        match after.lineBreak? with
        | some (first, next) =>
          match next.breaks? 0 [] fuel with
          | none => none
          | some (more, next) =>
            if next.atDocumentMark then none
            else quoted? double ((folded first more).reverse ++ done) next fuel
        | none => quoted? double (blanks.reverse ++ done) after fuel
      else quoted? double (x :: done) (c.skip 1) fuel

/-! ## Blocks of lines -/

/-- What is done with the line breaks at the end of a block. -/
inductive Chomp where
  | strip
  | clip
  | keep
  deriving DecidableEq

/-- What a mark says about the line breaks at the end of a block. -/
def Chomp.ofMark? : Char → Option Chomp
  | '+' => some .keep
  | '-' => some .strip
  | _ => none

/-- The marks behind the bar or angle that opens a block, in either order: what is
done with the line breaks at the end, and how far the block is indented, if it
is said.  The third number is that of the marks. -/
def blockMarks? (cs : List Char) : Option (Chomp × Option Nat × Nat) :=
  let digit? : Option Char → Option Nat := fun d =>
    (d.filter Char.isDigit).map Digits.digit
  let chomp? := cs.head? >>= Chomp.ofMark?
  let (ds, before) := if chomp?.isSome then (cs.tail, 1) else (cs, 0)
  match digit? ds.head? with
  | none => some (chomp?.getD .clip, none, before)
  | some 0 => none
  | some n =>
    match chomp? with
    | some chomp => some (chomp, some n, 2)
    | none =>
      match ds.tail.head? >>= Chomp.ofMark? with
      | some chomp => some (chomp, some n, 2)
      | none => some (.clip, some n, 1)

/-- Passes over empty lines and the indentation of the line after them.  Answers
the line breaks behind those in `done`, which are in reverse order, the greatest
column reached, and the place; none if a tab stands in the indentation. -/
def blockBreaks? (indent : Option Nat) (widest : Nat) (done : List Char) (c : Cursor) :
    Nat → Option (List Char × Nat × Cursor)
  | 0 => none
  | fuel + 1 =>
    let spaces := (c.rest.takeWhile (· = ' ')).length
    let c := c.skip (match indent with
      | some n => min spaces (n - c.column)
      | none => spaces)
    let widest := max widest c.column
    if c.starts '\t' && (match indent with
      | some n => c.column < n
      | none => true) then none
    else match c.lineBreak? with
      | some (x, next) => blockBreaks? indent widest (x :: done) next fuel
      | none => some (done.reverse, widest, c)

/-- The lines of a block whose indentation is known.  `done` is what was read so
far, in reverse order.  The break behind its last line is in `last`, if there is
one, and those of the empty lines since are in `more`; `blank` tells that the
last line started with a blank.  Answers the breaks that are left, too. -/
def blockLines? (fold : Bool) (indent : Nat) (done last : List Char) (blank : Bool)
    (more : List Char) (c : Cursor) :
    Nat → Option (List Char × List Char × List Char × Cursor)
  | 0 => none
  | fuel + 1 =>
    if c.column = indent && !c.atEnd then do
      let startsBlank := c.starts ' ' || c.starts '\t'
      let joint :=
        if fold && last = ['\n'] && !blank && !startsBlank then
          (if more.isEmpty then [' '] else [])
        else last
      let (line, stop) := c.takeWhile (!isBreak ·)
      let done := line.reverse ++ (more.reverse ++ (joint ++ done))
      let (last, next) := match stop.lineBreak? with
        | some (x, next) => ([x], next)
        | none => ([], stop)
      let (more, _, next) ← blockBreaks? (some indent) 0 [] next fuel
      blockLines? fold indent done last startsBlank more next fuel
    else some (done, last, more, c)

/-- A block of lines behind its bar or angle, in a collection of a level: its lines
start at that column or behind it. -/
def block? (fold : Bool) (level : Nat) (c : Cursor) (fuel : Nat) :
    Option (List Char × Cursor) := do
  let (chomp, said, marks) ← blockMarks? c.rest
  let first ← (c.skip marks).nextLine?
  let indent := said.map fun n => level - 1 + n
  let (more, widest, start) ← blockBreaks? indent 0 [] first fuel
  let indent := indent.getD (max 1 (max widest level))
  let (done, last, more, after) ← blockLines? fold indent [] [] false more start fuel
  let tail := match chomp with
    | .strip => []
    | .clip => last
    | .keep => last ++ more
  return (done.reverse ++ tail, after)

end CacheSim.Yaml
