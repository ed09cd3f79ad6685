/-!
# Places in a text

A `Cursor` is the rest of a text with the place where it starts.  The columns of
a line are counted in characters, and the offset of the place in bytes.
-/

namespace CacheSim.Yaml

/-- The rest of a text and where it starts. -/
structure Cursor where
  rest : List Char
  /-- The number of bytes in front of it. -/
  offset : Nat := 0
  line : Nat := 0
  column : Nat := 0
  deriving Inhabited

/-! ## Classes of characters -/

/-- A character that ends a line. -/
def isBreak (c : Char) : Bool :=
  c = '\n' || c = '\r' || c = '\u0085' || c = '\u2028' || c = '\u2029'

/-- A blank within a line. -/
def isBlank (c : Char) : Bool :=
  c = ' ' || c = '\t'

/-- A bracket or comma, which means something within brackets. -/
def isFlowMark (c : Char) : Bool :=
  c = ',' || c = '[' || c = ']' || c = '{' || c = '}'

/-- A character of the names of anchors, handles and directives. -/
def isWord (c : Char) : Bool :=
  c.isAlphanum || c = '_' || c = '-'

/-- A character that a document may hold. -/
def isAllowed (c : Char) : Bool :=
  let n := c.toNat
  n = 0x9 || n = 0xa || n = 0xd || (0x20 ≤ n && n ≤ 0x7e) || n = 0x85
    || (0xa0 ≤ n && n ≤ 0xfffd) || 0x10000 ≤ n

/-- The text ends, or a blank or a line break follows. -/
def endsToken : List Char → Bool
  | [] => true
  | c :: _ => isBlank c || isBreak c

/-- The text that line breaks between two words are folded to: one break is a
blank, and of more breaks the first one is left out, unless it separates more
than lines. -/
def folded (first : Char) (more : List Char) : List Char :=
  if first = '\n' then (if more.isEmpty then [' '] else more) else first :: more

namespace Cursor

/-! ## Moving on -/

/-- Whether nothing is left. -/
def atEnd (c : Cursor) : Bool :=
  c.rest.isEmpty

/-- The next character is this one. -/
def starts (c : Cursor) (x : Char) : Bool :=
  c.rest.head? == some x

/-- The place behind `n` characters of the same line. -/
def skip (c : Cursor) (n : Nat) : Cursor :=
  { c with
    rest := c.rest.drop n
    offset := (c.rest.take n).foldl (fun k x => k + x.utf8Size) c.offset
    column := c.column + n }

/-- The characters of the same line that pass a test, and the place behind them. -/
def takeWhile (c : Cursor) (p : Char → Bool) : List Char × Cursor :=
  let cs := c.rest.takeWhile p
  (cs, c.skip cs.length)

/-- The place behind the characters of the same line that pass a test. -/
def dropWhile (c : Cursor) (p : Char → Bool) : Cursor :=
  (c.takeWhile p).2

/-- The place behind blanks and a comment. -/
def skipComment (c : Cursor) : Cursor :=
  let c := c.dropWhile isBlank
  if c.starts '#' then c.dropWhile (!isBreak ·) else c

/-- The line break that follows, as it counts in a text, and the start of the
next line. -/
def lineBreak? (c : Cursor) : Option (Char × Cursor) :=
  match c.rest with
  | '\r' :: '\n' :: rest => some ('\n', { rest, offset := c.offset + 2, line := c.line + 1 })
  | x :: rest =>
    if isBreak x then
      some (if x = '\u2028' ∨ x = '\u2029' then x else '\n',
        { rest, offset := c.offset + x.utf8Size, line := c.line + 1 })
    else none
  | [] => none

/-- The start of the next line, if nothing but a comment is left of this one. -/
def nextLine? (c : Cursor) : Option Cursor :=
  let c := c.skipComment
  match c.lineBreak? with
  | some (_, next) => some next
  | none => if c.atEnd then some c else none

/-- Passes over line breaks and blanks.  Answers the breaks behind those in
`done`, which are in reverse order; none if a tab stands in front of a column. -/
def breaks? (least : Nat) (done : List Char) (c : Cursor) : Nat → Option (List Char × Cursor)
  | 0 => none
  | fuel + 1 =>
    match c.lineBreak? with
    | some (x, next) => breaks? least (x :: done) next fuel
    | none =>
      if c.starts '\t' && c.column < least then none
      else if c.starts ' ' || c.starts '\t' then breaks? least done (c.skip 1) fuel
      else some (done.reverse, c)

/-! ## Marks of documents -/

/-- A document starts or ends here, by a mark in the first column. -/
def atMark (c : Cursor) (mark : Char) : Bool :=
  c.column = 0 && c.rest.take 3 == [mark, mark, mark] && endsToken (c.rest.drop 3)

/-- No more of the document follows. -/
def atDocumentMark (c : Cursor) : Bool :=
  c.atMark '-' || c.atMark '.'

end Cursor

end CacheSim.Yaml
