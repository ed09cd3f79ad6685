import CacheSim.Yaml.Token

/-!
# From text to tokens

The lexer goes through a text once.  It knows the column of the collection by
indentation that it is in, and the place where a key may have started: if a
colon follows soon enough on the same line, the tokens of the key are put in
front of what was read since.
-/

namespace CacheSim.Yaml

/-- A place where a key may have started. -/
structure Candidate where
  /-- Nothing but a key can start there. -/
  required : Bool
  /-- The number of tokens in front of it. -/
  position : Nat
  start : Cursor

/-- A key is on one line and has at most 1024 bytes. -/
def Candidate.reaches (k : Candidate) (c : Cursor) : Bool :=
  k.start.line = c.line && c.offset ≤ k.start.offset + 1024

/-- What is known at a place of the text. -/
structure Lexer where
  cursor : Cursor
  tokens : Array Token := #[]
  /-- The column behind the one of the innermost collection by indentation. -/
  level : Nat := 0
  /-- The levels of the collections around it. -/
  levels : List Nat := []
  /-- A key, or the start of a collection by indentation, is allowed here. -/
  keyAllowed : Bool := true
  candidate : Option Candidate := none
  /-- The candidates outside of the brackets that are open. -/
  outer : List (Option Candidate) := []
  anchors : Anchors := {}

namespace Lexer

/-- The place is within brackets. -/
def inFlow (s : Lexer) : Bool :=
  !s.outer.isEmpty

/-- Passes over `n` characters, which are a token. -/
def emit (s : Lexer) (t : Token) (n : Nat) : Lexer :=
  { s with tokens := s.tokens.push t, cursor := s.cursor.skip n }

/-! ## Keys -/

/-- No key has started. -/
def dropCandidate? (s : Lexer) : Option Lexer :=
  if s.candidate.any (·.required) then none else some { s with candidate := none }

/-- A key may start here. -/
def markCandidate? (s : Lexer) : Option Lexer :=
  if s.keyAllowed then
    s.dropCandidate?.map fun s =>
      { s with candidate := some {
          required := !s.inFlow && s.level = s.cursor.column + 1
          position := s.tokens.size
          start := s.cursor } }
  else some s

/-! ## Indentation -/

/-- Starts a collection at a column, unless there is one. -/
def indent (s : Lexer) (column position : Nat) (t : Token) : Lexer :=
  if !s.inFlow && s.level ≤ column then
    { s with
      levels := s.level :: s.levels
      level := column + 1
      tokens := s.tokens.insertIdxIfInBounds position t }
  else s

/-- Starts a collection by indentation here, if one is allowed. -/
def indentHere? (s : Lexer) (t : Token) : Option Lexer :=
  if s.inFlow then some s
  else if s.keyAllowed then some (s.indent s.cursor.column s.tokens.size t)
  else none

/-- Ends the collections above a level; the level, and those around it. -/
def dedentTo (least : Nat) (tokens : Array Token) (level : Nat) :
    List Nat → Array Token × Nat × List Nat
  | [] => (tokens, level, [])
  | outer :: levels =>
    if least < level then dedentTo least (tokens.push .blockEnd) outer levels
    else (tokens, level, outer :: levels)

/-- Ends the collections above a level. -/
def dedent (s : Lexer) (least : Nat) : Lexer :=
  if s.inFlow then s
  else
    let (tokens, level, levels) := dedentTo least s.tokens s.level s.levels
    { s with tokens, level, levels }

/-- Ends all collections; what follows cannot be a key. -/
def dedentAll? (s : Lexer) : Option Lexer :=
  (s.dedent 0).dropCandidate?.map fun s => { s with keyAllowed := false }

/-! ## Between tokens -/

/-- Passes over blanks, comments and line breaks.  A tab is passed over only where
no key is allowed.  A key is allowed at the start of a line. -/
def skipGap (s : Lexer) : Nat → Lexer
  | 0 => s
  | fuel + 1 =>
    let c := s.cursor
    let c := if c.column = 0 && c.starts '\ufeff' then c.skip 1 else c
    let tabs := s.inFlow || !s.keyAllowed
    let c := c.dropWhile fun x => x = ' ' || (tabs && x = '\t')
    let c := if c.starts '#' then c.dropWhile (!isBreak ·) else c
    match c.lineBreak? with
    | some (_, next) =>
      skipGap { s with cursor := next, keyAllowed := s.keyAllowed || !s.inFlow } fuel
    | none => { s with cursor := c }

/-! ## Marks -/

/-- A bracket or brace that opens a collection. -/
def opening? (s : Lexer) (t : Token) : Option Lexer := do
  let s ← s.markCandidate?
  return { s with outer := s.candidate :: s.outer, candidate := none, keyAllowed := true }.emit t 1

/-- A bracket or brace that closes a collection. -/
def closing? (s : Lexer) (t : Token) : Option Lexer := do
  let s ← s.dropCandidate?
  let s := match s.outer with
    | [] => s
    | candidate :: outer => { s with candidate, outer }
  return { s with keyAllowed := false }.emit t 1

/-- A comma. -/
def comma? (s : Lexer) : Option Lexer := do
  let s ← s.dropCandidate?
  return { s with keyAllowed := true }.emit .comma 1

/-- The hyphen of an item. -/
def item? (s : Lexer) : Option Lexer := do
  let s ← s.indentHere? .blockList
  let s ← s.dropCandidate?
  return { s with keyAllowed := true }.emit .item 1

/-- The question mark in front of a key. -/
def key? (s : Lexer) : Option Lexer := do
  let s ← s.indentHere? .blockRecord
  let s ← s.dropCandidate?
  return { s with keyAllowed := !s.inFlow }.emit .key 1

/-- The colon in front of a value.  It makes the candidate that it reaches a key. -/
def value? (s : Lexer) : Option Lexer := do
  match s.candidate.filter (·.reaches s.cursor), s.candidate with
  | some k, _ =>
    let s := { s with tokens := s.tokens.insertIdxIfInBounds k.position .key }
    let s := s.indent k.start.column k.position .blockRecord
    return { s with candidate := none, keyAllowed := false }.emit .value 1
  | none, some ⟨true, _, _⟩ => none
  | none, _ =>
    let s ← s.indentHere? .blockRecord
    return { s with candidate := none, keyAllowed := !s.inFlow }.emit .value 1

/-- A mark of three characters that starts or ends a document. -/
def documentMark? (s : Lexer) (t : Token) : Option Lexer := do
  let s ← s.dedentAll?
  return s.emit t 3

/-! ## Directives -/

/-- A number of at most nine digits. -/
def versionNumber? (c : Cursor) : Option (Nat × Cursor) :=
  let (ds, after) := c.takeWhile Char.isDigit
  if ds.length ≤ 9 then (Digits.value? ds).map fun n => (n, after) else none

/-- A directive behind its percent sign. -/
def directiveBody? (c : Cursor) : Option (Token × Cursor) := do
  let (word, c) := c.takeWhile isWord
  if !endsToken c.rest then none
  let c := c.dropWhile isBlank
  match String.ofList word with
  | "YAML" =>
    let (major, c) ← versionNumber? c
    if !c.starts '.' then none
    let (minor, c) ← versionNumber? (c.skip 1)
    return (.version major minor, c)
  | "TAG" =>
    let (handle, c) ← Tag.handle? c
    let start := c.dropWhile isBlank
    if start.column = c.column then none
    let (address, c) ← Tag.address? true start
    if endsToken c.rest then return (.handle handle address, c) else none
  | _ => none

/-- A directive, which has a line of its own. -/
def directive? (s : Lexer) : Option Lexer := do
  let s ← s.dedentAll?
  let (t, c) ← directiveBody? (s.cursor.skip 1)
  let next ← c.nextLine?
  return { s.emit t 0 with cursor := next }

/-! ## Properties and scalars -/

/-- The name of an anchor behind its mark. -/
def anchorName? (c : Cursor) : Option (String × Cursor) :=
  let (name, after) := c.takeWhile isWord
  if !name.isEmpty && (endsToken after.rest ||
      after.rest.head?.any ['?', ':', ',', ']', '}', '%', '@', '\x60'].contains) then
    some (String.ofList name, after)
  else none

/-- A name for the node that follows. -/
def anchor? (s : Lexer) : Option Lexer := do
  let s ← s.markCandidate?
  let (name, c) ← anchorName? (s.cursor.skip 1)
  let (n, anchors) := s.anchors.define name
  return { s with cursor := c, anchors, keyAllowed := false }.emit (.anchor n) 0

/-- The name of a node that stands here, too. -/
def reference? (s : Lexer) : Option Lexer := do
  let s ← s.markCandidate?
  let (name, c) ← anchorName? (s.cursor.skip 1)
  let n ← s.anchors.find? name
  return { s with cursor := c, keyAllowed := false }.emit (.reference n) 0

/-- What the node that follows is. -/
def tag? (s : Lexer) : Option Lexer := do
  let s ← s.markCandidate?
  let (handle, rest, c) ← Tag.written? s.cursor
  if endsToken c.rest || (s.inFlow && c.starts ',') then
    return { s with cursor := c, keyAllowed := false }.emit (.tag handle rest) 0
  else none

/-- A block of lines. -/
def block? (s : Lexer) (style : Style) (fuel : Nat) : Option Lexer := do
  let s ← s.dropCandidate?
  let (text, c) ← Yaml.block? (style = .folded) s.level (s.cursor.skip 1) fuel
  return { s with cursor := c, keyAllowed := true }.emit (.scalar style (String.ofList text)) 0

/-- A scalar between quotes. -/
def quoted? (s : Lexer) (double : Bool) (fuel : Nat) : Option Lexer := do
  let s ← s.markCandidate?
  let (text, c) ← Yaml.quoted? double [] (s.cursor.skip 1) fuel
  return { s with cursor := c, keyAllowed := false }.emit (.scalar .quoted (String.ofList text)) 0

/-- A plain scalar.  A key may follow it on another line. -/
def plain? (s : Lexer) (fuel : Nat) : Option Lexer := do
  let s ← s.markCandidate?
  let (text, broken, c) ← Yaml.plain? s.inFlow s.level [] [] false s.cursor fuel
  return { s with cursor := c, keyAllowed := broken }.emit (.scalar .plain (String.ofList text)) 0

/-! ## Texts -/

/-- The token that starts at a character, with the text behind it. -/
def token? (s : Lexer) (x : Char) (rest : List Char) (fuel : Nat) : Option Lexer :=
  let c := s.cursor
  if c.column = 0 && x = '%' then s.directive?
  else if c.atMark '-' then s.documentMark? .documentStart
  else if c.atMark '.' then s.documentMark? .documentEnd
  else if x = '-' && endsToken rest then s.item?
  else if x = '?' && (s.inFlow || endsToken rest) then s.key?
  else if x = ':' && (s.inFlow || endsToken rest) then s.value?
  else match x with
    | '[' => s.opening? .openBracket
    | '{' => s.opening? .openBrace
    | ']' => s.closing? .closeBracket
    | '}' => s.closing? .closeBrace
    | ',' => s.comma?
    | '*' => s.reference?
    | '&' => s.anchor?
    | '!' => s.tag?
    | '\'' => s.quoted? false fuel
    | '"' => s.quoted? true fuel
    | _ =>
      if x = '|' && !s.inFlow then s.block? .literal fuel
      else if x = '>' && !s.inFlow then s.block? .folded fuel
      else if startsPlain s.inFlow (x :: rest) then s.plain? fuel
      else none

/-- All tokens of the text from a place on; `limit` bounds the length of a token. -/
def run (limit : Nat) (s : Lexer) : Nat → Option (Array Token)
  | 0 => none
  | fuel + 1 =>
    let s := s.skipGap limit
    match s.cursor.rest with
    | [] => s.dedentAll?.map (·.tokens)
    | x :: rest =>
      match (s.dedent (s.cursor.column + 1)).token? x rest limit with
      | some s => run limit s fuel
      | none => none

end Lexer

/-- The tokens of a text. -/
def Token.ofChars? (cs : List Char) : Option (List Token) :=
  if cs.all isAllowed then
    let limit := cs.length + 2
    (Lexer.run limit { cursor := { rest := cs } } limit).map Array.toList
  else none

end CacheSim.Yaml
