import CacheSim.Document
import CacheSim.Text.Hex

/-!
# Writing JSON

A document on one line, or with every entry on a line of its own.
-/

namespace CacheSim.Json

/-- A character as it is written in a string. -/
def escaped (c : Char) : String :=
  match c with
  | '"' => "\\\""
  | '\\' => "\\\\"
  | '\n' => "\\n"
  | '\r' => "\\r"
  | '\t' => "\\t"
  | '\x08' => "\\b"
  | '\x0c' => "\\f"
  | c =>
    if c.toNat < 0x20 then "\\u00" ++ String.ofList (Hex.byteDigits (UInt8.ofNat c.toNat))
    else c.toString

/-- A string between quotes. -/
def quoted (s : String) : String :=
  "\"" ++ s.foldl (fun t c => t ++ escaped c) "" ++ "\""

/-- The text of a scalar. -/
def scalar : Document → String
  | .bool true => "true"
  | .bool false => "false"
  | .integer i => toString i
  | .real s => s
  | .text s => quoted s
  | _ => "null"

mutual

/-- Appends a document to a text. -/
def writeOn (out : String) : Document → String
  | .list [] => out ++ "[]"
  | .list (d :: ds) => writeItems (writeOn (out ++ "[") d) ds ++ "]"
  | .record [] => out ++ "\x7b\x7d"
  | .record ((k, d) :: es) =>
    writeEntries (writeOn (out ++ "\x7b" ++ quoted k ++ ":") d) es ++ "\x7d"
  | d => out ++ scalar d

/-- Appends the items after the first one. -/
def writeItems (out : String) : List Document → String
  | [] => out
  | d :: ds => writeItems (writeOn (out ++ ",") d) ds

/-- Appends the entries after the first one. -/
def writeEntries (out : String) : List (String × Document) → String
  | [] => out
  | (k, d) :: es => writeEntries (writeOn (out ++ "," ++ quoted k ++ ":") d) es

end

/-- A document on one line. -/
def write (d : Document) : String :=
  writeOn "" d

/-- The start of a line at a depth. -/
def newline (depth : Nat) : String :=
  "\n".pushn ' ' (2 * depth)

mutual

/-- Appends a document whose inner lines are indented by two blanks a level. -/
def prettyOn (depth : Nat) (out : String) : Document → String
  | .list [] => out ++ "[]"
  | .list (d :: ds) =>
    prettyItems depth (prettyOn (depth + 1) (out ++ "[" ++ newline (depth + 1)) d) ds
      ++ newline depth ++ "]"
  | .record [] => out ++ "\x7b\x7d"
  | .record ((k, d) :: es) =>
    prettyEntries depth
      (prettyOn (depth + 1) (out ++ "\x7b" ++ newline (depth + 1) ++ quoted k ++ ": ") d) es
      ++ newline depth ++ "\x7d"
  | d => out ++ scalar d

/-- Appends the items after the first one, each on its line. -/
def prettyItems (depth : Nat) (out : String) : List Document → String
  | [] => out
  | d :: ds =>
    prettyItems depth (prettyOn (depth + 1) (out ++ "," ++ newline (depth + 1)) d) ds

/-- Appends the entries after the first one, each on its line. -/
def prettyEntries (depth : Nat) (out : String) : List (String × Document) → String
  | [] => out
  | (k, d) :: es =>
    prettyEntries depth
      (prettyOn (depth + 1) (out ++ "," ++ newline (depth + 1) ++ quoted k ++ ": ") d) es

end

/-- A document over several lines. -/
def pretty (d : Document) : String :=
  prettyOn 0 "" d

end CacheSim.Json
