import CacheSim.Text.Hex
import CacheSim.Text.Printable

/-!
# Quoted texts

A text between quotes in which every character can be told apart: quotes and
backslashes are escaped, and so is everything that is not shown as it is.
-/

namespace CacheSim.Quoted

/-- A character as it is written between quotes. -/
def encode (c : Char) : String :=
  match c with
  | '"' => "\\\""
  | '\\' => "\\\\"
  | '\t' => "\\t"
  | '\r' => "\\r"
  | '\n' => "\\n"
  | '\x00' => "\\0"
  | c => if isPrintable c then c.toString else "\\u\x7b" ++ Hex.digits c.toNat ++ "\x7d"

/-- A text between quotes. -/
def text (s : String) : String :=
  "\"" ++ String.join (s.toList.map encode) ++ "\""

end CacheSim.Quoted
