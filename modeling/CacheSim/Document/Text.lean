import CacheSim.Json.Parser
import CacheSim.Yaml.Meaning

/-!
# Documents as texts

Reading a text in one of the formats, and what can go wrong when the document
has to describe something that is checked.
-/

namespace CacheSim

/-- How documents are written. -/
inductive Format where
  | json
  | yaml
  deriving DecidableEq

/-- The document that a text stands for where a shape is asked for. -/
def Document.parse? (format : Format) (shape : Document.Shape) (text : String) :
    Option Document :=
  match format with
  | .json => Json.parse? text
  | .yaml => Yaml.parse? shape text

/-- Why a text is refused. -/
inductive ReadError (ε : Type) where
  /-- It is no document of the expected form. -/
  | malformed
  /-- What it describes makes no sense. -/
  | invalid (error : ε)
  deriving DecidableEq

/-- Reads a text and checks what it describes. -/
def Document.readText {α ε : Type} (format : Format) (shape : Document.Shape)
    (read : Document → Option α) (validate : α → Except ε Unit) (text : String) :
    Except (ReadError ε) α :=
  match Document.parse? format shape text >>= read with
  | none => .error .malformed
  | some a =>
    match validate a with
    | .error e => .error (.invalid e)
    | .ok () => .ok a

end CacheSim
