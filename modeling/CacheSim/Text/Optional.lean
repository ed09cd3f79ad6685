/-!
# Optional values

A value that may be missing, shown so that both cases can be told apart.
-/

namespace CacheSim

/-- The text of a value between brackets, or a word that says that it is missing. -/
def optionalText {α : Type} (text : α → String) : Option α → String
  | none => "None"
  | some a => "Some(" ++ text a ++ ")"

end CacheSim
