/-!
# Shapes of documents

What a reader is going to ask for.  A format whose scalars carry no type of
their own needs it to tell what a scalar means, and a value that nobody asks for
has no meaning at all.
-/

namespace CacheSim.Document

/-- What a document is going to be read as. -/
inductive Shape where
  | flag
  | number
  | numberOrText
  /-- The name of an alternative. -/
  | name
  /-- A value that may be null. -/
  | optional (shape : Shape)
  | list (item : Shape)
  /-- A record, by the names that the reader knows and the shapes of their values. -/
  | record (names : List String) (field : String → Shape)
  deriving Inhabited

end CacheSim.Document
