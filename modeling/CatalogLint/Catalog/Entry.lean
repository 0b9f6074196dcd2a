import CatalogLint.Location

/-!
# Entries

A catalog is the list of its message entries, in document order.
-/

namespace CatalogLint

/-- One message of a catalog. -/
structure Entry where
  /-- The message as the program spells it. -/
  key : String
  /-- The literals of the key, from the first opening quote to the last closing one. -/
  keySpan : Span
  /-- What the message reads in the language of the catalog, once for each plural form. -/
  values : List String := []
  /-- The literals of the first value. -/
  valueSpan : Option Span := none
  /-- What tells this message from others with the same key. -/
  context : Option String := none
  /-- The message for more than one. -/
  plural : Option String := none
  deriving DecidableEq, Repr, Inhabited

/-- The entries of one document, in document order. -/
abbrev Catalog := List Entry

end CatalogLint
