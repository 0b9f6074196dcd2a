/-!
# Locations

Catalog coordinates count lines and columns from one; editor coordinates count lines and
characters from zero. Both count code points.

* `Position.toPlace`, `Span.toRange`: from catalog to editor coordinates. A location below
  line one or column one has no editor coordinates.
-/

namespace CatalogLint

/-- A place in a catalog, line and column both counted from one. -/
structure Position where
  line : Int
  column : Int
  deriving DecidableEq, Repr, Inhabited

/-- A part of a catalog. The position `stop` is just after it. -/
structure Span where
  start : Position
  stop : Position
  deriving DecidableEq, Repr, Inhabited

/-- A place in a document, line and character both counted from zero. -/
structure Place where
  line : Int
  character : Int
  deriving DecidableEq, Repr, Inhabited

/-- A part of a document. The place `stop` is just after it. -/
structure Range where
  start : Place
  stop : Place
  deriving DecidableEq, Repr, Inhabited

/-- A location below line one or column one. -/
structure InvalidLocation where
  line : Int
  column : Int
  deriving DecidableEq, Repr

def InvalidLocation.message (e : InvalidLocation) : String :=
  s!"Invalid source location line={e.line}, column={e.column}"

/-- The editor's name for a position. -/
def Position.toPlace (p : Position) : Except InvalidLocation Place :=
  if p.line < 1 ∨ p.column < 1 then .error ⟨p.line, p.column⟩
  else .ok ⟨p.line - 1, p.column - 1⟩

/-- The editor's name for a span. Its start is looked at first. -/
def Span.toRange (s : Span) : Except InvalidLocation Range := do
  let start ← s.start.toPlace
  let stop ← s.stop.toPlace
  return ⟨start, stop⟩

end CatalogLint
