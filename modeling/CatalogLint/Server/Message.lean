import CatalogLint.Diagnostic

/-!
# Diagnostics as a client gets them

A client counts characters in units of its own, takes no coordinates beyond those of 31 bits,
and does without an empty code.

* `Range.checked`: a range whose coordinates a client takes.
* `Diagnostic.forClient`: a diagnostic with its ranges in the client's units.
-/

namespace CatalogLint.Server

/-- A diagnostic for a client. -/
structure Message where
  range : Range
  severity : Severity
  message : String
  source : String
  code : Option String
  related : List Related
  deriving DecidableEq, Repr

/-- The greatest coordinate that a client takes. -/
def coordinateLimit : Int := 2147483647

/-- The names of the two coordinates. -/
inductive Axis where
  | line
  | character
  deriving DecidableEq, Repr

def Axis.name : Axis → String
  | line => "line"
  | character => "character"

/-- A coordinate that a client does not take. -/
structure CoordinateError where
  axis : Axis
  value : Int
  deriving DecidableEq, Repr

def CoordinateError.message (e : CoordinateError) : String :=
  s!"Position.{e.axis.name} should be in range [0:{coordinateLimit}], but was {e.value}."

/-- Refuses a coordinate that a client does not take. -/
def Axis.check (axis : Axis) (value : Int) : Except CoordinateError Unit :=
  if 0 ≤ value ∧ value ≤ coordinateLimit then .ok () else .error ⟨axis, value⟩

end Server

/-- A place whose coordinates a client takes. -/
def Place.checked (p : Place) : Except Server.CoordinateError Place := do
  Server.Axis.line.check p.line
  Server.Axis.character.check p.character
  return p

/-- A range whose coordinates a client takes. -/
def Range.checked (r : Range) : Except Server.CoordinateError Range := do
  return ⟨← r.start.checked, ← r.stop.checked⟩

/-- A range changed by `convert`. A client must take it before and after. -/
def Range.forClient (convert : Range → Range) (r : Range) :
    Except Server.CoordinateError Range := do
  (convert (← r.checked)).checked

/-- A diagnostic with its ranges, its own and all related ones, changed by `convert`. -/
def Diagnostic.forClient (convert : Range → Range) (d : Diagnostic) :
    Except Server.CoordinateError Server.Message := do
  let range ← d.range.forClient convert
  let related ← d.related.mapM fun r => do
    return { r with range := ← r.range.forClient convert }
  return { range, severity := d.severity, message := d.message, source := d.source
           code := if d.code = "" then none else some d.code, related }

end CatalogLint
