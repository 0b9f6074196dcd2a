import CatalogLint.Diagnostic
import CatalogLint.Json.Writer
import CatalogLint.Table
import CatalogLint.Text.Ansi

/-!
# Reports

The findings on files, for people and for programs. Files come in the order in which they
were first named.

* `textReport`: the lines of a report for people.
* `jsonReport`: the report for programs.
-/

namespace CatalogLint

/-- The findings on each file. -/
abbrev Findings := Table (List Diagnostic)

/-- How many findings there are. -/
def Findings.total (f : Findings) : Nat := (f.map (·.2.length)).foldr (· + ·) 0

/-- The styles of a severity: its colour, and bold. -/
def Severity.styles : Severity → List Nat
  | error => [31, 1]
  | warning => [33, 1]
  | information => [36, 1]
  | hint => [32, 1]

/-- The style of a location. -/
def locationStyles : List Nat := [2]

/-- A place as people count, from one. -/
def Place.shown (p : Place) : String := s!"{p.line + 1}:{p.character + 1}"

/-- The lines on one finding: the finding itself and what explains it. -/
def Diagnostic.lines (path : String) (d : Diagnostic) : List String :=
  let severity := Text.styled d.severity.styles d.severity.label
  s!"{path}:{d.range.start.shown}: {severity}: {d.message}" ::
    d.related.map fun r =>
      s!"    {Text.styled locationStyles r.range.start.shown}  {r.message}"

/-- The lines on all findings. -/
def textReport (f : Findings) : List String :=
  if f.total = 0 then ["No duplicate messages found."]
  else f.flatMap fun (path, ds) => ds.flatMap (·.lines path)

/-- The line that counts the findings. -/
def totalLine (f : Findings) : String :=
  s!"\nTotal: {f.total} diagnostic(s) in {f.length} file(s)."

def Place.toJson (p : Place) : Json :=
  .object [("line", .int p.line), ("character", .int p.character)]

def Range.toJson (r : Range) : Json :=
  .object [("start", r.start.toJson), ("end", r.stop.toJson)]

def Related.toJson (r : Related) : Json :=
  .object [("uri", .string r.uri), ("range", r.range.toJson), ("message", .string r.message)]

/-- One finding on the file at `path`. -/
def Diagnostic.toJson (path : String) (d : Diagnostic) : Json :=
  .object [("range", d.range.toJson), ("severity", .string d.severity.name),
    ("message", .string d.message), ("related_information", .array (d.related.map (·.toJson))),
    ("source", .string d.source), ("code", .string d.code), ("file", .string path)]

/-- All findings as one array. -/
def Findings.toJson (f : Findings) : Json :=
  .array (f.flatMap fun (path, ds) => ds.map (·.toJson path))

/-- The report for programs. -/
def jsonReport (f : Findings) : String := Json.pretty f.toJson

end CatalogLint
