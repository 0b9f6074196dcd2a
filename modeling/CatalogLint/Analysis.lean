import CatalogLint.Catalog.Reader
import CatalogLint.Duplicates
import CatalogLint.Settings.Basic

/-!
# Analysis of a text

A text is read as a catalog and checked. Checks have names; those asked for run in the order
given, as often as they are named.

* `analyze`: the reports on a text, or why there are none, with the log.
-/

namespace CatalogLint

/-- Why a text has no report. -/
inductive AnalysisError where
  /-- Names that are no checks', sorted. -/
  | unknownChecks (names : List String)
  | parse (e : Catalog.ParseError)
  | severity (e : UnknownSeverity)
  | group (e : GroupError)
  deriving DecidableEq, Repr

def AnalysisError.message : AnalysisError → String
  | unknownChecks names => "Unknown check(s): " ++ ", ".intercalate names
  | parse e => e.message
  | severity e => e.message
  | group e => e.message

/-- The names of all checks. -/
def allChecks : List String := ["Duplicates"]

/-- The names among `checks` that are no checks', each once, in order. -/
def unknownChecks (checks : List String) : List String :=
  ((checks.filter (!allChecks.contains ·)).eraseDups).mergeSort

/-- Runs the check for duplicate definitions. The severity is looked up even if there is
nothing to report. -/
def checkDuplicates (catalog : Catalog) (uri : String) (settings : Settings) :
    Except AnalysisError (List Diagnostic) := do
  let severity ← settings.level.mapError .severity
  (duplicateDiagnostics catalog uri severity).mapError .group

/-- The reports on a catalog, check by check. -/
def runChecks (catalog : Catalog) (uri : String) (settings : Settings) (checks : List String) :
    Except AnalysisError (List Diagnostic) := do
  let reports ← checks.mapM fun _ => checkDuplicates catalog uri settings
  return reports.flatten

/-- Refuses names that are no checks'. -/
def knownChecks (checks : List String) : Except AnalysisError Unit :=
  match unknownChecks checks with
  | [] => .ok ()
  | names => .error (.unknownChecks names)

/-- Writes a record about an analysis. -/
def noteAnalysis (message : String) : Logged Unit :=
  Log.write { source := .analyzer, level := .debug, message }

/-- The reports on a text. The names of the checks are looked at before the text, and all
checks run if none are named. -/
def analyze (text uri : String) (settings : Settings := {})
    (checks : Option (List String) := none) : Logged (Except AnalysisError (List Diagnostic)) :=
  let names := checks.getD allChecks
  match knownChecks names, Catalog.parse text with
  | .error e, _ => pure (.error e)
  | .ok (), .error e => pure (.error (.parse e))
  | .ok (), .ok catalog => do
    noteAnalysis s!"Parsed {catalog.length} messages from {uri}"
    match runChecks catalog uri settings names with
    | .error e => pure (.error e)
    | .ok diagnostics => do
      noteAnalysis s!"{uri}: {diagnostics.length} diagnostics from {names.length} checks"
      pure (.ok diagnostics)

end CatalogLint
