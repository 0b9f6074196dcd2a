import CatalogLint.Location
import CatalogLint.Severity

/-!
# Diagnostics

What is reported about a document: a finding at a range, with other ranges that explain it.
-/

namespace CatalogLint

/-- The name under which findings are reported and settings are kept. -/
def productName : String := "gettext-duplicate-errors"

/-- The version that the command line and the server tell. -/
def productVersion : String := "0.1.0"

/-- A range of some document that explains a finding. -/
structure Related where
  uri : String
  range : Range
  message : String
  deriving DecidableEq, Repr, Inhabited

structure Diagnostic where
  range : Range
  severity : Severity
  message : String
  related : List Related := []
  source : String := productName
  code : String := ""
  deriving DecidableEq, Repr, Inhabited

end CatalogLint
