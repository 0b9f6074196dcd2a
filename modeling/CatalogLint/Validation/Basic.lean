import CatalogLint.Analysis
import CatalogLint.Settings.Cache

/-!
# Validation

Documents are validated in passes. A pass looks up the settings of its document, and when it
has them analyses the text as it is then and publishes the reports, unless a later pass over
the same document has begun or the document has been closed. When all settings change, the
open documents are validated one after the other.

* `Pass`, `PassResult`: a pass under way, and how it ends.
* `Task`, `TaskResult`: one pass or several, as they were asked for, and how they end.
* `Validator`: the passes under way and what they share.
-/

namespace CatalogLint

/-- What the validator finds around it: the texts of documents, how the others are read,
whether reports are taken, and an error that every analysis ends with. -/
structure Surroundings where
  documents : Table String := []
  elsewhere : String → Except Log.Cause String := fun _ => .error .unknownDocument
  sinkClosed : Bool := false
  fault : Option AnalysisError := none

/-- The text of a document. -/
def Surroundings.read (s : Surroundings) (uri : String) : Except Log.Cause String :=
  match s.documents.lookup uri with
  | some text => .ok text
  | none => s.elsewhere uri

/-- A pass: its document, its token and the lookup that it waits for. -/
structure Pass where
  uri : String
  token : Nat
  lookup : LookupId
  deriving DecidableEq, Repr

/-- What escapes from a pass. -/
inductive Escape where
  /-- The analysis failed in a way that no text can cause. -/
  | analysis (e : AnalysisError)
  /-- The reports were not taken. -/
  | sinkClosed
  deriving DecidableEq, Repr

def Escape.message : Escape → String
  | analysis e => e.message
  | sinkClosed => "sink closed"

/-- How a pass ends. -/
inductive PassResult where
  | published (diagnostics : List Diagnostic)
  /-- Nothing was published, and what was published before stands. -/
  | nothing
  | escaped (e : Escape)

/-- How a task ends. -/
inductive TaskResult where
  /-- A single pass has ended. -/
  | pass (result : PassResult)
  /-- All documents have been validated. -/
  | done
  /-- A pass over one of the documents failed, and the rest were left out. -/
  | failed (e : Escape)
  | cancelled

/-- A task that waits: the pass at hand and, if it goes through documents, those to come. -/
structure Task where
  number : Nat
  pass : Pass
  rest : Option (List String)
  deriving DecidableEq, Repr

/-- The passes under way and what they share. -/
structure Validator where
  checks : Option (List String) := none
  cache : SettingsCache := {}
  /-- The token of the latest pass over each document that is not closed. -/
  latest : Table Nat := []
  /-- How many passes have begun, over all documents. -/
  begun : Nat := 0
  /-- The tasks that wait, in the order in which they began to. -/
  waiting : List Task := []
  surroundings : Surroundings := {}

/-- A validator for the checks that are named, or all. -/
def Validator.create (checks : Option (List String)) : Except AnalysisError Validator := do
  knownChecks (checks.getD [])
  return { checks }

end CatalogLint
