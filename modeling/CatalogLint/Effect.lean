import CatalogLint.Diagnostic
import CatalogLint.Log.Record

/-!
# Effects

What a step of the running program does to the outside, in order: it asks the client for
settings, logs, publishes, and ends the tasks that it was given.
-/

namespace CatalogLint

/-- A lookup of settings: the document, and which of its lookups, counted from zero. -/
structure LookupId where
  uri : String
  number : Nat
  deriving DecidableEq, Repr

/-- One thing that happens. All passes are numbered in the order in which they begin, which is
their token. Tasks end with results of type `ρ`. -/
inductive Effect (ρ : Type) where
  /-- The pass with this token over a document begins. -/
  | began (token : Nat) (uri : String)
  /-- The client is asked for the settings of a document. -/
  | asked (lookup : LookupId)
  | logged (r : Log.Record)
  /-- The pass gives way to a later one, or to the closing of its document. -/
  | superseded (token : Nat) (uri : String)
  /-- The pass replaces what was published for its document. -/
  | published (token : Nat) (uri : String) (diagnostics : List Diagnostic)
  /-- The pass would replace what was published for its document, and its reports are not
  taken. -/
  | refused (token : Nat) (uri : String) (diagnostics : List Diagnostic)
  /-- The task with this number ends. -/
  | finished (task : Nat) (result : ρ)

/-- The effects that a log is. -/
def Effect.ofLog {ρ : Type} (log : List Log.Record) : List (Effect ρ) := log.map .logged

end CatalogLint
