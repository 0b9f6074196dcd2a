/-!
# Severities

How serious a finding is, with the numbers that editors use for it.
-/

namespace CatalogLint

inductive Severity where
  | error
  | warning
  | information
  | hint
  deriving DecidableEq, Repr, Inhabited

namespace Severity

/-- All severities, the most serious first. -/
def all : List Severity := [error, warning, information, hint]

/-- The editor's number. -/
def number : Severity → Nat
  | error => 1
  | warning => 2
  | information => 3
  | hint => 4

/-- The name in reports for programs. -/
def name : Severity → String
  | error => "ERROR"
  | warning => "WARNING"
  | information => "INFORMATION"
  | hint => "HINT"

/-- The name in reports for people and on the command line. -/
def label : Severity → String
  | error => "error"
  | warning => "warning"
  | information => "information"
  | hint => "hint"

/-- The severity with a name in upper case. -/
def ofName? (s : String) : Option Severity := all.find? (·.name == s)

end Severity

/-- A number that is no severity. -/
structure InvalidSeverity where
  number : Int
  deriving DecidableEq, Repr

def InvalidSeverity.message (e : InvalidSeverity) : String :=
  s!"{e.number} is not a valid Severity"

/-- The severity with an editor's number. -/
def Severity.ofNumber (n : Int) : Except InvalidSeverity Severity :=
  match all.find? fun s => (s.number : Int) == n with
  | some s => .ok s
  | none => .error ⟨n⟩

end CatalogLint
