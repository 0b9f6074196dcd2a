import CatalogLint.Json.Value
import CatalogLint.Log.Record
import CatalogLint.Severity
import CatalogLint.Text.Quoted
import CatalogLint.Text.Upper

/-!
# Settings

The options of a document: the severity of what is reported, by a name in any case. The name
is kept as it was given, so it may name no severity at all.

* `Settings.level`: the severity that the settings name.
* `Settings.ofJson`: settings from a value that may hold anything. What it cannot use it drops.
-/

namespace CatalogLint

structure Settings where
  severity : String := "error"
  deriving DecidableEq, Repr, Inhabited

/-- A name, in upper case, that is no severity's. -/
structure UnknownSeverity where
  name : String
  deriving DecidableEq, Repr

def UnknownSeverity.message (e : UnknownSeverity) : String := Text.quoted e.name

/-- The severity that a name stands for. -/
def severityNamed? (name : String) : Option Severity := Severity.ofName? (Text.upper name)

/-- The severity that the settings name. -/
def Settings.level (s : Settings) : Except UnknownSeverity Severity :=
  match severityNamed? s.severity with
  | some severity => .ok severity
  | none => .error ⟨Text.upper s.severity⟩

/-- The kind of a value, as messages name it. -/
def Json.kind : Json → String
  | null => "null"
  | bool _ => "bool"
  | int _ => "int"
  | real .. | nan | infinity _ => "float"
  | string _ => "str"
  | array _ => "list"
  | object _ => "object"

namespace Settings

/-- Writes a record about settings. -/
def note (level : Log.Level) (message : String) : Logged Unit :=
  Log.write { source := .settings, level, message }

/-- The severity among the fields, if it is given as a text. -/
def givenSeverity : List (List Text.Point × Json) → Logged (Option (List Text.Point))
  | [] => pure none
  | (key, value) :: rest => do
    if key = Text.pointsOf "severity" then
      match value with
      | .string points => do
        let later ← givenSeverity rest
        return later.or (some points)
      | _ => do
        note .warning "Ignoring setting 'severity': expected str"
        givenSeverity rest
    else do
      note .debug ("Ignoring unknown setting " ++ Text.quotedPoints key)
      givenSeverity rest

/-- Settings from any value. Unknown fields, fields of the wrong kind and unknown severities
are dropped, and logged. -/
def ofJson : Json → Logged Settings
  | .null => pure {}
  | .object fields => do
    match ← givenSeverity fields with
    | none => pure {}
    | some points =>
      match (Text.stringOf? points).filter fun s => (severityNamed? s).isSome with
      | some severity => pure { severity }
      | none => do
        note .warning ("Ignoring unknown severity " ++ Text.quotedPoints points)
        pure {}
  | v => do
    note .warning s!"Ignoring settings of type {v.kind}"
    pure {}

end Settings

end CatalogLint
