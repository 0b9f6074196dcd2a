import CatalogLint.Catalog.Entry
import CatalogLint.Diagnostic

/-!
# Duplicate definitions

Entries of a catalog that have the same key. Context, plural key and values make no
difference. Each entry of such a group is reported, and each report refers to all members of
the group.

* `groupByKey`: stable grouping; groups come in the order of their first members.
* `duplicateGroups`: the groups with more than one member.
* `groupDiagnostics`: the reports on one group.
-/

namespace CatalogLint

/-- An entry together with its number in the catalog, which tells it from equal entries. -/
structure Occurrence where
  index : Nat
  entry : Entry
  deriving DecidableEq, Repr, Inhabited

/-- The entries of a catalog, numbered from zero. -/
def occurrences (catalog : Catalog) : List Occurrence := catalog.mapIdx Occurrence.mk

section Grouping

variable {α : Type} (key : α → String)

/-- Adds `x` at the end of the group that has its key, or as a new group at the end. -/
def addToGroup (x : α) : List (String × List α) → List (String × List α)
  | [] => [(key x, [x])]
  | (k, members) :: rest =>
    if k = key x then (k, members ++ [x]) :: rest else (k, members) :: addToGroup x rest

/-- The members of `xs` by their key, both groups and members in order of appearance. -/
def groupByKey (xs : List α) : List (List α) :=
  (xs.foldl (fun groups x => addToGroup key x groups) []).map (·.2)

end Grouping

/-- The groups of entries that share their key with another. -/
def duplicateGroups (os : List Occurrence) : List (List Occurrence) :=
  (groupByKey (·.entry.key) os).filter (1 < ·.length)

/-- Why a group cannot be reported. -/
inductive GroupError where
  | empty
  | location (e : InvalidLocation)
  deriving DecidableEq, Repr

def GroupError.message : GroupError → String
  | empty => "list index out of range"
  | location e => e.message

/-- What a report says about a member of the group. -/
def relatedLabel (isFirst : Bool) (e : Entry) : String :=
  let label := if isFirst then "First definition" else "Duplicate definition"
  match e.values.head? with
  | none | some "" => label
  | some value => s!"{label}: {value}"

/-- The range of a key. -/
def Entry.keyRange (e : Entry) : Except GroupError Range := e.keySpan.toRange.mapError .location

/-- One report for each member of a group, in the order of the group. The first member is the
first definition, wherever it stands in the group. -/
def groupDiagnostics (group : List Occurrence) (uri : String) (severity : Severity) :
    Except GroupError (List Diagnostic) :=
  match group with
  | [] => .error .empty
  | first :: _ => do
    let related ← group.mapM fun o => do
      return { uri, range := ← o.entry.keyRange
               message := relatedLabel (o.index == first.index) o.entry : Related }
    group.mapM fun o => do
      return { range := ← o.entry.keyRange, severity, related
               message := "Duplicate message definition", code := "duplicate-msgid" }

/-- All reports on duplicate definitions in a catalog, group by group. -/
def duplicateDiagnostics (catalog : Catalog) (uri : String) (severity : Severity) :
    Except GroupError (List Diagnostic) := do
  let reports ← (duplicateGroups (occurrences catalog)).mapM (groupDiagnostics · uri severity)
  return reports.flatten

end CatalogLint
