import CatalogLint.Analysis
import CatalogLint.Files.Tree
import CatalogLint.Text.Utf8
import CatalogLint.Uri.File

/-!
# Analysis of a file

A file is read as UTF-8, with replacement characters for what is ill formed and a line feed
for every line end, and then analysed like any text, under its URI.

* `analyzeBytes`: the reports on the content of a file.
* `analyzeFile`: the reports on a file of a tree.
-/

namespace CatalogLint

/-- Why a file has no report. -/
inductive FileError where
  | path (e : PathError) (path : String)
  | analysis (e : AnalysisError)
  deriving DecidableEq, Repr

def FileError.message : FileError → String
  | path e p => e.message p
  | analysis e => e.message

/-- The text that bytes stand for. -/
def textOfBytes (bytes : List UInt8) : String :=
  String.ofList (Text.unifyBreaks (Text.Utf8.decodeReplacing bytes))

/-- The reports on the content of the file with URI `uri`. -/
def analyzeBytes (bytes : List UInt8) (uri : String) (settings : Settings := {})
    (checks : Option (List String) := none) : Logged (Except AnalysisError (List Diagnostic)) :=
  analyze (textOfBytes bytes) uri settings checks

/-- The reports on the file that a path leads to. The plain form of the path counts, so that a
slash at its end does not matter. -/
def analyzeFile (root : FileTree) (current : List String) (path : String)
    (settings : Settings := {}) (checks : Option (List String) := none) :
    Logged (Except FileError (List Diagnostic)) :=
  let path := FileTree.plainPath path
  match root.lookup current path with
  | .error e => pure (.error (.path e path))
  | .ok (_, .dir _) => pure (.error (.path .isDirectory path))
  | .ok (names, .file bytes) => do
    let reports ← analyzeBytes bytes (fileUri names) settings checks
    return reports.mapError .analysis

end CatalogLint
