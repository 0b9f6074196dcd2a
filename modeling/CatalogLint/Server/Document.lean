import CatalogLint.Files.Tree
import CatalogLint.Log.Record
import CatalogLint.Text.Lines
import CatalogLint.Text.Utf8
import CatalogLint.Uri.File

/-!
# Documents in files

A document that no client has opened is read from the file that its URI leads to.

* `readDocument`: the text of such a document.
-/

namespace CatalogLint.Server

/-- The text of the document with a URI, among the files of a tree. -/
def readDocument (root : FileTree) (current : List String) (uri : String) :
    Except Log.Cause String := do
  let path ← (Uri.filePath uri).mapError .uri
  match ← (root.lookup current path).mapError .path with
  | (_, .dir _) => throw (.path .isDirectory)
  | (_, .file bytes) =>
    let text ← (Text.Utf8.decodeStrict bytes).mapError .encoding
    return String.ofList (Text.unifyBreaks text)

end CatalogLint.Server
