import CatalogLint.Uri.Parts
import CatalogLint.Uri.Percent

/-!
# URIs of files

A file's URI is its absolute path with all bytes but the unreserved ones written with percent
signs. The other way, every URI that is not wrong leads to a path.

* `fileUri`: the URI of a list of names.
* `filePath`: the path of a URI.
-/

namespace CatalogLint

/-- The URI of the file at a list of names. -/
def fileUri (names : List String) : String :=
  "file://" ++ String.ofList (names.map fun name => '/' :: Uri.encode name).flatten

namespace Uri

/-- The path of a file, given the parts of its URI without percent signs. The authority of a
file is the machine that shares it, and a drive is named by a small letter. -/
def pathOfParts (scheme : String) (authority path : List Char) : List Char :=
  if !authority.isEmpty && !path.isEmpty && scheme == "file" then '/' :: '/' :: authority ++ path
  else
    match path with
    | '/' :: drive :: ':' :: rest => if drive.isAlpha then drive.toLower :: ':' :: rest else path
    | _ => path

/-- The path of a URI. -/
def filePath (uri : String) : Except UriError String := do
  let parts ← Parts.read uri
  return String.ofList (pathOfParts parts.scheme (decode parts.authority) (decode parts.path))

end Uri

end CatalogLint
