import CatalogLint.Table
import CatalogLint.Text.Lines
import CatalogLint.Text.Quoted

/-!
# File trees

The files that the program sees, as a value: directories with named entries, and files with
their bytes. Paths are relative to a current directory or begin at the root. The system takes
no path with a null character, and neither names nor paths beyond a certain length.

* `FileTree.get?`, `FileTree.put`: what stands at a list of names.
* `FileTree.resolve`: the list of names that a path leads to, with every directory on the way
  looked at.
* `absolutePath`, `plainPath`: the path that a path spells from the root on, and the path
  without the steps that do nothing.
* `FileTree.openAppend`, `FileTree.append`: the changes that the log makes.
-/

namespace CatalogLint

inductive FileTree where
  | file (bytes : List UInt8)
  | dir (entries : List (String × FileTree))
  deriving Inhabited

/-- Why a path cannot be used. -/
inductive PathError where
  | notFound
  | fileExists
  | notDirectory
  | isDirectory
  | nameTooLong
  /-- The path has a null character. -/
  | nullByte
  deriving DecidableEq, Repr

/-- The words for an error, with the system's number if the system tells of it. -/
def PathError.text : PathError → String
  | notFound => "[Errno 2] No such file or directory"
  | fileExists => "[Errno 17] File exists"
  | notDirectory => "[Errno 20] Not a directory"
  | isDirectory => "[Errno 21] Is a directory"
  | nameTooLong => "[Errno 36] File name too long"
  | nullByte => "embedded null byte"

/-- An error and the path that it is about. A null character is told of without the path. -/
def PathError.message (e : PathError) (path : String) : String :=
  if e = .nullByte then e.text else e.text ++ ": " ++ Text.quoted path

/-- The most bytes that a name may have. -/
def nameLimit : Nat := 255

/-- Paths have fewer bytes than this. -/
def pathLimit : Nat := 4096

/-- The absolute path of a list of names. -/
def pathText (names : List String) : String := "/" ++ "/".intercalate names

namespace FileTree

/-- The entries of a directory; a file has none. -/
def entries : FileTree → Table FileTree
  | file _ => []
  | dir es => es

/-- What stands at a list of names. -/
def get? (t : FileTree) : List String → Option FileTree
  | [] => some t
  | name :: rest => (t.entries.lookup name).bind (·.get? rest)

/-- The tree with `t` at a list of names, and directories on the way to it. -/
def put (t : FileTree) : List String → FileTree → FileTree
  | [], _ => t
  | name :: rest, u =>
    dir (Table.set name (put t rest ((u.entries.lookup name).getD (dir []))) u.entries)

/-- Follows the steps of a path from the names `here`. Every step leaves a directory. -/
def follow (root : FileTree) (here : List String) : List String → Except PathError (List String)
  | [] => .ok here
  | step :: rest =>
    match root.get? here with
    | none => .error .notFound
    | some (file _) => .error .notDirectory
    | some (dir es) =>
      if step = "" || step = "." then follow root here rest
      else if step = ".." then follow root here.dropLast rest
      else if nameLimit < step.utf8ByteSize then .error .nameTooLong
      else if (es.lookup step).isSome then follow root (here ++ [step]) rest
      else .error .notFound

/-- The names that a path leads to from the current directory. -/
def resolve (root : FileTree) (current : List String) (path : String) :
    Except PathError (List String) :=
  if path.toList.contains '\x00' then .error .nullByte
  else if path = "" then .error .notFound
  else if pathLimit ≤ path.utf8ByteSize then .error .nameTooLong
  else follow root (if path.startsWith "/" then [] else current) (Text.cut '/' path)

/-- What a path leads to, and the names of it. -/
def lookup (root : FileTree) (current : List String) (path : String) :
    Except PathError (List String × FileTree) := do
  let names ← root.resolve current path
  match root.get? names with
  | some t => return (names, t)
  | none => throw .notFound

/-- The names that a path spells, without a look at the tree. -/
def absoluteNames (current : List String) (path : String) : List String :=
  (Text.cut '/' path).foldl
    (fun names step =>
      if step = "" || step = "." then names
      else if step = ".." then names.dropLast
      else names ++ [step])
    (if path.startsWith "/" then [] else current)

/-- The slash that a path keeps beside the one at its beginning: two slashes there are kept,
and three or more count as one. -/
def extraSlash (path : String) : String :=
  if path.startsWith "//" && !path.startsWith "///" then "/" else ""

/-- The path that a path spells from the root on. -/
def absolutePath (current : List String) (path : String) : String :=
  extraSlash path ++ pathText (absoluteNames current path)

/-- A path without the steps that stay where they are, and without a slash at its end. -/
def plainPath (path : String) : String :=
  let steps := (Text.cut '/' path).filter fun step => step ≠ "" && step ≠ "."
  let start := if path.startsWith "/" then extraSlash path ++ "/" else ""
  let plain := start ++ "/".intercalate steps
  if plain = "" then "." else plain

/-- Opens the file at an absolute path to write at its end, and makes it if need be. Its
directory must be there. -/
def openAppend (root : FileTree) (path : String) : Except PathError FileTree :=
  let names := absoluteNames [] path
  match root.lookup [] path, root.get? names.dropLast with
  | .ok (_, dir _), _ => .error .isDirectory
  | .ok (_, file _), _ => .ok root
  | .error .notFound, some (dir _) => .ok (put (file []) names root)
  | .error e, _ => .error e

/-- Writes at the end of a file. -/
def append (root : FileTree) (names : List String) (bytes : List UInt8) : FileTree :=
  match root.get? names with
  | some (file old) => put (file (old ++ bytes)) names root
  | _ => root

end FileTree

end CatalogLint
