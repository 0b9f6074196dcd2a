import CatalogLint.Files.Operations
import CatalogLint.Json.Reader
import CatalogLint.Json.Writer
import CatalogLint.Settings.Basic
import CatalogLint.Text.Lines
import CatalogLint.Text.Utf8

/-!
# Stored settings

Settings are kept as a JSON file in a directory of their own. Saving writes a temporary file
there and puts it in the place of the old one, so it happens wholly or not at all.

* `Settings.store`: the operations of saving, one after the other.
* `Settings.save`: saving. What the system refuses is logged.
* `Settings.ofContent`: the settings that a file holds. A file that cannot be read or is not JSON
  gives the defaults; bytes that are not UTF-8, and what is too long or too deep, are errors.
* `Settings.load`: the settings that a tree holds.
-/

namespace CatalogLint

namespace Settings

/-- The name of the settings file. -/
def fileName : String := "settings.json"

/-- The name of a temporary file. The system chooses a part of it. -/
def temporary (part : String) : String := ".settings-" ++ part ++ ".tmp"

/-- The content of the settings file. -/
def payload (s : Settings) : String := Json.pretty (.object [("severity", .string s.severity)])

/-- Writes the settings to the temporary file `name`, and gives it the name of the settings file. -/
def fillAndMove (s : Settings) (config : List String) (name : String) : FileM Unit := do
  let tell e := PathError.message e (pathText (config ++ [name]))
  FileTree.change config tell (.write name (Text.Utf8.encode s.payload))
  FileTree.change config
    (fun e => tell e ++ " -> " ++ Text.quoted (pathText (config ++ [fileName])))
    (.move name fileName)

/-- Puts a temporary file in the place of the settings file. If this fails, the temporary file is
taken away. -/
def replaceFile (s : Settings) (config : List String) (name : String) : FileM Unit := do
  let tell e := PathError.message e (pathText (config ++ [name]))
  FileTree.change config tell (.add name (.file []))
  try s.fillAndMove config name
  catch r =>
    try FileTree.change config tell (.remove name) catch _ => pure ()
    throw r

/-- Puts the settings into the directory `config`, which is made if need be, by way of the temporary
file `name`. -/
def store (s : Settings) (config : List String) (name : String) : FileM Unit := do
  FileTree.makeDirectories [] config
  s.replaceFile config name

/-- Saves the settings, with `part` in the name of the temporary file. What the system refuses is
logged, and other errors are raised. -/
def save (s : Settings) (config : List String) (part : String) : FileM (Logged Unit) := do
  try
    s.store config (temporary part)
    pure (pure ())
  catch r =>
    if r.kind = .nullByte then throw r
    else pure (note .warning ("Failed to save settings: " ++ r.text))

/-- Why settings cannot be loaded. -/
inductive LoadError where
  | encoding (e : Text.Utf8.DecodeError)
  /-- A whole number in the file has this many digits. -/
  | longNumber (digits : Nat)
  /-- An array, or an object, in the file is nested too deep. -/
  | tooDeep (inArray : Bool)
  deriving DecidableEq, Repr

def LoadError.message : LoadError → String
  | encoding e => e.message
  | longNumber digits => Json.longNumberText digits
  | tooDeep inArray => Json.tooDeepText inArray

/-- What is found where the settings file should be. -/
inductive Content where
  | absent
  /-- There is something, but it cannot be read, for a reason that the system gives. -/
  | unreadable (reason : String)
  | stored (bytes : List UInt8)

/-- What a tree holds at the place of the settings file. -/
def Content.find (file : List String) (root : FileTree) : Content :=
  match root.get? file with
  | none => .absent
  | some (.dir _) => .unreadable (PathError.isDirectory.message (pathText file))
  | some (.file bytes) => .stored bytes

/-- The settings that a file holds. It is read with a line feed for every line end. -/
def ofContent (file : List String) : Content → Logged (Except LoadError Settings)
  | .absent => pure (.ok {})
  | .unreadable reason => do
    note .warning ("Cannot read settings file: " ++ reason)
    return .ok {}
  | .stored bytes =>
    match Text.Utf8.decodeStrict bytes with
    | .error e => pure (.error (.encoding e))
    | .ok text =>
      match Json.read (Text.unifyBreaks text) with
      | .error .malformed => do
        note .warning ("Settings file is corrupted, using defaults: " ++ pathText file)
        return .ok {}
      | .error (.longNumber digits) => pure (.error (.longNumber digits))
      | .error (.tooDeep inArray) => pure (.error (.tooDeep inArray))
      | .ok v => do return .ok (← ofJson v)

/-- The settings in the directory `config`. -/
def load (config : List String) (root : FileTree) : Logged (Except LoadError Settings) :=
  let file := config ++ [fileName]
  ofContent file (Content.find file root)

end Settings

end CatalogLint
