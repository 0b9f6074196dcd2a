import CatalogLint.Files.Tree
import CatalogLint.Text.Utf8

/-!
# Loggers

Loggers have dotted names. Above a logger is the one with the longest beginning of its name
before a dot, among those that have been touched; the root is above all. A record goes to the
handlers of its logger and of those above, up to one that keeps its records to itself. Each
handler drops what is below its own level. A record that finds no handler at all is shown bare
on the error stream if it is a warning or worse.

* `Hierarchy.lineage`: the loggers that a record passes.
* `Hierarchy.effectiveLevel`: the level that a record must reach.
* `Hierarchy.route`: the handlers on the way of a record.
* `setUp`: the configuration that the program makes for itself.
* `emit`: what a record does.
-/

namespace CatalogLint.Log

/-- Where a handler writes: to the error stream, or to the file at a list of names. -/
inductive Target where
  | stderr
  | file (names : List String)
  deriving DecidableEq, Repr

structure Handler where
  target : Target
  level : Nat
  deriving DecidableEq, Repr

/-- A logger. Level zero leaves the level to the logger above. -/
structure Logger where
  level : Nat := 0
  propagate : Bool := true
  handlers : List Handler := []
  deriving DecidableEq, Repr

/-- The loggers that have been touched, by name. The root has the empty name. -/
structure Hierarchy where
  loggers : List (String × Logger)

/-- The level of a warning, from which on records are shown by default. -/
def warningLevel : Nat := 30

/-- The level that a library's records must reach at least. -/
def infoLevel : Nat := 20

/-- No logger has been touched. -/
def Hierarchy.initial : Hierarchy := ⟨[("", { level := warningLevel })]⟩

/-- The root's own name. -/
def rootName : String := "root"

/-- A logger's name in the hierarchy: the root can be called by its own name. -/
def canonicalName (name : String) : String := if name = rootName then "" else name

/-- A logger's name in its records. -/
def shownName (name : String) : String := if canonicalName name = "" then rootName else name

namespace Hierarchy

/-- The logger with a name. -/
def get (h : Hierarchy) (name : String) : Logger :=
  (h.loggers.lookup (canonicalName name)).getD {}

/-- Changes the logger with a name. -/
def modify (h : Hierarchy) (name : String) (f : Logger → Logger) : Hierarchy :=
  let key := canonicalName name
  if h.loggers.any (·.1 == key) then
    ⟨h.loggers.map fun (n, l) => if n = key then (n, f l) else (n, l)⟩
  else ⟨h.loggers ++ [(key, f {})]⟩

/-- The hierarchy with the logger with a name in it. -/
def touch (h : Hierarchy) (name : String) : Hierarchy := h.modify name id

end Hierarchy

/-- The beginnings of a name before its dots, the longest first, name and beginnings all written
backwards. Of two dots side by side only the later one counts, and a beginning is not empty. -/
def beginnings : List Char → List (List Char)
  | [] => []
  | '.' :: c :: rest => (c :: rest) :: beginnings rest
  | _ :: rest => beginnings rest

namespace Hierarchy

/-- Whether a logger takes the one with the longer name `name` under it. It must have been
touched, and if its name is a beginning of the root's own then before the other. -/
def takesUnder (h : Hierarchy) (upper name : String) : Bool :=
  let names := h.loggers.map (·.1)
  names.contains upper && (!rootName.startsWith upper || names.idxOf upper < names.idxOf name)

/-- The logger above that with a name. -/
def parent (h : Hierarchy) (name : String) : String :=
  let above := (beginnings name.toList.reverse).map fun cs => String.ofList cs.reverse
  (above.find? (h.takesUnder · name)).getD ""

/-- The loggers from that with a name up to the root, of which there are at most `limit`
without the root. -/
def lineageFrom (h : Hierarchy) (name : String) : Nat → List String
  | 0 => [""]
  | limit + 1 => if name = "" then [""] else name :: h.lineageFrom (h.parent name) limit

/-- The loggers that a record of the logger `name` passes, from that one to the root. Each has
a shorter name than the one before. -/
def lineage (h : Hierarchy) (name : String) : List String :=
  h.lineageFrom (canonicalName name) name.length

/-- The level that a record of a logger must reach: that of the nearest logger with one. -/
def effectiveLevel (h : Hierarchy) (name : String) : Nat :=
  (((h.lineage name).map fun n => (h.get n).level).find? (· ≠ 0)).getD 0

/-- The handlers of loggers, in order, up to the first that keeps its records to itself. -/
def handlersAlong (h : Hierarchy) : List String → List Handler
  | [] => []
  | name :: rest =>
    let l := h.get name
    if l.propagate then l.handlers ++ h.handlersAlong rest else l.handlers

/-- The handlers on the way of a record of a logger. -/
def route (h : Hierarchy) (name : String) : List Handler := h.handlersAlong (h.lineage name)

end Hierarchy

/-- Adds a handler that the logger does not have. -/
def Logger.addHandler (l : Logger) (handler : Handler) : Logger :=
  if l.handlers.contains handler then l else { l with handlers := l.handlers ++ [handler] }

/-- The logger above all parts of the program. -/
def programLogger : String := "gettext_duplicates"

/-- How much the program tells. -/
inductive Verbosity where
  /-- Warnings only. -/
  | quiet
  /-- What a server tells. -/
  | normal
  /-- Everything. -/
  | verbose
  deriving DecidableEq, Repr

def Verbosity.level : Verbosity → Nat
  | quiet => 30
  | normal => 20
  | verbose => 10

/-- A configuration: how much to tell, the absolute path of a file to write to as well, and the
loggers of libraries that share the handlers. -/
structure Setup where
  verbosity : Verbosity := .quiet
  file : Option String := none
  libraries : List String := []

/-- The outcome of a configuration: loggers, files, and the file that could not be opened. -/
structure SetupResult where
  hierarchy : Hierarchy
  root : FileTree
  error : Option (PathError × String) := none

/-- A library's logger shares the handlers and keeps its records to itself. -/
def Logger.share (handlers : List Handler) (level : Nat) (l : Logger) : Logger :=
  handlers.foldl Logger.addHandler { l with level, propagate := false }

/-- Configures the program's logger. Its level is always set; handlers are made once, and
stay if there are any. -/
def setUp (s : Setup) (h : Hierarchy) (root : FileTree) : SetupResult :=
  let level := s.verbosity.level
  let leveled := h.modify programLogger ({ · with level })
  if (leveled.get programLogger).handlers.isEmpty then
    let connect (targets : List Target) : Hierarchy :=
      let handlers := targets.map (⟨·, level⟩)
      let own := leveled.modify programLogger fun l => handlers.foldl Logger.addHandler l
      s.libraries.foldl
        (fun h name => h.modify name (Logger.share handlers (max level infoLevel))) own
    match s.file with
    | none => ⟨connect [.stderr], root, none⟩
    | some path =>
      match root.openAppend path with
      | .ok opened =>
        ⟨connect [.stderr, .file (FileTree.absoluteNames [] path)], opened, none⟩
      | .error e => ⟨leveled, root, some (e, path)⟩
  else ⟨leveled, root, none⟩

/-- The name of a level. -/
def levelName (level : Nat) : String :=
  match level with
  | 10 => "DEBUG"
  | 20 => "INFO"
  | 30 => "WARNING"
  | 40 => "ERROR"
  | 50 => "CRITICAL"
  | n => s!"Level {n}"

/-- A record as a line: the time, the level in at least five places, the logger and the
message. -/
def formatLine (time : String) (level : Nat) (name message : String) : String :=
  let label := levelName level
  let padding := String.ofList (List.replicate (5 - label.length) ' ')
  s!"{time} {label}{padding} {shownName name}: {message}\n"

/-- Writes a line where a handler writes: the files and the text on the error stream. -/
def Handler.write (line : String) (out : FileTree × String) (handler : Handler) :
    FileTree × String :=
  match handler.target with
  | .stderr => (out.1, out.2 ++ line)
  | .file names => (out.1.append names (Text.Utf8.encode line), out.2)

/-- What a record of a logger writes: to files, and on the error stream. -/
def written (time : String) (name : String) (level : Nat) (message : String) (h : Hierarchy)
    (root : FileTree) : FileTree × String :=
  if level = 0 || level < h.effectiveLevel name then (root, "")
  else
    match h.route name with
    | [] => (root, if warningLevel ≤ level then message ++ "\n" else "")
    | handlers =>
      (handlers.filter (·.level ≤ level)).foldl
        (Handler.write (formatLine time level name message)) (root, "")

/-- What a record leaves behind: the loggers, the files, and the text on the error stream. -/
structure Emission where
  hierarchy : Hierarchy
  root : FileTree
  stderr : String

/-- Emits a record of a logger, which is touched by that. -/
def emit (time : String) (name : String) (level : Nat) (message : String) (h : Hierarchy)
    (root : FileTree) : Emission :=
  let h := h.touch name
  let (root, stderr) := written time name level message h root
  ⟨h, root, stderr⟩

end CatalogLint.Log
