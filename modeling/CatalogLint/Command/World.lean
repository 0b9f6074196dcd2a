import CatalogLint.Command.Options
import CatalogLint.Command.Usage
import CatalogLint.Files.Tree
import CatalogLint.Log.Hierarchy
import CatalogLint.Log.Record
import CatalogLint.Server.Stream
import CatalogLint.Server.Trace
import CatalogLint.Settings.Storage
import CatalogLint.Text.Ansi

/-!
# Runs

A run of the program is a function of what it finds around it. It ends with an exit code and
two texts, and may have changed files.

* `World`: what a run finds.
* `Ending`: how it ends.
* `World.refuse`, `World.fail`, `World.stop`: the end of a run that does not get to its work.
-/

namespace CatalogLint.Command

open CatalogLint.Text

/-- What a run finds: its own name, all files, the current directory and that of the settings,
whether styles are shown, the time for the log, what stands on the input, the directories that
traces name, and the part of the name of a temporary file that the system chooses. -/
structure World where
  name : String
  root : FileTree
  current : List String
  config : List String
  color : Bool := false
  time : String
  input : List UInt8 := []
  installation : Server.Installation := {}
  part : String := "TMP"

/-- An error that ends the run and is not part of its report. -/
inductive Failure where
  /-- The settings cannot be loaded. -/
  | settings (e : Settings.LoadError)
  /-- A path cannot be used. -/
  | path (e : PathError) (path : String)
  /-- The input cannot be read on. -/
  | stream (e : Server.StreamError)

def Failure.message : Failure → String
  | settings e => e.message
  | path e p => e.message p
  | stream e => e.message

/-- Why a command does not start. -/
inductive Obstacle where
  /-- The command line is wrong. -/
  | usage (e : UsageError)
  | failure (f : Failure)

/-- How a run ends. -/
structure Ending where
  exitCode : Nat := 0
  stdout : String := ""
  stderr : String := ""
  failure : Option Failure := none
  root : FileTree

namespace World

variable (w : World)

/-- A line as it is shown. -/
def shown (line : String) : String :=
  if w.color then line ++ "\n" else stripStyles (line ++ "\n")

/-- Lines as they are shown. -/
def shownLines (lines : List String) : String := String.join (lines.map w.shown)

/-- The end of a run with a wrong command line. -/
def refuse (screen : Screen) (e : UsageError) : Ending :=
  let hint := if e.isBare then "" else screen.hint w.name
  { exitCode := 2, stderr := hint ++ w.shown ("Error: " ++ e.message), root := w.root }

/-- The end of a run with an error that is not part of its report, after `log` on the error
stream. -/
def fail (f : Failure) (log : String := "") : Ending :=
  { exitCode := 1, stderr := log, failure := some f, root := w.root }

/-- The end of a run whose command does not start. -/
def stop (screen : Screen) : Obstacle → Ending
  | .usage e => w.refuse screen e
  | .failure f => w.fail f

/-- The end of a run that only shows a text. -/
def display (text : String) : Ending := { stdout := text, root := w.root }

/-- What log records write on the error stream. -/
def logText (h : Log.Hierarchy) (log : List Log.Record) : String :=
  String.join <| log.map fun r =>
    let logger := Log.programLogger ++ "." ++ r.source.name
    (Log.emit w.time logger r.level.number r.message h w.root).stderr

/-- What a path leads to, if anything. A path with a null character leads nowhere and ends the
run. -/
def find? (path : String) : Except Obstacle (Option FileTree) :=
  match w.root.lookup w.current path with
  | .ok (_, t) => .ok (some t)
  | .error .nullByte => .error (.failure (.path .nullByte path))
  | .error _ => .ok none

end World

end CatalogLint.Command
