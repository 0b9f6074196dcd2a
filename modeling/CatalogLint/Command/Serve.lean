import CatalogLint.Command.World
import CatalogLint.Server.Transport

/-!
# Serving an editor

The command answers the messages on its input until they end. Before the first of them its options
are looked at and its log is set up, and either may end the run.

* `Start`: what a command line leads to.
* `startServe`: the command, up to the first message.
* `Start.ending`: the end of the run, once all messages are there.
-/

namespace CatalogLint.Command

/-- What a command line leads to. -/
inductive Start where
  /-- The run has ended. -/
  | ended (ending : Ending)
  /-- Messages are to be answered, with these files. -/
  | serving (root : FileTree)

inductive ServeOption where
  | verbose
  | logFile
  | help
  deriving DecidableEq, Repr

def serveSpecs : List (OptionSpec ServeOption) :=
  [{ key := .verbose, long := "--verbose", short := some 'v' },
    { key := .logFile, long := "--log-file", takesValue := true },
    { key := .help, long := "--help" }]

/-- Refuses a log file that is a directory, and then arguments that are no options. -/
def validateServe (w : World) (p : Parsed ServeOption) : Except Obstacle Unit := do
  match p.value? .logFile with
  | some path =>
    match ← w.find? path with
    | some (.dir _) => throw (.usage (.directory "--log-file" path))
    | _ => pure ()
  | none => pure ()
  if p.arguments.isEmpty then return () else throw (.usage (.extraArguments p.arguments))

/-- Sets up the log of a server. -/
def serve (w : World) (p : Parsed ServeOption) : Start :=
  let file := (p.value? .logFile).filter (· ≠ "")
  let ready := Log.setUp
    { verbosity := if p.has .verbose then .verbose else .normal
      file := file.map (FileTree.absolutePath w.current) }
    .initial w.root
  match ready.error with
  | some (e, path) => .ended (w.fail (.path e path))
  | none => .serving ready.root

/-- The command that answers an editor, up to the first message. -/
def startServe (w : World) (arguments : List String) : Start :=
  match parseOptions serveSpecs true arguments with
  | .error e => .ended (w.refuse .serve e)
  | .ok parsed =>
    if parsed.has .help then .ended (w.display (Screen.serve.help w.name))
    else
      match validateServe w parsed with
      | .error o => .ended (w.stop .serve o)
      | .ok () => serve w parsed

/-- The end of a run: a server answers the messages on the input. -/
def Start.ending (w : World) : Start → Ending
  | ended ending => ending
  | serving root =>
    let (responses, error) := Server.converse w.input
    { exitCode := if error.isSome then 1 else 0
      stdout := String.join (responses.map (·.sent))
      stderr := String.join (responses.map (·.logged w.installation))
      failure := error.map .stream
      root }

end CatalogLint.Command
