import CatalogLint.Command.Check
import CatalogLint.Command.Serve

/-!
# The program

The program's own options come before the name of a command; all that follows the name is the
command's.

* `start`: what a command line leads to.
* `run`: a run of the program.
-/

namespace CatalogLint.Command

inductive ProgramOption where
  | version
  | help
  deriving DecidableEq, Repr

def programSpecs : List (OptionSpec ProgramOption) :=
  [{ key := .version, long := "--version" }, { key := .help, long := "--help" }]

/-- The names of the commands. -/
def commandNames : List String := ["check", "serve"]

/-- The arguments after the program's own options, or the end of the run that the options
make. -/
def programOptions (w : World) (arguments : List String) : Except Ending (List String) :=
  match parseOptions programSpecs false arguments with
  | .error e => .error (w.refuse .program e)
  | .ok parsed =>
    match parsed.options with
    | (.version, _) :: _ => .error (w.display (w.shown versionText))
    | (.help, _) :: _ => .error (w.display (Screen.program.help w.name))
    | [] => .ok parsed.arguments

/-- The end of a run with an unknown command. A name with a dash is taken for an option
first. -/
def refuseCommand (w : World) (name : String) (rest : List String) : Ending :=
  match programOptions w (name :: rest) with
  | .error ending => ending
  | .ok _ => w.refuse .program (.noSuchCommand name (Text.closeMatches name commandNames))

/-- What a command line leads to: only a server has anything left to do. -/
def start (w : World) (arguments : List String) : Start :=
  if arguments.isEmpty then
    .ended { exitCode := 2, stderr := Screen.program.help w.name, root := w.root }
  else
    match programOptions w arguments with
    | .error ending => .ended ending
    | .ok [] => .ended (w.refuse .program .missingCommand)
    | .ok (name :: rest) =>
      match name with
      | "check" => .ended (runCheck w rest)
      | "serve" => startServe w rest
      | _ => .ended (refuseCommand w name rest)

/-- A run of the program. -/
def run (w : World) (arguments : List String) : Ending := (start w arguments).ending w

end CatalogLint.Command
