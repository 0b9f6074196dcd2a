import CatalogLint.Command.Report
import CatalogLint.Command.World
import CatalogLint.Files.Analysis

/-!
# Checking files

The command looks at its options, then at its paths, then at the settings and at last at the
files. The first file that cannot be analysed ends it.

* `CheckRequest.ofArguments`: what a command line asks for.
* `findings`: the findings on files, or the first error.
* `runCheck`: the command.
-/

namespace CatalogLint.Command

open CatalogLint.Text

inductive CheckOption where
  | checks
  | severity
  | saveSettings
  | format
  | verbose
  | help
  deriving DecidableEq, Repr

def checkSpecs : List (OptionSpec CheckOption) :=
  [{ key := .checks, long := "--checks", takesValue := true },
    { key := .severity, long := "--severity", takesValue := true },
    { key := .saveSettings, long := "--save-settings" },
    { key := .format, long := "--format", takesValue := true },
    { key := .verbose, long := "--verbose", short := some 'v' },
    { key := .help, long := "--help" }]

/-- What the command is asked for. -/
structure CheckRequest where
  paths : List String
  /-- The checks that are named, or all. -/
  checks : Option (List String)
  /-- The severity that goes before that of the settings. -/
  severity : Option String
  saveSettings : Bool
  json : Bool
  verbose : Bool

/-- Refuses a value that is not among the choices for an option. -/
def choose (option : String) (choices : List String) (value : String) : Except UsageError Unit :=
  if choices.contains value then .ok () else .error (.invalidChoice option value choices)

/-- Refuses a wrong value of an option. -/
def CheckOption.validate (value : String) : CheckOption → Except UsageError Unit
  | severity => choose "--severity" (Severity.all.map (·.label)) value
  | format => choose "--format" ["text", "json"] value
  | _ => .ok ()

/-- Refuses a path that leads to no file. -/
def validatePath (w : World) (path : String) : Except Obstacle Unit := do
  match ← w.find? path with
  | none => throw (.usage (.missingFile "PATHS..." path))
  | some (.dir _) => throw (.usage (.directory "PATHS..." path))
  | some (.file _) => return ()

/-- The names in a list with commas. An empty list names nothing. -/
def splitNames (s : String) : Option (List String) :=
  if s = "" then none
  else some ((cut ',' s).map fun name => String.ofList (trim name.toList))

/-- What parsed arguments ask for. Options are looked at in the order of their first use, and
paths after them. -/
def CheckRequest.ofArguments (w : World) (p : Parsed CheckOption) :
    Except Obstacle CheckRequest := do
  p.keys.forM fun key => (key.validate ((p.value? key).getD "")).mapError .usage
  if p.arguments.isEmpty then throw (.usage .missingPaths)
  p.arguments.forM (validatePath w)
  return { paths := p.arguments, checks := (p.value? .checks).bind splitNames
           severity := p.value? .severity, saveSettings := p.has .saveSettings
           json := p.value? .format == some "json", verbose := p.has .verbose }

/-- The words for a file that cannot be analysed. -/
def fileErrorText (path : String) : FileError → String
  | .analysis (.parse e) => path ++ ": " ++ e.message
  | e => e.message

/-- The findings on files, after those on earlier ones. A path that comes again is analysed
again and keeps its place. -/
def findingsFrom (w : World) (settings : Settings) (checks : Option (List String))
    (earlier : Findings) : List String → Logged (Except String Findings)
  | [] => pure (.ok earlier)
  | path :: rest => do
    match ← analyzeFile w.root w.current path settings checks with
    | .error e => pure (.error (fileErrorText path e))
    | .ok ds => findingsFrom w settings checks (Table.set path ds earlier) rest

/-- The findings on files, or what the first error says. -/
def findings (w : World) (settings : Settings) (checks : Option (List String))
    (paths : List String) : Logged (Except String Findings) :=
  findingsFrom w settings checks [] paths

/-- Whether there is anything to report. -/
def findingsExitCode (f : Findings) : Nat := if f.total = 0 then 0 else 1

/-- The end of a run that has its findings, after `log` on the error stream. -/
def report (w : World) (json : Bool) (log : String) (f : Findings) : Ending :=
  let (stdout, stderr) :=
    if json then (w.shown (jsonReport f), "")
    else
      (w.shownLines (textReport f), if f.total = 0 then "" else w.shown (totalLine f))
  { exitCode := findingsExitCode f, stdout, stderr := log ++ stderr, root := w.root }

/-- Checks files. -/
def check (w : World) (request : CheckRequest) : Ending :=
  let verbosity := if request.verbose then Log.Verbosity.verbose else .quiet
  let h := (Log.setUp { verbosity } .initial w.root).hierarchy
  let loaded := Settings.load w.config w.root
  match loaded.value with
  | .error e => w.fail (.settings e) (w.logText h loaded.log)
  | .ok stored =>
    let settings : Settings := { severity := request.severity.getD stored.severity }
    let saving : FileM (Logged Unit) :=
      if request.saveSettings then settings.save w.config w.part else pure (pure ())
    match saving w.root with
    | .error r root =>
      World.fail { w with root } (.path r.kind (pathText w.config)) (w.logText h loaded.log)
    | .ok saved root =>
      let w := { w with root }
      let result := findings w settings request.checks request.paths
      let log := w.logText h (loaded.log ++ saved.log ++ result.log)
      match result.value with
      | .error text =>
        { exitCode := 2, stderr := log ++ w.shown ("Error: " ++ text), root := w.root }
      | .ok f => report w request.json log f

/-- The command that checks files. -/
def runCheck (w : World) (arguments : List String) : Ending :=
  match parseOptions checkSpecs true arguments with
  | .error e => w.refuse .check e
  | .ok parsed =>
    if parsed.has .help then w.display (Screen.check.help w.name)
    else
      match CheckRequest.ofArguments w parsed with
      | .error o => w.stop .check o
      | .ok request => check w request

end CatalogLint.Command
