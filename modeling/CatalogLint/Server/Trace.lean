/-!
# Traces

When a message cannot be used, the error stream shows the way down to the place where that came
up: for each step the file, the line with its number, and the part of the line that was at work.

* `Place`: one step.
* `Trace.text`: the whole way, with what ended it.
* `Trace.textAfter`: a trace that another one led to.
-/

namespace CatalogLint.Server

/-- The directories of the files that traces name. -/
structure Installation where
  libraries : String := ""
  runtime : String := ""

/-- Whose file a place is in. -/
inductive Origin where
  | library
  | runtime
  deriving DecidableEq, Repr

/-- The path of a file of the installation. -/
def Installation.path (i : Installation) (origin : Origin) (file : String) : String :=
  let dir := match origin with
    | .library => i.libraries
    | .runtime => i.runtime
  if dir = "" then file else dir ++ "/" ++ file

/-- A place in a file. Of the line, the part `marked` was at work; if it is empty, all was. -/
structure Place where
  origin : Origin
  file : String
  line : Nat
  function : String
  before : String := ""
  marked : String := ""
  after : String := ""

/-- The lines that show a place. -/
def Place.text (i : Installation) (p : Place) : String :=
  let path := i.path p.origin p.file
  let margin := "    "
  let mark := margin ++ String.ofList (List.replicate p.before.length ' ' ++
    List.replicate p.marked.length '^') ++ "\n"
  s!"  File \"{path}\", line {p.line}, in {p.function}\n" ++
    margin ++ p.before ++ p.marked ++ p.after ++ "\n" ++ (if p.marked = "" then "" else mark)

/-- The way to a place, outermost first, and what ended it. -/
structure Trace where
  places : List Place
  ending : String

namespace Trace

/-- The text of a trace. -/
def text (i : Installation) (t : Trace) : String :=
  "Traceback (most recent call last):\n" ++ String.join (t.places.map (Place.text i)) ++
    t.ending ++ "\n"

/-- The text of a trace that another one, its cause, led to. -/
def textAfter (i : Installation) (cause t : Trace) : String :=
  cause.text i ++
    "\nThe above exception was the direct cause of the following exception:\n\n" ++ t.text i

end Trace

end CatalogLint.Server
