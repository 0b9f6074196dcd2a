import CatalogLint.Text.Quoted
import CatalogLint.Text.Resemblance

/-!
# Command-line options

Options begin with dashes. Long ones may have their value after an equals sign or as the next
argument; short ones are flags, and several may share one dash. Two dashes alone end the
options.

* `OptionSpec`: what options there are.
* `parseOptions`: arguments sorted into options and the rest.
* `UsageError`: all that can be wrong with a command line.
-/

namespace CatalogLint.Command

open CatalogLint.Text

/-- All that can be wrong with a command line. -/
inductive UsageError where
  /-- An option ends the command line and needs a value. -/
  | missingValue (option : String)
  /-- A flag has a value. -/
  | needlessValue (option : String)
  | noSuchOption (option : String) (similar : List String)
  | noSuchCommand (name : String) (similar : List String)
  | missingCommand
  | missingPaths
  | invalidChoice (option value : String) (choices : List String)
  | missingFile (parameter path : String)
  | directory (parameter path : String)
  | extraArguments (arguments : List String)
  deriving DecidableEq, Repr

namespace UsageError

/-- The remark on words that could be meant. -/
def suggestion : List String → String
  | [] => ""
  | [word] => " Did you mean " ++ quoted word ++ "?"
  | words => " (Did you mean one of: " ++ ", ".intercalate (words.map quoted) ++ "?)"

def message : UsageError → String
  | missingValue option => "Option " ++ quoted option ++ " requires an argument."
  | needlessValue option => "Option " ++ quoted option ++ " does not take a value."
  | noSuchOption option similar =>
    "No such option " ++ quoted option ++ "." ++ suggestion similar
  | noSuchCommand name similar => "No such command " ++ quoted name ++ "." ++ suggestion similar
  | missingCommand => "Missing command."
  | missingPaths => "Missing argument 'PATHS...'."
  | invalidChoice option value choices =>
    "Invalid value for " ++ quoted option ++ ": " ++ quoted value ++ " is not one of " ++
      ", ".intercalate (choices.map quoted) ++ "."
  | missingFile parameter path =>
    "Invalid value for " ++ quoted parameter ++ ": File " ++ quoted path ++ " does not exist."
  | directory parameter path =>
    "Invalid value for " ++ quoted parameter ++ ": File " ++ quoted path ++ " is a directory."
  | extraArguments [one] => "Got unexpected extra argument (" ++ one ++ ")"
  | extraArguments several =>
    "Got unexpected extra arguments (" ++ " ".intercalate several ++ ")"

/-- Errors in the value of an option are shown without a hint on usage. -/
def isBare : UsageError → Bool
  | missingValue _ | needlessValue _ => true
  | _ => false

end UsageError

/-- An option, known to the program as `key`. -/
structure OptionSpec (κ : Type) where
  key : κ
  long : String
  short : Option Char := none
  takesValue : Bool := false

/-- Arguments sorted: the options in order, each with its value, and the rest. -/
structure Parsed (κ : Type) where
  options : List (κ × String) := []
  arguments : List String := []

/-- What a single argument with dashes says. -/
inductive OptionUse (κ : Type) where
  /-- Flags, or an option with its value. -/
  | given (options : List (κ × String))
  /-- An option whose value is the next argument. -/
  | needsValue (key : κ) (name : String)

section Parsing

variable {κ : Type} (specs : List (OptionSpec κ))

/-- The flags that share one dash. -/
def shortFlags : List Char → Except UsageError (List (κ × String))
  | [] => .ok []
  | c :: rest => do
    match specs.find? (·.short == some c) with
    | some spec => return (spec.key, "") :: (← shortFlags rest)
    | none => throw (.noSuchOption (String.ofList ['-', c]) [])

/-- The name of a long option and the value after the equals sign. -/
def splitValue (argument : String) : String × Option String :=
  let cs := argument.toList
  match cs.dropWhile (· != '=') with
  | _ :: value => (String.ofList (cs.takeWhile (· != '=')), some (String.ofList value))
  | [] => (argument, none)

/-- What the argument `argument`, which begins with a dash, says. -/
def readOption (argument : String) : Except UsageError (OptionUse κ) :=
  let (name, value) := splitValue argument
  match specs.find? (·.long == name), value with
  | some spec, some v =>
    if spec.takesValue then .ok (.given [(spec.key, v)]) else .error (.needlessValue name)
  | some spec, none =>
    if spec.takesValue then .ok (.needsValue spec.key name) else .ok (.given [(spec.key, "")])
  | none, _ =>
    if argument.startsWith "--" then
      .error (.noSuchOption name (closeMatches name (specs.map (·.long))))
    else do return .given (← shortFlags specs (argument.toList.drop 1))

/-- An argument that is meant as an option. A dash alone is not. -/
def isOption (argument : String) : Bool := argument.startsWith "-" && argument.length > 1

/-- Sorts arguments. Options may follow other arguments only if `mixed`. -/
def parseOptions (mixed : Bool) : List String → Except UsageError (Parsed κ)
  | [] => .ok {}
  | argument :: rest =>
    if argument = "--" then .ok { arguments := rest }
    else if isOption argument then
      match readOption specs argument, rest with
      | .error e, _ => .error e
      | .ok (.given options), rest => do
        let parsed ← parseOptions mixed rest
        return { parsed with options := options ++ parsed.options }
      | .ok (.needsValue _ name), [] => .error (.missingValue name)
      | .ok (.needsValue key _), value :: rest => do
        let parsed ← parseOptions mixed rest
        return { parsed with options := (key, value) :: parsed.options }
    else if mixed then do
      let parsed ← parseOptions mixed rest
      return { parsed with arguments := argument :: parsed.arguments }
    else .ok { arguments := argument :: rest }

end Parsing

namespace Parsed

variable {κ : Type} [BEq κ] (p : Parsed κ)

/-- Whether an option is given. -/
def has (key : κ) : Bool := p.options.any (·.1 == key)

/-- The value of an option: the last one given. -/
def value? (key : κ) : Option String := p.options.reverse.lookup key

/-- The options given, each once, in the order of their first use. -/
def keys : List κ := (p.options.map (·.1)).eraseDups

end Parsed

end CatalogLint.Command
