import CatalogLint.Diagnostic

/-!
# Usage and help

The texts that explain the command line, for the program and for each of its commands.
-/

namespace CatalogLint.Command

/-- The program itself, or one of its commands. -/
inductive Screen where
  | program
  | check
  | serve
  deriving DecidableEq, Repr

namespace Screen

/-- What is typed to get there. -/
def invocation (name : String) : Screen → String
  | program => name
  | check => name ++ " check"
  | serve => name ++ " serve"

/-- The arguments that can follow. -/
def synopsis : Screen → String
  | program => "[OPTIONS] COMMAND [ARGS]..."
  | check => "[OPTIONS] PATHS..."
  | serve => "[OPTIONS]"

def usageLine (name : String) (s : Screen) : String :=
  "Usage: " ++ s.invocation name ++ " " ++ s.synopsis ++ "\n"

/-- What it is for, and its options and commands. -/
def description : Screen → List String
  | program =>
    ["  Report msgid values defined more than once in gettext catalogs.",
      "",
      "Options:",
      "  --version  Show the version and exit.",
      "  --help     Show this message and exit.",
      "",
      "Commands:",
      "  check  Check catalog files for duplicate message definitions.",
      "  serve  Run the language server over stdio."]
  | check =>
    ["  Check catalog files for duplicate message definitions.",
      "",
      "Options:",
      "  --checks TEXT                   Comma-separated check names (default: all).",
      "                                  Available: Duplicates",
      "  --severity [error|warning|information|hint]",
      "                                  Severity of reported duplicates (default: from",
      "                                  saved settings, else error).",
      "  --save-settings                 Remember --severity for later runs.",
      "  --format [text|json]            Output format (default: text).",
      "  -v, --verbose                   Enable debug logging.",
      "  --help                          Show this message and exit."]
  | serve =>
    ["  Run the language server over stdio.",
      "",
      "Options:",
      "  -v, --verbose    Enable debug logging.",
      "  --log-file FILE  Also write logs to this file.",
      "  --help           Show this message and exit."]

def help (name : String) (s : Screen) : String :=
  s.usageLine name ++ "\n" ++ String.join (s.description.map (· ++ "\n"))

/-- The hint that goes before an error. -/
def hint (name : String) (s : Screen) : String :=
  s.usageLine name ++ "Try '" ++ s.invocation name ++ " --help' for help.\n\n"

end Screen

/-- What the program tells about its version. -/
def versionText : String := productName ++ ", version " ++ productVersion

end CatalogLint.Command
