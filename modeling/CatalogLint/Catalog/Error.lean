/-!
# Syntax errors

Why a text is not a catalog, with the line and column at fault.
-/

namespace CatalogLint.Catalog

/-- The words that open a field of an entry. -/
inductive Keyword where
  | msgctxt
  | msgid
  | msgidPlural
  | msgstr
  deriving DecidableEq, Repr

def Keyword.text : Keyword → String
  | msgctxt => "msgctxt"
  | msgid => "msgid"
  | msgidPlural => "msgid_plural"
  | msgstr => "msgstr"

/-- What is wrong with a catalog. -/
inductive Reason where
  /-- A literal continues nothing. -/
  | strayLiteral
  /-- A line begins with a word that opens no field. -/
  | unexpectedWord (word : String)
  /-- A literal has no closing quote on its line. -/
  | unterminated
  /-- A backslash is followed by a character that makes no escape. -/
  | badEscape (c : Char)
  /-- Something follows the closing quote. -/
  | trailingText
  /-- A context or a key opens an entry while the one before has no value. -/
  | openedTooEarly (keyword : Keyword)
  /-- A field that needs a key stands where there is none. -/
  | missingKey (keyword : Keyword)
  /-- A plural key stands after another one or after a value. -/
  | misplacedPlural
  /-- The last entry has no value. -/
  | valueless
  deriving DecidableEq, Repr

def Reason.text : Reason → String
  | strayLiteral => "string without a preceding keyword"
  | unexpectedWord word => s!"unexpected '{word}'"
  | unterminated => "unterminated string"
  | badEscape c => s!"invalid escape sequence '\\{c}'"
  | trailingText => "unexpected text after string"
  | openedTooEarly keyword => s!"{keyword.text} before msgstr of previous entry"
  | missingKey keyword => s!"{keyword.text} without msgid"
  | misplacedPlural => "misplaced msgid_plural"
  | valueless => "entry has no msgstr"

/-- A fault within a line. -/
structure Fault where
  column : Nat
  reason : Reason
  deriving DecidableEq, Repr

/-- A fault of a text: line and column are counted from one. -/
structure ParseError where
  line : Nat
  column : Nat
  reason : Reason
  deriving DecidableEq, Repr

def ParseError.message (e : ParseError) : String :=
  s!"line {e.line}, column {e.column}: {e.reason.text}"

/-- The fault `f` on line `line`. -/
def Fault.onLine (line : Nat) (f : Fault) : ParseError := ⟨line, f.column, f.reason⟩

end CatalogLint.Catalog
