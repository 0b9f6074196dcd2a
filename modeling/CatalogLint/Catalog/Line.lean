import CatalogLint.Catalog.Literal

/-!
# Lines of a catalog

What a single line says, whatever stands before it. A line is blank or a comment, a literal
that continues the field before, a keyword with the first literal of its field, or a mistake.

* `Line.read`: the one reading of a line.
-/

namespace CatalogLint.Catalog

open CatalogLint.Text

/-- What a line says. Columns are those of the first character that is not blank; a literal
that cannot be read comes as the fault it has. -/
inductive Line where
  /-- Blank, or a comment. -/
  | skipped
  /-- A literal alone. -/
  | continuation (column : Nat) (literal : Except Fault Literal)
  /-- A keyword and a literal. -/
  | field (keyword : Keyword) (column : Nat) (literal : Except Fault Literal)
  /-- Anything else, by its first word. -/
  | unexpected (column : Nat) (word : String)

/-- The keywords, those before others that they begin with. -/
def keywords : List Keyword := [.msgctxt, .msgidPlural, .msgid, .msgstr]

/-- The keyword that `cs` begins with, and what follows it. -/
def keyword? (cs : List Char) : Option (Keyword × List Char) :=
  keywords.findSome? fun k =>
    if k.text.toList.isPrefixOf cs then some (k, cs.drop k.text.length) else none

/-- What follows the plural index, digits in brackets, if `cs` begins with one. -/
def skipIndex : List Char → List Char
  | '[' :: rest =>
    match rest.takeWhile isDecimalDigit, rest.dropWhile isDecimalDigit with
    | _ :: _, ']' :: after => after
    | _, _ => '[' :: rest
  | cs => cs

/-- The keyword that opens a field and what follows the opening quote of its literal. -/
def fieldStart? (cs : List Char) : Option (Keyword × List Char) :=
  match keyword? cs with
  | none => none
  | some (k, after) =>
    match trimStart (skipIndex after) with
    | '"' :: rest => some (k, rest)
    | _ => none

/-- What the line `cs` says. -/
def Line.read (cs : List Char) : Line :=
  let body := trimStart cs
  let column := (cs.takeWhile isBlank).length + 1
  match body with
  | [] => .skipped
  | '#' :: _ => .skipped
  | '"' :: rest => .continuation column (Literal.read column rest)
  | _ =>
    match fieldStart? body with
    | some (k, rest) => .field k column (Literal.read (cs.length - rest.length) rest)
    | none => .unexpected column (String.ofList (firstWord body))

end CatalogLint.Catalog
