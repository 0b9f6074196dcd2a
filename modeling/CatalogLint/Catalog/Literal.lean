import CatalogLint.Catalog.Error
import CatalogLint.Text.Blank
import CatalogLint.Text.Digit

/-!
# Literals

A literal is a text between double quotes on one line. A backslash begins an escape: one of
the simple escapes, one to three octal digits, or `x` and one or two hexadecimal digits.
Runs of digits are taken as long as they can be.

* `escape?`: the escape after a backslash.
* `Literal.read`: the literal whose opening quote has just been passed.
-/

namespace CatalogLint.Catalog

open CatalogLint.Text

/-- The characters that escape to one fixed character. -/
def simpleEscape? : Char → Option Char
  | '\\' => some '\\'
  | '"' => some '"'
  | '\x27' => some '\x27'
  | '?' => some '?'
  | 'a' => some '\x07'
  | 'b' => some '\x08'
  | 'f' => some '\x0c'
  | 'n' => some '\n'
  | 'r' => some '\r'
  | 't' => some '\t'
  | 'v' => some '\x0b'
  | _ => none

/-- The values of the digits that `cs` begins with, at most `limit` of them. -/
def digitRun (value? : Char → Option Nat) : Nat → List Char → List Nat
  | 0, _ | _, [] => []
  | limit + 1, c :: rest =>
    match value? c with
    | some d => d :: digitRun value? limit rest
    | none => []

/-- The character that digits name. -/
def charOfDigits (base : Nat) (digits : List Nat) : Char :=
  Char.ofNat (digits.foldl (fun n d => n * base + d) 0)

/-- The escape that `cs` begins with, after its backslash: the character it stands for and
how many characters it takes. -/
def escape? : List Char → Option (Char × Nat)
  | [] => none
  | c :: rest =>
    match simpleEscape? c, digitRun (digitValue? 8) 3 (c :: rest) with
    | some d, _ => some (d, 1)
    | none, d :: ds => some (charOfDigits 8 (d :: ds), ds.length + 1)
    | none, [] =>
      if c = 'x' then
        match digitRun hexValue? 2 rest with
        | [] => none
        | d :: ds => some (charOfDigits 16 (d :: ds), ds.length + 2)
      else none

/-- A literal: the text it stands for, the column of its opening quote and the column just
after its closing quote. -/
structure Literal where
  value : String
  start : Nat
  stop : Nat
  deriving DecidableEq, Repr

/-- Reads up to the closing quote. The next character stands in column `column`, the next
`skip` characters belong to an escape that is decoded already, and `done` are the characters
decoded so far, newest first. Gives the text, the column after the closing quote and the rest
of the line; `start` is the column of the opening quote. -/
def scan (start : Nat) (done : List Char) (column : Nat) :
    Nat → List Char → Except Fault (List Char × Nat × List Char)
  | _, [] => .error ⟨start, .unterminated⟩
  | skip + 1, _ :: rest => scan start done (column + 1) skip rest
  | 0, c :: rest =>
    if c = '"' then .ok (done.reverse, column + 1, rest)
    else if c = '\\' then
      match escape? rest, rest with
      | some (d, width), _ => scan start (d :: done) (column + 1) width rest
      | none, [] => .error ⟨start, .unterminated⟩
      | none, e :: _ => .error ⟨column, .badEscape e⟩
    else scan start (c :: done) (column + 1) 0 rest

/-- The literal whose opening quote stands in column `start` and is followed by `cs`. Only
blanks may follow its closing quote. -/
def Literal.read (start : Nat) (cs : List Char) : Except Fault Literal := do
  let (value, stop, rest) ← scan start [] (start + 1) 0 cs
  if rest.all isBlank then return ⟨String.ofList value, start, stop⟩
  else throw ⟨stop + (rest.takeWhile isBlank).length, .trailingText⟩

end CatalogLint.Catalog
