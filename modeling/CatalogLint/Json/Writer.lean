import CatalogLint.Json.Value
import CatalogLint.Text.Digit

/-!
# Writing JSON

Characters outside ASCII are written as they are; of the others, quotes, backslashes and
control characters are escaped.

* `compact`: a value on one line.
* `ascii`: a value on one line, with escapes for all that is not ASCII.
* `pretty`: a value with each item and field on a line of its own, two spaces deeper than
  what holds it.
-/

namespace CatalogLint.Json

open CatalogLint.Text

/-- One character of a text. -/
def writtenChar (c : Char) : List Char :=
  if c = '"' then ['\\', '"']
  else if c = '\\' then ['\\', '\\']
  else if c = '\n' then ['\\', 'n']
  else if c = '\r' then ['\\', 'r']
  else if c = '\t' then ['\\', 't']
  else if c = '\x08' then ['\\', 'b']
  else if c = '\x0c' then ['\\', 'f']
  else if c.toNat < 0x20 then '\\' :: 'u' :: lowerHex 4 c.toNat
  else [c]

/-- One code point of a text. -/
def writtenPoint : Point → List Char
  | .char c => writtenChar c
  | .half offset => '\\' :: 'u' :: lowerHex 4 (0xD800 + offset.val)

/-- A text in quotes. -/
def writtenText (points : List Point) : List Char := '"' :: points.flatMap writtenPoint ++ ['"']

/-- A number with a fraction. -/
def writtenReal (mantissa exponent : Int) : List Char :=
  let size := match Double.nearest? mantissa.natAbs exponent with
    | some n => Double.written n
    | none => "Infinity".toList
  if mantissa < 0 then '-' :: size else size

/-- What stands around the items of an array or object at a depth. -/
structure Layout where
  opening : Nat → List Char
  between : Nat → List Char
  closing : Nat → List Char

/-- A new line, indented for a depth. -/
def newLine (depth : Nat) : List Char := '\n' :: List.replicate (2 * depth) ' '

/-- All on one line. -/
def Layout.compact : Layout := ⟨fun _ => [], fun _ => [',', ' '], fun _ => []⟩

/-- Each item on a line of its own. -/
def Layout.pretty : Layout :=
  ⟨fun depth => newLine (depth + 1), fun depth => ',' :: newLine (depth + 1), newLine⟩

mutual

/-- The text of a value at a depth. A whole number is written with all its digits, also where there
are more of them than `digitLimit`, which a reader refuses and other writers refuse as well. -/
def write (l : Layout) (depth : Nat) : Json → List Char
  | .null => "null".toList
  | .bool b => (if b then "true" else "false").toList
  | .int n => (toString n).toList
  | .real mantissa exponent => writtenReal mantissa exponent
  | .nan => "NaN".toList
  | .infinity negative => (if negative then "-Infinity" else "Infinity").toList
  | .string points => writtenText points
  | .array [] => ['[', ']']
  | .array (v :: vs) =>
    '[' :: l.opening depth ++ write l (depth + 1) v ++ writeItems l depth vs ++
      l.closing depth ++ [']']
  | .object [] => ['\x7b', '\x7d']
  | .object ((k, v) :: fields) =>
    '\x7b' :: l.opening depth ++ writtenText k ++ [':', ' '] ++ write l (depth + 1) v ++
      writeFields l depth fields ++ l.closing depth ++ ['\x7d']

/-- Further items of an array at a depth. -/
def writeItems (l : Layout) (depth : Nat) : List Json → List Char
  | [] => []
  | v :: vs => l.between depth ++ write l (depth + 1) v ++ writeItems l depth vs

/-- Further fields of an object at a depth. -/
def writeFields (l : Layout) (depth : Nat) : List (List Point × Json) → List Char
  | [] => []
  | (k, v) :: fields =>
    l.between depth ++ writtenText k ++ [':', ' '] ++ write l (depth + 1) v ++
      writeFields l depth fields

end

/-- The value on one line. -/
def compact (v : Json) : String := String.ofList (write .compact 0 v)

/-- A character as it is written in ASCII, where all others are escaped, those outside the
basic plane as a surrogate pair. -/
def asciiChar (c : Char) : List Char :=
  let escape (n : Nat) : List Char := '\\' :: 'u' :: lowerHex 4 n
  let n := c.toNat
  if n < 0x7F then [c]
  else if n ≤ 0xFFFF then escape n
  else escape (0xD800 + (n - 0x10000) / 0x400) ++ escape (0xDC00 + (n - 0x10000) % 0x400)

/-- The value on one line, in ASCII. -/
def ascii (v : Json) : String := String.ofList ((write .compact 0 v).flatMap asciiChar)

/-- The value with each item on a line of its own. -/
def pretty (v : Json) : String := String.ofList (write .pretty 0 v)

end CatalogLint.Json
