import CatalogLint.Text.Digit
import CatalogLint.Text.Point
import CatalogLint.Text.Printable

/-!
# Quoted texts

Names that came from outside are shown in quotes, on one line and free of control
characters. The quotes are single, unless the text holds a single quote and no double one.

* `quoted`: a text as messages show it.
* `quotedPoints`: code points as messages show them.
-/

namespace CatalogLint.Text

/-- The quote around a text: whichever spares an escape, the single one first. -/
def quoteFor (ps : List Point) : Char :=
  if ps.contains (.char '\'') && !ps.contains (.char '"') then '"' else '\''

/-- A code point that cannot be shown, by its number, in as few of the three forms' digits
as hold it. -/
def numericEscape (n : Nat) : List Char :=
  if n < 0x100 then '\\' :: 'x' :: lowerHex 2 n
  else if n < 0x10000 then '\\' :: 'u' :: lowerHex 4 n
  else '\\' :: 'U' :: lowerHex 8 n

/-- One character between the quotes `quote`. -/
def quotedChar (quote c : Char) : List Char :=
  if c = quote || c = '\\' then ['\\', c]
  else if c = '\n' then ['\\', 'n']
  else if c = '\r' then ['\\', 'r']
  else if c = '\t' then ['\\', 't']
  else if isPrintable c then [c]
  else numericEscape c.toNat

/-- One code point between the quotes `quote`. -/
def quotedPoint (quote : Char) : Point → List Char
  | .char c => quotedChar quote c
  | p => numericEscape p.toNat

/-- Code points in quotes. -/
def quotedPoints (ps : List Point) : String :=
  let quote := quoteFor ps
  String.ofList (quote :: ps.flatMap (quotedPoint quote) ++ [quote])

/-- A text in quotes. -/
def quoted (s : String) : String := quotedPoints (pointsOf s)

end CatalogLint.Text
