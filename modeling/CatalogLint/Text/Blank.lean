/-!
# Blank characters

The characters that may surround the parts of a catalog line. They are the
Unicode characters with the property `White_Space` together with the four ASCII
information separators.

* `isBlank`: the class itself.
* `trim`: a text without the blanks at its two ends.
-/

namespace CatalogLint.Text

/-- Blanks: tab to carriage return, the information separators, the space, the next-line
character and the Unicode spaces and separators. -/
def isBlank (c : Char) : Bool :=
  let n := c.toNat
  (0x09 ≤ n && n ≤ 0x0D) || (0x1C ≤ n && n ≤ 0x20) || n == 0x85 || n == 0xA0 || n == 0x1680 ||
    (0x2000 ≤ n && n ≤ 0x200A) || n == 0x2028 || n == 0x2029 || n == 0x202F || n == 0x205F ||
    n == 0x3000

/-- Without leading blanks. -/
def trimStart (cs : List Char) : List Char := cs.dropWhile isBlank

/-- Without trailing blanks. -/
def trimEnd (cs : List Char) : List Char := (cs.reverse.dropWhile isBlank).reverse

/-- Without blanks at either end. -/
def trim (cs : List Char) : List Char := trimEnd (trimStart cs)

/-- The first run of characters that are not blank. -/
def firstWord (cs : List Char) : List Char := (trimStart cs).takeWhile (!isBlank ·)

end CatalogLint.Text
