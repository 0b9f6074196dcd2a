import CatalogLint.Location

/-!
# Client units

A client counts characters in the units of the encoding that was agreed on. Lines are those
of an editor, which knows more line ends than a catalog does.

* `Encoding.negotiate`: the encoding for a client.
* `editorLines`: the lines of a text, with their ends.
* `Range.inUnits`: a range in a client's units.
-/

namespace CatalogLint

/-- What a client's characters are. -/
inductive Encoding where
  | utf8
  | utf16
  | utf32
  deriving DecidableEq, Repr

namespace Encoding

def name : Encoding → String
  | utf8 => "utf-8"
  | utf16 => "utf-16"
  | utf32 => "utf-32"

/-- The encoding for a client with the given list: the first of UTF-16, UTF-32 and UTF-8 on
it, and UTF-16 if there is none or no list. -/
def negotiate : Option (List String) → Encoding
  | none => utf16
  | some offered => ([utf16, utf32, utf8].find? (offered.contains ·.name)).getD utf16

/-- The units that a character outside the basic plane takes beyond the first. -/
def surplus : Encoding → Nat
  | utf8 => 2
  | utf16 => 1
  | utf32 => 0

/-- The units of a text. -/
def units (e : Encoding) (cs : List Char) : Nat :=
  cs.length + e.surplus * (cs.filter (0xFFFF < ·.toNat)).length

end Encoding

/-- A character that ends a line in an editor. -/
def isEditorBreak (c : Char) : Bool :=
  let n := c.toNat
  (0x0A ≤ n && n ≤ 0x0D) || (0x1C ≤ n && n ≤ 0x1E) || n == 0x85 || n == 0x2028 || n == 0x2029

/-- The lines of a text of which `line`, newest character first, has been read already. -/
def editorLinesFrom (line : List Char) : List Char → List (List Char)
  | [] => if line.isEmpty then [] else [line.reverse]
  | '\r' :: '\n' :: rest => ('\n' :: '\r' :: line).reverse :: editorLinesFrom [] rest
  | c :: rest =>
    if isEditorBreak c then (c :: line).reverse :: editorLinesFrom [] rest
    else editorLinesFrom (c :: line) rest

/-- The lines of a text, with their ends. There is no line after the last end. -/
def editorLines (text : String) : List (List Char) := editorLinesFrom [] text.toList

/-- A place in a client's units. Below the last line there is only the place after it. -/
def Place.inUnits (e : Encoding) (lines : List (List Char)) (p : Place) : Place :=
  match lines[p.line.toNat]? with
  | some line => ⟨p.line, e.units (line.take p.character.toNat)⟩
  | none => ⟨lines.length, 0⟩

/-- A range in a client's units. -/
def Range.inUnits (e : Encoding) (lines : List (List Char)) (r : Range) : Range :=
  ⟨r.start.inUnits e lines, r.stop.inUnits e lines⟩

end CatalogLint
