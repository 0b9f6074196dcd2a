/-!
# Code points

A text is a sequence of characters, but the escapes of some formats can name more than
characters: half of a surrogate pair, with no other half beside it.

* `Point`: a character, or such a half.
* `pointsOf`, `stringOf?`: the points of a text, and the text of points if there is one.
-/

namespace CatalogLint.Text

/-- A code point. -/
inductive Point where
  | char (c : Char)
  /-- The half of a surrogate pair with the number `0xD800 + offset`. -/
  | half (offset : Fin 0x800)
  deriving DecidableEq, Repr, Inhabited

namespace Point

def toNat : Point → Nat
  | char c => c.toNat
  | half offset => 0xD800 + offset.val

/-- The code point with a number. -/
def ofNat (n : Nat) : Point :=
  if h : 0xD800 ≤ n ∧ n < 0xE000 then half ⟨n - 0xD800, by omega⟩ else char (Char.ofNat n)

/-- The character that a code point is. -/
def char? : Point → Option Char
  | char c => some c
  | half _ => none

end Point

/-- The code points of a text. -/
def pointsOf (s : String) : List Point := s.toList.map .char

/-- The text of code points, if all of them are characters. -/
def stringOf? (ps : List Point) : Option String := (ps.mapM Point.char?).map String.ofList

instance : Coe String (List Point) := ⟨pointsOf⟩

end CatalogLint.Text
