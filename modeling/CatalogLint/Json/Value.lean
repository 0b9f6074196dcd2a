import CatalogLint.Json.Double
import CatalogLint.Text.Point

/-!
# JSON values

Texts and keys are sequences of code points, since escapes may name any of those. Objects keep
the order of their fields and hold each key once. Whole numbers are told from numbers written
with a fraction or an exponent, and the three numbers that are not finite have names.

* `Json.text?`: the text that a value is, if all its code points are characters.
* `Json.field?`: the value of a field.
* `Json.isNothing`: the values that stand for nothing.
-/

namespace CatalogLint

open CatalogLint.Text

inductive Json where
  | null
  | bool (b : Bool)
  | int (n : Int)
  /-- The number `mantissa * 10 ^ exponent`. -/
  | real (mantissa exponent : Int)
  | nan
  | infinity (negative : Bool)
  | string (points : List Point)
  | array (items : List Json)
  | object (fields : List (List Point × Json))
  deriving Repr, Inhabited

namespace Json

/-- The text that a value is. -/
def text? : Json → Option String
  | string points => stringOf? points
  | _ => none

/-- The value of a field of an object. -/
def field? (key : String) : Json → Option Json
  | object fields => fields.lookup (pointsOf key)
  | _ => none

/-- The double nearest to `mantissa * 10 ^ exponent` is the whole number `n`. -/
def isWhole (n : Nat) (mantissa exponent : Int) : Bool :=
  0 < mantissa && Double.nearest? mantissa.natAbs exponent == some (n * Double.one)

/-- Values that stand for nothing: null, false, zero, and whatever is empty. -/
def isNothing : Json → Bool
  | null | bool false | string [] | array [] | object [] => true
  | int n => n == 0
  | real mantissa exponent => Double.nearest? mantissa.natAbs exponent == some 0
  | _ => false

end Json

end CatalogLint
