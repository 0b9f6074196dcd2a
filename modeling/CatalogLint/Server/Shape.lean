import CatalogLint.Json.Token
import CatalogLint.Text.Blank
import CatalogLint.Text.Digit

/-!
# Shapes of messages

What a message holds must have a certain shape. Shapes are generous: a text may stand for a
number or for the list of its characters, and an object for the list of its keys. Where a
record is due, anything that can be searched for the names of its fields will do, as long as
it has none of them.

* `Shape`: a shape.
* `Shape.fits`: whether a value has it.
-/

namespace CatalogLint.Server

open CatalogLint.Text

inductive Shape where
  | anything
  /-- A whole number. -/
  | whole
  /-- A whole number in a range. -/
  | within (least most : Int)
  /-- One of the numbers from one on. -/
  | kind (most : Nat)
  /-- One of some texts. -/
  | word (words : List String)
  /-- A list of items of a shape. -/
  | list (item : Shape)
  /-- Fields with their names; some of them must be there, the others may be null. -/
  | record (fields : List (String × Bool × Shape))
  deriving Inhabited

/-- Goes on with a number of which `n` has been read. An underscore may stand between digits. -/
def wholeFrom? (n : Nat) : List Char → Option Nat
  | [] => some n
  | '_' :: c :: rest => (decimalValue? c).bind fun d => wholeFrom? (10 * n + d) rest
  | c :: rest => (decimalValue? c).bind fun d => wholeFrom? (10 * n + d) rest

/-- The number that digits of any script spell. -/
def spelledNat? : List Char → Option Nat
  | [] => none
  | c :: rest => (decimalValue? c).bind fun d => wholeFrom? d rest

/-- What may stand around a number that is spelled: blanks, but no information separators. -/
def isMargin (c : Char) : Bool := isBlank c && !(0x1C ≤ c.toNat && c.toNat ≤ 0x1F)

/-- The whole number that a text spells, unless it has too many digits. -/
def spelled? (cs : List Char) : Option Int :=
  let bare := ((cs.dropWhile isMargin).reverse.dropWhile isMargin).reverse
  let count := (bare.filter isDecimalDigit).length
  if Json.digitLimit < count then none
  else
    match bare with
    | '-' :: ds => (spelledNat? ds).map fun n => -n
    | '+' :: ds => (spelledNat? ds).map Int.ofNat
    | ds => (spelledNat? ds).map Int.ofNat

/-- The whole part of the double nearest to `mantissa * 10 ^ exponent`. -/
def wholePart? (mantissa exponent : Int) : Option Int :=
  (Json.Double.nearest? mantissa.natAbs exponent).map fun n => mantissa.sign * (n / Json.Double.one)

/-- The whole number that a value stands for. -/
def wholeOf? : Json → Option Int
  | .int n => some n
  | .bool b => some (if b then 1 else 0)
  | .real mantissa exponent => wholePart? mantissa exponent
  | .string points => (stringOf? points).bind fun s => spelled? s.toList
  | _ => none

/-- The items of the list that a value stands for. -/
def itemsOf? : Json → Option (List Json)
  | .array items => some items
  | .object fields => some (fields.map fun (key, _) => .string key)
  | .string points => some (points.map fun p => .string [p])
  | _ => none

/-- Whether a value is one of the numbers from one to `most`. -/
def isKind (most : Nat) : Json → Bool
  | .int n => 1 ≤ n && n ≤ most
  | .bool b => b && 1 ≤ most
  | .real mantissa exponent =>
    (List.range most).any fun n => Json.isWhole (n + 1) mantissa exponent
  | _ => false

/-- Whether code points stand somewhere among others. -/
def occursIn (part : List Point) : List Point → Bool
  | [] => part.isEmpty
  | p :: rest => part.isPrefixOf (p :: rest) || occursIn part rest

/-- Whether a value that is due to be a record has a field right, given the shape of it. -/
def fieldFits (name : String) (needed : Bool) (fits : Json → Bool) : Json → Bool
  | .object fields =>
    match fields.lookup (pointsOf name) with
    | none => !needed
    | some .null => !needed || fits .null
    | some v => fits v
  | .array items => !needed && !items.any (·.text? == some name)
  | .string points => !needed && !occursIn (pointsOf name) points
  | _ => false

mutual

/-- Whether a value has a shape. -/
def Shape.fits : Shape → Json → Bool
  | .anything, _ => true
  | .whole, v => (wholeOf? v).isSome
  | .within least most, v =>
    match wholeOf? v with
    | some n => least ≤ n && n ≤ most
    | none => false
  | .kind most, v => isKind most v
  | .word words, v =>
    match v.text? with
    | some t => words.contains t
    | none => false
  | .list item, v =>
    match itemsOf? v with
    | some vs => vs.all fun v => item.fits v
    | none => false
  | .record fields, v => fieldsFit fields v

/-- Whether a value has all fields of a record right. -/
def fieldsFit : List (String × Bool × Shape) → Json → Bool
  | [], _ => true
  | (name, needed, shape) :: rest, v =>
    fieldFits name needed (fun w => shape.fits w) v && fieldsFit rest v

end

end CatalogLint.Server
