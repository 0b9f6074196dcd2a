/-!
# Doubles

A number with a fraction is kept as the nearest double, and written with the fewest digits that
lead back to it. Every double is a multiple of the least positive one, so a double is a natural
number here and all arithmetic is exact.

* `Double.nearest?`: the double nearest to a decimal number.
* `Double.shortest`: the fewest digits that lead back to a double, and of those the nearest.
* `Double.written`: the text of a double.
-/

namespace CatalogLint.Json

namespace Double

/-- The number of least positive doubles in one, as a power of two. -/
def precision : Nat := 1074

/-- The doubles in one. -/
def one : Nat := Nat.pow 2 precision

/-- From here on numbers are infinite. -/
def limit : Nat := Nat.pow 2 1024 * one

/-- The quotient, rounded to the nearest number, and to the even one of two. -/
def roundDiv (a b : Nat) : Nat :=
  let q := a / b
  let r := a % b
  if 2 * r < b then q else if b < 2 * r then q + 1 else q + q % 2

/-- The distance from a double to the next one above. -/
def gap (n : Nat) : Nat := Nat.pow 2 (n.log2 - 52)

/-- The double nearest to `mantissa * 10 ^ exponent`, unless that is infinite. What is far too
great or far too small is not computed. -/
def nearest? (mantissa : Nat) (exponent : Int) : Option Nat :=
  let shift := (-exponent).toNat
  if mantissa = 0 || mantissa.log2 + 400 < shift then some 0
  else if 400 < exponent then none
  else
    let a := mantissa * Nat.pow 10 exponent.toNat * one
    let b := Nat.pow 10 shift
    let step := gap (a / b)
    let n := roundDiv a (b * step) * step
    if n < limit then some n else none

/-- A double as a quotient of its size in units of `10 ^ scale`. -/
def scaled (n : Nat) (scale : Int) : Nat × Nat :=
  (n * Nat.pow 10 (-scale).toNat, one * Nat.pow 10 scale.toNat)

/-- The place of the first digit of a positive double: the greatest power of ten in it. -/
def leading (n : Nat) : Int :=
  let guess := ((n.log2 : Int) - precision) * 30103 / 100000
  let (a, b) := scaled n (guess + 1)
  if b ≤ a then guess + 1 else guess

/-- Whether `c * 10 ^ scale` is nearer to a double than to any other. Half way it is if the
double is an even multiple of its gap. -/
def leadsBack (n : Nat) (scale : Int) (c : Nat) : Bool :=
  let up := gap n
  let down := if n = Nat.pow 2 n.log2 && 1 < up then up else 2 * up
  let (size, unit) := (4 * c * one * Nat.pow 10 scale.toNat, Nat.pow 10 (-scale).toNat)
  let low := (4 * n - down) * unit
  let high := (4 * n + 2 * up) * unit
  if n / up % 2 = 0 then low ≤ size && size ≤ high else low < size && size < high

/-- The multiple of `10 ^ scale` that leads back to a double, the nearest if there are several. -/
def candidate? (n : Nat) (scale : Int) : Option Nat :=
  let (a, b) := scaled n scale
  let nearer := roundDiv a b
  let other := if nearer = a / b then nearer + 1 else a / b
  [nearer, other].find? (leadsBack n scale)

/-- The fewest digits that lead back to a positive double, and the place of the last one.
Seventeen are always enough. -/
def shortest (n : Nat) : Nat × Int :=
  let first := leading n
  let found := (List.range 17).findSome? fun (k : Nat) =>
    (candidate? n (first - k)).map (·, first - (k : Int))
  found.getD (0, 0)

/-- Numbers from ten thousandths up to this place are written without an exponent. -/
def positionalLimit : Int := 16

/-- Digits with the point after the first one and an exponent. -/
def withExponent (digits : List Char) (place : Int) : List Char :=
  let fraction := if digits.length ≤ 1 then [] else '.' :: digits.drop 1
  let sign := if place < 0 then '-' else '+'
  let exponent := (toString place.natAbs).toList
  let pad := List.replicate (2 - exponent.length) '0'
  digits.take 1 ++ fraction ++ 'e' :: sign :: pad ++ exponent

/-- Digits with the point where it belongs if the first one stands at a place. -/
def positional (digits : List Char) (place : Int) : List Char :=
  let zeros (k : Int) : List Char := List.replicate k.toNat '0'
  if place < 0 then '0' :: '.' :: zeros (-place - 1) ++ digits
  else
    let whole := place.toNat + 1
    let fraction := digits.drop whole
    digits.take whole ++ zeros (whole - digits.length) ++
      '.' :: (if fraction.isEmpty then ['0'] else fraction)

/-- The text of a double. -/
def written (n : Nat) : List Char :=
  if n = 0 then ['0', '.', '0']
  else
    let (c, last) := shortest n
    let all := (toString c).toList
    let digits := (all.reverse.dropWhile (· == '0')).reverse
    let place := last + all.length - 1
    if -4 ≤ place && place < positionalLimit then positional digits place
    else withExponent digits place

end Double

end CatalogLint.Json
