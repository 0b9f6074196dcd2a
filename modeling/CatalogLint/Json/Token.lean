import CatalogLint.Json.Value
import CatalogLint.Text.Digit

/-!
# JSON tokens

A JSON text is cut into brackets, separators, texts and scalars, with spaces, tabs and line
ends between them. Cutting never fails: a place where no token begins gives the token `junk`,
and nothing after it is looked at. Whole numbers with too many digits are not computed.

* `tokenAt`: the token at the front of a text.
* `tokens`: all tokens of a text.
-/

namespace CatalogLint.Json

open CatalogLint.Text

inductive Token where
  | openBracket
  | closeBracket
  | openBrace
  | closeBrace
  | comma
  | colon
  | text (points : List Point)
  /-- A number, a truth value or `null`. -/
  | scalar (v : Json)
  /-- A whole number with more digits than are read. -/
  | longNumber (digits : Nat)
  | junk
  deriving Repr, Inhabited

/-- What may stand between tokens. -/
def isSpace (c : Char) : Bool := c == ' ' || c == '\t' || c == '\n' || c == '\r'

/-- The number that four hexadecimal digits name. -/
def unit? : List Char → Option Nat
  | a :: b :: c :: d :: _ => do
    let a ← hexValue? a
    let b ← hexValue? b
    let c ← hexValue? c
    let d ← hexValue? d
    return ((a * 16 + b) * 16 + c) * 16 + d
  | _ => none

/-- The second half of a surrogate pair, if the text goes on with an escape that names one. -/
def lowHalf? : List Char → Option Nat
  | '\\' :: 'u' :: rest => (unit? rest).filter fun m => 0xDC00 ≤ m && m ≤ 0xDFFF
  | _ => none

/-- The code point of a numeric escape, and the length of the escape, given what follows the
`u`. Two escapes that form a surrogate pair count as one. -/
def unicodeEscape? (cs : List Char) : Option (Point × Nat) :=
  match unit? cs with
  | none => none
  | some n =>
    match if 0xD800 ≤ n && n ≤ 0xDBFF then lowHalf? (cs.drop 4) else none with
    | some m => some (.ofNat (0x10000 + (n - 0xD800) * 0x400 + (m - 0xDC00)), 10)
    | none => some (.ofNat n, 4)

/-- The escape after a backslash: the code point and the length of the escape. -/
def escapeIn? : List Char → Option (Point × Nat)
  | '"' :: _ => some (.char '"', 1)
  | '\\' :: _ => some (.char '\\', 1)
  | '/' :: _ => some (.char '/', 1)
  | 'b' :: _ => some (.char '\x08', 1)
  | 'f' :: _ => some (.char '\x0c', 1)
  | 'n' :: _ => some (.char '\n', 1)
  | 'r' :: _ => some (.char '\r', 1)
  | 't' :: _ => some (.char '\t', 1)
  | 'u' :: rest => (unicodeEscape? rest).map fun (p, width) => (p, width + 1)
  | _ => none

/-- Reads up to the closing quote, after `skip` characters of an escape. `done` are the code
points so far, newest first, and `width` is the length read so far. -/
def textFrom (done : List Point) (width : Nat) : Nat → List Char → Option (List Point × Nat)
  | _, [] => none
  | skip + 1, _ :: rest => textFrom done (width + 1) skip rest
  | 0, c :: rest =>
    if c = '"' then some (done.reverse, width + 1)
    else if c = '\\' then
      match escapeIn? rest with
      | some (p, n) => textFrom (p :: done) (width + 1) n rest
      | none => none
    else if c.toNat < 0x20 then none
    else textFrom (.char c :: done) (width + 1) 0 rest

/-- The ASCII digits at the front. -/
def digits (cs : List Char) : List Char := cs.takeWhile Char.isDigit

/-- The number that digits name. -/
def natOfDigits (ds : List Char) : Nat := Nat.ofDigitChars 10 ds 0

/-- The digits of the whole part: a zero alone, or digits that begin with another one. -/
def wholePart (cs : List Char) : List Char :=
  match digits cs with
  | '0' :: _ => ['0']
  | ds => ds

/-- The digits after a point, if the text goes on with a fraction. -/
def fractionPart : List Char → List Char
  | '.' :: rest => digits rest
  | _ => []

/-- The sign of an exponent, if there is one, and what follows it. -/
def exponentSign : List Char → List Char × List Char
  | '+' :: rest => (['+'], rest)
  | '-' :: rest => (['-'], rest)
  | cs => ([], cs)

/-- The exponent that the text goes on with: its value and its length. -/
def exponentPart : List Char → Option (Int × Nat)
  | c :: rest =>
    if c = 'e' || c = 'E' then
      let (sign, after) := exponentSign rest
      match digits after with
      | [] => none
      | ds =>
        let n : Int := natOfDigits ds
        some (if sign = ['-'] then -n else n, 1 + sign.length + ds.length)
    else none
  | [] => none

/-- The most digits that a whole number may have. -/
def digitLimit : Nat := 4300

/-- The words for a whole number with too many digits. -/
def longNumberText (digits : Nat) : String :=
  s!"Exceeds the limit ({digitLimit} digits) for integer string conversion: " ++
    s!"value has {digits} digits; use sys.set_int_max_str_digits() to increase the limit"

/-- The number that digits name, with a sign. -/
def signed (negative : Bool) (ds : List Char) : Int :=
  if negative then -natOfDigits ds else natOfDigits ds

/-- The whole number with these digits. -/
def wholeNumber (negative : Bool) (ds : List Char) : Token :=
  if digitLimit < ds.length then .longNumber ds.length else .scalar (.int (signed negative ds))

/-- The number that `cs` begins with after its sign, and its length without the sign. -/
def number? (negative : Bool) (cs : List Char) : Option (Token × Nat) :=
  let whole := wholePart cs
  if whole.isEmpty then none
  else
    let fraction := fractionPart (cs.drop whole.length)
    let pointed := if fraction.isEmpty then whole.length else whole.length + 1 + fraction.length
    match exponentPart (cs.drop pointed) with
    | some (e, width) =>
      let mantissa := signed negative (whole ++ fraction)
      some (.scalar (.real mantissa (e - fraction.length)), pointed + width)
    | none =>
      if fraction.isEmpty then some (wholeNumber negative whole, pointed)
      else some (.scalar (.real (signed negative (whole ++ fraction)) (-fraction.length)), pointed)

/-- The names of scalars, longer ones of one beginning first. -/
def scalarNames : List (List Char × Json) :=
  [("null".toList, .null), ("true".toList, .bool true), ("false".toList, .bool false),
    ("NaN".toList, .nan), ("Infinity".toList, .infinity false),
    ("-Infinity".toList, .infinity true)]

/-- The scalar that `cs` begins with, and its length. -/
def scalar? (cs : List Char) : Option (Token × Nat) :=
  match scalarNames.find? fun (name, _) => name.isPrefixOf cs with
  | some (name, v) => some (.scalar v, name.length)
  | none =>
    match cs with
    | '-' :: rest => (number? true rest).map fun (t, width) => (t, width + 1)
    | _ => number? false cs

/-- The token that begins with `c` and goes on in `rest`, and its length. -/
def tokenAt (c : Char) (rest : List Char) : Token × Nat :=
  if c = '[' then (.openBracket, 1)
  else if c = ']' then (.closeBracket, 1)
  else if c = '\x7b' then (.openBrace, 1)
  else if c = '\x7d' then (.closeBrace, 1)
  else if c = ',' then (.comma, 1)
  else if c = ':' then (.colon, 1)
  else if c = '"' then
    match textFrom [] 1 0 rest with
    | some (points, width) => (.text points, width)
    | none => (.junk, 1)
  else (scalar? (c :: rest)).getD (.junk, 1)

/-- The tokens after `skip` more characters. -/
def tokensFrom : Nat → List Char → List Token
  | _, [] => []
  | skip + 1, _ :: rest => tokensFrom skip rest
  | 0, c :: rest =>
    if isSpace c then tokensFrom 0 rest
    else
      match tokenAt c rest with
      | (.junk, _) => [.junk]
      | (t, width) => t :: tokensFrom (width - 1) rest

/-- The tokens of a text. -/
def tokens (cs : List Char) : List Token := tokensFrom 0 cs

end CatalogLint.Json
