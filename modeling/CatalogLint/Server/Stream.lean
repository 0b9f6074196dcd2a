import CatalogLint.Json.Token

/-!
# Messages in a stream

A message is a header of lines, an empty line and a body; one line of the header tells the
length of the body in bytes. A stream is read in pieces: a header as it comes and as many bytes
as its first length tells. Pieces are then put together until they make a message, and there it
is the last length that counts. A length that cannot be computed or is beyond all memory ends
the reading.

* `Incoming.feed`: reading a stream byte by byte.
* `packet`: the message that bytes begin with.
-/

namespace CatalogLint.Server

/-- Bytes as characters, which is right for ASCII. -/
def asciiText (bytes : List UInt8) : List Char := bytes.map fun b => Char.ofNat b.toNat

/-- Why a stream cannot be read on. -/
inductive StreamError where
  /-- A length has this many digits, which is too many. -/
  | longNumber (digits : Nat)
  /-- A body would be beyond all memory. -/
  | tooLong
  deriving DecidableEq, Repr

def StreamError.message : StreamError → String
  | longNumber digits => Json.longNumberText digits
  | tooLong => "cannot fit 'int' into an index-sized integer"

/-- The most bytes that a body may have. -/
def bodyLimit : Nat := Nat.pow 2 63 - 1

/-- The digits of the length that a header line, without its end, tells. -/
def lengthDigits? (line : List UInt8) : Option (List Char) :=
  let name := "Content-Length: ".toList
  let text := asciiText line
  let digits := text.drop name.length
  if name.isPrefixOf text && !digits.isEmpty && digits.all (·.isDigit) then some digits else none

/-- The length with these digits. -/
def lengthOf (digits : List Char) : Except StreamError Nat :=
  if Json.digitLimit < digits.length then .error (.longNumber digits.length)
  else .ok (Json.natOfDigits digits)

/-- A blank of ASCII. -/
def isBlankByte (b : UInt8) : Bool := b == 0x20 || (0x09 ≤ b && b ≤ 0x0D)

/-- A place in a stream. -/
structure Incoming where
  /-- The piece at hand, newest byte first. -/
  piece : List UInt8 := []
  /-- The line at hand, newest byte first. -/
  line : List UInt8 := []
  /-- The length that the header has told, or zero. -/
  length : Nat := 0
  /-- In a body, how many bytes are still to come. -/
  missing : Nat := 0

namespace Incoming

/-- The length that a line, newest byte first, tells. -/
def told (line : List UInt8) : Except StreamError Nat :=
  match line with
  | lineFeed :: carriageReturn :: rest =>
    if lineFeed = 0x0A ∧ carriageReturn = 0x0D then
      ((lengthDigits? rest.reverse).map lengthOf).getD (.ok 0)
    else .ok 0
  | _ => .ok 0

/-- The end of a line. A blank line ends the header, once there is a length. -/
def endLine (r : Incoming) : Except StreamError Incoming := do
  let length ← if r.length = 0 then told r.line else .ok r.length
  if !r.line.all isBlankByte then return { r with line := [], length }
  else if bodyLimit < length then throw .tooLong
  else return { r with line := [], length, missing := length }

/-- Reads a byte. It may be the last one of a piece. -/
def feed (r : Incoming) (b : UInt8) : Except StreamError (Incoming × Option (List UInt8)) :=
  match r.missing with
  | 1 => .ok ({}, some (b :: r.piece).reverse)
  | missing + 2 => .ok ({ r with piece := b :: r.piece, missing := missing + 1 }, none)
  | 0 =>
    let r := { r with piece := b :: r.piece, line := b :: r.line }
    if b = 0x0A then r.endLine.map (·, none) else .ok (r, none)

/-- The piece that the end of the stream leaves, if a body has begun. -/
def finish? (r : Incoming) : Option (List UInt8) :=
  if 0 < r.missing ∧ r.missing < r.length then some r.piece.reverse else none

end Incoming

/-- The body that follows a header, with the digits of the length that the header tells last.
`line` is the line at hand, newest byte first, and `digits` what the lines before tell. -/
def bodyFrom? (line : List UInt8) (digits : Option (List Char)) :
    List UInt8 → Option (List UInt8 × List Char)
  | [] => none
  | [_] => none
  | a :: b :: rest =>
    if a = 0x0D ∧ b = 0x0A then
      if line.isEmpty then
        if rest.head? = some 0x7B then digits.map (rest, ·) else none
      else bodyFrom? [] ((lengthDigits? line.reverse).or digits) rest
    else if a = 0x0D ∨ a = 0x0A then none
    else bodyFrom? (a :: line) digits (b :: rest)

/-- What bytes begin with. -/
inductive Packet where
  /-- A part of a message, or no message. -/
  | incomplete
  /-- A message whose length has this many digits, which is too many. -/
  | unmeasured (digits : Nat)
  | complete (body rest : List UInt8)

/-- The body of the message that bytes begin with, and the rest of them. Bodies begin with a
brace. -/
def packet (bytes : List UInt8) : Packet :=
  match bodyFrom? [] none bytes with
  | none => .incomplete
  | some (body, digits) =>
    match lengthOf digits with
    | .error _ => .unmeasured digits.length
    | .ok length =>
      if body.length < length then .incomplete
      else .complete (body.take length) (body.drop length)

end CatalogLint.Server
