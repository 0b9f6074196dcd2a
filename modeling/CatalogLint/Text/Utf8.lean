import CatalogLint.Text.Digit

/-!
# UTF-8

Bytes to text in two ways that agree on well-formed bytes. Ill-formed bytes are cut
into the longest pieces that still begin a well-formed sequence; one reader puts the
replacement character for each such piece, the other stops at the first.

* `encode`: the bytes of a text.
* `decodeReplacing`: never fails.
* `decodeStrict`: fails at the first piece that is not a character, with its place.
* `DecodeError.message`: the words for such a piece.
-/

namespace CatalogLint.Text.Utf8

/-- The bytes of a text. -/
def encode (s : String) : List UInt8 := s.toList.flatMap String.utf8EncodeChar

/-- Why a piece is not a character. -/
inductive Fault where
  /-- No character begins with this byte. -/
  | start
  /-- The byte after the piece does not continue it. -/
  | continuation
  /-- The bytes end inside the piece. -/
  | truncated
  deriving DecidableEq, Repr

/-- What the bytes begin with: a character, or a fault. -/
inductive Piece where
  | char (c : Char)
  | bad (fault : Fault)
  deriving DecidableEq, Repr

/-- How many bytes follow a leading byte, the least and the greatest value of the first of
them, and the bits that the leading byte adds. -/
structure Lead where
  following : Nat
  least : Nat
  greatest : Nat
  bits : Nat

/-- The well-formed sequences of more than one byte, by their leading byte. -/
def lead? (b : Nat) : Option Lead :=
  if 0xC2 ≤ b && b ≤ 0xDF then some ⟨1, 0x80, 0xBF, b - 0xC0⟩
  else if b == 0xE0 then some ⟨2, 0xA0, 0xBF, 0⟩
  else if b == 0xED then some ⟨2, 0x80, 0x9F, 0xD⟩
  else if 0xE1 ≤ b && b ≤ 0xEF then some ⟨2, 0x80, 0xBF, b - 0xE0⟩
  else if b == 0xF0 then some ⟨3, 0x90, 0xBF, 0⟩
  else if 0xF1 ≤ b && b ≤ 0xF3 then some ⟨3, 0x80, 0xBF, b - 0xF0⟩
  else if b == 0xF4 then some ⟨3, 0x80, 0x8F, 4⟩
  else none

/-- Reads `following` more bytes of a character, of which the first lies between `least` and
`greatest`. `width` bytes, with the value `bits`, have been read. -/
def continued (following least greatest bits width : Nat) : List UInt8 → Piece × Nat
  | [] => if following = 0 then (.char (Char.ofNat bits), width) else (.bad .truncated, width)
  | b :: rest =>
    match following with
    | 0 => (.char (Char.ofNat bits), width)
    | k + 1 =>
      if least ≤ b.toNat && b.toNat ≤ greatest then
        continued k 0x80 0xBF (bits * 64 + (b.toNat - 0x80)) (width + 1) rest
      else (.bad .continuation, width)

/-- The piece that begins with the byte `b`, and how many bytes it takes. -/
def piece (b : UInt8) (rest : List UInt8) : Piece × Nat :=
  if b.toNat < 0x80 then (.char (Char.ofNat b.toNat), 1)
  else
    match lead? b.toNat with
    | some l => continued l.following l.least l.greatest l.bits 1 rest
    | none => (.bad .start, 1)

/-- Reads on after `skip` more bytes, with the characters `done`, newest first. -/
def decodeReplacingFrom (done : List Char) : Nat → List UInt8 → List Char
  | _, [] => done.reverse
  | skip + 1, _ :: rest => decodeReplacingFrom done skip rest
  | 0, b :: rest =>
    match piece b rest with
    | (.char c, width) => decodeReplacingFrom (c :: done) (width - 1) rest
    | (.bad _, width) => decodeReplacingFrom ('\ufffd' :: done) (width - 1) rest

/-- The text of the bytes, with a replacement character for each ill-formed piece. -/
def decodeReplacing (bytes : List UInt8) : List Char := decodeReplacingFrom [] 0 bytes

/-- The first ill-formed piece: its place, its first byte, its width and what is wrong. -/
structure DecodeError where
  position : Nat
  byte : UInt8
  width : Nat
  fault : Fault
  deriving DecidableEq, Repr

/-- Reads on at `position` after `skip` more bytes, with the characters `done`, newest first. -/
def decodeStrictFrom (done : List Char) (position : Nat) :
    Nat → List UInt8 → Except DecodeError (List Char)
  | _, [] => .ok done.reverse
  | skip + 1, _ :: rest => decodeStrictFrom done (position + 1) skip rest
  | 0, b :: rest =>
    match piece b rest with
    | (.char c, width) => decodeStrictFrom (c :: done) (position + 1) (width - 1) rest
    | (.bad fault, width) => .error ⟨position, b, width, fault⟩

/-- The text of the bytes, if they are well formed. -/
def decodeStrict (bytes : List UInt8) : Except DecodeError (List Char) :=
  decodeStrictFrom [] 0 0 bytes

def Fault.text : Fault → String
  | start => "invalid start byte"
  | continuation => "invalid continuation byte"
  | truncated => "unexpected end of data"

/-- The words for ill-formed bytes: one byte is shown, several are counted. -/
def DecodeError.message (e : DecodeError) : String :=
  let what :=
    if e.width = 1 then
      "byte 0x" ++ String.ofList (lowerHex 2 e.byte.toNat) ++ s!" in position {e.position}"
    else s!"bytes in position {e.position}-{e.position + e.width - 1}"
  "'utf-8' codec can't decode " ++ what ++ ": " ++ e.fault.text

end CatalogLint.Text.Utf8
