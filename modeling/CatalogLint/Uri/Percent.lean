import CatalogLint.Text.Digit
import CatalogLint.Text.Utf8

/-!
# Percent signs

In a URI a percent sign and two hexadecimal digits stand for a byte. Bytes are those of UTF-8.

* `encode`: a text with all bytes but the unreserved ones written so.
* `decode`: a text with the characters that such bytes are.
-/

namespace CatalogLint.Uri

open CatalogLint.Text

/-- Letters and digits of ASCII and the four marks that stand for themselves in a URI. -/
def isUnreserved (b : UInt8) : Bool :=
  let n := b.toNat
  (0x30 ≤ n && n ≤ 0x39) || (0x41 ≤ n && n ≤ 0x5A) || (0x61 ≤ n && n ≤ 0x7A) ||
    n == 0x2D || n == 0x2E || n == 0x5F || n == 0x7E

/-- One byte of a text. -/
def percentEncoded (b : UInt8) : List Char :=
  if isUnreserved b then [Char.ofNat b.toNat]
  else ['%', upperHexDigit (b.toNat / 16), upperHexDigit (b.toNat % 16)]

/-- A text with all bytes but the unreserved ones written with percent signs. -/
def encode (s : String) : List Char := (Utf8.encode s).flatMap percentEncoded

/-- The bytes that characters of ASCII stand for. A percent sign without two digits stands for
itself. -/
def bytesOf : List Char → List UInt8
  | [] => []
  | '%' :: a :: b :: rest =>
    match hexValue? a, hexValue? b with
    | some high, some low => UInt8.ofNat (16 * high + low) :: bytesOf rest
    | _, _ => 0x25 :: bytesOf (a :: b :: rest)
  | c :: rest => UInt8.ofNat c.toNat :: bytesOf rest

/-- Decodes on after the ASCII characters `run`, newest first. Bytes of a character must stand
together, without another character among them. -/
def decodeFrom (run : List Char) : List Char → List Char
  | [] => Utf8.decodeReplacing (bytesOf run.reverse)
  | c :: rest =>
    if c.toNat < 0x80 then decodeFrom (c :: run) rest
    else Utf8.decodeReplacing (bytesOf run.reverse) ++ c :: decodeFrom [] rest

/-- A text with the characters that its percent signs stand for. -/
def decode (cs : List Char) : List Char := decodeFrom [] cs

end CatalogLint.Uri
