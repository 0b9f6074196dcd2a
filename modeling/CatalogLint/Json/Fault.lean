import CatalogLint.Json.Reader

/-!
# Faults of JSON texts

Where a text stops being JSON, and what would have been right there. A reader that looks for
this can also look at each object as soon as it is complete, so that of a fault in an object
and one in the text the earlier one counts.

* `Fault`: what is wrong with a text, and where.
* `readEach`: the value that a text is, if all its objects pass.
-/

namespace CatalogLint.Json

open CatalogLint.Text

variable {ε : Type}

/-- What is wrong with a text that is not JSON. -/
inductive Malformation where
  | noValue
  | noName
  | noColon
  | noComma
  /-- There is more after the value. -/
  | excess
  /-- A text in quotes does not end. -/
  | openText
  | control
  | escape
  | unicodeEscape
  deriving DecidableEq, Repr

def Malformation.text : Malformation → String
  | noValue => "Expecting value"
  | noName => "Expecting property name enclosed in double quotes"
  | noColon => "Expecting ':' delimiter"
  | noComma => "Expecting ',' delimiter"
  | excess => "Extra data"
  | openText => "Unterminated string starting at"
  | control => "Invalid control character at"
  | escape => "Invalid \\escape"
  | unicodeEscape => "Invalid \\uXXXX escape"

/-- What is wrong with a text, and where. -/
inductive Fault where
  /-- Lines and columns are counted from one, characters from zero. -/
  | malformed (m : Malformation) (line column char : Nat)
  | longNumber (digits : Nat)
  | tooDeep (inArray : Bool)
  deriving DecidableEq, Repr

def Fault.message : Fault → String
  | malformed m line column char => s!"{m.text}: line {line} column {column} (char {char})"
  | longNumber digits => longNumberText digits
  | tooDeep inArray => tooDeepText inArray

/-- The tokens after `skip` more characters, with their places. -/
def placedFrom (place : Nat) : Nat → List Char → List (Nat × Token)
  | _, [] => []
  | skip + 1, _ :: rest => placedFrom (place + 1) skip rest
  | 0, c :: rest =>
    if isSpace c then placedFrom (place + 1) 0 rest
    else
      match tokenAt c rest with
      | (.junk, _) => [(place, .junk)]
      | (t, width) => (place, t) :: placedFrom (place + 1) (width - 1) rest

/-- What is wrong with a text in quotes, after `skip` more characters, and how far from the
quote that it begins with. A numeric escape needs a character after it. -/
def textFaultFrom (offset : Nat) : Nat → List Char → Malformation × Nat
  | _, [] => (.openText, 0)
  | skip + 1, _ :: rest => textFaultFrom (offset + 1) skip rest
  | 0, c :: rest =>
    if c = '\\' then
      match rest, escapeIn? rest with
      | [], _ => (.openText, 0)
      | 'u' :: _, none => (.unicodeEscape, offset + 1)
      | _, none => (.escape, offset)
      | 'u' :: _, some (_, width) =>
        if rest.length ≤ width then (.unicodeEscape, offset + width - 4)
        else textFaultFrom (offset + 1) width rest
      | _, some (_, width) => textFaultFrom (offset + 1) width rest
    else if c.toNat < 0x20 then (.control, offset)
    else textFaultFrom (offset + 1) 0 rest

/-- The fault of a text in quotes that `cs` begins with, or else `m`. -/
def textFault (m : Malformation) : List Char → Malformation × Nat
  | '"' :: rest => textFaultFrom 1 0 rest
  | _ => (m, 0)

/-- What is wrong if `cs` follows here, and how far from its beginning. -/
def Reading.malformation (r : Reading) (cs : List Char) : Malformation × Nat :=
  match r.mode with
  | .value | .firstItem => textFault .noValue cs
  | .firstKey | .key _ => textFault .noName cs
  | .colon _ _ => (.noColon, 0)
  | .after _ => (if r.frames.isEmpty then .excess else .noComma, 0)

/-- The fault of the text `cs` if it cannot go on at a place. -/
def Reading.fault (r : Reading) (cs : List Char) (place : Nat) : Fault :=
  let (m, offset) := r.malformation (cs.drop place)
  let before := cs.take (place + offset)
  let column := (before.reverse.takeWhile (· != '\n')).length + 1
  .malformed m (before.count '\n' + 1) column (place + offset)

/-- Reads tokens of the text `cs` from a place on, and checks each object when it is
complete. -/
def Reading.runEach (check : Json → Except ε Unit) (fail : Fault → ε) (cs : List Char)
    (r : Reading) : List (Nat × Token) → Except ε Json
  | [] =>
    match r.mode, r.frames with
    | .after v, [] => .ok v
    | _, _ => .error (fail (r.fault cs cs.length))
  | (place, t) :: rest =>
    match r.step t with
    | .error .malformed => .error (fail (r.fault cs place))
    | .error (.longNumber digits) => .error (fail (.longNumber digits))
    | .error (.tooDeep inArray) => .error (fail (.tooDeep inArray))
    | .ok next =>
      match t, next.mode with
      | .closeBrace, .after v => do
        check v
        next.runEach check fail cs rest
      | _, _ => next.runEach check fail cs rest

/-- The value that a text is, if each object in it passes a check, inner ones first. -/
def readEach (check : Json → Except ε Unit) (fail : Fault → ε) (cs : List Char) :
    Except ε Json :=
  Reading.start.runEach check fail cs (placedFrom 0 0 cs)

end CatalogLint.Json
