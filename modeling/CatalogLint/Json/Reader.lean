import CatalogLint.Json.Token
import CatalogLint.Table

/-!
# Reading JSON

Tokens are read one by one, with the arrays and objects that are still open on a stack. Of
two fields with one key the later one gives the value and the earlier one the place. The first
token that cannot be used decides how reading fails.

* `Reading.step`: what a token does.
* `read`: the value that a text is.
-/

namespace CatalogLint.Json

open CatalogLint.Text

/-- Why a text cannot be read. -/
inductive ReadError where
  /-- The text is not JSON. -/
  | malformed
  /-- A whole number has this many digits, which is too many. -/
  | longNumber (digits : Nat)
  /-- An array, or an object, is nested too deep. -/
  | tooDeep (inArray : Bool)
  deriving DecidableEq, Repr

/-- How deep arrays and objects may be nested. -/
def depthLimit : Nat := 988

/-- The words for an array, or an object, that is nested too deep. -/
def tooDeepText (inArray : Bool) : String :=
  "maximum recursion depth exceeded while decoding a JSON " ++
    (if inArray then "array" else "object") ++ " from a unicode string"

/-- Keys and their values, in order. -/
abbrev Fields := List (List Point × Json)

/-- An array or an object with more to come. -/
inductive Frame where
  /-- The items so far, newest first. -/
  | array (items : List Json)
  /-- The fields so far, and the key whose value is at hand. -/
  | object (fields : Fields) (key : List Point)

/-- What has just been read, and so what may follow. -/
inductive Mode where
  /-- A value must follow. -/
  | value
  /-- An array has been opened. -/
  | firstItem
  /-- An object has been opened. -/
  | firstKey
  /-- A key must follow these fields. -/
  | key (fields : Fields)
  /-- A colon must follow this key. -/
  | colon (fields : Fields) (key : List Point)
  /-- The value is complete. -/
  | after (v : Json)

/-- A place in a JSON text: what may follow, inside which open arrays and objects. -/
structure Reading where
  mode : Mode
  frames : List Frame

/-- The beginning of a text. -/
def Reading.start : Reading := ⟨.value, []⟩

/-- A token where a value must follow. -/
def valueStart (frames : List Frame) : Token → Except ReadError Reading
  | .scalar v => .ok ⟨.after v, frames⟩
  | .text points => .ok ⟨.after (.string points), frames⟩
  | .openBracket =>
    if frames.length < depthLimit then .ok ⟨.firstItem, frames⟩ else .error (.tooDeep true)
  | .openBrace =>
    if frames.length < depthLimit then .ok ⟨.firstKey, frames⟩ else .error (.tooDeep false)
  | .longNumber digits => .error (.longNumber digits)
  | _ => .error .malformed

/-- A token after the value `v`. -/
def valueEnd (v : Json) : List Frame → Token → Except ReadError Reading
  | .array items :: frames, .comma => .ok ⟨.value, .array (v :: items) :: frames⟩
  | .array items :: frames, .closeBracket => .ok ⟨.after (.array (v :: items).reverse), frames⟩
  | .object fields key :: frames, .comma => .ok ⟨.key (Table.set key v fields), frames⟩
  | .object fields key :: frames, .closeBrace =>
    .ok ⟨.after (.object (Table.set key v fields)), frames⟩
  | _, _ => .error .malformed

/-- What a token does, if it may stand here. -/
def Reading.step (r : Reading) (t : Token) : Except ReadError Reading :=
  match r.mode, t with
  | .value, t => valueStart r.frames t
  | .firstItem, .closeBracket => .ok ⟨.after (.array []), r.frames⟩
  | .firstItem, t => valueStart (.array [] :: r.frames) t
  | .firstKey, .closeBrace => .ok ⟨.after (.object []), r.frames⟩
  | .firstKey, .text key => .ok ⟨.colon [] key, r.frames⟩
  | .key fields, .text key => .ok ⟨.colon fields key, r.frames⟩
  | .colon fields key, .colon => .ok ⟨.value, .object fields key :: r.frames⟩
  | .after v, t => valueEnd v r.frames t
  | _, _ => .error .malformed

/-- Reads tokens from a place on. -/
def Reading.run (r : Reading) : List Token → Except ReadError Reading
  | [] => .ok r
  | t :: rest =>
    match r.step t with
    | .ok r => r.run rest
    | .error e => .error e

/-- The value, if the text may end here. -/
def Reading.finish (r : Reading) : Except ReadError Json :=
  match r.mode, r.frames with
  | .after v, [] => .ok v
  | _, _ => .error .malformed

/-- The value that a text is, with spaces around it. -/
def read (cs : List Char) : Except ReadError Json :=
  match Reading.start.run (tokens cs) with
  | .ok r => r.finish
  | .error e => .error e

end CatalogLint.Json
