import CatalogLint.Json.Fault
import CatalogLint.Server.Trace
import CatalogLint.Text.Utf8

/-!
# Faults of messages

Why a message cannot be used, and the trace that is logged then.

* `Fault`: why a message cannot be used.
* `NoticeError`: why fields do not make a notice.
* `Fault.log`: what is logged.
-/

namespace CatalogLint.Server

open CatalogLint.Text

/-- Why fields do not make a notice, which has a version, a method and parameters. -/
inductive NoticeError where
  /-- There is a field with another name. -/
  | unexpected (name : List Point)
  /-- There is a field with the name that the notice itself goes by. -/
  | doubled
  /-- These fields are missing. -/
  | missing (names : List String)
  deriving DecidableEq, Repr

namespace NoticeError

/-- The fields of a notice, in order. -/
def fieldNames : List String := ["jsonrpc", "method", "params"]

/-- The name that a notice itself goes by. -/
def ownName : String := "self"

/-- Why the fields with these names do not make a notice, if so. The first name that is wrong
counts, and after that what is missing. -/
def find? (names : List (List Point)) : Option NoticeError :=
  match names.find? fun name => !(fieldNames.map pointsOf).contains name with
  | some name => some (if name = pointsOf ownName then doubled else unexpected name)
  | none =>
    match fieldNames.filter fun name => !names.contains (pointsOf name) with
    | [] => none
    | absent => some (missing absent)

/-- A name as it is shown. Halves of surrogate pairs are shown by number. -/
def shownName (name : List Point) : String :=
  String.ofList <| name.flatMap fun
    | .char c => [c]
    | .half offset => '\\' :: 'u' :: lowerHex 4 (0xD800 + offset.val)

def message (e : NoticeError) : String :=
  let quoted (name : String) : String := "'" ++ name ++ "'"
  "JsonRPCNotification.__init__() " ++ match e with
    | unexpected name => "got an unexpected keyword argument " ++ quoted (shownName name)
    | doubled => "got multiple values for argument " ++ quoted ownName
    | missing [name] => "missing 1 required positional argument: " ++ quoted name
    | missing names =>
      s!"missing {names.length} required positional arguments: " ++
        " and ".intercalate (names.map quoted)

end NoticeError

/-- Why a message cannot be used. -/
inductive Fault where
  /-- Its length has this many digits, which is too many. -/
  | length (digits : Nat)
  | encoding (e : Utf8.DecodeError)
  | reading (f : Json.Fault)
  /-- An object in it looks like a notice and is none. -/
  | notice (e : NoticeError)
  /-- An object in it looks like a message and has not the shape of one. -/
  | shape
  /-- It names no version of the protocol. -/
  | unversioned
  deriving DecidableEq, Repr

namespace Place

/-- A place where messages are taken from the stream. -/
def protocol (line : Nat) (function before marked : String) (after : String := "") : Place :=
  { origin := .library, file := "pygls/protocol/json_rpc.py", line, function, before, marked
    after }

def receiving : Place := protocol 443 "data_received" "self._data_received(data)" ""

def measuring : Place :=
  protocol 461 "_data_received" "length = " "int(found.group(\"length\"))" " if found else 1"

def handling : Place := protocol 474 "_data_received" "self._procedure_handler(" ""

def loading : Place := protocol 475 "_data_received" "json.loads(" ""

def decoding : Place :=
  protocol 476 "_data_received" "" "body.decode(self.CHARSET)"
    ", object_hook=self._deserialize_message"

def comparing : Place :=
  protocol 353 "_procedure_handler" "if " "message.jsonrpc" " != JsonRPCProtocol.VERSION:"

def structuring : Place :=
  protocol 340 "_deserialize_message" "return "
    "self._converter.structure(data, notification_type)"

def raising : Place :=
  protocol 348 "_deserialize_message" "raise JsonRpcInternalError() from exc" ""

def converting : Place :=
  { origin := .library, file := "cattrs/converters.py", line := 601, function := "structure"
    before := "return ", marked := "self._structure_func.dispatch(cl)(obj, cl)" }

def making : Place :=
  { origin := .library, file := "pygls/protocol/__init__.py", line := 38
    function := "_params_field_structure_hook", before := "return ", marked := "cls(**obj)" }

/-- A place where texts are read as JSON. -/
def decoder (line : Nat) (function before marked : String) : Place :=
  { origin := .runtime, file := "json/decoder.py", line, function, before, marked }

def beginning : Place :=
  { origin := .runtime, file := "json/__init__.py", line := 359, function := "loads"
    before := "return ", marked := "cls(**kw).decode(s)" }

def reading : Place :=
  decoder 337 "decode" "obj, end = " "self.raw_decode(s, idx=_w(s, 0).end())"

def exceeding : Place := decoder 340 "decode" "raise JSONDecodeError(\"Extra data\", s, end)" ""

def scanning : Place := decoder 353 "raw_decode" "obj, end = " "self.scan_once(s, idx)"

def wanting : Place :=
  decoder 355 "raw_decode"
    "raise JSONDecodeError(\"Expecting value\", s, err.value) from None" ""

end Place

namespace Fault

/-- The way to a body's text, from the outside. -/
def toText : List Place := [.receiving, .loading, .beginning]

/-- The last part of the way to a fault of JSON. -/
def inText : Json.Fault → List Place
  | .malformed .excess _ _ _ => [.exceeding]
  | .malformed .noValue _ _ _ => [.reading, .wanting]
  | _ => [.reading, .scanning]

/-- The name of a fault of JSON. -/
def textKind : Json.Fault → String
  | .malformed _ _ _ _ => "json.decoder.JSONDecodeError"
  | .longNumber _ => "ValueError"
  | .tooDeep _ => "RecursionError"

/-- What is logged about a fault. A wrong notice is logged where it is found and again where the
message is given up; of a wrong shape nothing is shown. -/
def log (i : Installation) : Fault → String
  | length digits =>
    Trace.text i ⟨[.receiving, .measuring], "ValueError: " ++ Json.longNumberText digits⟩
  | encoding e =>
    Trace.text i ⟨[.receiving, .decoding], "UnicodeDecodeError: " ++ e.message⟩
  | reading f => Trace.text i ⟨toText ++ inText f, textKind f ++ ": " ++ f.message⟩
  | notice e =>
    let cause : Trace :=
      ⟨[.structuring, .converting, .making], "TypeError: " ++ e.message⟩
    let result : Trace :=
      ⟨toText ++ [.reading, .scanning, .raising],
        "pygls.exceptions.JsonRpcInternalError: Internal Error"⟩
    cause.text i ++ "\n" ++ cause.textAfter i result
  | shape => ""
  | unversioned =>
    Trace.text i ⟨[.receiving, .handling, .comparing],
      "AttributeError: 'dict' object has no attribute 'jsonrpc'"⟩

end Fault

end CatalogLint.Server
