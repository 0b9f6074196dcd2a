import CatalogLint.Diagnostic
import CatalogLint.Json.Writer
import CatalogLint.Server.Fault
import CatalogLint.Server.Introduction
import CatalogLint.Server.Stream
import CatalogLint.Server.Units
import CatalogLint.Text.Utf8

/-!
# Answers over a stream

The server answers the client's first request with what it can do, and the last one with
nothing; after that it does not answer any more. What is no message is told of and logged, and
all that came with it is dropped.

* `Call.ofBody`: what a body asks for.
* `Session.handle`: what a message does.
* `Session.receive`: what a piece of the stream does.
* `converse`: all that is sent on a stream.
-/

namespace CatalogLint.Server

/-- A message as it is sent. -/
def frame (body : String) : String :=
  s!"Content-Length: {(Text.Utf8.encode body).length}\r\n" ++
    "Content-Type: application/vscode-jsonrpc; charset=utf-8\r\n\r\n" ++ body

/-- The version of the protocol that messages name. -/
def protocolVersion : String := "2.0"

/-- Whether a value names the version of the protocol, as a text or as a number. -/
def namesVersion : Json → Bool
  | .real mantissa exponent => Json.isWhole 2 mantissa exponent
  | v => v.text? == some protocolVersion

/-- What a message asks for. -/
inductive Call where
  /-- The first request. -/
  | introduction (id : Json) (i : Introduction)
  /-- The last request. -/
  | farewell (id : Json)
  /-- Whatever is not answered. -/
  | other

namespace Call

/-- The shape of an error that a client answers with. -/
def errorShape : Shape :=
  .record [Shape.must "code" (.within (-2147483648) 2147483647),
    Shape.must "message" .anything, Shape.may "data" .anything]

/-- The notices that the protocol knows. -/
def notices : List String := [
    "initialized", "exit", "$/cancelRequest", "$/logTrace", "$/progress", "$/setTrace",
    "notebookDocument/didChange", "notebookDocument/didClose", "notebookDocument/didOpen",
    "notebookDocument/didSave", "telemetry/event", "textDocument/didChange",
    "textDocument/didClose", "textDocument/didOpen", "textDocument/didSave",
    "textDocument/publishDiagnostics", "textDocument/willSave", "window/logMessage",
    "window/showMessage", "window/workDoneProgress/cancel", "workspace/didChangeConfiguration",
    "workspace/didChangeWatchedFiles", "workspace/didChangeWorkspaceFolders",
    "workspace/didCreateFiles", "workspace/didDeleteFiles", "workspace/didRenameFiles"]

/-- What an object asks for, whatever version of the protocol it names. Requests have a number,
and a number with an error is an answer. Without a number it is a notice: those that the
protocol knows have parameters, all but the last one, and the others have their three
fields. -/
def ofFields (v : Json) (names : List (List Text.Point)) : Except Fault Call :=
  match v.field? "id", (v.field? "method").bind Json.text? with
  | some id, method =>
    match v.field? "error", method with
    | some .null, _ => .ok other
    | some error, _ => if errorShape.fits error then .ok other else .error .shape
    | none, some "initialize" =>
      match (v.field? "params").bind Introduction.ofJson? with
      | some i => .ok (introduction id i)
      | none => .error .shape
    | none, some "shutdown" => .ok (farewell id)
    | none, _ => if (v.field? "method").isSome then .ok other else .error .shape
  | none, some "initialize" | none, some "shutdown" => .error .shape
  | none, some "exit" => .ok other
  | none, method =>
    if (method.map notices.contains).getD false then
      if (v.field? "params").isSome then .ok other else .error .shape
    else
      match NoticeError.find? names with
      | some e => .error (.notice e)
      | none => .ok other

/-- What a value asks for, if it is an object that names a version. Messages of another version
are not answered. -/
def ofJson? : Json → Option (Except Fault Call)
  | .object fields => do
    let v := Json.object fields
    let version ← v.field? "jsonrpc"
    return (ofFields v (fields.map (·.1))).map fun call =>
      if namesVersion version then call else other
  | _ => none

/-- Every object that names a version must be a message, also inside another one. -/
def check (v : Json) : Except Fault Unit :=
  match ofJson? v with
  | some (.error f) => .error f
  | _ => .ok ()

/-- What a body asks for. -/
def ofBody (body : List UInt8) : Except Fault Call := do
  let text ← (Text.Utf8.decodeStrict body).mapError .encoding
  let v ← Json.readEach check .reading text
  (ofJson? v).getD (.error .unversioned)

end Call

/-- What the server does about documents. It never acts before they are saved, and says so to
a client that brings it up. -/
def synchronization (i : Introduction) : Json :=
  let always : Json.Fields := [("openClose", .bool true), ("change", .int 2)]
  let never (told : Bool) (name : String) : Json.Fields :=
    if told then [(name, .bool false)] else []
  .object (always ++ never i.tellsWillSave "willSave" ++
    never i.tellsWillSaveWaitUntil "willSaveWaitUntil" ++ never true "save")

/-- What the server can do. -/
def capabilities (i : Introduction) : Json :=
  .object [("positionEncoding", .string (Encoding.negotiate i.encodings).name),
    ("textDocumentSync", synchronization i),
    ("executeCommandProvider", .object [("commands", .array [])]),
    ("workspace",
      .object [("workspaceFolders",
        .object [("supported", .bool true), ("changeNotifications", .bool true)]),
        ("fileOperations", .object [])])]

/-- The answer to the first request. -/
def welcome (i : Introduction) : Json :=
  .object [("capabilities", capabilities i),
    ("serverInfo",
      .object [("name", .string productName), ("version", .string productVersion)])]

/-- An answer to the request with a number. -/
def reply (id result : Json) : Json :=
  .object [("id", id), ("jsonrpc", .string protocolVersion), ("result", result)]

/-- What is sent when something is no message. -/
def mishap : Json :=
  .object [("params",
      .object [("type", .int 1),
        ("message", .string "Unexpected error in LSP server, see server's logs for details")]),
    ("method", .string "window/showMessage"), ("jsonrpc", .string protocolVersion)]

/-- What comes of a message. -/
inductive Response where
  | answer (v : Json)
  | fault (f : Fault)

namespace Response

/-- What is sent. -/
def sent : Response → String
  | answer v => frame (Json.ascii v)
  | fault _ => frame (Json.ascii mishap)

/-- What is logged. -/
def logged (i : Installation) : Response → String
  | answer _ => ""
  | fault f => f.log i

end Response

/-- What the server has of a stream: the bytes that do not make a message yet, and whether the
last request has been answered. -/
structure Session where
  buffer : List UInt8 := []
  ended : Bool := false

namespace Session

/-- What a message does, and the answer to it. -/
def handle (s : Session) (call : Call) : Session × Option Json :=
  match s.ended, call with
  | false, .introduction id i => (s, some (reply id (welcome i)))
  | false, .farewell id => ({ s with ended := true }, some (reply id .null))
  | _, _ => (s, none)

/-- Takes at most `limit` messages from bytes, and keeps what is left of them. -/
def take (s : Session) (bytes : List UInt8) : Nat → Session × List Response
  | 0 => ({ s with buffer := bytes }, [])
  | limit + 1 =>
    match packet bytes with
    | .incomplete => ({ s with buffer := bytes }, [])
    | .unmeasured digits => ({ s with buffer := bytes }, [.fault (.length digits)])
    | .complete body rest =>
      match Call.ofBody body with
      | .error f => ({ s with buffer := [] }, [.fault f])
      | .ok call =>
        let (s, answer) := s.handle call
        let responses := answer.toList.map .answer
        if rest.isEmpty then ({ s with buffer := [] }, responses)
        else
          let (s, more) := s.take rest limit
          (s, responses ++ more)

/-- What a piece of the stream does, and what comes of it. Every message takes at least one
byte. -/
def receive (s : Session) (piece : List UInt8) : Session × List Response :=
  let bytes := s.buffer ++ piece
  s.take bytes bytes.length

end Session

/-- All that comes of a stream, given what has been read of it, and why its reading ends before
the stream does. -/
def converseFrom (r : Incoming) (s : Session) :
    List UInt8 → List Response × Option StreamError
  | [] =>
    match r.finish? with
    | some piece => ((s.receive piece).2, none)
    | none => ([], none)
  | b :: rest =>
    match r.feed b with
    | .error e => ([], some e)
    | .ok (r, none) => converseFrom r s rest
    | .ok (r, some piece) =>
      let (s, responses) := s.receive piece
      let (more, error) := converseFrom r s rest
      (responses ++ more, error)

/-- All that comes of a stream, and why its reading ends before the stream does. -/
def converse (bytes : List UInt8) : List Response × Option StreamError :=
  converseFrom {} {} bytes

end CatalogLint.Server
