import CatalogLint.Server.Document
import CatalogLint.Server.Message
import CatalogLint.Server.Units
import CatalogLint.Validation.Run

/-!
# The language server

The server keeps the texts of open documents and validates a document when it is opened or
changed, and all of them when the client's configuration changes. A document that is not open
is read from its file. The server asks the client for the
settings of a document and publishes in the client's units.

* `Server.step`: what a notification of the client does, and what the client sees of it.
-/

namespace CatalogLint

/-- A server: its validator with the client behind it, the units agreed on, and whether the
client wants to be asked for notifications of configuration changes. -/
structure Server where
  session : Conversation Validator
  encoding : Encoding := .utf16
  dynamicRegistration : Bool := false

namespace Server

/-- A server for a client with the given encodings, among the files of a tree. -/
def create (offered : Option (List String)) (dynamicRegistration : Bool)
    (root : FileTree := .dir []) (current : List String := []) : Server :=
  { session :=
      { state := { surroundings := { elsewhere := readDocument root current } }
        client := { answer := .list .null } }
    encoding := .negotiate offered, dynamicRegistration }

inductive Notification where
  | initialized
  | opened (uri text : String)
  /-- The whole text of a document has changed. -/
  | changed (uri text : String)
  | closed (uri : String)
  | configurationChanged

/-- A request that the server makes of the client. -/
structure Registration where
  id : String
  method : String

/-- What the client sees of a step, and what is logged. -/
structure Outcome where
  /-- Documents whose settings were asked for. -/
  requests : List String := []
  published : List (String × List Message) := []
  registrations : List Registration := []
  log : List Log.Record := []
  /-- Why the notification was dropped, if it was. -/
  error : Option UriError := none

/-- What the client sees of reports on a document with this text. It takes all or none. -/
def messages (encoding : Encoding) (text : String) (ds : List Diagnostic) :
    Except CoordinateError (List Message) :=
  let lines := editorLines text
  ds.mapM (·.forClient (·.inUnits encoding lines))

/-- What the client sees of effects on documents that are read by `read`. -/
def seen (encoding : Encoding) (read : String → Except Log.Cause String)
    (effects : List (Effect TaskResult)) : Outcome where
  requests := effects.filterMap fun
    | .asked lookup => some lookup.uri
    | _ => none
  published := effects.filterMap fun
    | .published _ uri ds =>
      match read uri with
      | .ok text => (messages encoding text ds).toOption.map (uri, ·)
      | .error _ => none
    | _ => none
  log := effects.filterMap fun
    | .logged r => some r
    | _ => none

/-- The documents that are open, in the order of their opening. -/
def documents (s : Server) : Table String := s.session.state.surroundings.documents

/-- Does something with the validator, and tells what the client sees of it. -/
def act (s : Server) (event : Validator.Event) : Server × Outcome :=
  let (session, effects) := Validator.process.act s.session (·.step event)
  let s := { s with session }
  (s, seen s.encoding session.state.surroundings.read effects)

/-- Sets the text of a document, or takes it away. -/
def edit (s : Server) (uri : String) (text : Option String) : Server :=
  (s.act (.edit uri text)).1

/-- A record of the server. -/
def record (message : String) : Log.Record := { source := .server, level := .info, message }

/-- The registration for configuration changes. -/
def registration : Registration :=
  { id := productName ++ "-configuration", method := "workspace/didChangeConfiguration" }

/-- What a notification does. A document whose URI is wrong cannot be opened. A change of a
document that is not open is lost, and the document is validated all the same. -/
def step (s : Server) : Notification → Server × Outcome
  | .initialized =>
    if s.dynamicRegistration then
      (s, { registrations := [registration]
            log := [record "Registered for configuration changes"] })
    else (s, {})
  | .opened uri text =>
    match Uri.filePath uri with
    | .error e => (s, { error := some e })
    | .ok _ => (s.edit uri (some text)).act (.validate 0 uri)
  | .changed uri text =>
    let s := if (s.documents.lookup uri).isSome then s.edit uri (some text) else s
    s.act (.validate 0 uri)
  | .closed uri => (s.edit uri none).act (.close uri)
  | .configurationChanged =>
    let (s, outcome) := s.act (.reconfigure 0 (s.documents.map (·.1)))
    (s, { outcome with
      log := record "Configuration changed, revalidating open documents" :: outcome.log })

/-- What the client answers from now on to requests for settings. -/
def answerWith (s : Server) (data : Json) : Server :=
  let client := { s.session.client with failing := none, answer := .list data }
  { s with session := { s.session with client } }

/-- The client answers no more requests. -/
def disconnect (s : Server) (message : String) : Server :=
  let client := { s.session.client with failing := some message }
  { s with session := { s.session with client } }

end Server

end CatalogLint
