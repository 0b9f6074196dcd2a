import CatalogLint.Files.Tree
import CatalogLint.Text.Utf8
import CatalogLint.Uri.Parts

/-!
# Log records

What the program tells about its work. A computation that logs is a value together with its
records, in order.

* `Record`: one message.
* `Logged`: a value and the records written on the way to it.
-/

namespace CatalogLint.Log

/-- The weight of a record. -/
inductive Level where
  | debug
  | info
  | warning
  | error
  deriving DecidableEq, Repr

def Level.number : Level → Nat
  | debug => 10
  | info => 20
  | warning => 30
  | error => 40

def Level.name : Level → String
  | debug => "DEBUG"
  | info => "INFO"
  | warning => "WARNING"
  | error => "ERROR"

/-- The part of the program that writes a record. -/
inductive Source where
  | analyzer
  | settings
  | validation
  | server
  deriving DecidableEq, Repr

def Source.name : Source → String
  | analyzer => "analyzer"
  | settings => "settings"
  | validation => "validation"
  | server => "server"

/-- The failure that a record tells of. -/
inductive Cause where
  /-- The client did not answer. -/
  | connection
  /-- The client's answer names its values instead of listing them. -/
  | namedValues
  /-- The client's answer is a value without parts. -/
  | singleValue
  /-- No text is known for the document. -/
  | unknownDocument
  /-- The document is not open, and its URI is wrong. -/
  | uri (e : UriError)
  /-- The document is not open, and its file cannot be read. -/
  | path (e : PathError)
  /-- The document is not open, and its file is no text. -/
  | encoding (e : Text.Utf8.DecodeError)
  /-- A location has no editor coordinates. -/
  | invalidLocation
  deriving DecidableEq, Repr

structure Record where
  source : Source
  level : Level
  message : String
  cause : Option Cause := none
  deriving DecidableEq, Repr

end Log

/-- A value and what was logged on the way to it. -/
structure Logged (α : Type) where
  value : α
  log : List Log.Record := []

instance : Monad Logged where
  pure a := ⟨a, []⟩
  bind x f := let y := f x.value; ⟨y.value, x.log ++ y.log⟩

/-- Writes one record. -/
def Log.write (r : Log.Record) : Logged Unit := ⟨(), [r]⟩

end CatalogLint
