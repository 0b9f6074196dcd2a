import CatalogLint.Effect
import CatalogLint.Settings.Basic
import CatalogLint.Table

/-!
# The settings cache

The settings of a document are asked for once and then kept, until the document is closed,
all settings change, or the lookup fails. While a lookup is under way all who want its
settings wait for the same one.

* `SettingsCache`: all lookups ever made, and for each document the one that is kept.
* `SettingsCache.request`: the lookup for one who wants the settings of a document.
* `SettingsCache.receive`: what becomes of a lookup once its outcome has been seen.
-/

namespace CatalogLint

/-- Why the client gave no settings. -/
inductive LookupError where
  /-- The client did not answer. -/
  | connection (message : String)
  /-- The answer names its values instead of listing them. -/
  | namedValues
  /-- The answer is a value without parts. -/
  | singleValue
  deriving DecidableEq, Repr

/-- How a record tells of the failure. -/
def LookupError.cause : LookupError → Log.Cause
  | connection _ => .connection
  | namedValues => .namedValues
  | singleValue => .singleValue

/-- What a lookup ends with. -/
abbrev Outcome := Except LookupError Settings

/-- A lookup, under way until it has an outcome. -/
structure Lookup where
  id : LookupId
  outcome : Option Outcome := none

/-- All lookups, in the order of their beginning, and the number of the one kept for each
document. -/
structure SettingsCache where
  lookups : List Lookup := []
  kept : Table Nat := []

namespace SettingsCache

/-- The outcome of a lookup, if it has one. -/
def outcome? (c : SettingsCache) (id : LookupId) : Option Outcome :=
  (c.lookups.find? (·.id == id)).bind (·.outcome)

/-- The lookup kept for a document. -/
def kept? (c : SettingsCache) (uri : String) : Option LookupId :=
  (c.kept.lookup uri).map (⟨uri, ·⟩)

/-- The next lookup for a document: its number tells how many there have been. -/
def next (c : SettingsCache) (uri : String) : LookupId :=
  ⟨uri, c.lookups.countP (·.id.uri == uri)⟩

/-- Begins a lookup, and keeps it. -/
def start (c : SettingsCache) (id : LookupId) : SettingsCache :=
  { lookups := c.lookups ++ [{ id }], kept := Table.set id.uri id.number c.kept }

/-- The lookup kept for a document, or a new one, with the cache and what was asked. -/
def request {ρ : Type} (c : SettingsCache) (uri : String) :
    LookupId × SettingsCache × List (Effect ρ) :=
  match c.kept? uri with
  | some id => (id, c, [])
  | none =>
    let id := c.next uri
    (id, c.start id, [.asked id])

/-- Ends a lookup. The first outcome stays. -/
def complete (c : SettingsCache) (id : LookupId) (outcome : Outcome) : SettingsCache :=
  { c with
    lookups := c.lookups.map fun l =>
      if l.id = id then { l with outcome := l.outcome.or (some outcome) } else l }

/-- Forgets a lookup, unless another one is kept for its document by now. -/
def forget (c : SettingsCache) (id : LookupId) : SettingsCache :=
  if c.kept? id.uri = some id then { c with kept := Table.erase id.uri c.kept } else c

/-- Forgets whatever is kept for a document. -/
def evict (c : SettingsCache) (uri : String) : SettingsCache :=
  { c with kept := Table.erase uri c.kept }

/-- Forgets all. -/
def clear (c : SettingsCache) : SettingsCache := { c with kept := [] }

/-- What one who waits for a lookup does to the cache on its outcome: a failed lookup is not
kept. -/
def receive (c : SettingsCache) (id : LookupId) : Outcome → SettingsCache
  | .ok _ => c
  | .error _ => c.forget id

end SettingsCache

end CatalogLint
