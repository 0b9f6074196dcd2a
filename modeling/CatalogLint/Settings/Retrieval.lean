import CatalogLint.Events
import CatalogLint.Settings.Cache

/-!
# Callers of the settings cache

Callers want the settings of documents, and wait while the lookup is under way. Lookups end,
callers go on or give up, and documents are forgotten, in any order.

* `Retrieval`: a cache and the callers that wait for it.
* `Retrieval.step`: what an event does.
-/

namespace CatalogLint

/-- How a caller's wish for settings ends: with the outcome of a lookup, or not at all. -/
inductive Retrieved where
  | outcome (lookup : LookupId) (outcome : Outcome)
  | cancelled

/-- A caller that waits for a lookup. -/
structure Waiter where
  task : Nat
  lookup : LookupId
  deriving DecidableEq, Repr

/-- A cache and the callers that wait, in the order in which they began to. -/
structure Retrieval where
  cache : SettingsCache := {}
  waiting : List Waiter := []

namespace Retrieval

inductive Event where
  /-- A caller wants the settings of a document. -/
  | get (task : Nat) (uri : String)
  | evict (uri : String)
  | clear
  /-- A lookup ends. -/
  | complete (lookup : LookupId) (outcome : Outcome)
  /-- A caller whose lookup has ended goes on. -/
  | resume (task : Nat)
  /-- A caller gives up. The lookup goes on without it. -/
  | cancel (task : Nat)

/-- The caller `w` gets the outcome of its lookup. -/
def finish (r : Retrieval) (w : Waiter) (o : Outcome) : Retrieval × List (Effect Retrieved) :=
  ({ r with cache := r.cache.receive w.lookup o }, [.finished w.task (.outcome w.lookup o)])

/-- The caller with a number, if it waits, and the others. -/
def take? (r : Retrieval) (task : Nat) : Option (Waiter × Retrieval) :=
  match r.waiting.find? (·.task == task) with
  | some w => some (w, { r with waiting := r.waiting.eraseP (·.task == task) })
  | none => none

/-- What an event does. A caller waits only for a lookup that has not ended. -/
def step (r : Retrieval) : Event → Retrieval × List (Effect Retrieved)
  | .get task uri =>
    let (id, cache, asked) := r.cache.request uri
    match cache.outcome? id with
    | some o =>
      let (r, effects) := finish { r with cache } ⟨task, id⟩ o
      (r, asked ++ effects)
    | none => ({ cache, waiting := r.waiting ++ [⟨task, id⟩] }, asked)
  | .evict uri => ({ r with cache := r.cache.evict uri }, [])
  | .clear => ({ r with cache := r.cache.clear }, [])
  | .complete id o => ({ r with cache := r.cache.complete id o }, [])
  | .resume task =>
    match r.take? task with
    | some (w, rest) =>
      match r.cache.outcome? w.lookup with
      | some o => finish rest w o
      | none => (r, [])
    | none => (r, [])
  | .cancel task =>
    match r.take? task with
    | some (_, rest) => (rest, [.finished task .cancelled])
    | none => (r, [])

/-- What events do, one after the other. -/
def run (r : Retrieval) (es : List Event) : Retrieval × List (Effect Retrieved) :=
  runEvents step r es

end Retrieval

end CatalogLint
