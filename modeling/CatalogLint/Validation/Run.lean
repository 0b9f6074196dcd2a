import CatalogLint.Client
import CatalogLint.Events
import CatalogLint.Validation.Pass

/-!
# Validation under way

Documents change and are closed, lookups end, and tasks begin, go on and are given up, in any
order.

* `Validator.validateAll`, `Validator.validateOne`: tasks, until they have to wait.
* `Validator.step`: what an event does.
* `Validator.process`: how a client sees a validator.
-/

namespace CatalogLint

namespace Validator

/-- Validates documents one after the other, until a pass has to wait or fails. -/
def validateAll (v : Validator) (task : Nat) : List String → Validator × List (Effect TaskResult)
  | [] => (v, [.finished task .done])
  | uri :: rest =>
    let (v, pass, begun) := v.begin uri
    match v.cache.outcome? pass.lookup with
    | none => ({ v with waiting := v.waiting ++ [⟨task, pass, some rest⟩] }, begun)
    | some o =>
      let (v, effects, result) := v.conclude pass o
      match result with
      | .escaped e => (v, begun ++ effects ++ [.finished task (.failed e)])
      | _ =>
        let (v, more) := validateAll v task rest
        (v, begun ++ effects ++ more)

/-- Validates one document, until the pass has to wait. -/
def validateOne (v : Validator) (task : Nat) (uri : String) :
    Validator × List (Effect TaskResult) :=
  let (v, pass, begun) := v.begin uri
  match v.cache.outcome? pass.lookup with
  | none => ({ v with waiting := v.waiting ++ [⟨task, pass, none⟩] }, begun)
  | some o =>
    let (v, effects, result) := v.conclude pass o
    (v, begun ++ effects ++ [.finished task (.pass result)])

/-- A task goes on with the outcome that it waited for. -/
def goOn (v : Validator) (t : Task) (o : Outcome) : Validator × List (Effect TaskResult) :=
  let (v, effects, result) := v.conclude t.pass o
  match t.rest, result with
  | none, result => (v, effects ++ [.finished t.number (.pass result)])
  | some _, .escaped e => (v, effects ++ [.finished t.number (.failed e)])
  | some rest, _ =>
    let (v, more) := v.validateAll t.number rest
    (v, effects ++ more)

/-- The task with a number, if it waits, and the validator without it. -/
def take? (v : Validator) (task : Nat) : Option (Task × Validator) :=
  match v.waiting.find? (·.number == task) with
  | some t => some (t, { v with waiting := v.waiting.eraseP (·.number == task) })
  | none => none

inductive Event where
  /-- A task validates a document. -/
  | validate (task : Nat) (uri : String)
  /-- A document is closed. -/
  | close (uri : String)
  /-- All settings have changed, and a task validates these documents. -/
  | reconfigure (task : Nat) (uris : List String)
  /-- A document gets a text, or loses it. -/
  | edit (uri : String) (text : Option String)
  /-- Reports are taken no more, or again. -/
  | closeSink (closed : Bool)
  /-- Every analysis ends with this error, or none does. -/
  | disturb (fault : Option AnalysisError)
  /-- A lookup ends. -/
  | complete (lookup : LookupId) (outcome : Outcome)
  /-- A task whose lookup has ended goes on. -/
  | resume (task : Nat)
  /-- A task is given up. The lookup that it waits for goes on. -/
  | cancel (task : Nat)

/-- What an event does. -/
def step (v : Validator) : Event → Validator × List (Effect TaskResult)
  | .validate task uri => v.validateOne task uri
  | .close uri => ({ v with cache := v.cache.evict uri, latest := Table.erase uri v.latest }, [])
  | .reconfigure task uris => { v with cache := v.cache.clear }.validateAll task uris
  | .edit uri text =>
    let documents := match text with
      | some t => Table.set uri t v.surroundings.documents
      | none => Table.erase uri v.surroundings.documents
    ({ v with surroundings := { v.surroundings with documents } }, [])
  | .closeSink closed =>
    ({ v with surroundings := { v.surroundings with sinkClosed := closed } }, [])
  | .disturb fault => ({ v with surroundings := { v.surroundings with fault } }, [])
  | .complete id o => ({ v with cache := v.cache.complete id o }, [])
  | .resume task =>
    match v.take? task with
    | some (t, rest) =>
      match v.cache.outcome? t.pass.lookup with
      | some o => rest.goOn t o
      | none => (v, [])
    | none => (v, [])
  | .cancel task =>
    match v.take? task with
    | some (_, rest) => (rest, [.finished task .cancelled])
    | none => (v, [])

/-- What events do, one after the other. -/
def run (v : Validator) (es : List Event) : Validator × List (Effect TaskResult) :=
  runEvents step v es

/-- A validator, as a client sees it. -/
def process : Process Validator TaskResult where
  complete v id o := (v.step (.complete id o)).1
  waiters v id := (v.waiting.filter (·.pass.lookup == id)).map (·.number)
  resume v task := v.step (.resume task)
  remaining v := (v.waiting.map fun t => (t.rest.getD []).length).foldr (· + ·) 0

end Validator

end CatalogLint
