import CatalogLint.Settings.Retrieval

/-!
# Clients

A client answers requests for settings. It may hold them back, it may fail to answer, and
what it answers may change; a request gets what holds when it arrives. A process and its
client go on in rounds: the client answers what it does not hold back, those who waited for
the answers go on, and what they ask next is for the round after.

* `firstValue`: the value in an answer to a request for one value.
* `Client`: how requests are answered, and those still to be answered.
* `Process`: what a client needs to know of the process that asks.
* `settle`: rounds until nothing more can happen.
-/

namespace CatalogLint

/-- The value in an answer to a request for one value, which should be a list. What is empty
or nothing stands for no value, and a text is taken for the list of its characters. -/
def firstValue : Json → Except LookupError Json
  | .array (v :: _) => .ok v
  | .string (p :: _) => .ok (.string [p])
  | .object (_ :: _) => .error .namedValues
  | v => if v.isNothing then .ok .null else .error .singleValue

/-- What a request will be answered with. -/
inductive Answer where
  /-- A list with the value to read settings from. -/
  | list (data : Json)
  /-- A value to read settings from. -/
  | configuration (data : Json)
  /-- Settings as they are. -/
  | settings (s : Settings)
  | failure (message : String)

/-- The outcome of a lookup with this answer. The value is read when it arrives. -/
def Answer.outcome : Answer → Logged Outcome
  | list data =>
    match firstValue data with
    | .ok v => do return .ok (← Settings.ofJson v)
    | .error e => pure (.error e)
  | configuration data => do return .ok (← Settings.ofJson data)
  | settings s => pure (.ok s)
  | failure message => pure (.error (.connection message))

/-- A request that has not been answered. -/
structure Request where
  lookup : LookupId
  answer : Answer
  held : Bool

/-- How requests are answered, and those still to be answered. -/
structure Client where
  holding : Bool := false
  /-- Why no request is answered, if none is. -/
  failing : Option String := none
  answer : Answer := .configuration .null
  requests : List Request := []

namespace Client

/-- Takes a request for a lookup. -/
def take (c : Client) (lookup : LookupId) : Client :=
  let answer := match c.failing with
    | some message => .failure message
    | none => c.answer
  { c with requests := c.requests ++ [⟨lookup, answer, c.holding⟩] }

/-- Takes the requests among effects. -/
def takeAll {ρ : Type} (c : Client) (effects : List (Effect ρ)) : Client :=
  effects.foldl
    (fun c e =>
      match e with
      | .asked lookup => c.take lookup
      | _ => c)
    c

/-- Holds requests back from now on. -/
def hold (c : Client) : Client := { c with holding := true }

/-- Holds nothing back any more. -/
def release (c : Client) : Client :=
  { c with holding := false, requests := c.requests.map ({ · with held := false }) }

/-- Lets one request go. -/
def releaseOne (c : Client) (lookup : LookupId) : Client :=
  { c with
    requests := c.requests.map fun r => if r.lookup = lookup then { r with held := false } else r }

end Client

/-- A process that asks for settings: how it takes an outcome, which of its tasks wait for a
lookup, how a task goes on, and how many more lookups the waiting tasks may want. -/
structure Process (σ ρ : Type) where
  complete : σ → LookupId → Outcome → σ
  waiters : σ → LookupId → List Nat
  resume : σ → Nat → σ × List (Effect ρ)
  remaining : σ → Nat

section Rounds

variable {σ ρ : Type} (p : Process σ ρ)

/-- The process takes the answer to a request. -/
def Process.deliver (s : σ) (r : Request) : σ × List (Effect ρ) :=
  let outcome := r.answer.outcome
  (p.complete s r.lookup outcome.value, Effect.ofLog outcome.log)

/-- Tasks go on, one after the other. -/
def Process.resumeAll (s : σ) : List Nat → σ × List (Effect ρ)
  | [] => (s, [])
  | task :: tasks =>
    let (s, effects) := p.resume s task
    let (s, more) := Process.resumeAll s tasks
    (s, effects ++ more)

/-- Takes the answers to requests. -/
def Process.deliverAll (s : σ) : List Request → σ × List (Effect ρ)
  | [] => (s, [])
  | r :: rs =>
    let (s, effects) := p.deliver s r
    let (s, more) := Process.deliverAll s rs
    (s, effects ++ more)

/-- A process and its client. -/
structure Conversation (σ : Type) where
  state : σ
  client : Client := {}

/-- One round: the answers, then those who waited for them, in the order of the requests and
for each request in the order in which they began to wait. -/
def Process.round (c : Conversation σ) : Conversation σ × List (Effect ρ) :=
  let (held, ready) := c.client.requests.partition (·.held)
  let (s, answers) := p.deliverAll c.state ready
  let (s, effects) := p.resumeAll s (ready.flatMap fun r => p.waiters s r.lookup)
  (⟨s, { c.client with requests := held }.takeAll effects⟩, answers ++ effects)

/-- At most `limit` rounds, as long as there is something to answer. -/
def Process.rounds (c : Conversation σ) : Nat → Conversation σ × List (Effect ρ)
  | 0 => (c, [])
  | limit + 1 =>
    if c.client.requests.all (·.held) then (c, [])
    else
      let (c, effects) := p.round c
      let (c, more) := Process.rounds c limit
      (c, effects ++ more)

/-- Rounds until nothing more can happen. Every round answers a request, and a waiting task
makes at most one more for each lookup that it may still want. -/
def Process.settle (c : Conversation σ) : Conversation σ × List (Effect ρ) :=
  p.rounds c (c.client.requests.length + p.remaining c.state)

/-- A change of the process, and all that follows. -/
def Process.act (c : Conversation σ) (f : σ → σ × List (Effect ρ)) :
    Conversation σ × List (Effect ρ) :=
  let (s, effects) := f c.state
  let (c, more) := p.settle ⟨s, c.client.takeAll effects⟩
  (c, effects ++ more)

/-- A change of the client, and all that follows. -/
def Process.instruct (c : Conversation σ) (f : Client → Client) :
    Conversation σ × List (Effect ρ) :=
  p.settle { c with client := f c.client }

end Rounds

/-- Callers that ask the cache, as a client sees them. -/
def Retrieval.process : Process Retrieval Retrieved where
  complete r id o := (r.step (.complete id o)).1
  waiters r id := (r.waiting.filter (·.lookup == id)).map (·.task)
  resume r task := r.step (.resume task)
  remaining _ := 0

end CatalogLint
