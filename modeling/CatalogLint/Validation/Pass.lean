import CatalogLint.Validation.Basic

/-!
# A pass over a document

* `Validator.begin`: the beginning, up to the lookup of the settings.
* `Validator.conclude`: the rest, from the outcome of the lookup on.
-/

namespace CatalogLint

namespace Validator

/-- Begins a pass over a document. -/
def begin (v : Validator) (uri : String) : Validator × Pass × List (Effect TaskResult) :=
  let token := v.begun + 1
  let (lookup, cache, asked) := v.cache.request uri
  ({ v with cache, begun := token, latest := Table.set uri token v.latest },
    ⟨uri, token, lookup⟩, .began token uri :: asked)

/-- A record about validation. -/
def record (level : Log.Level) (message : String) (cause : Option Log.Cause := none) :
    Log.Record :=
  { source := .validation, level, message, cause }

/-- The analysis of a text for a pass. -/
def analysis (v : Validator) (uri text : String) (settings : Settings) :
    Logged (Except AnalysisError (List Diagnostic)) :=
  match v.surroundings.fault with
  | some e => pure (.error e)
  | none => analyze text uri settings v.checks

/-- A pass with its settings and its text. -/
def report (v : Validator) (p : Pass) (settings : Settings) (text : String) :
    List (Effect TaskResult) × PassResult :=
  let result := v.analysis p.uri text settings
  let log := Effect.ofLog result.log
  match result.value with
  | .ok diagnostics =>
    if v.surroundings.sinkClosed then
      (log ++ [.refused p.token p.uri diagnostics], .escaped .sinkClosed)
    else
      (log ++ [.published p.token p.uri diagnostics,
        .logged (record .debug s!"Published {diagnostics.length} diagnostics for {p.uri}")],
        .published diagnostics)
  | .error (.parse e) =>
    (log ++ [.logged (record .info s!"Skipping {p.uri}: {e.message}")], .nothing)
  | .error (.group (.location _)) =>
    (log ++ [.logged (record .error s!"Parser reported an invalid location in {p.uri}"
      (some .invalidLocation))], .nothing)
  | .error e => (log, .escaped (.analysis e))

/-- A pass that has its settings. -/
def proceed (v : Validator) (p : Pass) (settings : Settings) :
    List (Effect TaskResult) × PassResult :=
  if v.latest.lookup p.uri ≠ some p.token then
    ([.superseded p.token p.uri,
      .logged (record .debug s!"Dropping superseded validation of {p.uri}")], .nothing)
  else
    match v.surroundings.read p.uri with
    | .error cause =>
      ([.logged (record .error s!"Cannot read the text of {p.uri}" (some cause))], .nothing)
    | .ok text => v.report p settings text

/-- A pass from the outcome of its lookup to its end. -/
def conclude (v : Validator) (p : Pass) (o : Outcome) :
    Validator × List (Effect TaskResult) × PassResult :=
  let v := { v with cache := v.cache.receive p.lookup o }
  match o with
  | .ok settings => (v, v.proceed p settings)
  | .error e =>
    (v, [.logged (record .warning s!"Settings lookup failed for {p.uri}" (some e.cause))],
      .nothing)

end Validator

end CatalogLint
