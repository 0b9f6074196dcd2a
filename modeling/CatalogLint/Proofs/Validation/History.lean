import CatalogLint.Validation.Run
import Mathlib.Data.List.Basic

/-!
# Histories of validation

The history of a run is what was asked of the validator and what came of it, in order. An event
may do several things: it begins passes, parks them while they wait, takes them up again and
ends them. These are the moves, and between two moves of one event the validator has a pass in
hand or documents still to go through.

* `Validator.history`: the history of a run.
* `Move`: one move, with what it adds to the history.
* `run_moves`: **every run is a sequence of moves**, so what all moves keep holds of every run
  (`Moves.keeps`).
* `conclude_cases`: the ways in which a pass ends.
-/

namespace CatalogLint

/-- The task that ends, with its result. -/
def Effect.ending? {ρ : Type} : Effect ρ → Option (Nat × ρ)
  | .finished task r => some (task, r)
  | _ => none

namespace Validator

/-- A moment of a history: an event, or something that it brings about. -/
inductive Moment where
  | event (e : Event)
  | effect (e : Effect TaskResult)

/-- The event that a moment is. -/
def Moment.event? : Moment → Option Event
  | event e => some e
  | effect _ => none

/-- The effect that a moment is. -/
def Moment.effect? : Moment → Option (Effect TaskResult)
  | event _ => none
  | effect e => some e

/-- What an event adds to a history: itself, and then its effects. -/
def scene (v : Validator) (e : Event) : List Moment := .event e :: (v.step e).2.map .effect

/-- The history of a run. -/
def history (v : Validator) : List Event → List Moment
  | [] => []
  | e :: es => v.scene e ++ (v.step e).1.history es

theorem run_cons (v : Validator) (e : Event) (es : List Event) :
    v.run (e :: es) = (((v.step e).1.run es).1, (v.step e).2 ++ ((v.step e).1.run es).2) := rfl

/-- The tasks that end, with their results. -/
def endings (effects : List (Effect TaskResult)) : List (Nat × TaskResult) :=
  effects.filterMap Effect.ending?

@[simp]
theorem endings_append (l₁ l₂ : List (Effect TaskResult)) :
    endings (l₁ ++ l₂) = endings l₁ ++ endings l₂ := List.filterMap_append

theorem filterMap_effect (l : List (Effect TaskResult)) :
    (l.map Moment.effect).filterMap Moment.effect? = l := by
  rw [List.filterMap_map]
  exact List.filterMap_some

theorem filterMap_event (l : List (Effect TaskResult)) :
    (l.map Moment.effect).filterMap Moment.event? = [] := by
  rw [List.filterMap_map, List.filterMap_eq_nil_iff]
  intro x _
  rfl

/-- The effects of a history are those of the run. -/
theorem effects_history (v : Validator) (es : List Event) :
    (v.history es).filterMap Moment.effect? = (v.run es).2 := by
  induction es generalizing v with
  | nil => rfl
  | cons e es ih =>
    rw [run_cons, history, scene, List.filterMap_append, ih]
    simp only [List.filterMap_cons, Moment.effect?]
    rw [filterMap_effect]

/-- The events of a history are those of the run. -/
theorem events_history (v : Validator) (es : List Event) :
    (v.history es).filterMap Moment.event? = es := by
  induction es generalizing v with
  | nil => rfl
  | cons e es ih =>
    rw [history, scene, List.filterMap_append, ih]
    simp only [List.filterMap_cons, Moment.event?]
    rw [filterMap_event, List.singleton_append]

theorem run_append (v : Validator) (es es' : List Event) :
    (v.run (es ++ es')).1 = ((v.run es).1.run es').1 := by
  unfold run
  rw [runEvents_append]

theorem history_append (v : Validator) (es es' : List Event) :
    v.history (es ++ es') = v.history es ++ (v.run es).1.history es' := by
  induction es generalizing v with
  | nil => rfl
  | cons e es ih => rw [List.cons_append, history, history, ih, run_cons, List.append_assoc]

theorem run_concat (v : Validator) (es : List Event) (e : Event) :
    (v.run (es ++ [e])).1 = ((v.run es).1.step e).1 := runEvents_concat step v es e

theorem history_concat (v : Validator) (es : List Event) (e : Event) :
    v.history (es ++ [e]) = v.history es ++ (v.run es).1.scene e := by
  rw [history_append]
  simp [history]

/-- Where the validator is within an event: the pass in hand, and the documents that it has
still to go through. -/
structure Focus where
  hand : Option Pass := none
  todo : List String := []

/-- One move, with what it adds to the history. -/
inductive Move : Focus → Validator → List Moment → Focus → Validator → Prop where
  | call (v : Validator) (task : Nat) (uri : String) :
      Move {} v [.event (.validate task uri)] ⟨none, [uri]⟩ v
  | reconfigure (v : Validator) (task : Nat) (uris : List String) :
      Move {} v [.event (.reconfigure task uris)] ⟨none, uris⟩ { v with cache := v.cache.clear }
  | close (v : Validator) (uri : String) :
      Move {} v [.event (.close uri)] {}
        { v with cache := v.cache.evict uri, latest := Table.erase uri v.latest }
  | edit (v : Validator) (uri : String) (text : Option String) :
      Move {} v [.event (.edit uri text)] {} (v.step (.edit uri text)).1
  | closeSink (v : Validator) (closed : Bool) :
      Move {} v [.event (.closeSink closed)] {} (v.step (.closeSink closed)).1
  | disturb (v : Validator) (fault : Option AnalysisError) :
      Move {} v [.event (.disturb fault)] {} (v.step (.disturb fault)).1
  | complete (v : Validator) (id : LookupId) (o : Outcome) :
      Move {} v [.event (.complete id o)] {} { v with cache := v.cache.complete id o }
  /-- A task that waits is given up. -/
  | cancel {v v' : Validator} {task : Nat} {t : Task} (ht : v.take? task = some (t, v')) :
      Move {} v [.event (.cancel task)] {} v'
  /-- A task cannot go on, or be given up. -/
  | ignore (v : Validator) (e : Event) (he : ∃ task, e = .resume task ∨ e = .cancel task) :
      Move {} v [.event e] {} v
  /-- A task goes on: its pass is taken in hand. -/
  | take {v v' : Validator} {task : Nat} {t : Task} {o : Outcome}
      (ht : v.take? task = some (t, v')) (ho : v.cache.outcome? t.pass.lookup = some o) :
      Move {} v [.event (.resume task)] ⟨some t.pass, t.rest.getD []⟩ v'
  /-- A pass begins. -/
  | begin (v : Validator) (uri : String) (rest : List String) :
      Move ⟨none, uri :: rest⟩ v ((v.begin uri).2.2.map .effect)
        ⟨some (v.begin uri).2.1, rest⟩ (v.begin uri).1
  /-- The pass in hand has to wait, and what is left to do waits with it. -/
  | wait {v : Validator} {p : Pass} (task : Nat) (rest : Option (List String))
      (ho : v.cache.outcome? p.lookup = none) :
      Move ⟨some p, rest.getD []⟩ v [] {} { v with waiting := v.waiting ++ [⟨task, p, rest⟩] }
  /-- The pass in hand ends. If something escapes from it, nothing is left to do. -/
  | conclude {v : Validator} {p : Pass} {o : Outcome} (rest rest' : List String)
      (ho : v.cache.outcome? p.lookup = some o)
      (hr : rest' = rest ∨ rest' = [] ∧ ∃ e, (v.conclude p o).2.2 = .escaped e) :
      Move ⟨some p, rest⟩ v ((v.conclude p o).2.1.map .effect) ⟨none, rest'⟩ (v.conclude p o).1
  | finish (v : Validator) (task : Nat) (r : TaskResult) :
      Move {} v [.effect (.finished task r)] {} v

/-- Moves one after the other. -/
inductive Moves : Focus → Validator → List Moment → Focus → Validator → Prop where
  | refl (f : Focus) (v : Validator) : Moves f v [] f v
  | head {f f' f'' : Focus} {v v' v'' : Validator} {ms ns : List Moment} :
      Move f v ms f' v' → Moves f' v' ns f'' v'' → Moves f v (ms ++ ns) f'' v''

variable {f f' f'' : Focus} {v v' v'' : Validator} {ms ns : List Moment}

theorem Move.moves (h : Move f v ms f' v') : Moves f v ms f' v' := by
  have := Moves.head h (.refl f' v')
  rwa [List.append_nil] at this

theorem Moves.trans (h : Moves f v ms f' v') (h' : Moves f' v' ns f'' v'') :
    Moves f v (ms ++ ns) f'' v'' := by
  induction h with
  | refl => exact h'
  | head hm _ ih => rw [List.append_assoc]; exact .head hm (ih h')

/-- **What every move keeps, moves keep.** -/
theorem Moves.keeps {Q : Focus → Validator → List Moment → Prop}
    (hQ : ∀ {f f' v v' ms} h, Move f v ms f' v' → Q f v h → Q f' v' (h ++ ms))
    (h : Moves f v ms f' v') : ∀ past, Q f v past → Q f' v' (past ++ ms) := by
  induction h with
  | refl => intro past hq; rwa [List.append_nil]
  | head hm _ ih => intro past hq; rw [← List.append_assoc]; exact ih _ (hQ _ hm hq)

/-- What every move without an event keeps, moves without events keep. -/
theorem Moves.keeps_within {Q : Focus → Validator → List Moment → Prop}
    (hQ : ∀ {f f' v v' ms} h, Move f v ms f' v' → (∀ m ∈ ms, m.event? = none) → Q f v h →
      Q f' v' (h ++ ms))
    {f f' : Focus} {v v' : Validator} (hms : Moves f v ms f' v') (he : ∀ m ∈ ms, m.event? = none) :
    ∀ past, Q f v past → Q f' v' (past ++ ms) := by
  induction hms with
  | refl => intro past hq; rwa [List.append_nil]
  | head hm _ ih =>
    intro past hq
    rw [← List.append_assoc]
    refine ih (fun m hm => he m (List.mem_append_right _ hm)) _ (hQ _ hm (fun m hm => ?_) hq)
    exact he m (List.mem_append_left _ hm)

theorem event?_effect (effects : List (Effect TaskResult)) :
    ∀ m ∈ effects.map Moment.effect, m.event? = none := by
  intro m hm
  obtain ⟨e, -, rfl⟩ := List.mem_map.1 hm
  rfl

/-- Going through documents is a sequence of moves. -/
theorem validateAll_moves (task : Nat) (uris : List String) :
    ∀ v : Validator, Moves ⟨none, uris⟩ v ((v.validateAll task uris).2.map .effect) {}
      (v.validateAll task uris).1 := by
  induction uris with
  | nil => intro v; exact (Move.finish v task .done).moves
  | cons uri rest ih =>
    intro v
    have hb := Move.begin v uri rest
    rcases hv : v.begin uri with ⟨v₁, p, begun⟩
    rw [hv] at hb
    cases ho : v₁.cache.outcome? p.lookup with
    | none =>
      have hw := Move.wait task (some rest) ho
      simpa [validateAll, hv, ho] using Moves.head hb hw.moves
    | some o =>
      have hc := Move.conclude rest rest ho (.inl rfl)
      rcases hr : v₁.conclude p o with ⟨v₂, effects, result⟩
      rw [hr] at hc
      cases result with
      | escaped e =>
        have hc := Move.conclude rest [] ho (.inr ⟨rfl, e, by rw [hr]⟩)
        rw [hr] at hc
        have hf := Move.finish v₂ task (.failed e)
        simpa [validateAll, hv, ho, hr] using Moves.head hb (.head hc hf.moves)
      | published ds => simpa [validateAll, hv, ho, hr] using Moves.head hb (.head hc (ih v₂))
      | nothing => simpa [validateAll, hv, ho, hr] using Moves.head hb (.head hc (ih v₂))

theorem validateOne_moves (v : Validator) (task : Nat) (uri : String) :
    Moves ⟨none, [uri]⟩ v ((v.validateOne task uri).2.map .effect) {}
      (v.validateOne task uri).1 := by
  have hb := Move.begin v uri []
  simp only [validateOne]
  cases ho : (v.begin uri).1.cache.outcome? (v.begin uri).2.1.lookup with
  | none => simpa using Moves.head hb (Move.wait task none ho).moves
  | some o =>
    have hc := Move.conclude [] [] ho (.inl rfl)
    have hf := Move.finish ((v.begin uri).1.conclude (v.begin uri).2.1 o).1 task
      (.pass ((v.begin uri).1.conclude (v.begin uri).2.1 o).2.2)
    simpa using Moves.head hb (.head hc hf.moves)

theorem goOn_moves (v : Validator) (t : Task) {o : Outcome}
    (ho : v.cache.outcome? t.pass.lookup = some o) :
    Moves ⟨some t.pass, t.rest.getD []⟩ v ((v.goOn t o).2.map .effect) {} (v.goOn t o).1 := by
  have hc := Move.conclude (t.rest.getD []) _ ho (.inl rfl)
  simp only [goOn]
  cases hrest : t.rest with
  | none =>
    rw [hrest] at hc
    have hf := Move.finish (v.conclude t.pass o).1 t.number (.pass (v.conclude t.pass o).2.2)
    simpa using Moves.head hc hf.moves
  | some rest =>
    rw [hrest] at hc
    cases hr : (v.conclude t.pass o).2.2 with
    | escaped e =>
      have hc := Move.conclude rest [] ho (.inr ⟨rfl, e, hr⟩)
      have hf := Move.finish (v.conclude t.pass o).1 t.number (.failed e)
      simpa using Moves.head hc hf.moves
    | published ds => simpa using Moves.head hc (validateAll_moves t.number rest _)
    | nothing => simpa using Moves.head hc (validateAll_moves t.number rest _)

/-- What taking a task out of those that wait leaves. -/
theorem take?_eq_some {task : Nat} {t : Task} (h : v.take? task = some (t, v')) :
    t.number = task ∧
      ∃ l₁ l₂, v.waiting = l₁ ++ t :: l₂ ∧ v' = { v with waiting := l₁ ++ l₂ } := by
  unfold take? at h
  cases hf : v.waiting.find? (·.number == task) with
  | none => rw [hf] at h; cases h
  | some x =>
    rw [hf] at h
    obtain ⟨rfl, rfl⟩ := Prod.mk.inj (Option.some.inj h)
    obtain ⟨hx, l₁, l₂, hw, hrest⟩ := split_of_find? hf
    exact ⟨by simpa using hx, l₁, l₂, hw, by rw [hrest]⟩

/-- **One event is a sequence of moves.** -/
theorem step_moves (v : Validator) (e : Event) : Moves {} v (v.scene e) {} (v.step e).1 := by
  cases e with
  | validate task uri => exact .head (.call v task uri) (validateOne_moves v task uri)
  | close uri => exact (Move.close v uri).moves
  | reconfigure task uris =>
    exact .head (.reconfigure v task uris) (validateAll_moves task uris _)
  | edit uri text => exact (Move.edit v uri text).moves
  | closeSink closed => exact (Move.closeSink v closed).moves
  | disturb fault => exact (Move.disturb v fault).moves
  | complete id o => exact (Move.complete v id o).moves
  | resume task =>
    have hi := (Move.ignore v (.resume task) ⟨task, .inl rfl⟩).moves
    simp only [scene, step]
    cases ht : v.take? task with
    | none => exact hi
    | some x =>
      obtain ⟨t, v'⟩ := x
      cases ho : v.cache.outcome? t.pass.lookup with
      | none => simpa [ho] using hi
      | some o =>
        obtain ⟨-, l₁, l₂, -, rfl⟩ := take?_eq_some ht
        have hg := goOn_moves { v with waiting := l₁ ++ l₂ } t ho
        simpa [ho] using Moves.head (.take ht ho) hg
  | cancel task =>
    simp only [scene, step]
    cases ht : v.take? task with
    | none => exact (Move.ignore v (.cancel task) ⟨task, .inr rfl⟩).moves
    | some x => exact .head (.cancel ht) (Move.finish x.2 task .cancelled).moves

/-- **Every run is a sequence of moves.** -/
theorem run_moves (v : Validator) (es : List Event) :
    Moves {} v (v.history es) {} (v.run es).1 := by
  induction es generalizing v with
  | nil => exact .refl _ _
  | cons e es ih => exact (step_moves v e).trans (ih _)

/-- Effects that nobody but a reader of the log sees. -/
def Silent (effects : List (Effect TaskResult)) : Prop := ∀ e ∈ effects, ∃ r, e = .logged r

/-- How a pass `p` ends in the validator `v` with an outcome of its lookup: the effects, and its
result. -/
inductive Conclusion (v : Validator) (p : Pass) :
    Outcome → List (Effect TaskResult) → PassResult → Prop where
  /-- There are no settings. -/
  | failed (e : LookupError) (r : Log.Record) : Conclusion v p (.error e) [.logged r] .nothing
  /-- The pass is not the latest one over its document. -/
  | superseded (s : Settings) (r : Log.Record) (hl : v.latest.lookup p.uri ≠ some p.token) :
      Conclusion v p (.ok s) [.superseded p.token p.uri, .logged r] .nothing
  /-- The document has no text. -/
  | unreadable (s : Settings) (r : Log.Record) {cause : Log.Cause}
      (hl : v.latest.lookup p.uri = some p.token) (ht : v.surroundings.read p.uri = .error cause) :
      Conclusion v p (.ok s) [.logged r] .nothing
  /-- The text has no reports. -/
  | skipped (s : Settings) {text : String} {e : AnalysisError} {log : List (Effect TaskResult)}
      (hl : v.latest.lookup p.uri = some p.token) (ht : v.surroundings.read p.uri = .ok text)
      (ha : (v.analysis p.uri text s).value = .error e)
      (he : (∃ e', e = .parse e') ∨ ∃ l, e = .group (.location l)) (hs : Silent log) :
      Conclusion v p (.ok s) log .nothing
  /-- The analysis fails in a way that no text can cause. -/
  | escaped (s : Settings) {text : String} {e : AnalysisError} {log : List (Effect TaskResult)}
      (hl : v.latest.lookup p.uri = some p.token) (ht : v.surroundings.read p.uri = .ok text)
      (ha : (v.analysis p.uri text s).value = .error e)
      (he : (∀ e', e ≠ .parse e') ∧ ∀ l, e ≠ .group (.location l)) (hs : Silent log) :
      Conclusion v p (.ok s) log (.escaped (.analysis e))
  /-- The reports are published. -/
  | published (s : Settings) {text : String} {ds : List Diagnostic}
      {log : List (Effect TaskResult)} (r : Log.Record)
      (hl : v.latest.lookup p.uri = some p.token) (ht : v.surroundings.read p.uri = .ok text)
      (ha : (v.analysis p.uri text s).value = .ok ds) (hc : v.surroundings.sinkClosed = false)
      (hs : Silent log) :
      Conclusion v p (.ok s) (log ++ [.published p.token p.uri ds, .logged r]) (.published ds)
  /-- The reports are not taken. -/
  | refused (s : Settings) {text : String} {ds : List Diagnostic} {log : List (Effect TaskResult)}
      (hl : v.latest.lookup p.uri = some p.token) (ht : v.surroundings.read p.uri = .ok text)
      (ha : (v.analysis p.uri text s).value = .ok ds) (hc : v.surroundings.sinkClosed = true)
      (hs : Silent log) :
      Conclusion v p (.ok s) (log ++ [.refused p.token p.uri ds]) (.escaped .sinkClosed)

theorem silent_ofLog (log : List Log.Record) : Silent (Effect.ofLog log) := by
  intro e he
  obtain ⟨r, -, rfl⟩ := List.mem_map.1 he
  exact ⟨r, rfl⟩

theorem Silent.concat {effects : List (Effect TaskResult)} (h : Silent effects) (r : Log.Record) :
    Silent (effects ++ [.logged r]) := by
  intro e he
  rcases List.mem_append.1 he with he | he
  · exact h e he
  · exact ⟨r, List.mem_singleton.1 he⟩

/-- **The ways in which a pass ends.** -/
theorem conclude_cases (v : Validator) (p : Pass) (o : Outcome) :
    Conclusion v p o (v.conclude p o).2.1 (v.conclude p o).2.2 := by
  cases o with
  | error e => exact .failed e _
  | ok s =>
    simp only [conclude, SettingsCache.receive, proceed]
    by_cases hl : v.latest.lookup p.uri = some p.token
    · rw [if_neg (not_not.2 hl)]
      cases ht : v.surroundings.read p.uri with
      | error cause => exact .unreadable s _ hl ht
      | ok text =>
        simp only [report]
        cases ha : (v.analysis p.uri text s).value with
        | ok ds =>
          cases hc : v.surroundings.sinkClosed with
          | true => exact .refused s hl ht ha hc (silent_ofLog _)
          | false => exact .published s _ hl ht ha hc (silent_ofLog _)
        | error e =>
          have hlog := silent_ofLog (v.analysis p.uri text s).log
          cases e with
          | parse e' => exact .skipped s hl ht ha (.inl ⟨e', rfl⟩) (hlog.concat _)
          | group g =>
            cases g with
            | location l => exact .skipped s hl ht ha (.inr ⟨l, rfl⟩) (hlog.concat _)
            | empty => exact .escaped s hl ht ha (by simp) hlog
          | unknownChecks names => exact .escaped s hl ht ha (by simp) hlog
          | severity e' => exact .escaped s hl ht ha (by simp) hlog
    · rw [if_pos hl]
      exact .superseded s _ hl

/-- A pass begins, and may ask for settings. -/
theorem begin_effects (v : Validator) (uri : String) :
    (v.begin uri).2.2 = [.began (v.begun + 1) uri] ∨
      ∃ l, (v.begin uri).2.2 = [.began (v.begun + 1) uri, .asked l] := by
  unfold begin SettingsCache.request
  cases v.cache.kept? uri with
  | some l => exact .inl rfl
  | none => exact .inr ⟨_, rfl⟩

theorem conclude_fst (v : Validator) (p : Pass) (o : Outcome) :
    (v.conclude p o).1 = { v with cache := v.cache.receive p.lookup o } := by
  cases o <;> rfl

section Checks

variable {f f' : Focus} {v v' : Validator} {ms : List Moment}

theorem Move.checks_eq (hm : Move f v ms f' v') : v'.checks = v.checks := by
  cases hm with
  | cancel ht => obtain ⟨-, l₁, l₂, -, rfl⟩ := take?_eq_some ht; rfl
  | take ht ho => obtain ⟨-, l₁, l₂, -, rfl⟩ := take?_eq_some ht; rfl
  | conclude rest rest' ho hr => rw [conclude_fst]
  | _ => rfl

/-- The checks of a validator are chosen when it is made. -/
theorem Moves.checks_eq (hm : Moves f v ms f' v') : v'.checks = v.checks := by
  have hkeeps := hm.keeps (Q := fun _ w _ => w.checks = v.checks)
    (fun _ hm hw => hm.checks_eq.trans hw) [] rfl
  exact hkeeps

end Checks

end Validator

end CatalogLint
