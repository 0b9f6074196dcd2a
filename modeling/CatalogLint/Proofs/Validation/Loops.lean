import CatalogLint.Proofs.Settings.Lookups
import CatalogLint.Proofs.Validation.Escapes

/-!
# Going through documents

A task goes through documents one after the other, and what it does meanwhile is its own doing.

* `Leg`, `validateAll_leg`: how far a task comes with its documents in one go.
* `step_others`: **a task waits, and does not end, while others are at work.**
-/

namespace CatalogLint

/-- The document over which a pass begins. -/
def Effect.visit? {ρ : Type} : Effect ρ → Option String
  | .began _ uri => some uri
  | _ => none

/-- What escaped from a pass of the task, if that is how it ended. -/
def TaskResult.escape? : TaskResult → Option Escape
  | .pass (.escaped e) | .failed e => some e
  | _ => none

namespace Validator

/-- The documents over which passes begin, in order. -/
def visited (effects : List (Effect TaskResult)) : List String := effects.filterMap Effect.visit?

section Effects

variable {v : Validator} {task : Nat} {uri : String} {p : Pass} {o : Outcome}

@[simp]
theorem visited_append (l₁ l₂ : List (Effect TaskResult)) :
    visited (l₁ ++ l₂) = visited l₁ ++ visited l₂ := List.filterMap_append

section Finished

variable {effects : List (Effect TaskResult)} {r : TaskResult}

/-- No pass begins when a task ends. -/
theorem visited_concat_finished : visited (effects ++ [.finished task r]) = visited effects := by
  rw [visited_append]
  exact List.append_nil _

/-- A task ends, and it is the only one. -/
theorem endings_concat_finished (h : endings effects = []) :
    endings (effects ++ [.finished task r]) = [(task, r)] := by
  rw [endings_append, h]
  rfl

end Finished

@[simp]
theorem visited_begin : visited (v.begin uri).2.2 = [uri] := by
  rcases v.begin_effects uri with h | ⟨l, h⟩
  all_goals rw [h]; rfl

@[simp]
theorem endings_begin : endings (v.begin uri).2.2 = [] := by
  rcases v.begin_effects uri with h | ⟨l, h⟩
  all_goals rw [h]; rfl

theorem Silent.filterMap {α : Type} {effects : List (Effect TaskResult)} (hs : Silent effects)
    {f : Effect TaskResult → Option α} (hf : ∀ r, f (.logged r) = none) :
    effects.filterMap f = [] := by
  rw [List.filterMap_eq_nil_iff]
  intro e he
  obtain ⟨r, rfl⟩ := hs e he
  exact hf r

/-- In its end a pass begins nothing and ends no task. -/
theorem filterMap_conclude {α : Type} {f : Effect TaskResult → Option α}
    (hf : ∀ r, f (.logged r) = none) (hs : ∀ n u, f (.superseded n u) = none)
    (hp : ∀ n u ds, f (.published n u ds) = none) (hr : ∀ n u ds, f (.refused n u ds) = none) :
    (v.conclude p o).2.1.filterMap f = [] := by
  have hcases := conclude_cases v p o
  generalize (v.conclude p o).2.1 = effects, (v.conclude p o).2.2 = result at hcases
  cases hcases with
  | failed e r => simp [hf]
  | superseded s r hl => simp [hf, hs]
  | unreadable s r hl ht => simp [hf]
  | skipped s hl ht ha he hlog => exact hlog.filterMap hf
  | escaped s hl ht ha he hlog => exact hlog.filterMap hf
  | published s r hl ht ha hc hlog => simp [hlog.filterMap hf, hf, hp]
  | refused s hl ht ha hc hlog => simp [hlog.filterMap hf, hr]

@[simp]
theorem visited_conclude : visited (v.conclude p o).2.1 = [] :=
  filterMap_conclude (fun _ => rfl) (fun _ _ => rfl) (fun _ _ _ => rfl) fun _ _ _ => rfl

@[simp]
theorem endings_conclude : endings (v.conclude p o).2.1 = [] :=
  filterMap_conclude (fun _ => rfl) (fun _ _ => rfl) (fun _ _ _ => rfl) fun _ _ _ => rfl

end Effects

section Legs

variable {v w : Validator} {task : Nat} {uri : String} {p : Pass} {o : Outcome} {e : Escape}
  {t : Task} {todo rest : List String} {effects : List (Effect TaskResult)}

theorem validateAll_cons_none
    (ho : (v.begin uri).1.cache.outcome? (v.begin uri).2.1.lookup = none) :
    v.validateAll task (uri :: rest) =
      ({ (v.begin uri).1 with waiting := v.waiting ++ [⟨task, (v.begin uri).2.1, some rest⟩] },
        (v.begin uri).2.2) := by
  simp only [validateAll, ho]
  rfl

theorem validateAll_cons_escaped
    (ho : (v.begin uri).1.cache.outcome? (v.begin uri).2.1.lookup = some o)
    (he : ((v.begin uri).1.conclude (v.begin uri).2.1 o).2.2 = .escaped e) :
    v.validateAll task (uri :: rest) =
      (((v.begin uri).1.conclude (v.begin uri).2.1 o).1,
        (v.begin uri).2.2 ++ ((v.begin uri).1.conclude (v.begin uri).2.1 o).2.1 ++
          [.finished task (.failed e)]) := by
  simp only [validateAll, ho, he]

theorem validateAll_cons_caught
    (ho : (v.begin uri).1.cache.outcome? (v.begin uri).2.1.lookup = some o)
    (he : ∀ e, ((v.begin uri).1.conclude (v.begin uri).2.1 o).2.2 ≠ .escaped e) :
    v.validateAll task (uri :: rest) =
      ((((v.begin uri).1.conclude (v.begin uri).2.1 o).1.validateAll task rest).1,
        (v.begin uri).2.2 ++ ((v.begin uri).1.conclude (v.begin uri).2.1 o).2.1 ++
          (((v.begin uri).1.conclude (v.begin uri).2.1 o).1.validateAll task rest).2) := by
  simp only [validateAll, ho]

/-- How far a task comes with the documents that it has to go through, in one go from the
validator `v` to the validator `w`. -/
inductive Leg (task : Nat) (v : Validator) (todo : List String) (w : Validator)
    (effects : List (Effect TaskResult)) : Prop where
  /-- It has visited them all. -/
  | done (hv : visited effects = todo) (hr : endings effects = [(task, .done)])
      (hw : w.waiting = v.waiting)
  /-- It waits with one of them, and the rest wait with it. -/
  | waits {p : Pass} (before rest : List String) (hu : todo = before ++ p.uri :: rest)
      (hv : visited effects = before ++ [p.uri]) (hr : endings effects = [])
      (hw : w.waiting = v.waiting ++ [⟨task, p, some rest⟩])
  /-- Something escapes from the pass over one of them, and the rest are left out. -/
  | failed {p : Pass} {o : Outcome} {e : Escape} (before rest : List String)
      (hu : todo = before ++ p.uri :: rest) (hv : visited effects = before ++ [p.uri])
      (hr : endings effects = [(task, .failed e)]) (hw : w.waiting = v.waiting)
      (ho : w.cache.outcome? p.lookup = some o) (he : Uncaught w p o e)

/-- One more document before the others. -/
theorem Leg.cons {u : Validator} {more : List (Effect TaskResult)} (h : Leg task u rest w more)
    (hw : u.waiting = v.waiting) (hv : visited effects = [uri]) (hr : endings effects = []) :
    Leg task v (uri :: rest) w (effects ++ more) := by
  cases h with
  | done hv' hr' hw' => exact .done (by simp [hv, hv']) (by simp [hr, hr']) (hw ▸ hw')
  | waits before rest hu hv' hr' hw' =>
    exact .waits (uri :: before) rest (by simp [hu]) (by simp [hv, hv']) (by simp [hr, hr'])
      (hw ▸ hw')
  | failed before rest hu hv' hr' hw' ho he =>
    exact .failed (uri :: before) rest (by simp [hu]) (by simp [hv, hv']) (by simp [hr, hr'])
      (hw ▸ hw') ho he

/-- Conclusions change nothing that matters for what escapes. -/
theorem Uncaught.conclude (h : Uncaught v p o e) : Uncaught (v.conclude p o).1 p o e := by
  rw [conclude_fst]
  exact h.congr rfl rfl rfl

theorem outcome?_conclude (l : LookupId) :
    (v.conclude p o).1.cache.outcome? l = v.cache.outcome? l := by
  rw [conclude_fst]
  unfold SettingsCache.outcome?
  simp only [SettingsCache.lookups_receive]

theorem waiting_conclude : (v.conclude p o).1.waiting = v.waiting := by rw [conclude_fst]

theorem Undisturbed.conclude (hv : Undisturbed v) : Undisturbed (v.conclude p o).1 := by
  rw [conclude_fst]
  exact ⟨hv.checks, hv.fault⟩

/-- **A task goes through its documents up to one that it has to wait with, or from whose pass
something escapes.** -/
theorem validateAll_leg (task : Nat) (uris : List String) :
    ∀ {v : Validator}, Undisturbed v →
      Leg task v uris (v.validateAll task uris).1 (v.validateAll task uris).2 := by
  induction uris with
  | nil =>
    intro v hv
    exact .done rfl rfl rfl
  | cons uri rest ih =>
    intro v hv
    -- the pass over the first document waits, lets something escape, or ends and the rest follow
    have hb : Undisturbed (v.begin uri).1 := ⟨hv.checks, hv.fault⟩
    cases ho : (v.begin uri).1.cache.outcome? (v.begin uri).2.1.lookup with
    | none =>
      rw [validateAll_cons_none ho]
      exact .waits [] rest rfl visited_begin endings_begin rfl
    | some o =>
      by_cases he : ∃ e, ((v.begin uri).1.conclude (v.begin uri).2.1 o).2.2 = .escaped e
      · obtain ⟨e, he⟩ := he
        rw [validateAll_cons_escaped ho he]
        refine .failed (p := (v.begin uri).2.1) (o := o) (e := e) [] rest rfl ?_ ?_ ?_ ?_ ?_
        · rw [visited_concat_finished, visited_append, visited_begin, visited_conclude]
          rfl
        · exact endings_concat_finished (by simp)
        · exact waiting_conclude
        · rw [outcome?_conclude, ho]
        · exact (hb.uncaught_of_escaped he).conclude
      · rw [validateAll_cons_caught ho fun e h => he ⟨e, h⟩]
        exact (ih hb.conclude).cons waiting_conclude (by simp) (by simp)

theorem goOn_single (h : t.rest = none) :
    v.goOn t o = ((v.conclude t.pass o).1,
      (v.conclude t.pass o).2.1 ++ [.finished t.number (.pass (v.conclude t.pass o).2.2)]) := by
  simp only [goOn, h]

theorem goOn_escaped (h : t.rest = some rest) (he : (v.conclude t.pass o).2.2 = .escaped e) :
    v.goOn t o = ((v.conclude t.pass o).1,
      (v.conclude t.pass o).2.1 ++ [.finished t.number (.failed e)]) := by
  simp only [goOn, h, he]

theorem goOn_caught (h : t.rest = some rest)
    (he : ∀ e, (v.conclude t.pass o).2.2 ≠ .escaped e) :
    v.goOn t o = (((v.conclude t.pass o).1.validateAll t.number rest).1,
      (v.conclude t.pass o).2.1 ++ ((v.conclude t.pass o).1.validateAll t.number rest).2) := by
  simp only [goOn, h]

end Legs

section Tasks

variable {v v' w : Validator} {task n : Nat} {t : Task} {o : Outcome}
  {effects : List (Effect TaskResult)}

/-- The task with a number, if it waits. -/
def waitingOf (v : Validator) (task : Nat) : List Task := v.waiting.filter (·.number == task)

/-- The results that a task ends with. -/
def results (task : Nat) (effects : List (Effect TaskResult)) : List TaskResult :=
  ((endings effects).filter (·.1 == task)).map (·.2)

@[simp]
theorem results_append (l₁ l₂ : List (Effect TaskResult)) :
    results task (l₁ ++ l₂) = results task l₁ ++ results task l₂ := by simp [results]

theorem results_of_endings {r : TaskResult} (h : endings effects = [(task, r)]) :
    results task effects = [r] := by simp [results, h]

theorem results_of_endings_nil (h : endings effects = []) : results task effects = [] := by
  simp [results, h]

/-- What happens is the doing of one task, and whatever escapes from it is uncaught. -/
structure Only (task : Nat) (v w : Validator) (effects : List (Effect TaskResult)) : Prop where
  waiting : ∃ added, w.waiting = v.waiting ++ added ∧ ∀ t ∈ added, t.number = task
  tasks : ∀ x ∈ endings effects, x.1 = task
  escapes : ∀ x ∈ endings effects, ∀ e, x.2.escape? = some e →
    ∃ p o, w.cache.outcome? p.lookup = some o ∧ Uncaught w p o e

/-- Other tasks wait as before, and do not end. -/
theorem Only.others (h : Only n v w effects) (hn : n ≠ task) :
    w.waitingOf task = v.waitingOf task ∧ results task effects = [] := by
  obtain ⟨added, hw, hadded⟩ := h.waiting
  constructor
  · have hnone : added.filter (·.number == task) = [] := by
      rw [List.filter_eq_nil_iff]
      intro t ht
      simpa [hadded t ht] using hn
    rw [waitingOf, hw, List.filter_append, hnone, List.append_nil]
    rfl
  · have hnone : (endings effects).filter (·.1 == task) = [] := by
      rw [List.filter_eq_nil_iff]
      intro x hx
      simpa [h.tasks x hx] using hn
    rw [results, hnone]
    rfl

/-- A task that stops waiting, with one result. -/
theorem Only.of_ending {r : TaskResult} (hw : w.waiting = v.waiting)
    (hr : endings effects = [(task, r)])
    (he : ∀ e, r.escape? = some e → ∃ p o, w.cache.outcome? p.lookup = some o ∧ Uncaught w p o e) :
    Only task v w effects := by
  refine ⟨⟨[], by simp [hw], by simp⟩, by simp [hr], ?_⟩
  intro x hx e hxe
  rw [hr, List.mem_singleton] at hx
  subst hx
  exact he e hxe

theorem Leg.only {todo : List String} (h : Leg task v todo w effects) : Only task v w effects := by
  cases h with
  | done hv hr hw => exact .of_ending hw hr fun e he => by cases he
  | waits before rest hu hv hr hw => exact ⟨⟨_, hw, by simp⟩, by simp [hr], by simp [hr]⟩
  | failed before rest hu hv hr hw ho he =>
    refine .of_ending hw hr fun e' he' => ?_
    obtain rfl := Option.some.inj he'
    exact ⟨_, _, ho, he⟩

/-- What escapes from the end of a pass is uncaught in the validator that it leaves. -/
theorem Undisturbed.uncaught_conclude (hv : Undisturbed v) {p : Pass}
    (ho : v.cache.outcome? p.lookup = some o) {e : Escape}
    (he : (v.conclude p o).2.2 = .escaped e) :
    ∃ q o', (v.conclude p o).1.cache.outcome? q.lookup = some o' ∧
      Uncaught (v.conclude p o).1 q o' e :=
  ⟨p, o, by rw [outcome?_conclude, ho], (hv.uncaught_of_escaped he).conclude⟩

theorem escape?_pass {r : PassResult} {e : Escape} (h : (TaskResult.pass r).escape? = some e) :
    r = .escaped e := by
  cases r with
  | escaped e' => obtain rfl := Option.some.inj h; rfl
  | published ds => cases h
  | nothing => cases h

theorem validateOne_only (hv : Undisturbed v) (task : Nat) (uri : String) :
    Only task v (v.validateOne task uri).1 (v.validateOne task uri).2 := by
  have hb : Undisturbed (v.begin uri).1 := ⟨hv.checks, hv.fault⟩
  simp only [validateOne]
  cases ho : (v.begin uri).1.cache.outcome? (v.begin uri).2.1.lookup with
  | none => exact ⟨⟨_, rfl, by simp⟩, by simp, by simp⟩
  | some o =>
    refine .of_ending waiting_conclude (endings_concat_finished (by simp)) fun e he => ?_
    exact hb.uncaught_conclude ho (escape?_pass he)

theorem goOn_only (hv : Undisturbed v) (t : Task) (ho : v.cache.outcome? t.pass.lookup = some o) :
    Only t.number v (v.goOn t o).1 (v.goOn t o).2 := by
  cases hr : t.rest with
  | none =>
    rw [goOn_single hr]
    refine .of_ending waiting_conclude (endings_concat_finished (by simp)) fun e he => ?_
    exact hv.uncaught_conclude ho (escape?_pass he)
  | some rest =>
    by_cases he : ∃ e, (v.conclude t.pass o).2.2 = .escaped e
    · obtain ⟨e, he⟩ := he
      rw [goOn_escaped hr he]
      refine .of_ending waiting_conclude (endings_concat_finished (by simp)) fun e' he' => ?_
      obtain rfl := Option.some.inj he'
      exact hv.uncaught_conclude ho he
    · rw [goOn_caught hr fun e h => he ⟨e, h⟩]
      have hleg := (validateAll_leg t.number rest (hv.conclude (p := t.pass) (o := o))).only
      have hwaiting := hleg.waiting
      rw [waiting_conclude] at hwaiting
      exact ⟨hwaiting, by simpa using hleg.tasks, by simpa using hleg.escapes⟩

/-- Who takes a task leaves the others. -/
theorem waitingOf_take? (h : v.take? task = some (t, v')) (hn : n ≠ task) :
    v'.waitingOf n = v.waitingOf n := by
  obtain ⟨hnumber, l₁, l₂, hw, rfl⟩ := take?_eq_some h
  have ht : (t.number == n) = false := by simpa [hnumber] using hn.symm
  simp [waitingOf, hw, ht]

/-- A task that waits alone under its number is the one that is taken. -/
theorem take?_of_waitingOf (h : v.waitingOf task = [t]) :
    ∃ waiting, v.take? task = some (t, { v with waiting }) ∧
      waitingOf { v with waiting } task = [] := by
  have hfind : v.waiting.find? (·.number == task) = some t := by
    rw [← List.head?_filter]
    exact congrArg List.head? h
  have htake : v.take? task =
      some (t, { v with waiting := v.waiting.eraseP (·.number == task) }) := by
    simp only [take?, hfind]
  refine ⟨_, htake, ?_⟩
  obtain ⟨heq, l₁, l₂, hw, hv⟩ := take?_eq_some htake
  have hnumber : (t.number == task) = true := by simpa using heq
  rw [waitingOf, hw, List.filter_append, List.filter_cons, if_pos hnumber] at h
  -- nobody else has the number, before the task or after it
  have hlen := congrArg List.length h
  rw [hv]
  simp only [waitingOf, List.filter_append]
  simp only [List.length_append, List.length_cons, List.length_nil] at hlen
  rw [List.length_eq_zero_iff.1 (by omega : (l₁.filter (·.number == task)).length = 0),
    List.length_eq_zero_iff.1 (by omega : (l₂.filter (·.number == task)).length = 0)]
  rfl

theorem take?_eq_none (h : v.waitingOf task = []) : v.take? task = none := by
  have hfind : v.waiting.find? (·.number == task) = none := by
    rw [← List.head?_filter]
    exact congrArg List.head? h
  simp only [take?, hfind]

theorem step_resume (ht : v.take? task = some (t, v'))
    (ho : v.cache.outcome? t.pass.lookup = some o) : v.step (.resume task) = v'.goOn t o := by
  simp only [step, ht, ho]

theorem step_resume_none (ht : v.take? task = some (t, v'))
    (ho : v.cache.outcome? t.pass.lookup = none) : v.step (.resume task) = (v, []) := by
  simp only [step, ht, ho]

/-- The number of the task that an event starts. -/
def Event.starts? : Event → Option Nat
  | .validate task _ | .reconfigure task _ => some task
  | _ => none

theorem resume_only (hv : Undisturbed v) (ht : v.take? task = some (t, v'))
    (ho : v.cache.outcome? t.pass.lookup = some o) :
    Only task v' (v'.goOn t o).1 (v'.goOn t o).2 := by
  obtain ⟨hnumber, l₁, l₂, -, rfl⟩ := take?_eq_some ht
  have hv' : Undisturbed { v with waiting := l₁ ++ l₂ } := ⟨hv.checks, hv.fault⟩
  exact hnumber ▸ goOn_only hv' t ho

/-- **A task waits, and does not end, while others are at work.** -/
theorem step_others (hv : Undisturbed v) {e : Event} (hs : e.starts? ≠ some task)
    (hr : e ≠ .resume task) (hc : e ≠ .cancel task) :
    (v.step e).1.waitingOf task = v.waitingOf task ∧ results task (v.step e).2 = [] := by
  cases e with
  | validate n uri => exact (validateOne_only hv n uri).others (by simpa [Event.starts?] using hs)
  | reconfigure n uris =>
    have hclear : Undisturbed { v with cache := v.cache.clear } := ⟨hv.checks, hv.fault⟩
    exact (validateAll_leg n uris hclear).only.others (by simpa [Event.starts?] using hs)
  | resume n =>
    have hn : n ≠ task := by simpa using hr
    cases ht : v.take? n with
    | none =>
      have hstep : v.step (.resume n) = (v, []) := by simp only [step, ht]
      rw [hstep]
      exact ⟨rfl, rfl⟩
    | some x =>
      obtain ⟨t, v'⟩ := x
      cases ho : v.cache.outcome? t.pass.lookup with
      | none => rw [step_resume_none ht ho]; exact ⟨rfl, rfl⟩
      | some o =>
        rw [step_resume ht ho, ← waitingOf_take? ht hn.symm]
        exact (resume_only hv ht ho).others hn
  | cancel n =>
    have hn : n ≠ task := by simpa using hc
    cases ht : v.take? n with
    | none =>
      have hstep : v.step (.cancel n) = (v, []) := by simp only [step, ht]
      rw [hstep]
      exact ⟨rfl, rfl⟩
    | some x =>
      obtain ⟨t, v'⟩ := x
      simp only [step, ht]
      refine ⟨waitingOf_take? ht hn.symm, ?_⟩
      simp [results, endings, Effect.ending?, hn]
  | _ => exact ⟨rfl, rfl⟩

end Tasks

end Validator

end CatalogLint
