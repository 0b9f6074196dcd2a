import CatalogLint.Proofs.Validation.Loops

/-!
# How far a change of settings gets

When all settings change, a task visits all open documents, one after the other. Between two visits
it may wait for as long as it takes, while other tasks are at work.

* `visits`: the documents that a task has visited.
* `LoopStage`: how far it has come with those that it was given.
* `only_uncaught_escapes`: **a task visits all its documents unless it is given up or something
  escapes from one of its passes**, and exactly what is uncaught does.
-/

namespace CatalogLint.Validator

section Runs

variable {f f' : Focus} {v w w' : Validator} {ms : List Moment} {e : Event} {es : List Event}

/-- What a move changes of what an analysis depends on, it changes by an event. -/
theorem Move.around (hm : Move f w ms f' w') :
    (w'.surroundings.fault = w.surroundings.fault ∨ ∃ fault, ms = [.event (.disturb fault)]) ∧
    (w'.surroundings.sinkClosed = w.surroundings.sinkClosed ∨
      ms = [.event (.closeSink w'.surroundings.sinkClosed)]) ∧
    ∀ l o, w'.cache.outcome? l = some o →
      w.cache.outcome? l = some o ∨ ∃ id, ms = [.event (.complete id o)] := by
  cases hm with
  | closeSink w closed => exact ⟨.inl rfl, .inr rfl, fun _ _ => .inl⟩
  | disturb w fault => exact ⟨.inr ⟨fault, rfl⟩, .inl rfl, fun _ _ => .inl⟩
  | complete w id o' =>
    refine ⟨.inl rfl, .inl rfl, fun l o ho => ?_⟩
    rcases w.cache.eq_or_of_outcome?_complete ho with rfl | ho
    · exact .inr ⟨id, rfl⟩
    · exact .inl ho
  | cancel ht =>
    obtain ⟨-, l₁, l₂, -, rfl⟩ := take?_eq_some ht
    exact ⟨.inl rfl, .inl rfl, fun _ _ => .inl⟩
  | take ht ho =>
    obtain ⟨-, l₁, l₂, -, rfl⟩ := take?_eq_some ht
    exact ⟨.inl rfl, .inl rfl, fun _ _ => .inl⟩
  | begin w uri rest =>
    refine ⟨.inl rfl, .inl rfl, fun l o ho => .inl ?_⟩
    rw [← ho]
    exact (w.cache.outcome?_request uri l).symm
  | conclude rest rest' ho hr =>
    rw [conclude_fst]
    refine ⟨.inl rfl, .inl rfl, fun l o ho => .inl ?_⟩
    rwa [← outcome?_conclude, conclude_fst]
  | _ => exact ⟨.inl rfl, .inl rfl, fun _ _ => .inl⟩

theorem mem_of_mem_history (h : .event e ∈ v.history es) : e ∈ es := by
  rw [← events_history v es]
  exact List.mem_filterMap.2 ⟨_, h, rfl⟩

theorem Undisturbed.run (hv : Undisturbed v) (hes : ∀ fault, .disturb fault ∉ es) :
    Undisturbed (v.run es).1 := by
  have hkept : (∀ fault, .event (.disturb fault) ∉ v.history es) → Undisturbed (v.run es).1 := by
    refine (run_moves v es).keeps
      (Q := fun _ w h => (∀ fault, .event (.disturb fault) ∉ h) → Undisturbed w) ?_ [] fun _ => hv
    intro f f' w w' ms h hm hq hno
    have hw := hq fun fault hf => hno fault (List.mem_append_left _ hf)
    refine ⟨hm.checks_eq ▸ hw.checks, ?_⟩
    rcases hm.around.1 with hfault | ⟨fault, rfl⟩
    · exact hfault.trans hw.fault
    · exact absurd (List.mem_append_right _ (List.mem_singleton.2 rfl)) (hno fault)
  exact hkept fun fault hf => hes fault (mem_of_mem_history hf)

theorem Undisturbed.step (hv : Undisturbed v) (hes : ∀ fault, .disturb fault ∉ e :: es) :
    Undisturbed (v.step e).1 := by
  have hone : Undisturbed (v.run [e]).1 := by
    refine hv.run fun fault hf => ?_
    rw [List.mem_singleton] at hf
    exact hes fault (hf ▸ List.mem_cons_self)
  exact hone

/-- The outcome of a lookup is one that a lookup ended with. -/
theorem completed_of_outcome? (hv : ∀ l, v.cache.outcome? l = none) {l : LookupId} {o : Outcome}
    (ho : (v.run es).1.cache.outcome? l = some o) : ∃ id, .complete id o ∈ es := by
  have hkept : ∀ l o, (v.run es).1.cache.outcome? l = some o →
      ∃ id, .event (.complete id o) ∈ v.history es := by
    refine (run_moves v es).keeps (Q := fun _ w h => ∀ l o, w.cache.outcome? l = some o →
      ∃ id, .event (.complete id o) ∈ h) ?_ [] ?_
    · intro f f' w w' ms h hm hq l o ho
      rcases hm.around.2.2 l o ho with ho | ⟨id, rfl⟩
      · obtain ⟨id, hid⟩ := hq l o ho
        exact ⟨id, List.mem_append_left _ hid⟩
      · exact ⟨id, List.mem_append_right _ (List.mem_singleton.2 rfl)⟩
    · intro l o ho
      rw [hv l] at ho
      cases ho
  obtain ⟨id, hid⟩ := hkept l o ho
  exact ⟨id, mem_of_mem_history hid⟩

/-- A sink that is closed was closed in the beginning, or later. -/
theorem closed_of_sinkClosed (hc : (v.run es).1.surroundings.sinkClosed = true) :
    v.surroundings.sinkClosed = true ∨ .closeSink true ∈ es := by
  have hkept : (v.run es).1.surroundings.sinkClosed = true →
      v.surroundings.sinkClosed = true ∨ .event (.closeSink true) ∈ v.history es := by
    refine (run_moves v es).keeps (Q := fun _ w h => w.surroundings.sinkClosed = true →
      v.surroundings.sinkClosed = true ∨ .event (.closeSink true) ∈ h) ?_ [] .inl
    intro f f' w w' ms h hm hq hc
    rcases hm.around.2.1 with hsame | hms
    · exact (hq (hsame ▸ hc)).imp_right (List.mem_append_left _)
    · rw [hc] at hms
      exact .inr (List.mem_append_right _ (hms ▸ List.mem_singleton.2 rfl))
  exact (hkept hc).imp_right mem_of_mem_history

end Runs

/-- An event in which a task is at work. -/
def Event.drives (task : Nat) : Event → Bool
  | .validate n _ | .reconfigure n _ | .resume n => n == task
  | _ => false

/-- The documents that a task visits in a run, in order. -/
def visits (v : Validator) (task : Nat) : List Event → List String
  | [] => []
  | e :: es => (if e.drives task then visited (v.step e).2 else []) ++ (v.step e).1.visits task es

/-- How far a task has come in a run with the documents that it was given, of which it has visited
some. -/
inductive LoopStage (task : Nat) (v : Validator) (es : List Event) (uris visited : List String) :
    Prop where
  /-- It waits with the document that it visited last, and the rest wait with it. -/
  | waits {p : Pass} (before rest : List String) (hu : uris = before ++ p.uri :: rest)
      (hv : visited = before ++ [p.uri]) (hr : results task (v.run es).2 = [])
      (hw : ⟨task, p, some rest⟩ ∈ (v.run es).1.waiting)
  /-- It has visited them all, and is done. -/
  | done (hv : visited = uris) (hr : results task (v.run es).2 = [.done])
  /-- It was given up. -/
  | cancelled (rest : List String) (hu : uris = visited ++ rest)
      (hr : results task (v.run es).2 = [.cancelled])
  /-- At some point, something escaped from the pass over the document that it visited last. -/
  | failed {p : Pass} {o : Outcome} {e : Escape} (past future : List Event)
      (before rest : List String) (hu : uris = before ++ p.uri :: rest)
      (hv : visited = before ++ [p.uri]) (hr : results task (v.run es).2 = [.failed e])
      (hes : es = past ++ future) (ho : (v.run past).1.cache.outcome? p.lookup = some o)
      (he : Uncaught (v.run past).1 p o e)

/-- Nothing makes an analysis fail, and no other task gets the number. -/
def Ordinary (task : Nat) (es : List Event) : Prop :=
  (∀ fault, .disturb fault ∉ es) ∧ ∀ e ∈ es, e.starts? ≠ some task

section Stages

variable {v u : Validator} {task : Nat} {es : List Event} {uris seen : List String} {e : Event}

theorem Ordinary.tail (h : Ordinary task (e :: es)) : Ordinary task es :=
  ⟨fun fault hf => h.1 fault (List.mem_cons_of_mem _ hf),
    fun x hx => h.2 x (List.mem_cons_of_mem _ hx)⟩

theorem Ordinary.drives (h : Ordinary task (e :: es)) (hr : e ≠ .resume task) :
    e.drives task = false := by
  have hs := h.2 e List.mem_cons_self
  cases e with
  | validate n uri => simpa [Event.drives, Event.starts?] using hs
  | reconfigure n uris => simpa [Event.drives, Event.starts?] using hs
  | resume n => simpa [Event.drives] using hr
  | _ => rfl

theorem visits_cons_of_drives (h : e.drives task = true) :
    v.visits task (e :: es) = visited (v.step e).2 ++ (v.step e).1.visits task es := by
  rw [visits, if_pos h]

theorem visits_cons_of_not_drives (h : e.drives task = false) :
    v.visits task (e :: es) = (v.step e).1.visits task es := by
  rw [visits, h]
  rfl

theorem results_run_cons : results task (v.run (e :: es)).2 =
    results task (v.step e).2 ++ results task ((v.step e).1.run es).2 := by
  rw [run_cons, results_append]

/-- **A task that does not wait does nothing.** -/
theorem idle_run (h : v.waitingOf task = []) (hv : Undisturbed v) (hes : Ordinary task es) :
    v.visits task es = [] ∧ results task (v.run es).2 = [] ∧ (v.run es).1.waitingOf task = [] := by
  induction es generalizing v with
  | nil => exact ⟨rfl, rfl, h⟩
  | cons e es ih =>
    -- there is nothing to go on with or to give up, and others do not concern the task
    have htake := take?_eq_none h
    have hstep : (v.step e).1.waitingOf task = [] ∧ results task (v.step e).2 = [] ∧
        (e.drives task = true → visited (v.step e).2 = []) := by
      by_cases hr : e = .resume task
      · have hstep : v.step e = (v, []) := by simp only [hr, Validator.step, htake]
        rw [hstep]
        exact ⟨h, rfl, fun _ => rfl⟩
      · have hd := hes.drives hr
        by_cases hc : e = .cancel task
        · have hstep : v.step e = (v, []) := by simp only [hc, Validator.step, htake]
          rw [hstep]
          exact ⟨h, rfl, fun _ => rfl⟩
        · obtain ⟨hw, hn⟩ := step_others hv (hes.2 e List.mem_cons_self) hr hc
          exact ⟨hw.trans h, hn, fun hd' => by rw [hd] at hd'; cases hd'⟩
    obtain ⟨hw, hn, hvis⟩ := hstep
    obtain ⟨hvisits, hresults, hwaits⟩ := ih hw (hv.step hes.1) hes.tail
    refine ⟨?_, by rw [results_run_cons, hn, hresults]; rfl, hwaits⟩
    rw [visits, hvisits]
    split
    · rw [hvis ‹_›]
      rfl
    · rfl

/-- A stage reached after an event in which the task does not end. -/
theorem LoopStage.after (h : LoopStage task (v.step e).1 es uris seen)
    (hn : results task (v.step e).2 = []) : LoopStage task v (e :: es) uris seen := by
  have hresults : results task (v.run (e :: es)).2 = results task ((v.step e).1.run es).2 := by
    rw [results_run_cons, hn, List.nil_append]
  cases h with
  | waits before rest hu hv hr hw => exact .waits before rest hu hv (hresults.trans hr) hw
  | done hv hr => exact .done hv (hresults.trans hr)
  | cancelled rest hu hr => exact .cancelled rest hu (hresults.trans hr)
  | failed past future before rest hu hv hr hes ho he =>
    have hes' : e :: es = (e :: past) ++ future := by rw [hes]; rfl
    exact .failed (e :: past) future before rest hu hv (hresults.trans hr) hes' ho he

/-- A stage of a task that has visited some documents before. -/
theorem LoopStage.append (h : LoopStage task v es uris seen) (pre : List String) :
    LoopStage task v es (pre ++ uris) (pre ++ seen) := by
  cases h with
  | waits before rest hu hv hr hw =>
    exact .waits (pre ++ before) rest (by simp [hu]) (by simp [hv]) hr hw
  | done hv hr => exact .done (by rw [hv]) hr
  | cancelled rest hu hr => exact .cancelled rest (by simp [hu]) hr
  | failed past future before rest hu hv hr hes ho he =>
    exact .failed past future (pre ++ before) rest (by simp [hu]) (by simp [hv]) hr hes ho he

/-- A stage from an event that takes the task one leg further. -/
theorem Leg.stage (hl : Leg task u uris (v.step e).1 (v.step e).2) (hu : u.waitingOf task = [])
    (hd : e.drives task = true) (hv : Undisturbed (v.step e).1) (hes : Ordinary task es)
    (hrest : ∀ p rest, (v.step e).1.waitingOf task = [⟨task, p, some rest⟩] →
      LoopStage task (v.step e).1 es (p.uri :: rest) (p.uri :: (v.step e).1.visits task es)) :
    LoopStage task v (e :: es) uris (v.visits task (e :: es)) := by
  rw [visits_cons_of_drives hd]
  -- unless it waits, the task is idle in what follows
  have hidle : (v.step e).1.waiting = u.waiting → (v.step e).1.visits task es = [] ∧
      results task ((v.step e).1.run es).2 = [] := by
    intro hw
    have hnone : (v.step e).1.waitingOf task = [] := by rw [waitingOf, hw]; exact hu
    obtain ⟨hvisits, hresults, -⟩ := idle_run hnone hv hes
    exact ⟨hvisits, hresults⟩
  cases hl with
  | done hvis hr hw =>
    obtain ⟨hvisits, hresults⟩ := hidle hw
    refine .done (by rw [hvisits, hvis, List.append_nil]) ?_
    rw [results_run_cons, hresults, results_of_endings hr]
    rfl
  | @waits p before rest hu' hvis hr hw =>
    have hone : (v.step e).1.waitingOf task = [⟨task, p, some rest⟩] := by
      rw [waitingOf, hw, List.filter_append, List.filter_cons, if_pos (by simp)]
      simpa [waitingOf] using hu
    rw [hu', hvis, List.append_assoc]
    exact ((hrest p rest hone).append before).after (results_of_endings_nil hr)
  | @failed p o x before rest hu' hvis hr hw ho he =>
    obtain ⟨hvisits, hresults⟩ := hidle hw
    refine .failed [e] es before rest hu' (by rw [hvisits, hvis, List.append_nil]) ?_ rfl ho he
    rw [results_run_cons, hresults, results_of_endings hr]
    rfl

/-- What comes before a leg, if it begins nothing and ends no task. -/
theorem Leg.precede {w : Validator} {effects more : List (Effect TaskResult)}
    (h : Leg task v uris w more) (hv : visited effects = []) (hr : endings effects = []) :
    Leg task v uris w (effects ++ more) := by
  cases h with
  | done hv' hr' hw => exact .done (by simp [hv, hv']) (by simp [hr, hr']) hw
  | waits before rest hu hv' hr' hw =>
    exact .waits before rest hu (by simp [hv, hv']) (by simp [hr, hr']) hw
  | failed before rest hu hv' hr' hw ho he =>
    exact .failed before rest hu (by simp [hv, hv']) (by simp [hr, hr']) hw ho he

theorem waitingOf_conclude {p : Pass} {o : Outcome} :
    (v.conclude p o).1.waitingOf task = v.waitingOf task := by
  rw [waitingOf, waiting_conclude]
  rfl

/-- A task that waits goes on with the outcome of its lookup. -/
theorem resume_stage {p : Pass} {rest : List String} {o : Outcome}
    (h : v.waitingOf task = [⟨task, p, some rest⟩]) (ho : v.cache.outcome? p.lookup = some o)
    (hv : Undisturbed v) (hes : Ordinary task (.resume task :: es))
    (hrest : ∀ p rest, (v.step (.resume task)).1.waitingOf task = [⟨task, p, some rest⟩] →
      LoopStage task (v.step (.resume task)).1 es (p.uri :: rest)
        (p.uri :: (v.step (.resume task)).1.visits task es)) :
    LoopStage task v (.resume task :: es) (p.uri :: rest)
      (p.uri :: v.visits task (.resume task :: es)) := by
  have hd : Event.drives task (.resume task) = true := by simp [Event.drives]
  have hafter := hv.step hes.1
  obtain ⟨waiting, htake, hnone⟩ := take?_of_waitingOf h
  have hv' : Undisturbed { v with waiting } := ⟨hv.checks, hv.fault⟩
  have hidle : (conclude { v with waiting } p o).1.waitingOf task = [] := by
    rw [waitingOf_conclude, hnone]
  have hstep := step_resume htake ho
  by_cases he : ∃ x, (conclude { v with waiting } p o).2.2 = .escaped x
  · obtain ⟨x, he⟩ := he
    rw [goOn_escaped rfl he] at hstep
    obtain ⟨hvisits, hresults, -⟩ := idle_run (by rw [hstep]; exact hidle) hafter hes.tail
    refine .failed (o := o) (e := x) [.resume task] es [] rest rfl ?_ ?_ rfl ?_ ?_
    · rw [visits_cons_of_drives hd, hvisits, hstep, visited_concat_finished, visited_conclude]
      rfl
    · rw [results_run_cons, hresults, hstep,
        results_of_endings (endings_concat_finished endings_conclude)]
      rfl
    · show (v.step (.resume task)).1.cache.outcome? p.lookup = some o
      rw [hstep, outcome?_conclude]
      exact ho
    · show Uncaught (v.step (.resume task)).1 p o x
      rw [hstep]
      exact (hv'.uncaught_of_escaped he).conclude
  · rw [goOn_caught rfl fun x hx => he ⟨x, hx⟩] at hstep
    have hleg : Leg task (conclude { v with waiting } p o).1 rest
        (v.step (.resume task)).1 (v.step (.resume task)).2 := by
      rw [hstep]
      exact (validateAll_leg task rest hv'.conclude).precede visited_conclude endings_conclude
    exact (hleg.stage hidle hd hafter hes.tail hrest).append [p.uri]

/-- A task that waits is given up. -/
theorem cancel_stage {p : Pass} {rest : List String}
    (h : v.waitingOf task = [⟨task, p, some rest⟩]) (hv : Undisturbed v)
    (hes : Ordinary task (.cancel task :: es)) :
    LoopStage task v (.cancel task :: es) (p.uri :: rest)
      (p.uri :: v.visits task (.cancel task :: es)) := by
  obtain ⟨waiting, htake, hnone⟩ := take?_of_waitingOf h
  have hstep : v.step (.cancel task) = ({ v with waiting }, [.finished task .cancelled]) := by
    simp only [step, htake]
  have hidle : (v.step (.cancel task)).1.waitingOf task = [] := by rw [hstep, hnone]
  obtain ⟨hvisits, hresults, -⟩ := idle_run hidle (hv.step hes.1) hes.tail
  rw [visits_cons_of_not_drives rfl, hvisits]
  refine .cancelled rest rfl ?_
  have hends : endings [.finished task .cancelled] = [(task, .cancelled)] := rfl
  rw [results_run_cons, hresults, hstep, results_of_endings hends]
  rfl

/-- **A task that waits comes to a stage**, whatever happens. -/
theorem waiting_stage {p : Pass} {rest : List String}
    (h : v.waitingOf task = [⟨task, p, some rest⟩]) (hv : Undisturbed v) (hes : Ordinary task es) :
    LoopStage task v es (p.uri :: rest) (p.uri :: v.visits task es) := by
  induction es generalizing v p rest with
  | nil =>
    have hmem : ⟨task, p, some rest⟩ ∈ v.waitingOf task := h ▸ List.mem_singleton.2 rfl
    exact .waits [] rest rfl rfl rfl (List.mem_of_mem_filter hmem)
  | cons e es ih =>
    have hafter := hv.step hes.1
    by_cases hr : e = .resume task
    · subst hr
      cases ho : v.cache.outcome? p.lookup with
      | none =>
        -- the lookup is still under way, and the task waits on
        obtain ⟨waiting, htake, -⟩ := take?_of_waitingOf h
        have hstep := step_resume_none htake ho
        have hseen : v.visits task (.resume task :: es) = v.visits task es := by
          rw [visits_cons_of_drives (by simp [Event.drives]), hstep]
          rfl
        have hstage : LoopStage task (v.step (.resume task)).1 es (p.uri :: rest)
            (p.uri :: v.visits task es) := by
          rw [hstep]
          exact ih h hv hes.tail
        rw [hseen]
        exact hstage.after (by rw [hstep]; rfl)
      | some o => exact resume_stage h ho hv hes fun p rest h => ih h hafter hes.tail
    · by_cases hc : e = .cancel task
      · subst hc
        exact cancel_stage h hv hes
      · obtain ⟨hw, hn⟩ := step_others hv (hes.2 e List.mem_cons_self) hr hc
        rw [visits_cons_of_not_drives (hes.drives hr)]
        exact (ih (hw.trans h) hafter hes.tail).after hn

end Stages

section Escapes

variable {v : Validator} {es : List Event}

/-- What escapes in an event is uncaught in the validator that the event leaves. -/
theorem step_escapes (hv : Undisturbed v) (e : Event) {x : Nat × TaskResult}
    (hx : x ∈ endings (v.step e).2) {y : Escape} (hy : x.2.escape? = some y) :
    ∃ p o, (v.step e).1.cache.outcome? p.lookup = some o ∧ Uncaught (v.step e).1 p o y := by
  cases e with
  | validate n uri => exact (validateOne_only hv n uri).escapes x hx y hy
  | reconfigure n uris =>
    have hclear : Undisturbed { v with cache := v.cache.clear } := ⟨hv.checks, hv.fault⟩
    exact (validateAll_leg n uris hclear).only.escapes x hx y hy
  | resume n =>
    cases ht : v.take? n with
    | none =>
      simp only [step, ht] at hx
      cases hx
    | some z =>
      obtain ⟨t, v'⟩ := z
      cases ho : v.cache.outcome? t.pass.lookup with
      | none =>
        rw [step_resume_none ht ho] at hx
        cases hx
      | some o =>
        rw [step_resume ht ho] at hx ⊢
        exact (resume_only hv ht ho).escapes x hx y hy
  | cancel n =>
    simp only [step] at hx
    split at hx
    · obtain rfl := List.mem_singleton.1 hx
      cases hy
    · cases hx
  | _ => cases hx

/-- **What escapes in a run is uncaught at some point of it.** -/
theorem run_escapes (hv : Undisturbed v) (hes : ∀ fault, .disturb fault ∉ es) {x : Nat × TaskResult}
    (hx : x ∈ endings (v.run es).2) {y : Escape} (hy : x.2.escape? = some y) :
    ∃ past future p o, es = past ++ future ∧ (v.run past).1.cache.outcome? p.lookup = some o ∧
      Uncaught (v.run past).1 p o y := by
  induction es generalizing v with
  | nil => cases hx
  | cons e es ih =>
    rw [run_cons, endings_append] at hx
    rcases List.mem_append.1 hx with hx | hx
    · obtain ⟨p, o, ho, hp⟩ := step_escapes hv e hx hy
      exact ⟨[e], es, p, o, rfl, ho, hp⟩
    · have hv' := hv.step hes
      obtain ⟨past, future, p, o, rfl, ho, hp⟩ :=
        ih hv' (fun fault hf => hes fault (List.mem_cons_of_mem _ hf)) hx
      exact ⟨e :: past, future, p, o, rfl, ho, hp⟩

/-- From the passes of a validator escapes exactly what is uncaught, and with it their tasks end. -/
structure LetsEscape (v : Validator) : Prop where
  /-- A single pass that goes on ends. -/
  resumed : ∀ task t v' o, v.take? task = some (t, v') → v.cache.outcome? t.pass.lookup = some o →
    t.rest = none → ∃ r, endings (v.step (.resume task)).2 = [(task, .pass r)] ∧
      ∀ e, r = .escaped e ↔ Uncaught v t.pass o e
  /-- A single pass that does not have to wait ends at once. -/
  validated : ∀ task uri o, (v.begin uri).1.cache.outcome? (v.begin uri).2.1.lookup = some o →
    ∃ r, endings (v.step (.validate task uri)).2 = [(task, .pass r)] ∧
      ∀ e, r = .escaped e ↔ Uncaught (v.begin uri).1 (v.begin uri).2.1 o e
  /-- If something escapes from a pass that goes on, no more documents are visited. -/
  cutOff : ∀ task t v' o rest e, v.take? task = some (t, v') →
    v.cache.outcome? t.pass.lookup = some o → t.rest = some rest → Uncaught v t.pass o e →
    endings (v.step (.resume task)).2 = [(task, .failed e)] ∧
      visited (v.step (.resume task)).2 = []
  /-- So it is with a pass that does not have to wait. -/
  cutOffAtOnce : ∀ task uri rest o e,
    (v.begin uri).1.cache.outcome? (v.begin uri).2.1.lookup = some o →
    Uncaught (v.begin uri).1 (v.begin uri).2.1 o e →
    endings (v.validateAll task (uri :: rest)).2 = [(task, .failed e)] ∧
      visited (v.validateAll task (uri :: rest)).2 = [uri]

/-- Who takes a task changes nothing that matters for what escapes. -/
theorem undisturbed_take? {task : Nat} {t : Task} {v' : Validator} (hv : Undisturbed v)
    (ht : v.take? task = some (t, v')) :
    Undisturbed v' ∧ ∀ p o e, Uncaught v' p o e ↔ Uncaught v p o e := by
  obtain ⟨-, l₁, l₂, -, rfl⟩ := take?_eq_some ht
  refine ⟨⟨hv.checks, hv.fault⟩, fun p o e => ⟨fun h => ?_, fun h => ?_⟩⟩
  · exact h.congr rfl rfl rfl
  · exact h.congr rfl rfl rfl

theorem Undisturbed.letsEscape (hv : Undisturbed v) : LetsEscape v := by
  have hb : ∀ uri, Undisturbed (v.begin uri).1 := fun uri => ⟨hv.checks, hv.fault⟩
  refine ⟨?_, ?_, ?_, ?_⟩
  · intro task t v' o ht ho hrest
    obtain ⟨hv', huncaught⟩ := undisturbed_take? hv ht
    refine ⟨(v'.conclude t.pass o).2.2, ?_, fun e => ?_⟩
    · rw [step_resume ht ho, goOn_single hrest, (take?_eq_some ht).1]
      exact endings_concat_finished endings_conclude
    · rw [hv'.conclude_eq_escaped_iff, huncaught]
  · intro task uri o ho
    refine ⟨((v.begin uri).1.conclude (v.begin uri).2.1 o).2.2, ?_, fun e => ?_⟩
    · simp only [Validator.step, validateOne, ho]
      exact endings_concat_finished (by simp)
    · exact (hb uri).conclude_eq_escaped_iff
  · intro task t v' o rest e ht ho hrest he
    obtain ⟨hv', huncaught⟩ := undisturbed_take? hv ht
    have hescaped := hv'.escaped_of_uncaught ((huncaught _ _ _).2 he)
    rw [step_resume ht ho, goOn_escaped hrest hescaped, (take?_eq_some ht).1]
    refine ⟨endings_concat_finished endings_conclude, ?_⟩
    rw [visited_concat_finished, visited_conclude]
  · intro task uri rest o e ho he
    rw [validateAll_cons_escaped ho ((hb uri).escaped_of_uncaught he)]
    refine ⟨endings_concat_finished (by simp), ?_⟩
    rw [visited_concat_finished, visited_append, visited_begin, visited_conclude]
    rfl

end Escapes

/-- **Only what is uncaught escapes, and it cuts off the documents to come.** Settings that cannot
be had, texts that cannot be read and texts that are no catalogs never escape from a pass. What
escapes is that the sink takes no reports, or that the settings name no severity. When all settings
change, the task visits the documents in order and each once, until it waits, has visited them all,
is given up, or something escapes from a pass of its own. -/
theorem only_uncaught_escapes {checks : Option (List String)} {v : Validator}
    (hv : create checks = .ok v) {surroundings : Surroundings} (hf : surroundings.fault = none)
    {es : List Event} (hes : ∀ fault, .disturb fault ∉ es) :
    (∀ w : Validator, w.checks = checks → w.surroundings.fault = none → LetsEscape w) ∧
    (∀ past task uris future, es = past ++ .reconfigure task uris :: future →
      (∀ e ∈ past ++ future, e.starts? ≠ some task) →
      LoopStage task (run { v with surroundings } past).1 (.reconfigure task uris :: future) uris
        ((run { v with surroundings } past).1.visits task (.reconfigure task uris :: future))) ∧
    ∀ x ∈ endings (run { v with surroundings } es).2, ∀ e, x.2.escape? = some e →
      (e = .sinkClosed ∧ (surroundings.sinkClosed = true ∨ .closeSink true ∈ es)) ∨
        ∃ id s unknown, e = .analysis (.severity unknown) ∧ .complete id (.ok s) ∈ es ∧
          s.level = .error unknown := by
  obtain ⟨rfl, hstart⟩ := undisturbed_create hv hf
  refine ⟨?_, ?_, ?_⟩
  · intro w hc hw
    exact Undisturbed.letsEscape ⟨hc ▸ hstart.checks, hw⟩
  · rintro past task uris future rfl hfresh
    have hpast : Ordinary task past :=
      ⟨fun fault h => hes fault (List.mem_append_left _ h),
        fun e he => hfresh e (List.mem_append_left _ he)⟩
    have hfuture : Ordinary task future :=
      ⟨fun fault h => hes fault (List.mem_append_right _ (List.mem_cons_of_mem _ h)),
        fun e he => hfresh e (List.mem_append_right _ he)⟩
    have hw := hstart.run hpast.1
    generalize hrun : (run { checks, surroundings } past).1 = w at hw ⊢
    -- nobody waits under a number that no task had yet
    have hidle : w.waitingOf task = [] := hrun ▸ (idle_run rfl hstart hpast).2.2
    have hclear : Undisturbed { w with cache := w.cache.clear } := ⟨hw.checks, hw.fault⟩
    have hleg : Leg task { w with cache := w.cache.clear } uris
        (w.step (.reconfigure task uris)).1 (w.step (.reconfigure task uris)).2 :=
      validateAll_leg task uris hclear
    have hafter : Undisturbed (w.run [.reconfigure task uris]).1 := hw.run (by simp)
    exact hleg.stage hidle (by simp [Event.drives]) hafter hfuture
      fun p rest h => waiting_stage h hafter hfuture
  · intro x hx e he
    obtain ⟨past, future, p, o, rfl, ho, hp⟩ := run_escapes hstart hes hx he
    cases hp with
    | severity hl ht hparse hne hs =>
      obtain ⟨id, hid⟩ := completed_of_outcome? (fun l => rfl) ho
      exact .inr ⟨id, _, _, rfl, List.mem_append_left _ hid, hs⟩
    | refused hl ht hparse hs hc =>
      refine .inl ⟨rfl, ?_⟩
      exact (closed_of_sinkClosed hc).imp_right (List.mem_append_left _)

/-- "c" has a text that is no catalog, and "a" and "b" have none. -/
def poorTexts : List Event := [.edit "c" (some "msgid"), .edit "d" (some "")]

/-- The settings of "a" cannot be had, and those of "b", "c" and "d" can. -/
def poorAnswers : List Event :=
  [.complete ⟨"a", 0⟩ (.error .singleValue), .resume 1, .complete ⟨"b", 0⟩ (.ok {}), .resume 1,
    .complete ⟨"c", 0⟩ (.ok {}), .resume 1, .complete ⟨"d", 0⟩ (.ok {}), .resume 1]

/-- Lookups that fail and texts that are missing or are no catalogs keep nothing from being
visited. -/
theorem only_uncaught_escapes_poor :
    let es := poorTexts ++ .reconfigure 1 ["a", "b", "c", "d"] :: poorAnswers
    create none = .ok {} ∧ (∀ fault, .disturb fault ∉ es) ∧
      (∀ e ∈ poorTexts ++ poorAnswers, e.starts? ≠ some 1) ∧
      LoopStage 1 (run {} poorTexts).1 (.reconfigure 1 ["a", "b", "c", "d"] :: poorAnswers)
        ["a", "b", "c", "d"] ["a", "b", "c", "d"] ∧
      ∀ x ∈ endings (run {} es).2, x.2.escape? = none := by
  intro es
  have hv : create none = .ok {} := by
    have hk : knownChecks ((none : Option (List String)).getD []) = .ok () := by decide +kernel
    unfold create
    rw [hk]
    rfl
  have hf : ({} : Surroundings).fault = none := rfl
  have hes : ∀ fault, .disturb fault ∉ es := by simp [es, poorTexts, poorAnswers]
  have hfresh : ∀ e ∈ poorTexts ++ poorAnswers, e.starts? ≠ some 1 := by decide
  have hvisits : (run {} poorTexts).1.visits 1
      (.reconfigure 1 ["a", "b", "c", "d"] :: poorAnswers) = ["a", "b", "c", "d"] := by
    decide +kernel
  have hloop := (only_uncaught_escapes hv hf hes).2.1 _ _ _ _ rfl hfresh
  rw [hvisits] at hloop
  exact ⟨hv, hes, hfresh, hloop, by decide +kernel⟩

/-- With a sink that takes no reports, the second of two documents is not visited. -/
theorem closed_sink_cuts_off :
    let w := (run {} [.edit "a" (some "msgid \"k\"\nmsgstr \"\"\nmsgid \"k\"\nmsgstr \"\"\n"),
      .edit "b" (some "msgid \"k\"\nmsgstr \"\"\nmsgid \"k\"\nmsgstr \"\"\n"), .closeSink true]).1
    let es := [.reconfigure 4 ["a", "b"], .complete ⟨"a", 0⟩ (.ok {}), .resume 4]
    w.visits 4 es = ["a"] ∧ (w.run es).1.waiting = [] ∧
      (results 4 (w.run es).2).map TaskResult.escape? = [some .sinkClosed] := by
  decide +kernel

end CatalogLint.Validator
