import CatalogLint.Proofs.Settings.Lookups
import CatalogLint.Proofs.Validation.Newest

/-!
# Tasks can be driven on

A task that waits goes on once its lookup has ended, and nothing escapes from a pass whose document
has been closed. So a task that goes through documents can be driven on to any of them, by events
of which none asks for a validation.

* `Event.asksFor`: the events that ask for a validation of a document.
* `LookupsOK`: **every pass under way waits for a lookup that has been made.**
* `visit_next`: a task is driven on by one document.
* `exists_visit`: **a task can be driven on to any document that it has yet to come to.**
-/

namespace CatalogLint.Validator

/-- Whether an event asks for a validation of `u`. -/
def Event.asksFor (u : String) : Event → Bool
  | .validate _ uri => uri == u
  | .reconfigure _ uris => uris.contains u
  | _ => false

/-- Every pass under way waits for a lookup that has been made. -/
structure LookupsOK (f : Focus) (v : Validator) : Prop where
  cache : v.cache.Sound
  made : ∀ p ∈ underWay f v, p.lookup ∈ v.cache.ids

section Keeping

variable {f f' : Focus} {v v' : Validator} {ms : List Moment}

/-- It depends only on the lookups made and the passes under way, of which there may be fewer. -/
theorem LookupsOK.shift (hk : LookupsOK f v) (hids : v'.cache.ids = v.cache.ids)
    (hkept : ∀ u l, v'.cache.kept? u = some l → v.cache.kept? u = some l)
    (hu : ∀ p ∈ underWay f' v', p ∈ underWay f v) : LookupsOK f' v' :=
  ⟨hk.cache.of_ids hids hkept, fun p hp => hids ▸ hk.made p (hu p hp)⟩

/-- **Every move keeps it.** -/
theorem LookupsOK.move (hm : Move f v ms f' v') (hk : LookupsOK f v) : LookupsOK f' v' := by
  cases hm with
  | call v task w => exact hk.shift rfl (fun _ _ => id) fun p => id
  | reconfigure v task ws => exact hk.shift rfl (fun _ _ h => by simp at h) fun p => id
  | close v w =>
    refine hk.shift rfl (fun u l h => ?_) fun p => id
    rw [SettingsCache.kept?_evict] at h
    split at h
    · cases h
    · exact h
  | edit v w text => exact hk.shift rfl (fun _ _ => id) fun p => id
  | closeSink v closed => exact hk.shift rfl (fun _ _ => id) fun p => id
  | disturb v fault => exact hk.shift rfl (fun _ _ => id) fun p => id
  | complete v l o => exact hk.shift (v.cache.ids_complete l o) (fun _ _ => id) fun p => id
  | cancel ht =>
    obtain ⟨-, l₁, l₂, hw, rfl⟩ := take?_eq_some ht
    refine hk.shift rfl (fun _ _ => id) fun p hp => ?_
    simp only [underWay, hw] at hp ⊢
    grind
  | ignore v e he => exact hk
  | take ht ho =>
    obtain ⟨-, l₁, l₂, hw, rfl⟩ := take?_eq_some ht
    refine hk.shift rfl (fun _ _ => id) fun p hp => ?_
    simp only [underWay, hw] at hp ⊢
    grind
  | begin v w rest =>
    obtain ⟨hs, hmade, hold⟩ := hk.cache.request (ρ := TaskResult) w
    refine ⟨hs, fun p hp => ?_⟩
    rcases List.mem_append.1 hp with hp | hp
    · obtain rfl : p = (v.begin w).2.1 := by simpa using hp
      exact hmade
    · exact hold _ (hk.made p (List.mem_append_right _ hp))
  | @wait v p task rest ho =>
    refine hk.shift rfl (fun _ _ => id) fun p hp => ?_
    simp only [underWay] at hp ⊢
    grind
  | @conclude v p o rest rest' ho hr =>
    rw [conclude_fst]
    exact hk.shift (v.cache.ids_receive p.lookup o) (fun u l => v.cache.kept?_of_receive)
      fun q hq => List.mem_append_right _ hq
  | finish v task r => exact hk

theorem LookupsOK.run (hk : LookupsOK {} v) (es : List Event) : LookupsOK {} (v.run es).1 :=
  (run_moves v es).keeps (Q := fun f w _ => LookupsOK f w) (fun _ hm hk => hk.move hm) [] hk

theorem lookupsOK_create (checks : Option (List String)) (surroundings : Surroundings) :
    LookupsOK {} { checks, surroundings } :=
  ⟨SettingsCache.sound_empty, by simp [underWay]⟩

end Keeping

section Driving

variable {v : Validator} {t : Task}

/-- Nothing escapes from a pass that does not stand. -/
theorem conclude_of_latest {p : Pass} (hl : v.latest.lookup p.uri = none) (o : Outcome) :
    (v.conclude p o).2.2 = .nothing := by
  cases o with
  | error e => rfl
  | ok s =>
    simp only [conclude, SettingsCache.receive, proceed]
    rw [if_pos (by rw [hl]; simp)]

theorem take?_head {waiting : List Task} (hw : v.waiting = t :: waiting) :
    v.take? t.number = some (t, { v with waiting }) := by
  unfold take?
  simp [hw]

/-- The tasks at the head are given up. -/
theorem run_cancel {l₁ l₂ : List Task} (hw : v.waiting = l₁ ++ l₂) :
    (v.run (l₁.map fun t => .cancel t.number)).1 = { v with waiting := l₂ } := by
  induction l₁ generalizing v with
  | nil =>
    rw [List.nil_append] at hw
    rw [← hw]
    rfl
  | cons t l₁ ih =>
    rw [List.cons_append] at hw
    have hstep : (v.step (.cancel t.number)).1 = { v with waiting := l₁ ++ l₂ } := by
      simp only [step, take?_head hw]
    rw [List.map_cons, run_cons, hstep]
    exact ih rfl

/-- A task comes to a document for which nothing is kept: it asks for settings and waits. -/
theorem validateAll_waits (hc : v.cache.Sound) {x : String} (hx : v.cache.kept? x = none)
    (task : Nat) (rest : List String) :
    (v.validateAll task (x :: rest)).1.cache.kept? x ≠ none ∧
      ∃ p, (v.validateAll task (x :: rest)).1.waiting = v.waiting ++ [⟨task, p, some rest⟩] := by
  rcases v.cache.request_cases (ρ := TaskResult) x with ⟨l, hkept, -⟩ | ⟨-, hrequest⟩
  · rw [hx] at hkept
    cases hkept
  · have hout : (v.cache.start (v.cache.next x)).outcome? (v.cache.next x) = none := by
      rw [SettingsCache.outcome?_start]
      exact hc.outcome?_next x
    simp only [validateAll, begin, hrequest, hout]
    refine ⟨?_, _, rfl⟩
    rw [SettingsCache.kept?_start, SettingsCache.uri_next, if_pos rfl]
    simp

/-- A task goes on to its next document, if the pass that it waited for does not stand. -/
theorem resume_visits (hk : LookupsOK {} v) {l₂ : List Task} (hw : v.waiting = t :: l₂)
    {x : String} {rest : List String} (hr : t.rest = some (x :: rest))
    (hl : v.latest.lookup t.pass.uri = none) (hx : v.cache.kept? x = none) {o : Outcome}
    (ho : v.cache.outcome? t.pass.lookup = some o) :
    (v.step (.resume t.number)).1.cache.kept? x ≠ none ∧
      ∃ t', (v.step (.resume t.number)).1.waiting = l₂ ++ [t'] ∧ t'.rest = some rest := by
  have hresult := conclude_of_latest (v := { v with waiting := l₂ }) hl o
  have hstate := conclude_fst { v with waiting := l₂ } t.pass o
  simp only [step, take?_head hw, ho, goOn]
  rcases hc : conclude { v with waiting := l₂ } t.pass o with ⟨v₁, effects, result⟩
  rw [hc] at hresult hstate
  obtain rfl : result = .nothing := hresult
  obtain rfl : v₁ = { v with waiting := l₂, cache := v.cache.receive t.pass.lookup o } := hstate
  simp only [hr]
  have hkept : (v.cache.receive t.pass.lookup o).kept? x = none :=
    v.cache.kept?_receive_of_none hx
  have hsound : (v.cache.receive t.pass.lookup o).Sound :=
    hk.cache.of_ids (v.cache.ids_receive _ o) fun u l => v.cache.kept?_of_receive
  obtain ⟨hvisit, p, hwaits⟩ := validateAll_waits
    (v := { v with waiting := l₂, cache := v.cache.receive t.pass.lookup o }) hsound hkept t.number
    rest
  exact ⟨hvisit, _, hwaits, rfl⟩

/-- **A task is driven on by one document**, whatever becomes of the pass that it waits for. -/
theorem visit_next (hk : LookupsOK {} v) (ht : t ∈ v.waiting) {x : String} {rest : List String}
    (hr : t.rest = some (x :: rest)) :
    ∃ es, (∀ e ∈ es, ∀ u, e.asksFor u = false) ∧ (v.run es).1.cache.kept? x ≠ none ∧
      ∃ t' ∈ (v.run es).1.waiting, t'.rest = some rest := by
  obtain ⟨l₁, l₂, hw⟩ := List.append_of_mem ht
  -- the tasks before it are given up, its pass is displaced, and the lookup of the pass ends
  let ready : List Event := (l₁.map fun t => .cancel t.number) ++
    [.close t.pass.uri, .close x, .complete t.pass.lookup (.error .namedValues)]
  have hready : (v.run ready).1 = (run { v with waiting := t :: l₂ } [.close t.pass.uri, .close x,
      .complete t.pass.lookup (.error .namedValues)]).1 := by
    rw [run_append, run_cancel hw]
  have hlookup : t.pass.lookup ∈ v.cache.ids :=
    hk.made t.pass (List.mem_append_right _ (List.mem_map_of_mem ht))
  have hw' : (v.run ready).1.waiting = t :: l₂ := by
    rw [hready]
    rfl
  have hl : (v.run ready).1.latest.lookup t.pass.uri = none := by
    rw [hready]
    simp [run, runEvents, step]
  have hx : (v.run ready).1.cache.kept? x = none := by
    rw [hready]
    simp [run, runEvents, step]
  obtain ⟨o, ho⟩ : ∃ o, (v.run ready).1.cache.outcome? t.pass.lookup = some o := by
    rw [hready]
    exact SettingsCache.exists_outcome_complete (c := (v.cache.evict t.pass.uri).evict x) hlookup _
  obtain ⟨hvisit, t', hwaits, hrest⟩ := resume_visits (hk.run ready) hw' hr hl hx ho
  refine ⟨ready ++ [.resume t.number], ?_, ?_⟩
  · intro e he u
    have hcases : (∃ t ∈ l₁, .cancel t.number = e) ∨ e = .close t.pass.uri ∨ e = .close x ∨
        e = .complete t.pass.lookup (.error .namedValues) ∨ e = .resume t.number := by
      simpa [ready, or_assoc] using he
    rcases hcases with ⟨t, -, rfl⟩ | rfl | rfl | rfl | rfl <;> rfl
  · rw [run_concat]
    exact ⟨hvisit, t', by rw [hwaits]; simp, hrest⟩

/-- **A task can be driven on to any document that it has yet to come to**, without asking for a
validation of any. -/
theorem exists_visit (hk : LookupsOK {} v) (ht : t ∈ v.waiting) {u : String}
    (hu : u ∈ t.rest.getD []) :
    ∃ es, (∀ e ∈ es, ∀ w, e.asksFor w = false) ∧ (v.run es).1.cache.kept? u ≠ none := by
  obtain ⟨pre, post, hrest⟩ : ∃ pre post, t.rest = some (pre ++ u :: post) := by
    cases hr : t.rest with
    | none => rw [hr] at hu; cases hu
    | some rest =>
      rw [hr] at hu
      obtain ⟨pre, post, rfl⟩ := List.append_of_mem hu
      exact ⟨pre, post, rfl⟩
  clear hu
  induction pre generalizing v t with
  | nil =>
    obtain ⟨es, hasks, hkept, -⟩ := visit_next hk ht hrest
    exact ⟨es, hasks, hkept⟩
  | cons x pre ih =>
    obtain ⟨es, hasks, -, t', ht', hrest'⟩ := visit_next hk ht hrest
    obtain ⟨es', hasks', hkept⟩ := ih (hk.run es) ht' hrest'
    refine ⟨es ++ es', fun e he => ?_, ?_⟩
    · rcases List.mem_append.1 he with he | he
      · exact hasks e he
      · exact hasks' e he
    · rw [run_append]
      exact hkept

end Driving

end CatalogLint.Validator
