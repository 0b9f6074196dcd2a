import CatalogLint.Proofs.Validation.InOrder
import CatalogLint.Proofs.Validation.Progress

/-!
# Closed documents are left alone

Closing a document drops its settings and displaces its passes, so whatever was under way for it
ends without a report. Only a task that goes through documents and has yet to come to this one can
take it up again without being asked to, and it can be driven on until it does.

* `Shut`: what closing a document brings about.
* `Shut.move`: **every move keeps it**, and hands no report on the document to the sink.
* `began_after_close`: a pass that was under way when its document was closed reports nothing.
* `quiet_after_close`: **a document stays quiet after it was closed exactly if no task has yet to
  come to it.**
* `late_visit_reports`: a task that does come to a closed document, and reports on it.
-/

namespace CatalogLint.Validator

/-- No report on `u` is handed to the sink. -/
def Quiet (u : String) (h : List Moment) : Prop := ∀ m ∈ h, ∀ token, m.call? ≠ some (token, u)

/-- No pass over `u` stands, no settings are kept for it, and no task has yet to come to it. -/
structure Shut (u : String) (f : Focus) (v : Validator) : Prop where
  latest : v.latest.lookup u = none
  kept : v.cache.kept? u = none
  unvisited : ¬ Revisited f v u

section Keeping

variable {u : String} {f f' : Focus} {v v' : Validator} {h ms : List Moment}

theorem Quiet.append (hh : Quiet u h) (hm : Quiet u ms) : Quiet u (h ++ ms) := by
  intro m hmem
  rcases List.mem_append.1 hmem with hmem | hmem
  · exact hh m hmem
  · exact hm m hmem

theorem quiet_event (u : String) (e : Event) : Quiet u [.event e] := by
  intro m hm token
  rw [List.mem_singleton.1 hm]
  simp [Moment.call?]

theorem quiet_neutral (hm : ∀ m ∈ ms, Neutral m) : Quiet u ms := by
  intro m hmem token
  rw [(hm m hmem).2.1]
  simp

theorem quiet_begin (v : Validator) (u w : String) :
    Quiet u ((v.begin w).2.2.map .effect) := by
  rcases v.begin_effects w with h | ⟨l, h⟩
  · rw [h]
    simp [Quiet, Moment.call?]
  · rw [h]
    simp [Quiet, Moment.call?]

/-- A pass over a document that is shut ends without a report. -/
theorem quiet_conclude (hl : v.latest.lookup u = none) (p : Pass) (o : Outcome) :
    Quiet u ((v.conclude p o).2.1.map .effect) := by
  have hlog : ∀ r, Silent [.logged r] := fun r e he => ⟨r, List.mem_singleton.1 he⟩
  -- a pass that stands is over another document
  have hother : v.latest.lookup p.uri = some p.token → p.uri ≠ u := by
    rintro hp rfl
    rw [hl] at hp
    cases hp
  have hc := conclude_cases v p o
  generalize (v.conclude p o).2.1 = effects, (v.conclude p o).2.2 = result at hc
  cases hc with
  | failed e r => exact quiet_neutral (hlog r).neutral
  | superseded s r hp =>
    have hd : Quiet u [.effect (.superseded p.token p.uri)] := by simp [Quiet, Moment.call?]
    exact hd.append (quiet_neutral (hlog r).neutral)
  | unreadable s r hp ht => exact quiet_neutral (hlog r).neutral
  | skipped s hp ht ha he hs => exact quiet_neutral hs.neutral
  | escaped s hp ht ha he hs => exact quiet_neutral hs.neutral
  | @published s text ds log r hp ht ha hc hs =>
    have hd : Quiet u [.effect (.published p.token p.uri ds)] := by
      simp [Quiet, Moment.call?, hother hp]
    rw [List.map_append]
    exact (quiet_neutral hs.neutral).append (hd.append (quiet_neutral (hlog r).neutral))
  | @refused s text ds log hp ht ha hc hs =>
    have hd : Quiet u [.effect (.refused p.token p.uri ds)] := by
      simp [Quiet, Moment.call?, hother hp]
    rw [List.map_append]
    exact (quiet_neutral hs.neutral).append hd

/-- What is shut stays so while its token, its settings and what is left to do stay the same, or
less is left to do. -/
theorem Shut.shift (hs : Shut u f v) (hl : v'.latest = v.latest)
    (hk : v'.cache.kept? u = v.cache.kept? u) (hr : Revisited f' v' u → Revisited f v u) :
    Shut u f' v' :=
  ⟨hl ▸ hs.latest, hk.trans hs.kept, fun h => hs.unvisited (hr h)⟩

/-- A pass over another document begins. -/
theorem Shut.begin {w : String} {rest : List String} (hs : Shut u ⟨none, w :: rest⟩ v) :
    Shut u ⟨some (v.begin w).2.1, rest⟩ (v.begin w).1 := by
  have hne : u ≠ w := by
    rintro rfl
    exact hs.unvisited (.inl List.mem_cons_self)
  refine ⟨?_, ?_, ?_⟩
  · exact (Table.lookup_set w u (v.begun + 1) v.latest).trans ((if_neg hne).trans hs.latest)
  · exact (v.cache.kept?_request_ne hne).trans hs.kept
  · rintro (hd | hd)
    · exact hs.unvisited (.inl (List.mem_cons_of_mem _ hd))
    · exact hs.unvisited (.inr hd)

/-- The pass in hand ends. -/
theorem Shut.conclude {p : Pass} {rest rest' : List String} (hs : Shut u ⟨some p, rest⟩ v)
    (o : Outcome) (hr : ∀ w ∈ rest', w ∈ rest) : Shut u ⟨none, rest'⟩ (v.conclude p o).1 := by
  rw [conclude_fst]
  refine ⟨hs.latest, v.cache.kept?_receive_of_none hs.kept, ?_⟩
  rintro (hd | hd)
  · exact hs.unvisited (.inl (hr u hd))
  · exact hs.unvisited (.inr hd)

/-- A task is taken out of those that wait. -/
theorem Shut.take {task : Nat} {t : Task} (hs : Shut u {} v) (ht : v.take? task = some (t, v')) :
    Shut u ⟨some t.pass, t.rest.getD []⟩ v' := by
  obtain ⟨-, l₁, l₂, hw, rfl⟩ := take?_eq_some ht
  refine hs.shift rfl rfl ?_
  rintro (hd | ⟨t', hw', hd⟩)
  · exact .inr ⟨t, by simp [hw], hd⟩
  · refine .inr ⟨t', ?_, hd⟩
    rw [hw]
    exact List.Sublist.subset (List.Sublist.append_left (List.sublist_cons_self _ _) _) hw'

/-- Documents are to be gone through, and this one is not among them. -/
theorem Shut.todo {todo : List String} (hs : Shut u {} v) (hu : u ∉ todo) :
    Shut u ⟨none, todo⟩ v := by
  refine ⟨hs.latest, hs.kept, ?_⟩
  rintro (hd | hd)
  · exact hu hd
  · exact hs.unvisited (.inr hd)

/-- **Every move keeps a document shut and quiet**, unless it asks for a validation of it. -/
theorem Shut.move (hm : Move f v ms f' v') (he : ∀ e, .event e ∈ ms → e.asksFor u = false)
    (hs : Shut u f v) : Shut u f' v' ∧ Quiet u ms := by
  cases hm with
  | call v task w =>
    have hne : w ≠ u := by simpa [Event.asksFor] using he _ (List.mem_singleton.2 rfl)
    exact ⟨hs.todo (by simpa using hne.symm), quiet_event u _⟩
  | reconfigure v task ws =>
    have hws : u ∉ ws := by simpa [Event.asksFor] using he _ (List.mem_singleton.2 rfl)
    exact ⟨⟨hs.latest, rfl, (hs.todo hws).unvisited⟩, quiet_event u _⟩
  | close v w =>
    refine ⟨⟨?_, ?_, hs.unvisited⟩, quiet_event u _⟩
    · simp [hs.latest]
    · simp [hs.kept]
  | edit v w text => exact ⟨hs.shift rfl rfl id, quiet_event u _⟩
  | closeSink v closed => exact ⟨hs.shift rfl rfl id, quiet_event u _⟩
  | disturb v fault => exact ⟨hs.shift rfl rfl id, quiet_event u _⟩
  | complete v l o => exact ⟨hs.shift rfl rfl id, quiet_event u _⟩
  | cancel ht =>
    refine ⟨(hs.take ht).shift rfl rfl ?_, quiet_event u _⟩
    rintro (hd | hd)
    · cases hd
    · exact .inr hd
  | ignore v e he => exact ⟨hs, quiet_event u _⟩
  | take ht ho => exact ⟨hs.take ht, quiet_event u _⟩
  | begin v w rest => exact ⟨hs.begin, quiet_begin v u w⟩
  | @wait v p task rest ho =>
    refine ⟨hs.shift rfl rfl ?_, by simp [Quiet]⟩
    rintro (hd | ⟨t, hw, hd⟩)
    · cases hd
    · rcases List.mem_append.1 hw with hw | hw
      · exact .inr ⟨t, hw, hd⟩
      · rw [List.mem_singleton.1 hw] at hd
        exact .inl hd
  | conclude rest rest' ho hr =>
    refine ⟨hs.conclude _ ?_, quiet_conclude hs.latest _ _⟩
    rcases hr with rfl | ⟨rfl, -⟩
    · exact fun w hw => hw
    · simp
  | finish v task r => exact ⟨hs, by simp [Quiet, Moment.call?]⟩

/-- A document that is shut stays so through events that do not ask for it, and nothing is
reported on it. -/
theorem Shut.run {es : List Event} (hs : Shut u {} v) (he : ∀ e ∈ es, e.asksFor u = false) :
    Shut u {} (v.run es).1 ∧ Quiet u (v.history es) := by
  have hevents : ∀ e, .event e ∈ v.history es → e.asksFor u = false := by
    intro e hmem
    refine he e ?_
    rw [← events_history v es]
    exact List.mem_filterMap.2 ⟨_, hmem, rfl⟩
  have hkeeps := (run_moves v es).keeps
    (Q := fun f w h => (∀ e, .event e ∈ h → e.asksFor u = false) → Shut u f w ∧ Quiet u h)
    ?_ [] (fun _ => ⟨hs, by simp [Quiet]⟩)
  · exact hkeeps hevents
  · intro f f' w w' ms h hm hq he
    obtain ⟨hw, hh⟩ := hq fun e hmem => he e (List.mem_append_left _ hmem)
    obtain ⟨hw', hms⟩ := hw.move hm fun e hmem => he e (List.mem_append_right _ hmem)
    exact ⟨hw', hh.append hms⟩

end Keeping

/-- What closing a document leaves, if no task has yet to come to it. -/
theorem shut_close {u : String} (v : Validator) (hu : ∀ t ∈ v.waiting, u ∉ t.rest.getD []) :
    Shut u {} (v.step (.close u)).1 := by
  refine ⟨by simp [step], by simp [step], ?_⟩
  rintro (hd | ⟨t, ht, hd⟩)
  · cases hd
  · exact hu t ht hd

/-- A pass that reports on a document after it was closed has begun after it was closed. -/
theorem began_after_close (checks : Option (List String)) (surroundings : Surroundings)
    (before after : List Event) (u : String) :
    let v := (run { checks, surroundings } (before ++ [.close u])).1
    ∀ m ∈ v.history after, ∀ token, m.call? = some (token, u) →
      .effect (.began token u) ∈ v.history after := by
  intro v m hm token hcall
  obtain ⟨past, future, hsplit⟩ := List.append_of_mem hm
  have hhistory : history { checks, surroundings } (before ++ [.close u] ++ after) =
      (history { checks, surroundings } before ++ .event (.close u) :: past) ++ m :: future := by
    rw [history_append, history_concat, hsplit]
    simp [scene, step]
  have hk := run_passesOK checks {} surroundings (before ++ [.close u] ++ after)
  obtain ⟨b, c, hpast, hstands⟩ := (hk.justified _ m future hhistory).1 token u hcall
  -- the pass stands, so the document was not closed after it had begun
  have hbegan : .effect (.began token u) ∈ past := by
    rcases List.append_eq_append_iff.1 hpast with ⟨xs, -, hxs⟩ | ⟨xs, -, hxs⟩
    · cases xs with
      | nil => cases hxs
      | cons x xs =>
        obtain ⟨-, rfl⟩ := List.cons.inj hxs
        simp
    · cases xs with
      | nil => cases hxs
      | cons x xs =>
        obtain ⟨-, rfl⟩ := List.cons.inj hxs
        exact absurd Displaces.closed (hstands _ (by simp))
  rw [hsplit]
  exact List.mem_append_left _ hbegan

/-- **When a closed document is left alone.** Whatever is under way when `u` is closed, no pass that
has begun by then reports on it. No report on `u` at all is handed to the sink and no settings are
kept for it, until an event asks for a validation of it, exactly if no task that goes through
documents has yet to come to it. -/
theorem quiet_after_close (checks : Option (List String)) (surroundings : Surroundings)
    (before : List Event) (u : String) :
    let v := (run { checks, surroundings } (before ++ [.close u])).1
    (∀ after, ∀ m ∈ v.history after, ∀ token, m.call? = some (token, u) →
      .effect (.began token u) ∈ v.history after) ∧
    ((∀ after, (∀ e ∈ after, e.asksFor u = false) →
        Quiet u (v.history after) ∧ (v.run after).1.cache.kept? u = none) ↔
      ∀ t ∈ v.waiting, u ∉ t.rest.getD []) := by
  intro v
  refine ⟨fun after => began_after_close checks surroundings before after u, ?_, ?_⟩
  · intro hquiet t ht hu
    have hk : LookupsOK {} v := (lookupsOK_create checks surroundings).run _
    obtain ⟨after, hasked, hkept⟩ := exists_visit hk ht hu
    exact hkept (hquiet after fun e he => hasked e he u).2
  · intro htasks after hasked
    have hs : Shut u {} v := by
      have hv : v = ((run { checks, surroundings } before).1.step (.close u)).1 := run_concat _ _ _
      rw [hv] at htasks ⊢
      exact shut_close _ htasks
    obtain ⟨hshut, hquiet⟩ := hs.run hasked
    exact ⟨hquiet, hshut.kept⟩

/-- Both the loop over "a" and "b" and a pass over "c" wait for settings. -/
def busy : List Event :=
  [.edit "a" (some ""), .edit "b" (some ""), .edit "c" (some ""), .validate 1 "c",
    .reconfigure 2 ["a", "b"]]

/-- All settings arrive, and all tasks go on. -/
def settingsArrive : List Event :=
  [.complete ⟨"c", 0⟩ (.ok {}), .complete ⟨"a", 0⟩ (.ok {}), .resume 1, .resume 2,
    .complete ⟨"b", 0⟩ (.ok {}), .resume 2]

/-- The document of a pass that waits is closed, and the pass ends without a report. -/
theorem quiet_after_close_waiting :
    (∀ e ∈ settingsArrive, e.asksFor "c" = false) ∧
      Quiet "c" ((run {} (busy ++ [.close "c"])).1.history settingsArrive) ∧
      (calls ((run {} busy).1.history settingsArrive)).map (·.2) = ["c", "a", "b"] := by
  have htasks : ∀ t ∈ (run {} (busy ++ [.close "c"])).1.waiting, "c" ∉ t.rest.getD [] := by
    decide +kernel
  have hasked : ∀ e ∈ settingsArrive, e.asksFor "c" = false := by decide +kernel
  have hquiet := (quiet_after_close none {} busy "c").2.2 htasks settingsArrive hasked
  exact ⟨hasked, hquiet.1, by decide +kernel⟩

/-- A document that a task had yet to come to when it was closed: the task asks for its settings,
keeps them and reports on it. -/
theorem late_visit_reports :
    (∀ e ∈ settingsArrive, e.asksFor "b" = false) ∧
      (calls ((run {} (busy ++ [.close "b"])).1.history settingsArrive)).map (·.2) =
        ["c", "a", "b"] ∧
      ((run {} (busy ++ [.close "b"])).1.run settingsArrive).1.cache.kept? "b" = some ⟨"b", 0⟩ := by
  decide +kernel

end CatalogLint.Validator
