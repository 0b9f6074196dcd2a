import CatalogLint.Proofs.Settings.Callers

/-!
# Lookups that fail

A lookup that has failed is taken out by the first caller that gets its error, and only if it is
still the one that is kept. From then on nobody who calls can come to it. Until then it stays, and
if all who waited for it give up, the next caller is told of the old failure.

* `Turn.kept_cases`: **what is kept goes when its document is forgotten or when a caller gets its
  error, and at no other time.**
* `failure_removes_itself`: a caller that gets an error takes out the lookup that failed, for good,
  and nothing else.
* `failure_lingers`: **the error of a lookup that was kept when it failed is given to one more
  caller, exactly if nobody got it and nothing was forgotten before.**
* `failure_outlives_callers`: a lookup that failed after its only caller had given up.
-/

namespace CatalogLint.Retrieval

variable {r r' : Retrieval} {e : Event} {new effects : List (Effect Retrieved)} {uri : String}
  {task : Nat} {l l' : LookupId} {o : Outcome} {err : LookupError}

section Turns

/-- A caller gets the outcome of a lookup: what is kept stays, or it was the lookup that failed. -/
theorem kept?_receive_cases (c : SettingsCache) (hk : c.kept? uri = some l) (task : Nat)
    (l' : LookupId) (o : Outcome) :
    (c.receive l' o).kept? uri = some l ∧
        (∀ t e, .finished t (.outcome l (.error e)) ∉
          [Effect.finished task (Retrieved.outcome l' o)]) ∨
      (c.receive l' o).kept? uri = none ∧ ∃ t e, .finished t (.outcome l (.error e)) ∈
        [Effect.finished task (Retrieved.outcome l' o)] := by
  cases o with
  | ok s => exact .inl ⟨hk, by simp⟩
  | error e =>
    have hforget := c.kept?_forget l' uri
    by_cases hl : l' = l
    · subst hl
      rw [if_pos hk] at hforget
      exact .inr ⟨hforget, task, e, List.mem_singleton.2 rfl⟩
    · rw [if_neg fun h => hl (Option.some.inj (h.symm.trans hk))] at hforget
      refine .inl ⟨hforget.trans hk, fun t e' hf => hl ?_⟩
      obtain ⟨-, rfl, -⟩ := by simpa using hf
      rfl

/-- **What is kept goes when its document is forgotten or when a caller gets its error**, and at no
other time. -/
theorem Turn.kept_cases (ht : Turn r e r' new) (hk : r.cache.kept? uri = some l) :
    r'.cache.kept? uri = some l ∧ e.forgets uri = false ∧
        (∀ task err, .finished task (.outcome l (.error err)) ∉ new) ∨
      r'.cache.kept? uri = none ∧
        (e.forgets uri = true ∨ ∃ task err, .finished task (.outcome l (.error err)) ∈ new) := by
  cases ht with
  | @ask task u hnone =>
    have hu : uri ≠ u := by
      rintro rfl
      rw [hnone] at hk
      cases hk
    refine .inl ⟨?_, rfl, by simp⟩
    rw [SettingsCache.kept?_start, SettingsCache.uri_next, if_neg hu]
    exact hk
  | join task hk' ho => exact .inl ⟨hk, rfl, by simp⟩
  | serve task hk' ho =>
    rcases kept?_receive_cases r.cache hk task _ _ with ⟨h, hn⟩ | ⟨h, hf⟩
    · exact .inl ⟨h, rfl, hn⟩
    · exact .inr ⟨h, .inr hf⟩
  | evict u =>
    by_cases hu : uri = u
    · exact .inr ⟨(r.cache.kept?_evict u uri).trans (if_pos hu), .inl (by simp [Event.forgets, hu])⟩
    · refine .inl ⟨((r.cache.kept?_evict u uri).trans (if_neg hu)).trans hk, ?_, by simp⟩
      simpa [Event.forgets] using Ne.symm hu
  | clear => exact .inr ⟨rfl, .inl rfl⟩
  | complete l' o => exact .inl ⟨hk, rfl, by simp⟩
  | resume hw ho =>
    rcases kept?_receive_cases r.cache hk _ _ _ with ⟨h, hn⟩ | ⟨h, hf⟩
    · exact .inl ⟨h, rfl, hn⟩
    · exact .inr ⟨h, .inr hf⟩
  | cancel hw => exact .inl ⟨hk, rfl, by simp⟩
  | idle e he =>
    refine .inl ⟨hk, ?_, by simp⟩
    obtain ⟨task, rfl | rfl⟩ := he <;> rfl

end Turns

/-- The lookup has been made, and is not kept. -/
structure Spent (l : LookupId) (r : Retrieval) : Prop where
  made : l ∈ r.cache.ids
  gone : r.cache.kept? l.uri ≠ some l

section Spent

theorem Turn.mem_ids (ht : Turn r e r' new) (hl : l ∈ r.cache.ids) : l ∈ r'.cache.ids := by
  cases ht with
  | ask task hk => simp [hl]
  | serve task hk ho => simpa using hl
  | complete l' o => simpa using hl
  | resume hw ho => simpa using hl
  | _ => exact hl

/-- A lookup that is not kept is never kept again, since a new one has a number of its own. -/
theorem Spent.turn (hl : Spent l r) (hs : r.cache.Sound) (ht : Turn r e r' new) : Spent l r' := by
  refine ⟨ht.mem_ids hl.made, fun hk => ?_⟩
  rcases ht.kept_of hk with ⟨h, -⟩ | h
  · exact hl.gone h
  · exact ht.not_mem_of_asked hs h hl.made

/-- Nobody begins to wait for a lookup that is not kept. -/
theorem Spent.waiting (hl : Spent l r) (hs : r.cache.Sound) (ht : Turn r e r' new)
    (hw : ⟨task, l⟩ ∈ r'.waiting) : ⟨task, l⟩ ∈ r.waiting := by
  rcases ht.waiting_of hw with h | ⟨-, h | h⟩
  · exact h
  · exact absurd h hl.gone
  · exact absurd hl.made (ht.not_mem_of_asked hs h)

theorem Spent.run (hl : Spent l r) (hs : r.cache.Sound) (es : List Event) :
    Spent l (r.run es).1 :=
  run_keeps (Q := fun _ r _ => Spent l r) (fun _ hs ht hl => hl.turn hs ht) hs es [] [] hl

/-- **Whoever does not wait for a lookup that is not kept never gets its outcome.** -/
theorem Spent.not_served (hl : Spent l r) (hs : r.cache.Sound) (hw : ⟨task, l⟩ ∉ r.waiting)
    (es : List Event) (o : Outcome) : .finished task (.outcome l o) ∉ (r.run es).2 := by
  have h := run_keeps
    (Q := fun _ r effects => Spent l r ∧ ⟨task, l⟩ ∉ r.waiting ∧
      ∀ o, .finished task (.outcome l o) ∉ effects)
    ?_ hs es [] [] ⟨hl, hw, by simp⟩
  · exact h.2.2 o
  · intro past r effects e hs ht ⟨hl, hw, hn⟩
    refine ⟨hl.turn hs ht, fun h => hw (hl.waiting hs ht h), fun o h => ?_⟩
    rcases List.mem_append.1 h with h | h
    · exact hn o h
    · obtain ⟨-, -, ⟨-, hmem⟩ | ⟨-, hk⟩⟩ := ht.of_outcome h
      · exact hw hmem
      · exact hl.gone hk

/-- An error that a caller gets is the end of its lookup. -/
theorem Turn.spent (ht : Turn r e r' new)
    (hf : .finished task (.outcome l (.error err)) ∈ new) : Spent l r' := by
  obtain ⟨ho, hc, -⟩ := ht.of_outcome hf
  refine ⟨ht.mem_ids (r.cache.mem_ids_of_outcome? ho), fun hk => ?_⟩
  have hforget : (r.cache.forget l).kept? l.uri = some l := by rwa [hc] at hk
  rw [SettingsCache.kept?_forget] at hforget
  split at hforget
  · cases hforget
  · contradiction

end Spent

/-- **A failure takes out itself and nothing else.** In every run, when a caller gets the error of
the lookup `l`, no lookup changes, and what is kept stays, except `l` wherever it is kept. From then
on `l` is kept at no time, and no caller that calls later gets its outcome, if it goes by a number
that nobody waits under. -/
theorem failure_removes_itself {es : List Event}
    (hf : .finished task (.outcome l (.error err)) ∈ ((run {} es).1.step e).2) :
    let r := (run {} es).1
    ((r.step e).1.cache.lookups = r.cache.lookups ∧
      ∀ uri, (r.step e).1.cache.kept? uri =
        if r.cache.kept? uri = some l then none else r.cache.kept? uri) ∧
    ∀ later, let r' := (run {} (es ++ e :: later)).1
      (∀ uri, r'.cache.kept? uri ≠ some l) ∧
      ∀ task' uri, (∀ w ∈ r'.waiting, w.task ≠ task') → ∀ after o,
        .finished task' (.outcome l o) ∉ (r'.run (.get task' uri :: after)).2 := by
  intro r
  have hs : r.cache.Sound := sound_run es
  have ht : Turn r e (r.step e).1 (r.step e).2 := step_turn hs e
  obtain ⟨ho, hc, -⟩ := ht.of_outcome hf
  refine ⟨⟨?_, fun uri => ?_⟩, ?_⟩
  · rw [hc, SettingsCache.lookups_receive]
  · rw [hc]
    exact r.cache.kept?_forget l uri
  · intro later r'
    have hr' : r' = ((r.step e).1.run later).1 := by
      simp only [r', run_append, run_cons, r]
    have hl : Spent l r' := hr' ▸ (ht.spent hf).run (ht.sound hs) later
    have hs' : r'.cache.Sound := sound_run _
    refine ⟨fun uri hk => ?_, fun task' uri hnew after o => ?_⟩
    · obtain rfl := r'.cache.uri_of_kept? hk
      exact hl.gone hk
    · exact hl.not_served hs' (fun hw => hnew _ hw rfl) _ o

/-- The lookup that two callers wait for is replaced by another one, and then fails. -/
def replaced : List Event :=
  [.get 1 "a", .get 2 "a", .evict "a", .get 3 "a", .complete ⟨"a", 0⟩ (.error .namedValues)]

/-- The first of the two callers gets the error: the new lookup stays, and when the second one has
got it too, a third caller will not. -/
theorem failure_removes_itself_replaced :
    .finished 1 (.outcome ⟨"a", 0⟩ (.error .namedValues)) ∈
        ((run {} replaced).1.step (.resume 1)).2 ∧
      ((run {} replaced).1.step (.resume 1)).1.cache.kept? "a" = some ⟨"a", 1⟩ ∧
      ∀ after o, .finished 4 (.outcome ⟨"a", 0⟩ o) ∉
        ((run {} (replaced ++ [.resume 1, .resume 2])).1.run (.get 4 "a" :: after)).2 := by
  have hf : .finished 1 (.outcome ⟨"a", 0⟩ (.error .namedValues)) ∈
      ((run {} replaced).1.step (.resume 1)).2 := List.mem_singleton.2 rfl
  obtain ⟨⟨-, hkept⟩, hlater⟩ := failure_removes_itself hf
  refine ⟨hf, ?_, ?_⟩
  · rw [hkept]
    decide +kernel
  · exact (hlater [.resume 2]).2 4 "a" (by decide +kernel)

/-- The failed lookup has been dealt with: its document was forgotten, or a caller got the
error. -/
def Dealt (l : LookupId) (es : List Event) (effects : List (Effect Retrieved)) : Prop :=
  (∃ e ∈ es, e.forgets l.uri = true) ∨
    ∃ task err, .finished task (.outcome l (.error err)) ∈ effects

/-- **What becomes of a lookup that was kept when it failed**: it is kept until it has been dealt
with, and what is kept after that was begun since. -/
structure Aftermath (l : LookupId) (err : LookupError) (es : List Event) (r : Retrieval)
    (effects : List (Effect Retrieved)) : Prop where
  outcome : r.cache.outcome? l = some (.error err)
  lingers : ¬ Dealt l es effects → r.cache.kept? l.uri = some l
  replaced : Dealt l es effects → Spent l r ∧ ∀ l', r.cache.kept? l.uri = some l' →
    .asked l' ∈ effects

section Aftermath

variable {es : List Event}

theorem dealt_append : Dealt l (es ++ [e]) (effects ++ new) ↔
    Dealt l es effects ∨ e.forgets l.uri = true ∨
      ∃ task err, .finished task (.outcome l (.error err)) ∈ new := by
  unfold Dealt
  constructor
  · rintro (⟨x, hx, hf⟩ | ⟨t, e', hf⟩)
    · rcases List.mem_append.1 hx with hx | hx
      · exact .inl (.inl ⟨x, hx, hf⟩)
      · exact .inr (.inl (List.mem_singleton.1 hx ▸ hf))
    · rcases List.mem_append.1 hf with hf | hf
      · exact .inl (.inr ⟨t, e', hf⟩)
      · exact .inr (.inr ⟨t, e', hf⟩)
  · rintro ((⟨x, hx, hf⟩ | ⟨t, e', hf⟩) | hf | ⟨t, e', hf⟩)
    · exact .inl ⟨x, List.mem_append_left _ hx, hf⟩
    · exact .inr ⟨t, e', List.mem_append_left _ hf⟩
    · exact .inl ⟨e, by simp, hf⟩
    · exact .inr ⟨t, e', List.mem_append_right _ hf⟩

/-- **Every turn keeps it.** -/
theorem Aftermath.turn (ha : Aftermath l err es r effects) (hs : r.cache.Sound)
    (ht : Turn r e r' new) : Aftermath l err (es ++ [e]) r' (effects ++ new) := by
  have hids : l ∈ r.cache.ids := r.cache.mem_ids_of_outcome? ha.outcome
  by_cases hd : Dealt l es effects
  · -- it stays out, and what is kept was begun since, or just now
    obtain ⟨hl, hkept⟩ := ha.replaced hd
    refine ⟨ht.outcome ha.outcome, fun hn => absurd (dealt_append.2 (.inl hd)) hn, fun _ => ?_⟩
    refine ⟨hl.turn hs ht, fun l' hk => ?_⟩
    rcases ht.kept_of hk with ⟨h, -⟩ | h
    · exact List.mem_append_left _ (hkept l' h)
    · exact List.mem_append_right _ h
  · rcases ht.kept_cases (ha.lingers hd) with ⟨hk, hf, hn⟩ | ⟨hk, hf⟩
    · refine ⟨ht.outcome ha.outcome, fun _ => hk, fun hd' => ?_⟩
      rcases dealt_append.1 hd' with h | h | ⟨t, e', h⟩
      · exact absurd h hd
      · rw [hf] at h
        cases h
      · exact absurd h (hn t e')
    · refine ⟨ht.outcome ha.outcome, fun hn => absurd (dealt_append.2 (.inr hf)) hn, fun _ => ?_⟩
      refine ⟨⟨ht.mem_ids hids, by rw [hk]; simp⟩, fun l' hk' => ?_⟩
      rw [hk] at hk'
      cases hk'

/-- It begins when the lookup fails. -/
theorem aftermath_complete (hs : r.cache.Sound) (hk : r.cache.kept? l.uri = some l)
    (ho : r.cache.outcome? l = none) (err : LookupError) :
    Aftermath l err [] (r.step (.complete l (.error err))).1 [] := by
  have hnone : ¬ Dealt l [] [] := by simp [Dealt]
  refine ⟨?_, fun _ => hk, fun hd => absurd hd hnone⟩
  obtain ⟨o, hout⟩ := SettingsCache.exists_outcome_complete (hs.kept _ _ hk) (.error err)
  rcases r.cache.eq_or_of_outcome?_complete hout with rfl | h
  · exact hout
  · rw [ho] at h
    cases h

end Aftermath

/-- **A failure lingers until a caller gets it.** Take a lookup `l` that is kept when it fails,
whatever happens since, and a caller that then wants the settings of its document. If neither anyone
got the error nor the document was forgotten since the failure, the caller gets the old error at
once and nothing is asked for; with that the failure has been dealt with. If it has been dealt with
before, the caller takes up another lookup that was begun after the failure, maybe by this very
call, and never gets the outcome of `l`, if it goes by a number that nobody waits under. -/
theorem failure_lingers {es : List Event} (hk : (run {} es).1.cache.kept? l.uri = some l)
    (ho : (run {} es).1.cache.outcome? l = none) (err : LookupError) (since : List Event)
    (task : Nat) :
    let failed := ((run {} es).1.step (.complete l (.error err))).1
    let r := (failed.run since).1
    let dealt := Dealt l since (failed.run since).2
    (¬ dealt → (r.step (.get task l.uri)).2 = [.finished task (.outcome l (.error err))]) ∧
    (dealt →
      (∃ l', l' ≠ l ∧ (r.cache.request (ρ := Retrieved) l.uri).1 = l' ∧
        .asked l' ∈ (failed.run (since ++ [.get task l.uri])).2) ∧
      ((∀ w ∈ r.waiting, w.task ≠ task) → ∀ after o,
        .finished task (.outcome l o) ∉ (r.run (.get task l.uri :: after)).2)) := by
  intro failed r dealt
  have hs : (run {} es).1.cache.Sound := sound_run es
  have hfailed : failed.cache.Sound := (step_turn hs _).sound hs
  have hr : r.cache.Sound := run_sound hfailed since
  have ha : Aftermath l err since r (failed.run since).2 :=
    run_keeps (Q := Aftermath l err) (fun _ hs ht ha => ha.turn hs ht) hfailed since [] []
      (aftermath_complete hs hk ho err)
  refine ⟨fun hd => ?_, fun hd => ⟨?_, fun hnew after o => ?_⟩⟩
  · have hkept := ha.lingers hd
    have hrequest : r.cache.request (ρ := Retrieved) l.uri = (l, r.cache, []) := by
      rw [SettingsCache.request, hkept]
    simp only [step, hrequest, ha.outcome, finish, List.nil_append]
  · obtain ⟨hl, hkept⟩ := ha.replaced hd
    rw [run_append]
    rcases r.cache.request_cases (ρ := Retrieved) l.uri with ⟨l', hk', hrequest⟩ | ⟨hk', hrequest⟩
    · refine ⟨l', fun h => hl.gone (h ▸ hk'), by rw [hrequest], ?_⟩
      exact List.mem_append_left _ (hkept l' hk')
    · -- none has been begun since, so this call begins one
      refine ⟨r.cache.next l.uri, fun h => hr.next_not_mem l.uri (h ▸ hl.made), by rw [hrequest],
        List.mem_append_right _ ?_⟩
      rw [run_cons, run_nil, List.append_nil, step_get_of_none hr hk' task]
      exact List.mem_singleton.2 rfl
  · exact (ha.replaced hd).1.not_served hr (fun hw => hnew _ hw rfl) _ o

/-- Two callers wait for a lookup. Once it has failed, one of them gives up and the other one gets
the error: a third caller begins another lookup. If the other one had not gone on yet, the third
caller would get the old error. -/
theorem failure_lingers_shared :
    let failed := ((run {} [.get 1 "a", .get 2 "a"]).1.step
      (.complete ⟨"a", 0⟩ (.error .namedValues))).1
    (run {} [.get 1 "a", .get 2 "a"]).1.cache.kept? "a" = some ⟨"a", 0⟩ ∧
      (run {} [.get 1 "a", .get 2 "a"]).1.cache.outcome? ⟨"a", 0⟩ = none ∧
      Dealt ⟨"a", 0⟩ [.cancel 1, .resume 2] (failed.run [.cancel 1, .resume 2]).2 ∧
      (∃ l', l' ≠ ⟨"a", 0⟩ ∧ .asked l' ∈ (failed.run [.cancel 1, .resume 2, .get 3 "a"]).2) ∧
      ¬ Dealt ⟨"a", 0⟩ [.cancel 1] (failed.run [.cancel 1]).2 ∧
      ((failed.run [.cancel 1]).1.step (.get 3 "a")).2 =
        [.finished 3 (.outcome ⟨"a", 0⟩ (.error .namedValues))] := by
  intro failed
  have hk : (run {} [.get 1 "a", .get 2 "a"]).1.cache.kept? "a" = some ⟨"a", 0⟩ := by
    decide +kernel
  have ho : (run {} [.get 1 "a", .get 2 "a"]).1.cache.outcome? ⟨"a", 0⟩ = none := by
    decide +kernel
  have hlingers := failure_lingers (l := ⟨"a", 0⟩) hk ho .namedValues
  have hdealt : Dealt ⟨"a", 0⟩ [.cancel 1, .resume 2] (failed.run [.cancel 1, .resume 2]).2 :=
    .inr ⟨2, .namedValues, List.mem_cons_of_mem _ List.mem_cons_self⟩
  have hopen : ¬ Dealt ⟨"a", 0⟩ [.cancel 1] (failed.run [.cancel 1]).2 := by
    rintro (⟨e, he, hf⟩ | ⟨task, err, hf⟩)
    · rw [List.mem_singleton.1 he] at hf
      cases hf
    · cases List.mem_singleton.1 hf
  obtain ⟨⟨l', hl', -, hasked⟩, -⟩ := (hlingers [.cancel 1, .resume 2] 3).2 hdealt
  exact ⟨hk, ho, hdealt, ⟨l', hl', hasked⟩, hopen, (hlingers [.cancel 1] 3).1 hopen⟩

/-- A lookup fails after its only caller has given up. It is still kept, and the next caller gets
the old error instead of a lookup of its own. -/
theorem failure_outlives_callers :
    let r := (run {} [.get 1 "a", .cancel 1, .complete ⟨"a", 0⟩ (.error (.connection "bad"))]).1
    r.cache.kept? "a" = some ⟨"a", 0⟩ ∧
      r.cache.outcome? ⟨"a", 0⟩ = some (.error (.connection "bad")) ∧
      (r.step (.get 2 "a")).2 = [.finished 2 (.outcome ⟨"a", 0⟩ (.error (.connection "bad")))] := by
  intro r
  exact ⟨by decide +kernel, by decide +kernel, rfl⟩

end CatalogLint.Retrieval
