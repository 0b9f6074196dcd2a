import CatalogLint.Proofs.Validation.Apart
import CatalogLint.Proofs.Validation.InOrder

/-!
# Documents do not get in each other's way

Take all that concerns one document out of a run, and nothing changes for the others.

* `without`: the run that is left without a document.
* `effectsOn`: what the events that concern a document do.
* `effectsOn_without`: **up to tokens, the same is done for another document.**
* `documents_apart`: **what is published for a document, and how the passes over it end, does not
  depend on what happens to another one.**
-/

namespace CatalogLint.Validator

/-- The events of a run, less those that concern `u`. -/
def without (u : String) (v : Validator) : List Event → List Event
  | [] => []
  | e :: es =>
    if v.subject? e = some u then (v.step e).1.without u es else e :: (v.step e).1.without u es

/-- The effects of the events that concern `u`. -/
def effectsOn (u : String) (v : Validator) : List Event → List (Effect TaskResult)
  | [] => []
  | e :: es =>
    (if v.subject? e = some u then (v.step e).2 else []) ++ (v.step e).1.effectsOn u es

section Runs

variable {a b : String} {v w : Validator}

/-- **Up to tokens, the effects on another document are the same in both runs.** -/
theorem effectsOn_without (h : Apart a v w) (hv : v.Plain) (hab : b ≠ a) {es : List Event}
    (hes : ∀ e ∈ es, e.Single) :
    (w.effectsOn b (v.without a es)).map Effect.blank = (v.effectsOn b es).map Effect.blank := by
  induction es generalizing v w with
  | nil => rfl
  | cons e es ih =>
    have hsingle := hes e List.mem_cons_self
    have hes' : ∀ e ∈ es, e.Single := fun x hx => hes x (List.mem_cons_of_mem _ hx)
    have hplain := plain_step hv hsingle
    by_cases he : v.subject? e = some a
    · -- an event concerns one document at most, so this one does not count for `b`
      have heb : v.subject? e ≠ some b := by
        rw [he]
        exact fun h => hab (Option.some.inj h).symm
      rw [without, if_pos he, effectsOn, if_neg heb]
      exact ih (h.skip hv he) hplain hes'
    · obtain ⟨hnext, heffects⟩ := h.step hv he hsingle
      rw [without, if_neg he, effectsOn, effectsOn, h.subject? he, List.map_append,
        List.map_append, ih hnext hplain hes']
      split
      · rw [heffects]
      · rfl

/-- What is seen of effects without their tokens is the same if the effects are, up to tokens. -/
theorem filterMap_eq_of_blank {α : Type} {f : Effect TaskResult → Option α}
    (hf : ∀ x, f x.blank = f x) {xs ys : List (Effect TaskResult)}
    (h : xs.map Effect.blank = ys.map Effect.blank) : xs.filterMap f = ys.filterMap f := by
  have hblank (zs : List (Effect TaskResult)) :
      (zs.map Effect.blank).filterMap f = zs.filterMap f := by
    rw [List.filterMap_map]
    exact congrArg (List.filterMap · zs) (funext hf)
  rw [← hblank xs, h, hblank ys]

/-- A pass publishes reports on its own document only. -/
theorem published?_conclude {p : Pass} (hp : p.uri ≠ b) (o : Outcome) :
    ∀ m ∈ (v.conclude p o).2.1.map Moment.effect, m.published? b = none := by
  have hc := conclude_cases v p o
  generalize (v.conclude p o).2.1 = effects, (v.conclude p o).2.2 = result at hc
  cases hc with
  | failed e r => simp [Moment.published?]
  | superseded s r hl => simp [Moment.published?]
  | unreadable s r hl ht => simp [Moment.published?]
  | skipped s hl ht ha he hlog => exact hlog.published? b
  | escaped s hl ht ha he hlog => exact hlog.published? b
  | published s r hl ht ha hc hlog =>
    rw [List.map_append, List.forall_mem_append]
    exact ⟨hlog.published? b, by simp [Moment.published?, hp]⟩
  | refused s hl ht ha hc hlog =>
    rw [List.map_append, List.forall_mem_append]
    exact ⟨hlog.published? b, by simp [Moment.published?]⟩

/-- Reports on a document are published only by events that concern it. -/
theorem published?_step (hv : v.Plain) {e : Event} (hs : e.Single) (he : v.subject? e ≠ some b) :
    ∀ m ∈ (v.step e).2.map Moment.effect, m.published? b = none := by
  have hfinish : ∀ n r, ∀ m ∈ [Effect.finished n r].map Moment.effect,
      m.published? b = none := by simp [Moment.published?]
  cases e with
  | validate task u =>
    have hu : u ≠ b := by simpa [subject?] using he
    simp only [step, validateOne]
    split
    · exact published?_begin v u b
    · simp only [List.map_append, List.forall_mem_append]
      exact ⟨⟨published?_begin v u b, published?_conclude hu _⟩, hfinish _ _⟩
  | reconfigure task us => exact absurd rfl (hs task us)
  | resume task =>
    simp only [step, take?]
    cases ht : v.waiting.find? (·.number == task) with
    | none => simp
    | some t =>
      have hta : t.pass.uri ≠ b := by simpa [subject?, ht] using he
      simp only
      cases v.cache.outcome? t.pass.lookup with
      | none => simp
      | some o =>
        simp only [goOn, (hv t (List.mem_of_find?_eq_some ht)).1, List.map_append,
          List.forall_mem_append]
        exact ⟨published?_conclude hta _, hfinish _ _⟩
  | cancel task =>
    simp only [step]
    split
    · exact hfinish _ _
    · simp
  | _ => simp [step]

/-- What is published for a document is published by the events that concern it. -/
theorem published?_history (hv : v.Plain) {es : List Event} (hes : ∀ e ∈ es, e.Single)
    (b : String) :
    (v.history es).filterMap (Moment.published? b) =
      (v.effectsOn b es).filterMap fun x => (Moment.effect x).published? b := by
  induction es generalizing v with
  | nil => rfl
  | cons e es ih =>
    have hsingle := hes e List.mem_cons_self
    have hrest := ih (plain_step hv hsingle) fun x hx => hes x (List.mem_cons_of_mem _ hx)
    have hscene : (v.scene e).filterMap (Moment.published? b) =
        (v.step e).2.filterMap fun x => (Moment.effect x).published? b := by
      rw [scene, List.filterMap_cons_none rfl, List.filterMap_map]
      rfl
    rw [history, effectsOn, List.filterMap_append, List.filterMap_append, hrest, hscene]
    congr 1
    by_cases he : v.subject? e = some b
    · rw [if_pos he]
    · rw [if_neg he, List.filterMap_nil, List.filterMap_eq_nil_iff]
      exact fun x hx => published?_step hv hsingle he _ (List.mem_map_of_mem hx)

theorem mem_of_mem_without {es : List Event} {e : Event} (he : e ∈ v.without a es) : e ∈ es := by
  induction es generalizing v with
  | nil => cases he
  | cons x es ih =>
    rw [without] at he
    split at he
    · exact List.mem_cons_of_mem _ (ih he)
    · rcases List.mem_cons.1 he with rfl | he
      · exact List.mem_cons_self
      · exact List.mem_cons_of_mem _ (ih he)

end Runs

/-- **Documents do not get in each other's way.** Take a run without a change of all settings, and
leave out all events that concern the document `a`: its edits, its validations and closings, its
lookups that end, and its passes that go on or give up. For any other document the same reports are
published, in the same order, and the passes over it end in the same order and with the same
results. -/
theorem documents_apart (checks : Option (List String)) (cache : SettingsCache)
    (surroundings : Surroundings) {es : List Event}
    (hes : ∀ task us, .reconfigure task us ∉ es) {a b : String} (hab : b ≠ a) :
    let v : Validator := { checks, cache, surroundings }
    (v.history (v.without a es)).filterMap (Moment.published? b) =
        (v.history es).filterMap (Moment.published? b) ∧
      endings (v.effectsOn b (v.without a es)) = endings (v.effectsOn b es) := by
  intro v
  have hsingle : ∀ e ∈ es, e.Single := by
    rintro e he task us rfl
    exact hes task us he
  -- to begin with nobody waits, and nothing tells the two runs apart
  have hplain : v.Plain := fun t ht => by cases ht
  have hv : Apart a v v :=
    ⟨rfl, ⟨fun _ _ => rfl, rfl, rfl, rfl⟩, ⟨fun _ _ => rfl, rfl⟩, .nil⟩
  have hsame := effectsOn_without hv hplain hab hsingle
  refine ⟨?_, filterMap_eq_of_blank (fun x => by cases x <;> rfl) hsame⟩
  rw [published?_history hplain hsingle,
    published?_history hplain fun e he => hsingle e (mem_of_mem_without he)]
  exact filterMap_eq_of_blank (fun x => by cases x <;> rfl) hsame

/-- A pass over "b" waits while much happens to "a": a lookup for it fails, two more passes wait for
a second lookup, one of them is given up, and the other one reports. -/
def crowded : List Event :=
  [.edit "b" (some "msgid \"k\"\nmsgstr \"\"\nmsgid \"k\"\nmsgstr \"\""), .validate 1 "a",
    .validate 2 "b", .complete ⟨"a", 0⟩ (.error (.connection "bad")), .resume 1,
    .edit "a" (some ""), .validate 3 "a", .validate 4 "a", .complete ⟨"b", 0⟩ (.ok {}), .cancel 3,
    .complete ⟨"a", 1⟩ (.ok {}), .resume 4, .resume 2]

/-- The pass over "b" is the second of four, and the first one if "a" is left out. It reports the
same two messages. -/
theorem documents_apart_crowded :
    let v : Validator := {}
    let left := v.without "a" crowded
    left.length = 4 ∧ calls (v.history crowded) = [(4, "a"), (2, "b")] ∧
      calls (v.history left) = [(1, "b")] ∧
      (v.history left).filterMap (Moment.published? "b") =
        (v.history crowded).filterMap (Moment.published? "b") ∧
      ((v.history crowded).filterMap (Moment.published? "b")).map List.length = [2] ∧
      endings (v.effectsOn "b" left) = endings (v.effectsOn "b" crowded) ∧
      (endings (v.effectsOn "b" crowded)).map (·.1) = [2] := by
  intro v left
  have hes : ∀ task us, .reconfigure task us ∉ crowded := by simp [crowded]
  have hapart := documents_apart none {} {} hes (show "b" ≠ "a" by decide)
  exact ⟨by decide +kernel, by decide +kernel, by decide +kernel, hapart.1, by decide +kernel,
    hapart.2, by decide +kernel⟩

end CatalogLint.Validator
