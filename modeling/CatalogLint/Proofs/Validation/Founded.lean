import CatalogLint.Proofs.Validation.History

/-!
# Reports come from the text

A pass reads the text of its document when it ends, and no pass changes a text. So what an event
publishes, and all that is published while the client answers what the event has asked for, comes
from the texts that the documents have after the event.

* `Founded`: what is published for a document comes from an analysis of its text.
* `Move.founded`, `Moves.founded`: a move that is no event is founded, and so are many.
* `act_founded`: **whatever is published after an event comes from the text that the document then
  has**, however many rounds the client needs.
-/

namespace CatalogLint

namespace Validator

/-- From `v` to `w` no text changes, and what is published for a document on the way is what an
analysis of its text finds. -/
structure Founded (v w : Validator) (effects : List (Effect TaskResult)) : Prop where
  surroundings : w.surroundings = v.surroundings
  checks : w.checks = v.checks
  published : ∀ token uri ds, .published token uri ds ∈ effects → ∃ text settings,
    v.surroundings.read uri = .ok text ∧ (v.analysis uri text settings).value = .ok ds

variable {v w x : Validator} {effects more : List (Effect TaskResult)}

theorem analysis_congr (hs : w.surroundings = v.surroundings) (hc : w.checks = v.checks)
    (uri text : String) (settings : Settings) :
    w.analysis uri text settings = v.analysis uri text settings := by
  unfold analysis
  rw [hs, hc]

/-- Nothing is published without a text. -/
theorem Founded.of_unpublished (hs : w.surroundings = v.surroundings) (hc : w.checks = v.checks)
    (hn : ∀ token uri ds, .published token uri ds ∉ effects) : Founded v w effects :=
  ⟨hs, hc, fun token uri ds h => absurd h (hn token uri ds)⟩

theorem Founded.refl (v : Validator) : Founded v v [] := .of_unpublished rfl rfl (by simp)

theorem Founded.trans (h : Founded v w effects) (h' : Founded w x more) :
    Founded v x (effects ++ more) where
  surroundings := h'.surroundings.trans h.surroundings
  checks := h'.checks.trans h.checks
  published token uri ds hp := by
    rcases List.mem_append.1 hp with hp | hp
    · exact h.published token uri ds hp
    · obtain ⟨text, settings, ht, ha⟩ := h'.published token uri ds hp
      rw [h.surroundings] at ht
      rw [analysis_congr h.surroundings h.checks] at ha
      exact ⟨text, settings, ht, ha⟩

/-- The texts at the end are as good as those at the beginning. -/
theorem Founded.after (h : Founded v w effects) : Founded w w effects where
  surroundings := rfl
  checks := rfl
  published token uri ds hp := by
    obtain ⟨text, settings, ht, ha⟩ := h.published token uri ds hp
    rw [← h.surroundings] at ht
    rw [← analysis_congr h.surroundings h.checks] at ha
    exact ⟨text, settings, ht, ha⟩

section Moves

variable {f f' : Focus} {ms : List Moment}

theorem not_published_silent (hs : Silent effects) {token : Nat} {uri : String}
    {ds : List Diagnostic} : .published token uri ds ∉ effects := by
  intro h
  obtain ⟨r, hr⟩ := hs _ h
  cases hr

/-- A pass that ends publishes what it finds in the text, or nothing. -/
theorem conclude_founded (v : Validator) (p : Pass) (o : Outcome) :
    Founded v (v.conclude p o).1 (v.conclude p o).2.1 := by
  have hv := conclude_fst v p o
  have hs : (v.conclude p o).1.surroundings = v.surroundings := by rw [hv]
  have hc : (v.conclude p o).1.checks = v.checks := by rw [hv]
  refine ⟨hs, hc, fun token uri ds h => ?_⟩
  have hends := conclude_cases v p o
  generalize (v.conclude p o).2.1 = effects at h hends
  generalize (v.conclude p o).2.2 = result at hends
  cases hends with
  | failed e r => simp at h
  | superseded s r hl => simp at h
  | unreadable s r hl ht => simp at h
  | skipped s hl ht ha he hlog => exact absurd h (not_published_silent hlog)
  | escaped s hl ht ha he hlog => exact absurd h (not_published_silent hlog)
  | published s r hl ht ha hc hlog =>
    rcases List.mem_append.1 h with h | h
    · exact absurd h (not_published_silent hlog)
    · obtain ⟨-, rfl, rfl⟩ := by simpa using h
      exact ⟨_, s, ht, ha⟩
  | refused s hl ht ha hc hlog =>
    rcases List.mem_append.1 h with h | h
    · exact absurd h (not_published_silent hlog)
    · simp at h

/-- A move that is no event changes no text, and publishes what it finds there. -/
theorem Move.founded (hm : Move f v ms f' w) (he : ∀ m ∈ ms, m.event? = none) :
    Founded v w (ms.filterMap Moment.effect?) := by
  have hevent : ∀ e ns, ms = .event e :: ns → False := by
    rintro e ns rfl
    cases he _ List.mem_cons_self
  cases hm with
  | begin uri rest =>
    rw [filterMap_effect]
    refine .of_unpublished rfl rfl fun token uri' ds => ?_
    simp only [Validator.begin, SettingsCache.request]
    split <;> simp
  | wait task rest ho => exact .of_unpublished rfl rfl (by simp)
  | @conclude _ p o rest rest' ho hr =>
    rw [filterMap_effect]
    exact conclude_founded v p o
  | finish task r => exact .of_unpublished rfl rfl (by simp [Moment.effect?])
  | _ => exact (hevent _ _ rfl).elim

/-- Moves of which none is an event are founded. -/
theorem Moves.founded (hm : Moves f v (effects.map .effect) f' w) : Founded v w effects := by
  have h := hm.keeps_within (Q := fun _ w past => Founded v w (past.filterMap Moment.effect?))
    (fun past hm he hf => by
      rw [List.filterMap_append]
      exact hf.trans (hm.founded he))
    (event?_effect effects) [] (.refl v)
  rwa [List.nil_append, filterMap_effect] at h

end Moves

section Rounds

theorem complete_founded (v : Validator) (id : LookupId) (o : Outcome) (log : List Log.Record) :
    Founded v (v.step (.complete id o)).1 (Effect.ofLog log) :=
  .of_unpublished rfl rfl fun _ _ _ => not_published_silent (silent_ofLog log)

theorem resume_founded (v : Validator) (task : Nat) :
    Founded v (v.step (.resume task)).1 (v.step (.resume task)).2 := by
  simp only [step]
  cases ht : v.take? task with
  | none => exact .refl v
  | some x =>
    obtain ⟨t, v'⟩ := x
    cases ho : v.cache.outcome? t.pass.lookup with
    | none => simpa [ho] using Founded.refl v
    | some o =>
      obtain ⟨-, l₁, l₂, -, rfl⟩ := take?_eq_some ht
      have hw : Founded v { v with waiting := l₁ ++ l₂ } [] := .of_unpublished rfl rfl (by simp)
      simpa [ho] using hw.trans (goOn_moves { v with waiting := l₁ ++ l₂ } t ho).founded

/-- What an event publishes comes from the texts that it leaves. -/
theorem step_founded (v : Validator) (e : Event) :
    Founded (v.step e).1 (v.step e).1 (v.step e).2 := by
  cases e with
  | validate task uri => exact (validateOne_moves v task uri).founded.after
  | reconfigure task uris =>
    exact (validateAll_moves task uris { v with cache := v.cache.clear }).founded.after
  | resume task => exact (resume_founded v task).after
  | cancel task =>
    simp only [step]
    split
    · exact .of_unpublished rfl rfl (by simp)
    · exact .refl v
  | _ => exact .refl _

theorem deliverAll_founded (v : Validator) (rs : List Request) :
    Founded v (process.deliverAll v rs).1 (process.deliverAll v rs).2 := by
  induction rs generalizing v with
  | nil => exact .refl v
  | cons r rs ih => exact (complete_founded v r.lookup _ r.answer.outcome.log).trans (ih _)

theorem resumeAll_founded (v : Validator) (tasks : List Nat) :
    Founded v (process.resumeAll v tasks).1 (process.resumeAll v tasks).2 := by
  induction tasks generalizing v with
  | nil => exact .refl v
  | cons task tasks ih => exact (resume_founded v task).trans (ih _)

theorem round_founded (c : Conversation Validator) :
    Founded c.state (process.round c).1.state (process.round c).2 :=
  (deliverAll_founded _ _).trans (resumeAll_founded _ _)

theorem rounds_founded (c : Conversation Validator) (limit : Nat) :
    Founded c.state (process.rounds c limit).1.state (process.rounds c limit).2 := by
  induction limit generalizing c with
  | zero => exact .refl _
  | succ limit ih =>
    unfold Process.rounds
    split
    · exact .refl _
    · exact (round_founded c).trans (ih (process.round c).1)

/-- **What is published after an event comes from the texts that the documents then have.** -/
theorem act_founded (c : Conversation Validator) (e : Event) :
    Founded (process.act c (·.step e)).1.state (process.act c (·.step e)).1.state
      (process.act c (·.step e)).2 := by
  have hrest : Founded (c.state.step e).1 (process.act c (·.step e)).1.state
      (process.act c (·.step e)).2 :=
    (step_founded c.state e).trans (rounds_founded ⟨_, c.client.takeAll _⟩ _)
  exact hrest.after

end Rounds

end Validator

end CatalogLint
