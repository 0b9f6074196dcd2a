import CatalogLint.Proofs.Settings.Agreement
import CatalogLint.Proofs.Validation.History
import Mathlib.Data.List.Forall2

/-!
# Two validators that agree on all documents but one

One of two runs leaves out all that concerns a document. The two do not agree to the letter on the
others: passes are numbered over all documents, so those over the others have smaller tokens in the
shorter run. But a token matters only as far as it is the latest one of its document, and that is
the same in both runs.

* `subject?`: the document that an event concerns.
* `Apart`: two validators that agree on all documents but one.
* `Apart.skip`: **an event that concerns this document changes nothing for the others.**
* `Apart.step`: **any other event does the same in both runs, up to tokens.**
-/

namespace CatalogLint

/-- The effect without the token of the pass. -/
def Effect.blank {ρ : Type} : Effect ρ → Effect ρ
  | .began _ uri => .began 0 uri
  | .superseded _ uri => .superseded 0 uri
  | .published _ uri ds => .published 0 uri ds
  | .refused _ uri ds => .refused 0 uri ds
  | e => e

/-- The surroundings are the same for all documents but `a`. -/
structure Surroundings.Agree (a : String) (s t : Surroundings) : Prop where
  documents : ∀ u, u ≠ a → t.documents.lookup u = s.documents.lookup u
  elsewhere : t.elsewhere = s.elsewhere
  sink : t.sinkClosed = s.sinkClosed
  fault : t.fault = s.fault

theorem Surroundings.Agree.read {a u : String} {s t : Surroundings} (h : s.Agree a t)
    (hu : u ≠ a) : t.read u = s.read u := by
  unfold Surroundings.read
  rw [h.documents u hu, h.elsewhere]

namespace Validator

/-- The document that an event concerns: the one that it validates, closes or edits, whose lookup it
ends, or that the task which it makes go on or give up waits with a pass over. -/
def subject? (v : Validator) : Event → Option String
  | .validate _ uri | .close uri | .edit uri _ => some uri
  | .complete l _ => some l.uri
  | .resume task | .cancel task => (v.waiting.find? (·.number == task)).map (·.pass.uri)
  | .reconfigure .. | .closeSink _ | .disturb _ => none

/-- An event that is not a change of all settings. -/
def Event.Single (e : Event) : Prop := ∀ task us, e ≠ .reconfigure task us

/-- No task goes through several documents, and each waits for a lookup for its own document. -/
def Plain (v : Validator) : Prop :=
  ∀ t ∈ v.waiting, t.rest = none ∧ t.pass.lookup.uri = t.pass.uri

/-- Two passes over one document other than `a`, one in each run: they wait for the same lookup, and
either both stand or neither does. -/
structure SamePass (a : String) (v w : Validator) (p q : Pass) : Prop where
  other : p.uri ≠ a
  uri : q.uri = p.uri
  lookup : q.lookup = p.lookup
  own : p.lookup.uri = p.uri
  stands : w.latest.lookup p.uri = some q.token ↔ v.latest.lookup p.uri = some p.token
  counted : p.token ≤ v.begun ∧ q.token ≤ w.begun

/-- Two tasks that are the same but for the tokens of their passes. -/
structure SameTask (a : String) (v w : Validator) (t s : Task) : Prop where
  number : s.number = t.number
  rest : s.rest = t.rest
  pass : SamePass a v w t.pass s.pass

/-- **Two validators that agree on all documents but `a`**, of which the second one knows nothing of
`a`. -/
structure Apart (a : String) (v w : Validator) : Prop where
  checks : w.checks = v.checks
  surroundings : v.surroundings.Agree a w.surroundings
  cache : v.cache.Agree a w.cache
  waiting : List.Forall₂ (SameTask a v w) (v.waiting.filter (·.pass.uri ≠ a)) w.waiting

section Passes

variable {a u : String} {v v' w w' : Validator} {p q : Pass} {t : Task}

/-- Passes stay the same while their document keeps its latest token in both runs, or loses it in
both. -/
theorem SamePass.update (h : SamePass a v w p q) (hb : v.begun ≤ v'.begun ∧ w.begun ≤ w'.begun)
    (hl : v'.latest.lookup p.uri = v.latest.lookup p.uri ∧
        w'.latest.lookup p.uri = w.latest.lookup p.uri ∨
      v'.latest.lookup p.uri ≠ some p.token ∧ w'.latest.lookup p.uri ≠ some q.token) :
    SamePass a v' w' p q := by
  have hcounted := h.counted
  refine ⟨h.other, h.uri, h.lookup, h.own, ?_, by omega⟩
  rcases hl with ⟨hv, hw⟩ | ⟨hv, hw⟩
  · rw [hv, hw]
    exact h.stands
  · exact ⟨fun h => absurd h hw, fun h => absurd h hv⟩

/-- If passes stay the same, so do the tasks that they belong to. -/
theorem sameTasks_update {l k : List Task} (h : List.Forall₂ (SameTask a v w) l k)
    (hpass : ∀ p q, SamePass a v w p q → SamePass a v' w' p q) :
    List.Forall₂ (SameTask a v' w') l k :=
  h.imp fun _ _ hs => ⟨hs.number, hs.rest, hpass _ _ hs.pass⟩

/-- Passes do not depend on the surroundings, the cache and who waits. -/
theorem Apart.replace (h : Apart a v w) {s t : Surroundings} (hs : s.Agree a t)
    {c d : SettingsCache} (hc : c.Agree a d) {l k : List Task}
    (hwait : List.Forall₂ (SameTask a v w) (l.filter (·.pass.uri ≠ a)) k) :
    Apart a { v with surroundings := s, cache := c, waiting := l }
      { w with surroundings := t, cache := d, waiting := k } := by
  refine ⟨h.checks, hs, hc, sameTasks_update hwait fun p q hp => ?_⟩
  exact hp.update ⟨Nat.le_refl _, Nat.le_refl _⟩ (.inl ⟨rfl, rfl⟩)

/-- A pass over another document begins in both runs. -/
theorem Apart.begin (h : Apart a v w) (hu : u ≠ a) :
    Apart a (v.begin u).1 (w.begin u).1 ∧
      SamePass a (v.begin u).1 (w.begin u).1 (v.begin u).2.1 (w.begin u).2.1 ∧
      (w.begin u).2.2.map Effect.blank = (v.begin u).2.2.map Effect.blank := by
  obtain ⟨hl, ha, hc⟩ := h.cache.request (ρ := TaskResult) hu
  have hlatest : ∀ (x : Validator) (y : String), (x.begin u).1.latest.lookup y =
      if y = u then some (x.begun + 1) else x.latest.lookup y :=
    fun x y => Table.lookup_set u y _ _
  refine ⟨⟨h.checks, h.surroundings, hc, ?_⟩, ⟨hu, rfl, hl, v.cache.uri_request u, ?_, ?_⟩, ?_⟩
  · refine sameTasks_update h.waiting fun p q hp => ?_
    refine hp.update ⟨Nat.le_succ _, Nat.le_succ _⟩ ?_
    rw [hlatest, hlatest]
    by_cases hpu : p.uri = u
    · -- the new tokens are greater than all others
      have hcounted := hp.counted
      rw [if_pos hpu, if_pos hpu]
      refine .inr ⟨fun he => ?_, fun he => ?_⟩
      · have := Option.some.inj he
        omega
      · have := Option.some.inj he
        omega
    · rw [if_neg hpu, if_neg hpu]
      exact .inl ⟨rfl, rfl⟩
  · have hv : (v.begin u).1.latest.lookup u = some (v.begun + 1) := (hlatest v u).trans (if_pos rfl)
    have hw : (w.begin u).1.latest.lookup u = some (w.begun + 1) := (hlatest w u).trans (if_pos rfl)
    exact ⟨fun _ => hv, fun _ => hw⟩
  · exact ⟨Nat.le_refl _, Nat.le_refl _⟩
  · have heffects : ∀ x : Validator, (x.begin u).2.2 =
        .began (x.begun + 1) u :: (x.cache.request (ρ := TaskResult) u).2.2 := fun _ => rfl
    rw [heffects, heffects, ha]
    rfl

/-- A pass over `a` begins. -/
theorem Apart.begin_left (h : Apart a v w) : Apart a (v.begin a).1 w := by
  refine ⟨h.checks, h.surroundings, h.cache.request_left, ?_⟩
  refine sameTasks_update h.waiting fun p q hp => ?_
  refine hp.update ⟨Nat.le_succ _, Nat.le_refl _⟩ (.inl ⟨?_, rfl⟩)
  exact (Table.lookup_set a p.uri _ _).trans (if_neg hp.other)

theorem Apart.analysis (h : Apart a v w) (u text : String) (s : Settings) :
    w.analysis u text s = v.analysis u text s := by
  unfold Validator.analysis
  rw [h.surroundings.fault, h.checks]

/-- A pass with its text finds and says the same in both runs. -/
theorem Apart.report (h : Apart a v w) (hp : SamePass a v w p q) (s : Settings) (text : String) :
    (w.report q s text).1.map Effect.blank = (v.report p s text).1.map Effect.blank ∧
      (w.report q s text).2 = (v.report p s text).2 := by
  simp only [Validator.report, hp.uri, h.analysis, h.surroundings.sink]
  cases (v.analysis p.uri text s).value with
  | ok ds => cases v.surroundings.sinkClosed <;> simp [Effect.blank]
  | error e =>
    cases e with
    | group g => cases g <;> exact ⟨rfl, rfl⟩
    | _ => exact ⟨rfl, rfl⟩

/-- A pass with its settings goes the same way in both runs. -/
theorem Apart.proceed (h : Apart a v w) (hp : SamePass a v w p q) (s : Settings) :
    (w.proceed q s).1.map Effect.blank = (v.proceed p s).1.map Effect.blank ∧
      (w.proceed q s).2 = (v.proceed p s).2 := by
  simp only [Validator.proceed, hp.uri, h.surroundings.read hp.other]
  by_cases hl : v.latest.lookup p.uri = some p.token
  · rw [if_neg (not_not.2 hl), if_neg (not_not.2 (hp.stands.2 hl))]
    cases v.surroundings.read p.uri with
    | error cause => exact ⟨rfl, rfl⟩
    | ok text => exact h.report hp s text
  · rw [if_pos hl, if_pos fun hw => hl (hp.stands.1 hw)]
    exact ⟨rfl, rfl⟩

/-- **A pass over another document ends in the same way in both runs.** -/
theorem Apart.conclude (h : Apart a v w) (hp : SamePass a v w p q) (o : Outcome) :
    Apart a (v.conclude p o).1 (w.conclude q o).1 ∧
      (w.conclude q o).2.1.map Effect.blank = (v.conclude p o).2.1.map Effect.blank ∧
      (w.conclude q o).2.2 = (v.conclude p o).2.2 := by
  have hafter : Apart a { v with cache := v.cache.receive p.lookup o }
      { w with cache := w.cache.receive q.lookup o } :=
    h.replace h.surroundings (hp.lookup ▸ h.cache.receive _ o) h.waiting
  refine ⟨?_, ?_⟩
  · rw [conclude_fst, conclude_fst]
    exact hafter
  · cases o with
    | ok s =>
      exact hafter.proceed (hp.update ⟨Nat.le_refl _, Nat.le_refl _⟩ (.inl ⟨rfl, rfl⟩)) s
    | error e =>
      simp only [Validator.conclude, hp.uri]
      trivial

/-- A pass over `a` ends. -/
theorem Apart.conclude_left (h : Apart a v w) (hp : p.lookup.uri = a) (o : Outcome) :
    Apart a (v.conclude p o).1 w := by
  rw [conclude_fst]
  exact h.replace h.surroundings (h.cache.receive_left hp o) h.waiting

end Passes

section Tasks

variable {a : String} {v w : Validator} {l k : List Task} {n : Nat} {t : Task}

/-- A number that nobody waits under is one that nobody waits under in the other run. -/
theorem find?_same_none (h : List.Forall₂ (SameTask a v w) (l.filter (·.pass.uri ≠ a)) k)
    (hn : l.find? (·.number == n) = none) : k.find? (·.number == n) = none := by
  induction l generalizing k with
  | nil =>
    cases h
    rfl
  | cons x l ih =>
    rw [List.find?_cons] at hn
    split at hn
    · cases hn
    rename_i hx
    by_cases hxa : x.pass.uri = a
    · rw [List.filter_cons_of_neg (by simpa using hxa)] at h
      exact ih h hn
    · rw [List.filter_cons_of_pos (by simpa using hxa)] at h
      cases h with
      | cons hs hrest =>
        rw [List.find?_cons, hs.number, hx]
        exact ih hrest hn

/-- The task with a number is the same in the other run, if it has a pass over another document, and
so are those that are left. -/
theorem find?_same_some (h : List.Forall₂ (SameTask a v w) (l.filter (·.pass.uri ≠ a)) k)
    (ht : l.find? (·.number == n) = some t) (hta : t.pass.uri ≠ a) :
    ∃ s, k.find? (·.number == n) = some s ∧ SameTask a v w t s ∧
      List.Forall₂ (SameTask a v w) ((l.eraseP (·.number == n)).filter (·.pass.uri ≠ a))
        (k.eraseP (·.number == n)) := by
  induction l generalizing k with
  | nil => cases ht
  | cons x l ih =>
    rw [List.find?_cons] at ht
    rw [List.eraseP_cons]
    split at ht
    · rename_i hx
      obtain rfl := Option.some.inj ht
      rw [List.filter_cons_of_pos (by simpa using hta)] at h
      cases h with
      | @cons _ s _ k hs hrest =>
        refine ⟨s, ?_, hs, ?_⟩
        · rw [List.find?_cons, hs.number, hx]
        · rw [List.eraseP_cons, hs.number, hx]
          exact hrest
    · -- `x` has another number and is left where it is
      rename_i hx
      rw [hx]
      by_cases hxa : x.pass.uri = a
      · rw [List.filter_cons_of_neg (by simpa using hxa)] at h
        rw [cond_false, List.filter_cons_of_neg (by simpa using hxa)]
        exact ih h ht
      · rw [List.filter_cons_of_pos (by simpa using hxa)] at h
        rw [cond_false, List.filter_cons_of_pos (by simpa using hxa)]
        cases h with
        | @cons _ y _ k hs hrest =>
          obtain ⟨s, hfind, hsame, hleft⟩ := ih hrest ht
          refine ⟨s, ?_, hsame, ?_⟩
          · rw [List.find?_cons, hs.number, hx]
            exact hfind
          · rw [List.eraseP_cons, hs.number, hx]
            exact .cons hs hleft

/-- Taking out a task with a pass over `a` leaves the tasks of the others. -/
theorem filter_eraseP (ht : l.find? (·.number == n) = some t) (hta : t.pass.uri = a) :
    (l.eraseP (·.number == n)).filter (·.pass.uri ≠ a) = l.filter (·.pass.uri ≠ a) := by
  induction l with
  | nil => cases ht
  | cons x l ih =>
    rw [List.find?_cons] at ht
    rw [List.eraseP_cons]
    split at ht
    · rename_i hx
      obtain rfl := Option.some.inj ht
      rw [hx, cond_true, List.filter_cons_of_neg (by simpa using hta)]
    · rename_i hx
      rw [hx, cond_false, List.filter_cons, List.filter_cons, ih ht]

end Tasks

section Steps

variable {a b : String} {v w : Validator} {e : Event}

theorem plain_step (hv : v.Plain) (he : e.Single) : (v.step e).1.Plain := by
  have herase : ∀ n, ∀ t ∈ v.waiting.eraseP (·.number == n),
      t.rest = none ∧ t.pass.lookup.uri = t.pass.uri := fun n t ht =>
    hv t (List.mem_of_mem_eraseP ht)
  cases e with
  | validate task u =>
    simp only [step, validateOne]
    split
    · intro t ht
      rcases List.mem_append.1 ht with ht | ht
      · exact hv t ht
      · rw [List.mem_singleton.1 ht]
        exact ⟨rfl, v.cache.uri_request u⟩
    · simp only [conclude_fst]
      exact hv
  | reconfigure task us => exact absurd rfl (he task us)
  | resume task =>
    simp only [step, take?]
    cases ht : v.waiting.find? (·.number == task) with
    | none => exact hv
    | some t =>
      simp only
      cases v.cache.outcome? t.pass.lookup with
      | none => exact hv
      | some o =>
        simp only [goOn, (hv t (List.mem_of_find?_eq_some ht)).1, conclude_fst]
        exact herase task
  | cancel task =>
    simp only [step, take?]
    cases ht : v.waiting.find? (·.number == task) with
    | none => exact hv
    | some t => exact herase task
  | _ => exact hv

/-- **An event that concerns `a` changes nothing for the others.** -/
theorem Apart.skip (h : Apart a v w) (hv : v.Plain) (he : v.subject? e = some a) :
    Apart a (v.step e).1 w := by
  cases e with
  | validate task u =>
    obtain rfl : u = a := Option.some.inj he
    have hbegin := h.begin_left
    simp only [step, validateOne]
    split
    · refine hbegin.replace hbegin.surroundings hbegin.cache ?_
      -- the new task has a pass over `a`, and so is not among those that are compared
      have hown : (v.begin u).2.1.uri = u := rfl
      rw [List.filter_append, List.filter_cons_of_neg (by simpa using hown), List.filter_nil,
        List.append_nil]
      exact hbegin.waiting
    · exact hbegin.conclude_left (v.cache.uri_request u) _
  | close u =>
    obtain rfl : u = a := Option.some.inj he
    refine ⟨h.checks, h.surroundings, h.cache.evict_left, ?_⟩
    refine sameTasks_update h.waiting fun p q hp => ?_
    refine hp.update ⟨Nat.le_refl _, Nat.le_refl _⟩ (.inl ⟨?_, rfl⟩)
    exact (Table.lookup_erase u p.uri _).trans (if_neg hp.other)
  | edit u text =>
    obtain rfl : u = a := Option.some.inj he
    have hs : (v.step (.edit u text)).1.surroundings.Agree u w.surroundings := by
      refine ⟨fun x hx => ?_, h.surroundings.elsewhere, h.surroundings.sink, h.surroundings.fault⟩
      rw [h.surroundings.documents x hx]
      cases text with
      | some t => exact ((Table.lookup_set u x t _).trans (if_neg hx)).symm
      | none => exact ((Table.lookup_erase u x _).trans (if_neg hx)).symm
    exact h.replace hs h.cache h.waiting
  | complete l o =>
    have hl : l.uri = a := Option.some.inj he
    exact h.replace h.surroundings (h.cache.complete_left hl o) h.waiting
  | resume task =>
    cases ht : v.waiting.find? (·.number == task) with
    | none => simp [subject?, ht] at he
    | some t =>
      have hta : t.pass.uri = a := by simpa [subject?, ht] using he
      obtain ⟨hrest, hown⟩ := hv t (List.mem_of_find?_eq_some ht)
      simp only [step, take?, ht]
      cases v.cache.outcome? t.pass.lookup with
      | none => exact h
      | some o =>
        simp only [goOn, hrest]
        have htaken : Apart a { v with waiting := v.waiting.eraseP (·.number == task) } w :=
          h.replace h.surroundings h.cache (by rw [filter_eraseP ht hta]; exact h.waiting)
        exact htaken.conclude_left (hown.trans hta) o
  | cancel task =>
    cases ht : v.waiting.find? (·.number == task) with
    | none => simp [subject?, ht] at he
    | some t =>
      have hta : t.pass.uri = a := by simpa [subject?, ht] using he
      simp only [step, take?, ht]
      exact h.replace h.surroundings h.cache (by rw [filter_eraseP ht hta]; exact h.waiting)
  | _ => cases he

/-- A pass over another document is asked for in both runs. -/
theorem Apart.validateOne (h : Apart a v w) {u : String} (hu : u ≠ a) (task : Nat) :
    Apart a (v.validateOne task u).1 (w.validateOne task u).1 ∧
      (w.validateOne task u).2.map Effect.blank = (v.validateOne task u).2.map Effect.blank := by
  obtain ⟨hbegin, hpass, hbegun⟩ := h.begin hu
  have hl : (v.begin u).2.1.lookup.uri ≠ a := by
    rw [hpass.own]
    exact hu
  simp only [Validator.validateOne]
  rw [hpass.lookup, hbegin.cache.outcome? hl]
  cases (v.begin u).1.cache.outcome? (v.begin u).2.1.lookup with
  | none =>
    refine ⟨hbegin.replace hbegin.surroundings hbegin.cache ?_, hbegun⟩
    rw [List.filter_append, List.filter_cons_of_pos (by simpa using hpass.other), List.filter_nil]
    exact List.rel_append hbegin.waiting (.cons ⟨rfl, rfl, hpass⟩ .nil)
  | some o =>
    obtain ⟨hafter, heffects, hresult⟩ := hbegin.conclude hpass o
    refine ⟨hafter, ?_⟩
    simp only [List.map_append, hbegun, heffects, hresult]

/-- A task with a pass over another document goes on in both runs. -/
theorem Apart.goOn (h : Apart a v w) {t s : Task} (hs : SameTask a v w t s) (hrest : t.rest = none)
    (o : Outcome) : Apart a (v.goOn t o).1 (w.goOn s o).1 ∧
      (w.goOn s o).2.map Effect.blank = (v.goOn t o).2.map Effect.blank := by
  obtain ⟨hafter, heffects, hresult⟩ := h.conclude hs.pass o
  simp only [Validator.goOn, hs.rest, hrest]
  refine ⟨hafter, ?_⟩
  simp only [List.map_append, heffects, hresult, hs.number]

/-- **An event that does not concern `a` does the same in both runs, up to tokens.** -/
theorem Apart.step (h : Apart a v w) (hv : v.Plain) (he : v.subject? e ≠ some a)
    (hsingle : e.Single) : Apart a (v.step e).1 (w.step e).1 ∧
      (w.step e).2.map Effect.blank = (v.step e).2.map Effect.blank := by
  cases e with
  | validate task u => exact h.validateOne (by simpa [subject?] using he) task
  | close u =>
    refine ⟨⟨h.checks, h.surroundings, h.cache.evict u, ?_⟩, rfl⟩
    refine sameTasks_update h.waiting fun p q hp => hp.update ⟨Nat.le_refl _, Nat.le_refl _⟩ ?_
    simp only [Validator.step, Table.lookup_erase]
    by_cases hpu : p.uri = u
    · -- a pass over the document that is closed no longer stands in either run
      rw [if_pos hpu, if_pos hpu]
      exact .inr ⟨by simp, by simp⟩
    · rw [if_neg hpu, if_neg hpu]
      exact .inl ⟨rfl, rfl⟩
  | reconfigure task us => exact absurd rfl (hsingle task us)
  | edit u text =>
    have hs : (v.step (.edit u text)).1.surroundings.Agree a
        (w.step (.edit u text)).1.surroundings := by
      refine ⟨fun x hx => ?_, h.surroundings.elsewhere, h.surroundings.sink, h.surroundings.fault⟩
      cases text <;> simp [Validator.step, h.surroundings.documents x hx]
    exact ⟨h.replace hs h.cache h.waiting, rfl⟩
  | closeSink closed =>
    have hs : (v.step (.closeSink closed)).1.surroundings.Agree a
        (w.step (.closeSink closed)).1.surroundings :=
      ⟨h.surroundings.documents, h.surroundings.elsewhere, rfl, h.surroundings.fault⟩
    exact ⟨h.replace hs h.cache h.waiting, rfl⟩
  | disturb fault =>
    have hs : (v.step (.disturb fault)).1.surroundings.Agree a
        (w.step (.disturb fault)).1.surroundings :=
      ⟨h.surroundings.documents, h.surroundings.elsewhere, h.surroundings.sink, rfl⟩
    exact ⟨h.replace hs h.cache h.waiting, rfl⟩
  | complete l o =>
    exact ⟨h.replace h.surroundings (h.cache.complete l o) h.waiting, rfl⟩
  | resume task =>
    simp only [Validator.step, take?]
    cases ht : v.waiting.find? (·.number == task) with
    | none =>
      rw [find?_same_none h.waiting ht]
      exact ⟨h, rfl⟩
    | some t =>
      have hta : t.pass.uri ≠ a := by simpa [subject?, ht] using he
      obtain ⟨hrest, hown⟩ := hv t (List.mem_of_find?_eq_some ht)
      obtain ⟨s, hfind, hsame, hleft⟩ := find?_same_some h.waiting ht hta
      rw [hfind]
      simp only [hsame.pass.lookup, h.cache.outcome? (hown ▸ hta)]
      cases v.cache.outcome? t.pass.lookup with
      | none => exact ⟨h, rfl⟩
      | some o =>
        have htaken : Apart a { v with waiting := v.waiting.eraseP (·.number == task) }
            { w with waiting := w.waiting.eraseP (·.number == task) } :=
          h.replace h.surroundings h.cache hleft
        refine htaken.goOn ⟨hsame.number, hsame.rest, ?_⟩ hrest o
        exact hsame.pass.update ⟨Nat.le_refl _, Nat.le_refl _⟩ (.inl ⟨rfl, rfl⟩)
  | cancel task =>
    simp only [Validator.step, take?]
    cases ht : v.waiting.find? (·.number == task) with
    | none =>
      rw [find?_same_none h.waiting ht]
      exact ⟨h, rfl⟩
    | some t =>
      have hta : t.pass.uri ≠ a := by simpa [subject?, ht] using he
      obtain ⟨s, hfind, hsame, hleft⟩ := find?_same_some h.waiting ht hta
      rw [hfind]
      exact ⟨h.replace h.surroundings h.cache hleft, rfl⟩

/-- An event that does not concern `a` concerns the same document in both runs. -/
theorem Apart.subject? (h : Apart a v w) (he : v.subject? e ≠ some a) :
    w.subject? e = v.subject? e := by
  have htask : ∀ n, (v.waiting.find? (·.number == n)).map (·.pass.uri) ≠ some a →
      (w.waiting.find? (·.number == n)).map (·.pass.uri) =
        (v.waiting.find? (·.number == n)).map (·.pass.uri) := by
    intro n hn
    cases ht : v.waiting.find? (·.number == n) with
    | none => rw [find?_same_none h.waiting ht]
    | some t =>
      obtain ⟨s, hfind, hsame, -⟩ := find?_same_some h.waiting ht (by simpa [ht] using hn)
      rw [hfind, Option.map_some, Option.map_some, hsame.pass.uri]
  cases e with
  | resume task => exact htask task he
  | cancel task => exact htask task he
  | _ => rfl

end Steps

end Validator

end CatalogLint
