import CatalogLint.Proofs.Settings.Callers

/-!
# One lookup for all, and never an old one

A lookup is begun only when none is kept, and one that is kept goes only when its document is
forgotten or when it has failed. So every lookup but the first is paid for by an event that forgets
or by a failure. The failure counts from the moment at which the lookup ends, long before a caller
sees it: a lookup that is kept and has failed is one that the cache could do without.

Callers hold on to the lookup that they took up, whatever becomes of the cache.

* `Paid`, `Paid.turn`: lookups are paid for, and **every turn keeps this**.
* `Traced`, `Traced.turn`: where the lookups come from that are kept or waited for.
* `one_lookup_for_all`: **how many lookups are begun, and which one a caller gets.**
-/

namespace CatalogLint

/-- Whether a lookup has failed. -/
def Lookup.failed (l : Lookup) : Bool :=
  match l.outcome with
  | some (.error _) => true
  | _ => false

namespace SettingsCache

/-- How many lookups have been made for a document. -/
def made (c : SettingsCache) (uri : String) : Nat := c.ids.countP (·.uri == uri)

/-- How many lookups for a document have failed. -/
def failures (c : SettingsCache) (uri : String) : Nat :=
  c.lookups.countP fun l => l.id.uri == uri && l.failed

/-- A lookup that has not failed is kept for the document. -/
def Live (c : SettingsCache) (uri : String) : Prop :=
  ∃ l, c.kept? uri = some l ∧ ∀ e, c.outcome? l ≠ some (.error e)

section Counting

variable (c : SettingsCache) {uri : String} {l l' : LookupId} {o : Outcome}

theorem failures_start (l : LookupId) (uri : String) :
    (c.start l).failures uri = c.failures uri := by
  simp [failures, start, Lookup.failed]

theorem failures_receive (l : LookupId) (o : Outcome) (uri : String) :
    (c.receive l o).failures uri = c.failures uri := by
  rw [failures, lookups_receive, failures]

/-- What has failed stays so when lookups end. -/
theorem failures_complete_le (l : LookupId) (o : Outcome) (uri : String) :
    c.failures uri ≤ (c.complete l o).failures uri := by
  unfold failures complete
  rw [List.countP_map]
  refine List.countP_mono_left fun x _ hx => ?_
  simp only [Function.comp_apply]
  split
  · obtain ⟨hu, hf⟩ := Bool.and_eq_true_iff.1 hx
    -- a lookup that has failed has an outcome already, and keeps it
    have hout : ∃ e, x.outcome = some (.error e) := by
      unfold Lookup.failed at hf
      split at hf
      · exact ⟨_, by assumption⟩
      · cases hf
    obtain ⟨e, he⟩ := hout
    simp only [he, Option.some_or, hu, Bool.true_and]
    rfl
  · exact hx

/-- A lookup that fails is one failure more. -/
theorem failures_complete_lt (hl : l ∈ c.ids) (ho : c.outcome? l = none) (e : LookupError) :
    c.failures l.uri < (c.complete l (.error e)).failures l.uri := by
  obtain ⟨y, hy, hyl⟩ := List.mem_map.1 hl
  cases hfind : c.lookups.find? (·.id == l) with
  | none =>
    rw [List.find?_eq_none] at hfind
    exact absurd (beq_iff_eq.2 hyl) (hfind y hy)
  | some x =>
    obtain ⟨hx, l₁, l₂, hsplit, -⟩ := List.find?_eq_some_iff_append.1 hfind
    have hxl : x.id = l := by simpa using hx
    have hout : x.outcome = none := by simpa [outcome?, hfind] using ho
    -- the lookups before it and after it fail as before, and it fails now
    have h₁ := failures_complete_le { c with lookups := l₁ } l (.error e) l.uri
    have h₂ := failures_complete_le { c with lookups := l₂ } l (.error e) l.uri
    simp only [failures, complete] at h₁ h₂ ⊢
    have hnot : x.failed = false := by simp [Lookup.failed, hout]
    have hnow : ({ x with outcome := x.outcome.or (some (.error e)) } : Lookup).failed = true := by
      simp [Lookup.failed, hout]
    rw [hsplit, List.map_append, List.map_cons, List.countP_append, List.countP_append,
      List.countP_cons, List.countP_cons, if_pos hxl, hnot, hnow]
    simp only [hxl, beq_self_eq_true, Bool.true_and, Bool.false_eq_true, if_true, if_false]
    omega

variable {c}

/-- Callers take out only what has failed. -/
theorem Live.receive (hlive : c.Live uri) (ho : c.outcome? l' = some o) :
    (c.receive l' o).Live uri := by
  obtain ⟨l, hk, hl⟩ := hlive
  have hout : (c.receive l' o).outcome? l = c.outcome? l := by
    rw [outcome?, lookups_receive, outcome?]
  refine ⟨l, ?_, fun e => hout ▸ hl e⟩
  cases o with
  | ok s => exact hk
  | error e =>
    have hne : c.kept? uri ≠ some l' := by
      rw [hk]
      rintro ⟨⟩
      exact hl e ho
    exact (c.kept?_forget l' uri).trans ((if_neg hne).trans hk)

/-- A lookup that ends is live on, unless it is one failure more. -/
theorem Live.complete (hs : c.Sound) (hlive : c.Live uri) (l' : LookupId) (o : Outcome) :
    (c.complete l' o).Live uri ∨ c.failures uri < (c.complete l' o).failures uri := by
  obtain ⟨l, hk, hl⟩ := hlive
  by_cases hf : ∃ e, (c.complete l' o).outcome? l = some (.error e)
  · obtain ⟨e, he⟩ := hf
    right
    obtain rfl := c.uri_of_kept? hk
    have hnone : c.outcome? l = none := by
      cases hx : c.outcome? l with
      | none => rfl
      | some o' =>
        rw [c.outcome?_complete_of_some hx] at he
        exact absurd (hx.trans he) (hl e)
    have hll : l = l' := by
      by_contra hne
      rw [outcome?_complete, if_neg hne, hnone] at he
      cases he
    have ho : o = .error e := by
      rcases c.eq_or_of_outcome?_complete he with h | h
      · exact h.symm
      · exact absurd h (hl e)
    subst hll ho
    exact c.failures_complete_lt (hs.kept _ _ hk) hnone e
  · exact .inl ⟨l, hk, fun e he => hf ⟨e, he⟩⟩

end Counting

end SettingsCache

namespace Retrieval

/-- The lookup that an effect begins. -/
def asked? : Effect Retrieved → Option LookupId
  | .asked l => some l
  | _ => none

/-- The lookups that are begun, in order. -/
def begun (effects : List (Effect Retrieved)) : List LookupId := effects.filterMap asked?

/-- **Lookups are paid for.** Those that have been begun are those that were made, and for each
document there are at most as many as events that forget it and failures, and one more while one is
kept that has not failed. -/
structure Paid (uri : String) (es : List Event) (r : Retrieval)
    (effects : List (Effect Retrieved)) : Prop where
  begun : begun effects = r.cache.ids
  bound : r.cache.made uri ≤ 1 + es.countP (·.forgets uri) + r.cache.failures uri
  spare : ¬ r.cache.Live uri → r.cache.made uri ≤ es.countP (·.forgets uri) + r.cache.failures uri

section Paid

variable {uri : String} {es : List Event} {r r' : Retrieval} {e : Event}
  {effects new : List (Effect Retrieved)}

theorem countP_concat (es : List Event) (e : Event) (uri : String) :
    (es ++ [e]).countP (·.forgets uri) =
      es.countP (·.forgets uri) + if e.forgets uri then 1 else 0 := by
  rw [List.countP_append, List.countP_singleton]

/-- Where no lookup is made, what was live stays so, or its loss is paid for. -/
theorem Paid.shift (hp : Paid uri es r effects) (hids : r'.cache.ids = r.cache.ids)
    (hnew : Retrieval.begun new = []) (hf : r.cache.failures uri ≤ r'.cache.failures uri)
    (hlive : r.cache.Live uri → r'.cache.Live uri ∨ e.forgets uri = true ∨
      r.cache.failures uri < r'.cache.failures uri) : Paid uri (es ++ [e]) r' (effects ++ new) := by
  have hmade : r'.cache.made uri = r.cache.made uri := by
    unfold SettingsCache.made
    rw [hids]
  have hcount := countP_concat es e uri
  have hbound := hp.bound
  refine ⟨?_, ?_, fun hdead => ?_⟩
  · have hb := hp.begun
    unfold Retrieval.begun at hb hnew ⊢
    rw [List.filterMap_append, hb, hnew, List.append_nil, hids]
  · omega
  · by_cases hl : r.cache.Live uri
    · rcases hlive hl with h | h | h
      · exact absurd h hdead
      · rw [if_pos h] at hcount
        omega
      · omega
    · have hspare := hp.spare hl
      omega

/-- A lookup is begun when none is kept, so there is one to spare. -/
theorem Paid.ask (hp : Paid uri es r effects) (hs : r.cache.Sound) (task : Nat) {u : String}
    (hk : r.cache.kept? u = none) (waiting : List Waiter) :
    Paid uri (es ++ [.get task u]) ⟨r.cache.start (r.cache.next u), waiting⟩
      (effects ++ [.asked (r.cache.next u)]) := by
  have hcount := countP_concat es (.get task u) uri
  have hfail := r.cache.failures_start (r.cache.next u) uri
  have hmade : (r.cache.start (r.cache.next u)).made uri =
      r.cache.made uri + if u = uri then 1 else 0 := by
    simp [SettingsCache.made, List.countP_singleton]
  have hbound := hp.bound
  rw [if_neg (by simp [Event.forgets])] at hcount
  refine ⟨?_, ?_, fun hdead => ?_⟩
  · have hb := hp.begun
    unfold Retrieval.begun at hb ⊢
    rw [List.filterMap_append, hb, SettingsCache.ids_start]
    rfl
  · by_cases hu : u = uri
    · subst hu
      have hdead : ¬ r.cache.Live u := by
        rintro ⟨l, hl, -⟩
        rw [hk] at hl
        cases hl
      have hspare := hp.spare hdead
      rw [if_pos rfl] at hmade
      simp only
      omega
    · rw [if_neg hu] at hmade
      simp only
      omega
  · by_cases hu : u = uri
    · -- the new lookup is kept and has not failed
      refine absurd ⟨r.cache.next u, ?_, fun e he => ?_⟩ hdead
      · rw [SettingsCache.kept?_start, SettingsCache.uri_next, if_pos hu.symm]
      · rw [SettingsCache.outcome?_start, hs.outcome?_next] at he
        cases he
    · -- a lookup for another document leaves what is kept for this one
      have hdead' : ¬ r.cache.Live uri := by
        rintro ⟨l, hl, ho⟩
        refine hdead ⟨l, ?_, fun e => ?_⟩
        · rw [SettingsCache.kept?_start, SettingsCache.uri_next, if_neg (Ne.symm hu)]
          exact hl
        · rw [SettingsCache.outcome?_start]
          exact ho e
      have hspare := hp.spare hdead'
      rw [if_neg hu] at hmade
      simp only
      omega

/-- **Every turn keeps lookups paid for.** -/
theorem Paid.turn (hp : Paid uri es r effects) (hs : r.cache.Sound) (ht : Turn r e r' new) :
    Paid uri (es ++ [e]) r' (effects ++ new) := by
  -- what a caller takes out has been paid for since it failed
  have hreceive : ∀ {l o} (waiting : List Waiter) (task : Nat), r.cache.outcome? l = some o →
      Paid uri (es ++ [e]) ⟨r.cache.receive l o, waiting⟩
        (effects ++ [.finished task (.outcome l o)]) := by
    intro l o waiting task ho
    have hf : (r.cache.receive l o).failures uri = r.cache.failures uri :=
      r.cache.failures_receive l o uri
    exact hp.shift (r.cache.ids_receive l o) rfl (Nat.le_of_eq hf.symm) fun hl =>
      .inl (hl.receive ho)
  cases ht with
  | ask task hk => exact hp.ask hs task hk _
  | join task hk ho => exact hp.shift rfl rfl (Nat.le_refl _) .inl
  | serve task hk ho => exact hreceive _ _ ho
  | evict u =>
    refine hp.shift rfl rfl (Nat.le_refl _) ?_
    rintro ⟨l, hl, ho⟩
    by_cases hu : u = uri
    · exact .inr (.inl (by simp [Event.forgets, hu]))
    · refine .inl ⟨l, ?_, ho⟩
      rw [SettingsCache.kept?_evict, if_neg (Ne.symm hu)]
      exact hl
  | clear => exact hp.shift rfl rfl (Nat.le_refl _) fun _ => .inr (.inl rfl)
  | complete l o =>
    refine hp.shift (r.cache.ids_complete l o) rfl (r.cache.failures_complete_le l o uri)
      fun hl => ?_
    exact (hl.complete hs l o).imp_right .inr
  | resume hw ho => exact hreceive _ _ ho
  | cancel hw => exact hp.shift rfl rfl (Nat.le_refl _) .inl
  | idle e he => exact hp.shift rfl rfl (Nat.le_refl _) .inl

/-- Lookups are paid for throughout every run. -/
theorem run_paid (uri : String) (es : List Event) : Paid uri es (run {} es).1 (run {} es).2 := by
  have h0 : Paid uri [] {} [] := ⟨rfl, Nat.zero_le _, fun _ => Nat.zero_le _⟩
  exact run_keeps (fun _ hs ht hp => hp.turn hs ht) SettingsCache.sound_empty es [] [] h0

end Paid

/-- The lookup `l` was begun at one of these events, and its document was not forgotten since. -/
def Fresh (l : LookupId) (es : List Event) : Prop :=
  ∃ older e newer, es = older ++ e :: newer ∧ .asked l ∈ ((run {} older).1.step e).2 ∧
    ∀ x ∈ newer, x.forgets l.uri = false

/-- At one of these events `task` called for the settings of a document, and took up the lookup `l`
for it: that was kept at the time, or begun by this very call, and it was fresh. -/
def TookUp (task : Nat) (l : LookupId) (es : List Event) : Prop :=
  ∃ before after, es = before ++ .get task l.uri :: after ∧
    ((run {} before).1.cache.kept? l.uri = some l ∨
      .asked l ∈ ((run {} before).1.step (.get task l.uri)).2) ∧
    Fresh l (before ++ [.get task l.uri])

/-- **Where lookups come from**: one that is kept is fresh, and one that is waited for was taken up
by the caller that waits. -/
structure Traced (es : List Event) (r : Retrieval) : Prop where
  state : r = (run {} es).1
  kept : ∀ uri l, r.cache.kept? uri = some l → Fresh l es
  waiting : ∀ w ∈ r.waiting, TookUp w.task w.lookup es

section Traced

variable {es : List Event} {r r' : Retrieval} {e : Event} {effects : List (Effect Retrieved)}
  {task : Nat} {uri : String} {l : LookupId} {o : Outcome}

theorem Fresh.concat (hl : Fresh l es) (he : e.forgets l.uri = false) : Fresh l (es ++ [e]) := by
  obtain ⟨older, e', newer, rfl, ha, hn⟩ := hl
  refine ⟨older, e', newer ++ [e], by simp, ha, fun x hx => ?_⟩
  rcases List.mem_append.1 hx with hx | hx
  · exact hn x hx
  · rw [List.mem_singleton.1 hx]
    exact he

theorem TookUp.concat (hl : TookUp task l es) (e : Event) : TookUp task l (es ++ [e]) := by
  obtain ⟨before, after, rfl, hl⟩ := hl
  exact ⟨before, after ++ [e], by simp, hl⟩

/-- Whoever finds a lookup kept takes up a fresh one. -/
theorem Traced.tookUp (hk : Traced es r) (task : Nat) (hl : r.cache.kept? uri = some l) :
    TookUp task l (es ++ [.get task uri]) := by
  obtain rfl := r.cache.uri_of_kept? hl
  refine ⟨es, [], rfl, .inl (hk.state ▸ hl), (hk.kept _ _ hl).concat rfl⟩

/-- **Every turn keeps track of lookups.** -/
theorem Traced.turn (hk : Traced es r) (ht : Turn r e (r.step e).1 (r.step e).2) :
    Traced (es ++ [e]) (r.step e).1 := by
  have hasked : ∀ l, .asked l ∈ (r.step e).2 → Fresh l (es ++ [e]) := by
    intro l hl
    refine ⟨es, e, [], rfl, ?_, by simp⟩
    rwa [← hk.state]
  refine ⟨?_, fun uri l hl => ?_, fun w hw => ?_⟩
  · rw [run_concat, ← hk.state]
  · rcases ht.kept_of hl with ⟨hl, he⟩ | hl
    · obtain rfl := r.cache.uri_of_kept? hl
      exact (hk.kept _ _ hl).concat he
    · exact hasked l hl
  · rcases ht.waiting_of hw with hw | ⟨rfl, hl | hl⟩
    · exact (hk.waiting w hw).concat e
    · exact hk.tookUp _ hl
    · refine ⟨es, [], rfl, .inr ?_, hasked _ hl⟩
      rwa [← hk.state]

/-- Lookups are kept track of throughout every run. -/
theorem run_traced (es : List Event) : Traced es (run {} es).1 := by
  have h0 : Traced [] {} := ⟨rfl, by simp [SettingsCache.kept?], by simp⟩
  exact run_keeps (Q := fun es r _ => Traced es r) (fun _ _ ht hk => hk.turn ht)
    SettingsCache.sound_empty es [] [] h0

end Traced

/-- **One lookup for all who ask, and never an old one.** In every run of a new cache:
* the lookups begun for a document are at most one more than the events that forget it and its
  lookups that have failed;
* a caller that ends with an outcome ends with that of one lookup for its document, which was kept
  when it called or which its call began, and which was begun after the last event before the call
  that forgot the document;
* a caller that gives up leaves all lookups, and everyone else, as they are. -/
theorem one_lookup_for_all (es : List Event) :
    let r := (run {} es).1
    (∀ uri, (begun (run {} es).2).countP (·.uri == uri) ≤
      1 + es.countP (·.forgets uri) + r.cache.failures uri) ∧
    (∀ e task l o, .finished task (.outcome l o) ∈ (r.step e).2 →
      r.cache.outcome? l = some o ∧ TookUp task l (es ++ [e])) ∧
    ∀ task, (r.step (.cancel task)).1.cache = r.cache ∧ begun (r.step (.cancel task)).2 = [] ∧
      (r.step (.cancel task)).1.waiting.filter (·.task ≠ task) =
        r.waiting.filter (·.task ≠ task) := by
  intro r
  have hs : r.cache.Sound := sound_run es
  have hk : Traced es r := run_traced es
  refine ⟨fun uri => ?_, fun e task l o hf => ?_, fun task => ?_⟩
  · have hp := run_paid uri es
    rw [hp.begun]
    exact hp.bound
  · obtain ⟨ho, -, ⟨rfl, hw⟩ | ⟨rfl, hl⟩⟩ := (step_turn hs e).of_outcome hf
    · exact ⟨ho, (hk.waiting _ hw).concat _⟩
    · exact ⟨ho, hk.tookUp task hl⟩
  · have ht := step_turn hs (.cancel task)
    generalize (r.step (.cancel task)).1 = r', (r.step (.cancel task)).2 = new at ht
    cases ht with
    | cancel hw => exact ⟨rfl, rfl, by simp [hw]⟩
    | idle e he => exact ⟨rfl, rfl, rfl⟩

/-- The bound is reached: the document is forgotten while a caller waits, the next lookup fails, and
the caller after that begins a third one. -/
example :
    let es : List Event := [.get 1 "a", .evict "a", .get 2 "a",
      .complete ⟨"a", 1⟩ (.error .namedValues), .resume 2, .get 3 "a"]
    begun (run {} es).2 = [⟨"a", 0⟩, ⟨"a", 1⟩, ⟨"a", 2⟩] ∧ es.countP (·.forgets "a") = 1 ∧
      (run {} es).1.cache.failures "a" = 1 := by
  decide +kernel

end Retrieval

end CatalogLint
