import CatalogLint.Proofs.Settings.Lookups
import CatalogLint.Settings.Retrieval

/-!
# Callers of the cache, event by event

A caller takes up the lookup that is kept for its document, or a new one, and gets the outcome of
that lookup and of no other. What happens to the cache and to its callers at an event is one of a
few turns, and all that is said about runs is said about turns first.

* `Turn`: what an event can do.
* `step_turn`: **every event is a turn**, as long as lookups are numbered as they are made.
* `run_keeps`: **what every turn keeps holds throughout every run.**
* `Turn.kept_of`, `Turn.waiting_of`: where lookups come from that are kept or waited for.
* `Turn.of_outcome`: when a caller ends with the outcome of a lookup.
-/

namespace CatalogLint.Retrieval

/-- What an event can do to a cache and its callers, and the effects of it. -/
inductive Turn (r : Retrieval) : Event → Retrieval → List (Effect Retrieved) → Prop where
  /-- Nothing is kept for the document: the caller begins a lookup, and waits. -/
  | ask (task : Nat) {uri : String} (hk : r.cache.kept? uri = none) :
      Turn r (.get task uri)
        ⟨r.cache.start (r.cache.next uri), r.waiting ++ [⟨task, r.cache.next uri⟩]⟩
        [.asked (r.cache.next uri)]
  /-- The lookup that is kept is under way: the caller waits for it. -/
  | join (task : Nat) {uri : String} {l : LookupId} (hk : r.cache.kept? uri = some l)
      (ho : r.cache.outcome? l = none) :
      Turn r (.get task uri) ⟨r.cache, r.waiting ++ [⟨task, l⟩]⟩ []
  /-- The lookup that is kept has ended: the caller gets its outcome at once. -/
  | serve (task : Nat) {uri : String} {l : LookupId} {o : Outcome}
      (hk : r.cache.kept? uri = some l) (ho : r.cache.outcome? l = some o) :
      Turn r (.get task uri) ⟨r.cache.receive l o, r.waiting⟩ [.finished task (.outcome l o)]
  | evict (uri : String) : Turn r (.evict uri) ⟨r.cache.evict uri, r.waiting⟩ []
  | clear : Turn r .clear ⟨r.cache.clear, r.waiting⟩ []
  | complete (l : LookupId) (o : Outcome) :
      Turn r (.complete l o) ⟨r.cache.complete l o, r.waiting⟩ []
  /-- A caller goes on with the outcome of the lookup that it waited for. -/
  | resume {w : Waiter} {l₁ l₂ : List Waiter} {o : Outcome} (hw : r.waiting = l₁ ++ w :: l₂)
      (ho : r.cache.outcome? w.lookup = some o) :
      Turn r (.resume w.task) ⟨r.cache.receive w.lookup o, l₁ ++ l₂⟩
        [.finished w.task (.outcome w.lookup o)]
  /-- A caller gives up. -/
  | cancel {w : Waiter} {l₁ l₂ : List Waiter} (hw : r.waiting = l₁ ++ w :: l₂) :
      Turn r (.cancel w.task) ⟨r.cache, l₁ ++ l₂⟩ [.finished w.task .cancelled]
  /-- There is no such caller, or its lookup is still under way. -/
  | idle (e : Event) (he : ∃ task, e = .resume task ∨ e = .cancel task) : Turn r e r []

/-- Whether an event forgets whatever is kept for a document. -/
def Event.forgets (uri : String) : Event → Bool
  | .evict u => u == uri
  | .clear => true
  | _ => false

section Steps

variable {r r' : Retrieval} {e : Event} {effects : List (Effect Retrieved)} {uri : String}
  {l : LookupId}

/-- What taking a caller out of those that wait leaves. -/
theorem take?_eq_some {task : Nat} {w : Waiter} (h : r.take? task = some (w, r')) :
    w.task = task ∧ ∃ l₁ l₂, r.waiting = l₁ ++ w :: l₂ ∧ r' = ⟨r.cache, l₁ ++ l₂⟩ := by
  unfold take? at h
  cases hf : r.waiting.find? (·.task == task) with
  | none => rw [hf] at h; cases h
  | some x =>
    rw [hf] at h
    obtain ⟨rfl, rfl⟩ := Prod.mk.inj (Option.some.inj h)
    obtain ⟨hx, l₁, l₂, hw, hrest⟩ := split_of_find? hf
    exact ⟨by simpa using hx, l₁, l₂, hw, by rw [hrest]⟩

/-- A caller for whose document nothing is kept begins a lookup, and waits. -/
theorem step_get_of_none (hs : r.cache.Sound) (hk : r.cache.kept? uri = none) (task : Nat) :
    r.step (.get task uri) =
      (⟨r.cache.start (r.cache.next uri), r.waiting ++ [⟨task, r.cache.next uri⟩]⟩,
        [.asked (r.cache.next uri)]) := by
  -- a lookup that is only beginning has no outcome
  have ho : (r.cache.start (r.cache.next uri)).outcome? (r.cache.next uri) = none := by
    rw [SettingsCache.outcome?_start]
    exact hs.outcome?_next uri
  simp only [step, SettingsCache.request, hk, ho]

/-- **Every event is a turn.** -/
theorem step_turn (hs : r.cache.Sound) (e : Event) : Turn r e (r.step e).1 (r.step e).2 := by
  cases e with
  | get task uri =>
    rcases r.cache.request_cases (ρ := Retrieved) uri with ⟨l, hk, hr⟩ | ⟨hk, -⟩
    · cases ho : r.cache.outcome? l with
      | none => simpa only [step, hr, ho] using Turn.join task hk ho
      | some o => simpa only [step, hr, ho, finish, List.nil_append] using Turn.serve task hk ho
    · rw [step_get_of_none hs hk task]
      exact .ask task hk
  | evict uri => exact .evict uri
  | clear => exact .clear
  | complete l o => exact .complete l o
  | resume task =>
    have hidle := Turn.idle (r := r) (.resume task) ⟨task, .inl rfl⟩
    simp only [step]
    cases ht : r.take? task with
    | none => exact hidle
    | some x =>
      obtain ⟨w, rest⟩ := x
      obtain ⟨rfl, l₁, l₂, hw, rfl⟩ := take?_eq_some ht
      cases ho : r.cache.outcome? w.lookup with
      | none => simpa only [ho] using hidle
      | some o => simpa only [ho, finish] using Turn.resume hw ho
  | cancel task =>
    simp only [step]
    cases ht : r.take? task with
    | none => exact .idle _ ⟨task, .inr rfl⟩
    | some x =>
      obtain ⟨w, rest⟩ := x
      obtain ⟨rfl, l₁, l₂, hw, rfl⟩ := take?_eq_some ht
      exact .cancel hw

/-- Lookups stay numbered as they are made. -/
theorem Turn.sound (ht : Turn r e r' effects) (hs : r.cache.Sound) : r'.cache.Sound := by
  have hreceive : ∀ l o, (r.cache.receive l o).Sound := fun l o =>
    hs.of_ids (r.cache.ids_receive l o) fun _ _ => r.cache.kept?_of_receive
  cases ht with
  | ask task hk => exact hs.start _
  | join task hk ho => exact hs
  | serve task hk ho => exact hreceive _ _
  | evict uri =>
    refine hs.of_ids rfl fun u l hl => ?_
    rw [SettingsCache.kept?_evict] at hl
    split at hl
    · cases hl
    · exact hl
  | clear => exact hs.of_ids rfl fun u l hl => by simp at hl
  | complete l o => exact hs.of_ids (r.cache.ids_complete l o) fun _ _ hl => hl
  | resume hw ho => exact hreceive _ _
  | cancel hw => exact hs
  | idle e he => exact hs

/-- A lookup that is begun is a new one. -/
theorem Turn.not_mem_of_asked (ht : Turn r e r' effects) (hs : r.cache.Sound)
    (ha : .asked l ∈ effects) : l ∉ r.cache.ids := by
  cases ht with
  | @ask task u hk =>
    obtain rfl := Effect.asked.inj (List.mem_singleton.1 ha)
    exact hs.next_not_mem u
  | _ => simp at ha

/-- What is kept was kept before and has not been forgotten, or has just been begun. -/
theorem Turn.kept_of (ht : Turn r e r' effects) (hk : r'.cache.kept? uri = some l) :
    r.cache.kept? uri = some l ∧ e.forgets uri = false ∨ .asked l ∈ effects := by
  cases ht with
  | ask task hnone =>
    rw [SettingsCache.kept?_start] at hk
    split at hk
    · obtain rfl := Option.some.inj hk
      exact .inr (List.mem_singleton.2 rfl)
    · exact .inl ⟨hk, rfl⟩
  | join task hk' ho => exact .inl ⟨hk, rfl⟩
  | serve task hk' ho => exact .inl ⟨r.cache.kept?_of_receive hk, rfl⟩
  | evict u =>
    rw [SettingsCache.kept?_evict] at hk
    split at hk
    · cases hk
    · rename_i hne
      exact .inl ⟨hk, by simpa [Event.forgets] using Ne.symm hne⟩
  | clear => cases hk
  | complete l' o => exact .inl ⟨hk, rfl⟩
  | resume hw ho => exact .inl ⟨r.cache.kept?_of_receive hk, rfl⟩
  | cancel hw => exact .inl ⟨hk, rfl⟩
  | idle e he =>
    refine .inl ⟨hk, ?_⟩
    obtain ⟨task, rfl | rfl⟩ := he <;> rfl

/-- Who waits waited before, or has just called, and found the lookup kept or began it. -/
theorem Turn.waiting_of (ht : Turn r e r' effects) {w : Waiter} (hw : w ∈ r'.waiting) :
    w ∈ r.waiting ∨ e = .get w.task w.lookup.uri ∧
      (r.cache.kept? w.lookup.uri = some w.lookup ∨ .asked w.lookup ∈ effects) := by
  -- taking one out leaves only those who waited before
  have hrest : ∀ {x : Waiter} {l₁ l₂ : List Waiter}, r.waiting = l₁ ++ x :: l₂ →
      w ∈ l₁ ++ l₂ → w ∈ r.waiting := by
    intro x l₁ l₂ hsplit hmem
    rw [hsplit]
    exact (List.Sublist.append_left (List.sublist_cons_self _ _) _).subset hmem
  cases ht with
  | ask task hnone =>
    rcases List.mem_append.1 hw with hw | hw
    · exact .inl hw
    · rw [List.mem_singleton.1 hw]
      exact .inr ⟨rfl, .inr (List.mem_singleton.2 rfl)⟩
  | @join task u l hk ho =>
    rcases List.mem_append.1 hw with hw | hw
    · exact .inl hw
    · rw [List.mem_singleton.1 hw]
      obtain rfl := r.cache.uri_of_kept? hk
      exact .inr ⟨rfl, .inl hk⟩
  | resume hsplit ho => exact .inl (hrest hsplit hw)
  | cancel hsplit => exact .inl (hrest hsplit hw)
  | _ => exact .inl hw

/-- An outcome stays. -/
theorem Turn.outcome (ht : Turn r e r' effects) {o : Outcome}
    (ho : r.cache.outcome? l = some o) : r'.cache.outcome? l = some o := by
  have hreceive : ∀ l' o', (r.cache.receive l' o').outcome? l = some o := by
    intro l' o'
    rw [SettingsCache.outcome?, SettingsCache.lookups_receive]
    exact ho
  cases ht with
  | ask task hk => rw [SettingsCache.outcome?_start]; exact ho
  | serve task hk ho' => exact hreceive _ _
  | complete l' o' => exact r.cache.outcome?_complete_of_some ho
  | resume hw ho' => exact hreceive _ _
  | _ => exact ho

/-- **When a caller ends with the outcome of a lookup**: the lookup has ended so, the cache takes
note, and the caller waited for this lookup or finds it kept. -/
theorem Turn.of_outcome (ht : Turn r e r' effects) {task : Nat} {o : Outcome}
    (hf : .finished task (.outcome l o) ∈ effects) :
    r.cache.outcome? l = some o ∧ r'.cache = r.cache.receive l o ∧
      (e = .resume task ∧ ⟨task, l⟩ ∈ r.waiting ∨
        e = .get task l.uri ∧ r.cache.kept? l.uri = some l) := by
  cases ht with
  | @serve task' uri l' o' hk ho =>
    obtain ⟨rfl, rfl, rfl⟩ := by simpa using hf
    obtain rfl := r.cache.uri_of_kept? hk
    exact ⟨ho, rfl, .inr ⟨rfl, hk⟩⟩
  | @resume w l₁ l₂ o' hw ho =>
    obtain ⟨rfl, rfl, rfl⟩ := by simpa using hf
    exact ⟨ho, rfl, .inl ⟨rfl, by simp [hw]⟩⟩
  | _ => simp at hf

end Steps

section Runs

variable {r : Retrieval}

theorem run_nil (r : Retrieval) : r.run [] = (r, []) := rfl

theorem run_cons (r : Retrieval) (e : Event) (es : List Event) :
    r.run (e :: es) = (((r.step e).1.run es).1, (r.step e).2 ++ ((r.step e).1.run es).2) := rfl

theorem run_append (r : Retrieval) (es es' : List Event) :
    r.run (es ++ es') =
      (((r.run es).1.run es').1, (r.run es).2 ++ ((r.run es).1.run es').2) :=
  runEvents_append step r es es'

theorem run_concat (r : Retrieval) (es : List Event) (e : Event) :
    (r.run (es ++ [e])).1 = ((r.run es).1.step e).1 := runEvents_concat step r es e

/-- **What every turn keeps holds throughout every run.** The past is the events and the effects so
far. -/
theorem run_keeps {Q : List Event → Retrieval → List (Effect Retrieved) → Prop}
    (hQ : ∀ {past r effects} e, r.cache.Sound → Turn r e (r.step e).1 (r.step e).2 →
      Q past r effects → Q (past ++ [e]) (r.step e).1 (effects ++ (r.step e).2))
    (hs : r.cache.Sound) (es past : List Event) (effects : List (Effect Retrieved))
    (hq : Q past r effects) : Q (past ++ es) (r.run es).1 (effects ++ (r.run es).2) := by
  induction es generalizing r past effects with
  | nil => rwa [List.append_nil, run_nil, List.append_nil]
  | cons e es ih =>
    have ht := step_turn hs e
    rw [run_cons, List.append_cons, ← List.append_assoc]
    exact ih (ht.sound hs) _ _ (hQ e hs ht hq)

/-- Lookups are numbered as they are made throughout. -/
theorem run_sound (hs : r.cache.Sound) (es : List Event) : (r.run es).1.cache.Sound :=
  run_keeps (Q := fun _ r _ => r.cache.Sound) (fun _ _ ht hs => ht.sound hs) hs es [] [] hs

/-- The lookups of a new cache are numbered as they are made. -/
theorem sound_run (es : List Event) : (run {} es).1.cache.Sound :=
  run_sound SettingsCache.sound_empty es

end Runs

end CatalogLint.Retrieval
