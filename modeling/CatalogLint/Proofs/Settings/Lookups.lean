import CatalogLint.Settings.Cache
import Mathlib.Data.List.Basic

/-!
# Settings and their lookups

What each operation of the cache does to the lookup kept for a document (`kept?`) and to the
outcomes of lookups (`outcome?`). A lookup that is kept stays so until it fails or is forgotten,
and an outcome stays for good.

* `SettingsCache.request_cases`: the two ways in which settings are asked for.
* `SettingsCache.Sound`: lookups are numbered as they are made.
* `Settings.level_ofJson`: **settings from any value name a severity**.
-/

namespace CatalogLint

namespace SettingsCache

variable {ρ : Type} (c : SettingsCache) {uri uri' : String} {id l : LookupId} {o o' : Outcome}

/-- The lookup kept for a document is the one to wait for, and if there is none a new one is
asked for and kept. -/
theorem request_cases (uri : String) :
    (∃ l, c.kept? uri = some l ∧ c.request (ρ := ρ) uri = (l, c, [])) ∨
      c.kept? uri = none ∧
        c.request (ρ := ρ) uri = (c.next uri, c.start (c.next uri), [.asked (c.next uri)]) := by
  unfold request
  cases c.kept? uri with
  | none => exact .inr ⟨rfl, rfl⟩
  | some l => exact .inl ⟨l, rfl, rfl⟩

@[simp]
theorem uri_next (uri : String) : (c.next uri).uri = uri := rfl

theorem uri_of_kept? (h : c.kept? uri = some l) : l.uri = uri := by
  unfold kept? at h
  obtain ⟨n, -, rfl⟩ := Option.map_eq_some_iff.1 h
  rfl

theorem kept?_start (l : LookupId) (uri : String) :
    (c.start l).kept? uri = if uri = l.uri then some l else c.kept? uri := by
  unfold kept? start
  rw [Table.lookup_set]
  split
  · rename_i h
    rw [h]
    rfl
  · rfl

theorem outcome?_start (id l : LookupId) : (c.start id).outcome? l = c.outcome? l := by
  unfold outcome? start
  rw [List.find?_append]
  cases c.lookups.find? (·.id == l) with
  | some x => rfl
  | none =>
    rw [Option.none_or, List.find?_cons]
    split <;> rfl

theorem kept?_request_self (uri : String) :
    (c.request (ρ := ρ) uri).2.1.kept? uri = some (c.request (ρ := ρ) uri).1 := by
  rcases c.request_cases (ρ := ρ) uri with ⟨l, hk, hr⟩ | ⟨-, hr⟩
  · rw [hr]
    exact hk
  · rw [hr, kept?_start, uri_next, if_pos rfl]

theorem kept?_request_ne (h : uri' ≠ uri) :
    (c.request (ρ := ρ) uri).2.1.kept? uri' = c.kept? uri' := by
  rcases c.request_cases (ρ := ρ) uri with ⟨l, -, hr⟩ | ⟨-, hr⟩
  · rw [hr]
  · rw [hr, kept?_start, uri_next, if_neg h]

theorem outcome?_request (uri : String) (l : LookupId) :
    (c.request (ρ := ρ) uri).2.1.outcome? l = c.outcome? l := by
  rcases c.request_cases (ρ := ρ) uri with ⟨l', -, hr⟩ | ⟨-, hr⟩
  · rw [hr]
  · rw [hr, outcome?_start]

@[simp]
theorem kept?_complete (id : LookupId) (o : Outcome) (uri : String) :
    (c.complete id o).kept? uri = c.kept? uri := rfl

@[simp]
theorem kept?_clear (uri : String) : c.clear.kept? uri = none := rfl

@[simp]
theorem kept?_evict (uri uri' : String) :
    (c.evict uri).kept? uri' = if uri' = uri then none else c.kept? uri' := by
  unfold kept? evict
  rw [Table.lookup_erase]
  split <;> rfl

/-- An outcome that is seen takes its lookup out if that one is kept, and nothing else. -/
theorem kept?_receive (id : LookupId) (o : Outcome) (uri : String) :
    (c.receive id o).kept? uri = c.kept? uri ∨
      c.kept? uri = some id ∧ (c.receive id o).kept? uri = none := by
  cases o with
  | ok s => exact .inl rfl
  | error e =>
    simp only [receive, forget]
    split
    · rename_i hid
      by_cases h : uri = id.uri
      · exact .inr ⟨h ▸ hid, (c.kept?_evict id.uri uri).trans (if_pos h)⟩
      · exact .inl ((c.kept?_evict id.uri uri).trans (if_neg h))
    · exact .inl rfl

/-- A lookup that is forgotten is taken out wherever it is kept, and nothing else is. -/
theorem kept?_forget (l : LookupId) (uri : String) :
    (c.forget l).kept? uri = if c.kept? uri = some l then none else c.kept? uri := by
  unfold forget
  by_cases hl : c.kept? l.uri = some l
  · rw [if_pos hl]
    by_cases hu : uri = l.uri
    · rw [hu, if_pos hl]
      exact (c.kept?_evict l.uri l.uri).trans (if_pos rfl)
    · rw [if_neg fun h => hu (c.uri_of_kept? h).symm]
      exact (c.kept?_evict l.uri uri).trans (if_neg hu)
  · rw [if_neg hl, if_neg]
    intro h
    rw [← c.uri_of_kept? h] at h
    exact hl h

@[simp]
theorem lookups_receive (id : LookupId) (o : Outcome) :
    (c.receive id o).lookups = c.lookups := by
  cases o with
  | ok s => rfl
  | error e =>
    simp only [receive, forget]
    split <;> rfl

theorem kept?_receive_of_none (h : c.kept? uri = none) : (c.receive id o).kept? uri = none := by
  rcases c.kept?_receive id o uri with hk | ⟨-, hk⟩
  · exact hk.trans h
  · exact hk

theorem kept?_of_receive (h : (c.receive id o).kept? uri = some l) : c.kept? uri = some l := by
  rcases c.kept?_receive id o uri with hk | ⟨-, hk⟩
  · exact hk ▸ h
  · rw [hk] at h
    cases h

theorem outcome?_complete (id l : LookupId) (o : Outcome) :
    (c.complete id o).outcome? l =
      if l = id then (c.lookups.find? (·.id == l)).bind fun x => x.outcome.or (some o)
      else c.outcome? l := by
  have hid : ∀ x : Lookup, (if x.id = id then { x with outcome := x.outcome.or (some o) } else x).id
      = x.id := by intro x; split <;> rfl
  unfold outcome? complete
  rw [List.find?_map]
  have hfind : ((fun x : Lookup => x.id == l) ∘ fun x =>
      if x.id = id then { x with outcome := x.outcome.or (some o) } else x) = (·.id == l) := by
    funext x
    rw [Function.comp_apply, hid]
  rw [hfind]
  cases hx : c.lookups.find? (·.id == l) with
  | none => simp
  | some x =>
    have hl : x.id = l := by simpa using List.find?_some hx
    simp only [Option.map_some, Option.bind_some]
    by_cases h : l = id
    · rw [if_pos (hl.trans h), if_pos h]
    · rw [if_neg (fun h' => h (hl.symm.trans h')), if_neg h]

/-- An outcome stays. -/
theorem outcome?_complete_of_some (h : c.outcome? l = some o') :
    (c.complete id o).outcome? l = some o' := by
  rw [outcome?_complete]
  split
  · obtain ⟨x, hx, ho⟩ := Option.bind_eq_some_iff.1 h
    simp [hx, ho]
  · exact h

/-- An outcome that is new is the one that was given. -/
theorem eq_or_of_outcome?_complete (h : (c.complete id o).outcome? l = some o') :
    o' = o ∨ c.outcome? l = some o' := by
  rw [outcome?_complete] at h
  split at h
  · obtain ⟨x, hx, ho⟩ := Option.bind_eq_some_iff.1 h
    cases hxo : x.outcome with
    | none => rw [hxo] at ho; exact .inl (by simpa using ho.symm)
    | some o'' => rw [hxo] at ho; exact .inr (by simpa [outcome?, hx, hxo] using ho)
  · exact .inr h

section Sound

/-- The lookups that have been made, in order. -/
def ids : List LookupId := c.lookups.map (·.id)

/-- Lookups are numbered as they are made, and one that is kept has been made. -/
structure Sound : Prop where
  numbered : ∀ l ∈ c.ids, l.number < c.ids.countP (·.uri == l.uri)
  kept : ∀ uri l, c.kept? uri = some l → l ∈ c.ids

theorem sound_empty : Sound {} := ⟨by simp [ids], by simp [kept?]⟩

theorem number_next (uri : String) : (c.next uri).number = c.ids.countP (·.uri == uri) := by
  simp [next, ids, Function.comp_def]

@[simp]
theorem ids_start (l : LookupId) : (c.start l).ids = c.ids ++ [l] := by simp [ids, start]

@[simp]
theorem ids_complete (id : LookupId) (o : Outcome) : (c.complete id o).ids = c.ids := by
  simp only [ids, complete, List.map_map]
  refine List.map_congr_left fun x _ => ?_
  simp only [Function.comp_apply]
  split <;> rfl

@[simp]
theorem ids_receive (id : LookupId) (o : Outcome) : (c.receive id o).ids = c.ids := by
  simp only [ids, lookups_receive]

/-- A lookup with an outcome has been made. -/
theorem mem_ids_of_outcome? (h : c.outcome? l = some o) : l ∈ c.ids := by
  obtain ⟨x, hx, -⟩ := Option.bind_eq_some_iff.1 h
  refine List.mem_map.2 ⟨x, List.mem_of_find?_eq_some hx, ?_⟩
  simpa using List.find?_some hx

variable {c} {c' : SettingsCache}

/-- It depends only on the lookups made, and less may be kept. -/
theorem Sound.of_ids (hs : c.Sound) (hids : c'.ids = c.ids)
    (hkept : ∀ uri l, c'.kept? uri = some l → c.kept? uri = some l) : c'.Sound := by
  refine ⟨?_, fun uri l h => ?_⟩
  · rw [hids]
    exact hs.numbered
  · rw [hids]
    exact hs.kept uri l (hkept uri l h)

/-- The next lookup for a document has not been made. -/
theorem Sound.next_not_mem (hs : c.Sound) (uri : String) : c.next uri ∉ c.ids := by
  intro h
  have hlt := hs.numbered _ h
  rw [number_next, uri_next] at hlt
  exact Nat.lt_irrefl _ hlt

theorem Sound.outcome?_next (hs : c.Sound) (uri : String) : c.outcome? (c.next uri) = none := by
  have hfind : c.lookups.find? (·.id == c.next uri) = none := by
    rw [List.find?_eq_none]
    intro x hx heq
    refine hs.next_not_mem uri (List.mem_map.2 ⟨x, hx, ?_⟩)
    simpa using heq
  rw [outcome?, hfind, Option.bind_none]

theorem Sound.start (hs : c.Sound) (uri : String) : (c.start (c.next uri)).Sound := by
  refine ⟨fun l hl => ?_, fun uri' l hl => ?_⟩
  · rw [ids_start, List.countP_append]
    rw [ids_start] at hl
    rcases List.mem_append.1 hl with hl | hl
    · exact Nat.lt_add_right _ (hs.numbered l hl)
    · rw [List.mem_singleton.1 hl, number_next, uri_next]
      simp
  · rw [kept?_start] at hl
    rw [ids_start]
    split at hl
    · obtain rfl := Option.some.inj hl
      simp
    · exact List.mem_append_left _ (hs.kept uri' l hl)

/-- Whoever asks for settings waits for a lookup that has been made. -/
theorem Sound.request (hs : c.Sound) (uri : String) :
    (c.request (ρ := ρ) uri).2.1.Sound ∧
      (c.request (ρ := ρ) uri).1 ∈ (c.request (ρ := ρ) uri).2.1.ids ∧
      ∀ l ∈ c.ids, l ∈ (c.request (ρ := ρ) uri).2.1.ids := by
  rcases c.request_cases (ρ := ρ) uri with ⟨l, hk, hr⟩ | ⟨-, hr⟩
  · rw [hr]
    exact ⟨hs, hs.kept uri l hk, fun l hl => hl⟩
  · rw [hr]
    exact ⟨hs.start uri, by simp, fun l hl => by simp [hl]⟩

/-- A lookup that has been made can be ended. -/
theorem exists_outcome_complete (hl : l ∈ c.ids) (o : Outcome) :
    ∃ o', (c.complete l o).outcome? l = some o' := by
  obtain ⟨x, hx, rfl⟩ := List.mem_map.1 hl
  rw [outcome?_complete, if_pos rfl]
  cases hfind : c.lookups.find? (·.id == x.id) with
  | none =>
    rw [List.find?_eq_none] at hfind
    exact absurd (beq_self_eq_true x.id) (hfind x hx)
  | some y => cases hy : y.outcome <;> simp [hy]

end Sound

end SettingsCache

/-- Settings from any value name a severity. -/
theorem Settings.level_ofJson (j : Json) :
    ∃ severity, (Settings.ofJson j).value.level = .ok severity := by
  have hdefault : ∃ severity, ({} : Settings).level = .ok severity := ⟨.error, by decide +kernel⟩
  unfold Settings.ofJson
  split
  · exact hdefault
  · rename_i fields
    simp only [bind]
    split
    · exact hdefault
    · split
      · rename_i s hs
        obtain ⟨severity, hn⟩ := Option.isSome_iff_exists.1 (Option.filter_eq_some_iff.1 hs).2
        refine ⟨severity, ?_⟩
        simp only [pure, Settings.level, hn]
      · exact hdefault
  · exact hdefault

end CatalogLint
