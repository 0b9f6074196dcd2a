import CatalogLint.Proofs.Settings.Lookups

/-!
# Caches that agree on all documents but one

A cache knows documents apart: what it does for one depends on the lookups for this one alone. So
two caches that agree on all documents but `a` go on to agree, if the same is done to both, or if
one of them has something to do with `a`.

* `SettingsCache.Agree`: they keep the same lookups for the others, with the same outcomes.
* `Agree.request`: they give the same lookups, and ask for the same.
-/

namespace CatalogLint.SettingsCache

/-- The caches keep the same for all documents but `a`, and have made the same lookups for them. -/
structure Agree (a : String) (c d : SettingsCache) : Prop where
  kept : ∀ u, u ≠ a → d.kept? u = c.kept? u
  lookups : d.lookups.filter (·.id.uri ≠ a) = c.lookups.filter (·.id.uri ≠ a)

section Agree

variable {a u : String} {c d : SettingsCache} {l : LookupId} {ρ : Type}

theorem uri_request (c : SettingsCache) (u : String) : (c.request (ρ := ρ) u).1.uri = u := by
  rcases c.request_cases (ρ := ρ) u with ⟨l, hk, hr⟩ | ⟨-, hr⟩
  · rw [hr]
    exact c.uri_of_kept? hk
  · rw [hr]
    rfl

theorem find?_others (c : SettingsCache) (hl : l.uri ≠ a) :
    (c.lookups.filter (·.id.uri ≠ a)).find? (·.id == l) = c.lookups.find? (·.id == l) := by
  rw [List.find?_filter]
  congr 1
  funext x
  by_cases hx : x.id = l
  · simp [hx, hl]
  · simp [hx]

theorem Agree.outcome? (h : Agree a c d) (hl : l.uri ≠ a) : d.outcome? l = c.outcome? l := by
  unfold SettingsCache.outcome?
  rw [← d.find?_others hl, h.lookups, c.find?_others hl]

theorem countP_others (c : SettingsCache) (hu : u ≠ a) :
    (c.lookups.filter (·.id.uri ≠ a)).countP (·.id.uri == u) =
      c.lookups.countP (·.id.uri == u) := by
  rw [List.countP_filter]
  congr 1
  funext x
  by_cases hx : x.id.uri = u
  · simp [hx, hu]
  · simp [hx]

theorem Agree.next (h : Agree a c d) (hu : u ≠ a) : d.next u = c.next u := by
  unfold SettingsCache.next
  rw [← d.countP_others hu, h.lookups, c.countP_others hu]

/-- Both caches give the same lookup for another document, and ask for the same. -/
theorem Agree.request (h : Agree a c d) (hu : u ≠ a) :
    (d.request (ρ := ρ) u).1 = (c.request (ρ := ρ) u).1 ∧
      (d.request (ρ := ρ) u).2.2 = (c.request (ρ := ρ) u).2.2 ∧
      Agree a (c.request (ρ := ρ) u).2.1 (d.request (ρ := ρ) u).2.1 := by
  unfold SettingsCache.request
  rw [h.kept u hu, h.next hu]
  cases hk : c.kept? u with
  | some l => exact ⟨rfl, rfl, h⟩
  | none =>
    refine ⟨rfl, rfl, fun w hw => ?_, ?_⟩
    · rw [kept?_start, kept?_start, h.kept w hw]
    · simp only [SettingsCache.start, List.filter_append, h.lookups]

/-- What is asked for `a` is of no matter. -/
theorem Agree.request_left (h : Agree a c d) : Agree a (c.request (ρ := ρ) a).2.1 d := by
  rcases c.request_cases (ρ := ρ) a with ⟨l, -, hr⟩ | ⟨-, hr⟩
  · rw [hr]
    exact h
  · rw [hr]
    refine ⟨fun u hu => ?_, ?_⟩
    · rw [kept?_start, uri_next, if_neg hu]
      exact h.kept u hu
    · simp only [SettingsCache.start, List.filter_append, h.lookups]
      simp

theorem Agree.evict (h : Agree a c d) (u : String) : Agree a (c.evict u) (d.evict u) := by
  refine ⟨fun w hw => ?_, h.lookups⟩
  rw [kept?_evict, kept?_evict, h.kept w hw]

theorem Agree.evict_left (h : Agree a c d) : Agree a (c.evict a) d := by
  refine ⟨fun w hw => ?_, h.lookups⟩
  rw [kept?_evict, if_neg hw]
  exact h.kept w hw

/-- The lookups for the others, once a lookup has ended. -/
theorem filter_complete (c : SettingsCache) (a : String) (l : LookupId) (o : Outcome) :
    (c.complete l o).lookups.filter (·.id.uri ≠ a) =
      (complete { c with lookups := c.lookups.filter (·.id.uri ≠ a) } l o).lookups := by
  unfold complete
  rw [List.filter_map]
  congr 2
  funext x
  simp only [Function.comp_apply]
  split <;> rfl

theorem Agree.complete (h : Agree a c d) (l : LookupId) (o : Outcome) :
    Agree a (c.complete l o) (d.complete l o) := by
  refine ⟨h.kept, ?_⟩
  rw [filter_complete, filter_complete, h.lookups]
  rfl

theorem Agree.complete_left (h : Agree a c d) (hl : l.uri = a) (o : Outcome) :
    Agree a (c.complete l o) d := by
  refine ⟨h.kept, ?_⟩
  rw [filter_complete, h.lookups]
  -- the lookup that ends is for `a`, and so not among those for the others
  have hid : ∀ x ∈ c.lookups.filter (·.id.uri ≠ a),
      (if x.id = l then { x with outcome := x.outcome.or (some o) } else x) = x := by
    intro x hx
    have hne : x.id ≠ l := by
      rintro rfl
      simp [hl] at hx
    rw [if_neg hne]
  have hmap := List.map_congr_left hid
  rw [List.map_id'] at hmap
  exact hmap.symm

theorem Agree.receive (h : Agree a c d) (l : LookupId) (o : Outcome) :
    Agree a (c.receive l o) (d.receive l o) := by
  refine ⟨fun u hu => ?_, ?_⟩
  · cases o with
    | ok s => exact h.kept u hu
    | error e =>
      have hc := c.kept?_forget l u
      have hd := d.kept?_forget l u
      rw [h.kept u hu] at hd
      exact hd.trans hc.symm
  · rw [lookups_receive, lookups_receive]
    exact h.lookups

theorem Agree.receive_left (h : Agree a c d) (hl : l.uri = a) (o : Outcome) :
    Agree a (c.receive l o) d := by
  refine ⟨fun u hu => ?_, ?_⟩
  · rw [h.kept u hu]
    rcases c.kept?_receive l o u with hk | ⟨hk, -⟩
    · exact hk.symm
    · exact absurd ((c.uri_of_kept? hk).symm.trans hl) hu
  · rw [lookups_receive]
    exact h.lookups

end Agree

end CatalogLint.SettingsCache
