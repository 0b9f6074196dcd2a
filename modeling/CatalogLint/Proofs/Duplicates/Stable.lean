import CatalogLint.Proofs.Duplicates.Report
import Mathlib.Data.List.Perm.Basic

/-!
# Grouping is stable

Entries are put into groups one by one, and the groups with one member are left out in the end. What
remains is told without the order of that work: which keys have a group, which members a group has,
and in which order both stand.

* `StableGroups`: the groups of the members that share their keys.
* `flatMap_withKey_perm`: groups with different keys hold each member once.
* `length_checkDuplicates`: a check that ends with reports has one for each member of a group.
* `grouping_stable`: **the groups are the stable ones, and each of their members is reported.**
-/

namespace CatalogLint

section Keys

variable {α : Type} (key : α → String)

/-- `groups` are the members of `xs` that share their keys, and `keys` are the keys that they
share, one for each group. -/
structure StableGroups (xs : List α) (keys : List String) (groups : List (List α)) : Prop where
  /-- No two groups have the same key. -/
  distinct : keys.Nodup
  /-- A group has all the members with its key, in their order. -/
  members : groups = keys.map fun k => xs.filter (key · = k)
  /-- A key has a group exactly if it comes twice or more. -/
  repeated : ∀ k, k ∈ keys ↔ 2 ≤ (xs.map key).count k
  /-- Groups stand in the order in which their keys first come. -/
  inOrder : keys.Pairwise fun k k' => (xs.map key).idxOf k < (xs.map key).idxOf k'

/-- Keys stand in the order in which they first come. -/
theorem firstKeys_inOrder (xs : List α) :
    (firstKeys key xs).Pairwise fun k k' => (xs.map key).idxOf k < (xs.map key).idxOf k' := by
  induction xs using List.reverseRecOn with
  | nil => exact List.Pairwise.nil
  | append_singleton xs x ih =>
    have hmem : ∀ k ∈ firstKeys key xs, k ∈ xs.map key := fun k hk => List.mem_eraseDups.1 hk
    -- a key that has come before keeps its place
    have hold : ∀ k ∈ firstKeys key xs,
        ((xs ++ [x]).map key).idxOf k = (xs.map key).idxOf k := by
      intro k hk
      rw [List.map_append, List.idxOf_append_of_mem (hmem k hk)]
    have hpairs : (firstKeys key xs).Pairwise fun k k' =>
        ((xs ++ [x]).map key).idxOf k < ((xs ++ [x]).map key).idxOf k' := by
      refine ih.imp_of_mem fun {k k'} hk hk' hlt => ?_
      rwa [hold k hk, hold k' hk']
    rw [firstKeys_concat]
    split
    · rwa [List.append_nil]
    · rename_i hx
      have hnew : ((xs ++ [x]).map key).idxOf (key x) = (xs.map key).length := by
        have hnot : key x ∉ xs.map key := fun h => hx (List.mem_eraseDups.2 h)
        rw [List.map_append, List.idxOf_append_of_notMem hnot]
        simp
      refine List.pairwise_append.2 ⟨hpairs, List.pairwise_singleton _ _, ?_⟩
      intro k hk k' hk'
      rw [List.mem_singleton.1 hk', hold k hk, hnew]
      exact List.idxOf_lt_length_of_mem (hmem k hk)

/-- Groups with different keys hold each member once. -/
theorem flatMap_withKey_perm {keys : List String} (h : keys.Nodup) (xs : List α) :
    (keys.flatMap fun k => withKey key k xs).Perm (xs.filter (key · ∈ keys)) := by
  induction keys with
  | nil => simp
  | cons k keys ih =>
    rw [List.nodup_cons] at h
    -- the members with one of the keys are those with the first one, and the others
    have hfirst : (xs.filter (key · ∈ k :: keys)).filter (key · = k) = withKey key k xs := by
      rw [List.filter_filter, withKey]
      refine List.filter_congr fun x _ => ?_
      simp +contextual
    have hothers : (xs.filter (key · ∈ k :: keys)).filter (fun x => !decide (key x = k)) =
        xs.filter (key · ∈ keys) := by
      rw [List.filter_filter]
      refine List.filter_congr fun x _ => ?_
      by_cases hx : key x = k
      · simp [hx, h.1]
      · simp [hx]
    have hsplit := List.filter_append_perm (key · = k) (xs.filter (key · ∈ k :: keys))
    rw [hfirst, hothers] at hsplit
    rw [List.flatMap_cons]
    exact ((ih h.2).append_left _).trans hsplit

end Keys

section Groups

variable {α : Type} (key : α → String)

/-- Whether another member has the same key. -/
def sharesKey (xs : List α) (x : α) : Bool := 2 ≤ (xs.map key).count (key x)

/-- **The groups with more than one member are stable.** -/
theorem groupByKey_stable (xs : List α) :
    StableGroups key xs (repeatedKeys key xs) ((groupByKey key xs).filter (1 < ·.length)) where
  distinct := nodup_repeatedKeys key xs
  members := filter_groupByKey key xs
  repeated _ := mem_repeatedKeys
  inOrder := (firstKeys_inOrder key xs).filter _

/-- Which members share their keys does not depend on what else is in them. -/
theorem countP_sharesKey_map {β : Type} (f : β → α) (xs : List β) :
    (xs.map f).countP (sharesKey key (xs.map f)) =
      xs.countP (sharesKey (fun x => key (f x)) xs) := by
  unfold sharesKey
  rw [List.countP_map, List.map_map]
  rfl

variable {key} in
/-- Stable groups hold the members that share their keys, each once. -/
theorem StableGroups.flatten_perm {xs : List α} {keys : List String} {groups : List (List α)}
    (h : StableGroups key xs keys groups) :
    groups.flatten.Perm (xs.filter (sharesKey key xs)) := by
  have hkeys : xs.filter (key · ∈ keys) = xs.filter (sharesKey key xs) := by
    refine List.filter_congr fun x _ => ?_
    simp only [sharesKey, h.repeated]
  have hperm := flatMap_withKey_perm key h.distinct xs
  rw [h.members, ← List.flatMap_def, ← hkeys]
  exact hperm

end Groups

section Reports

variable {uri : String} {severity : Severity} {ds : List Diagnostic}

/-- A group that can be reported has one report for each member. -/
theorem length_groupDiagnostics {group : List Occurrence}
    (h : groupDiagnostics group uri severity = .ok ds) : ds.length = group.length := by
  cases group with
  | nil => cases h
  | cons first rest =>
    obtain ⟨related, -, h⟩ := exists_of_bind h
    exact (forall₂_of_mapM h).length_eq.symm

theorem length_flatten_groupDiagnostics {groups : List (List Occurrence)}
    {found : List (List Diagnostic)}
    (h : groups.mapM (groupDiagnostics · uri severity) = .ok found) :
    found.flatten.length = groups.flatten.length := by
  induction groups generalizing found with
  | nil =>
    obtain rfl : [] = found := Except.ok.inj h
    rfl
  | cons group groups ih =>
    rw [List.mapM_cons] at h
    obtain ⟨ds, hds, h⟩ := exists_of_bind h
    obtain ⟨more, hmore, h⟩ := exists_of_bind h
    obtain rfl : ds :: more = found := Except.ok.inj h
    rw [List.flatten_cons, List.flatten_cons, List.length_append, List.length_append,
      length_groupDiagnostics hds, ih hmore]

/-- **A check that ends with reports has one for each entry that shares its key**, whatever the
places of the entries are. -/
theorem length_checkDuplicates {catalog : Catalog} {settings : Settings}
    (h : checkDuplicates catalog uri settings = .ok ds) :
    ds.length = catalog.countP (sharesKey Entry.key catalog) := by
  obtain ⟨severity, -, h⟩ := exists_of_bind h
  cases hd : duplicateDiagnostics catalog uri severity with
  | error e =>
    rw [hd] at h
    cases h
  | ok ds' =>
    rw [hd] at h
    obtain rfl : ds' = ds := Except.ok.inj h
    obtain ⟨found, hfound, hflat⟩ := exists_of_bind hd
    obtain rfl : found.flatten = ds' := Except.ok.inj hflat
    -- the groups are of occurrences, and what is counted are entries
    have hperm := (groupByKey_stable (·.entry.key) (occurrences catalog)).flatten_perm
    have hcount := countP_sharesKey_map Entry.key Occurrence.entry (occurrences catalog)
    rw [map_entry_occurrences] at hcount
    rw [length_flatten_groupDiagnostics hfound, hcount, List.countP_eq_length_filter]
    exact hperm.length_eq

end Reports

/-- **Grouping is stable.** Whatever the entries are, each key that comes twice or more has one
group, and no other key has; a group has all the entries with its key in their order; and groups
stand in the order in which their keys first come. So the groups one after the other are the entries
that share their keys, in another order, and a check of the entries that ends with reports has as
many of them. -/
theorem grouping_stable (os : List Occurrence) :
    (∃ keys, StableGroups (·.entry.key) os keys (duplicateGroups os)) ∧
    (duplicateGroups os).flatten.Perm (os.filter (sharesKey (·.entry.key) os)) ∧
    ∀ uri settings ds, checkDuplicates (os.map (·.entry)) uri settings = .ok ds →
      ds.length = (os.filter (sharesKey (·.entry.key) os)).length := by
  have hstable : StableGroups (·.entry.key) os _ (duplicateGroups os) := groupByKey_stable _ os
  refine ⟨⟨_, hstable⟩, hstable.flatten_perm, ?_⟩
  intro uri settings ds h
  rw [length_checkDuplicates h, countP_sharesKey_map, List.countP_eq_length_filter]

end CatalogLint
