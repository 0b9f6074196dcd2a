import CatalogLint.Duplicates
import Mathlib.Data.List.Induction

/-!
# Grouping by key

* `groupByKey_eq`: **there is one group for each key, in the order in which the keys first come,
  and a group has all the members with its key, in their order**.
* `repeatedKeys`, `filter_groupByKey`: the keys of the groups with more than one member.
-/

namespace CatalogLint

variable {α : Type} (key : α → String)

/-- The keys of `xs`, each once, in the order in which they first come. -/
def firstKeys (xs : List α) : List String := (xs.map key).eraseDups

/-- The members of `xs` that have the key `k`. -/
def withKey (k : String) (xs : List α) : List α := xs.filter (key · = k)

theorem mem_firstKeys {xs : List α} {k : String} : k ∈ firstKeys key xs ↔ ∃ x ∈ xs, key x = k := by
  rw [firstKeys, List.mem_eraseDups, List.mem_map]

theorem firstKeys_concat (xs : List α) (x : α) :
    firstKeys key (xs ++ [x]) =
      firstKeys key xs ++ if key x ∈ firstKeys key xs then [] else [key x] := by
  have hmem : key x ∈ firstKeys key xs ↔ key x ∈ xs.map key := List.mem_eraseDups
  rw [firstKeys, List.map_append, List.eraseDups_append, List.map_singleton, List.removeAll]
  by_cases h : key x ∈ xs.map key
  · rw [if_pos (hmem.2 h), List.filter_cons_of_neg (by simpa using h)]
    rfl
  · rw [if_neg (mt hmem.1 h), List.filter_cons_of_pos (by simpa using h)]
    rfl

theorem nodup_firstKeys (xs : List α) : (firstKeys key xs).Nodup := by
  induction xs using List.reverseRecOn with
  | nil => exact List.nodup_nil
  | append_singleton xs x ih =>
    rw [firstKeys_concat]
    split
    · simpa using ih
    · rename_i h
      exact List.nodup_append.2 ⟨ih, by simp, by rintro a ha b hb rfl; simp_all⟩

theorem withKey_concat (k : String) (xs : List α) (x : α) :
    withKey key k (xs ++ [x]) = withKey key k xs ++ if key x = k then [x] else [] := by
  unfold withKey
  rw [List.filter_append]
  congr 1
  split <;> simp [*]

section Step

variable {key} {x : α} {ks : List String}

theorem addToGroup_of_mem (hn : ks.Nodup) (hx : key x ∈ ks) (group : String → List α) :
    addToGroup key x (ks.map fun k => (k, group k)) =
      ks.map fun k => (k, group k ++ if key x = k then [x] else []) := by
  induction ks with
  | nil => cases hx
  | cons k ks ih =>
    rw [List.nodup_cons] at hn
    rw [List.map_cons, List.map_cons, addToGroup]
    split
    · rename_i hk
      rw [if_pos hk.symm]
      congr 1
      refine List.map_congr_left fun k' hk' => ?_
      rw [if_neg, List.append_nil]
      rintro rfl
      exact hn.1 (hk ▸ hk')
    · rename_i hk
      rw [ih hn.2 ((List.mem_cons.1 hx).resolve_left (Ne.symm hk)), if_neg (Ne.symm hk),
        List.append_nil]

theorem addToGroup_of_not_mem (hx : key x ∉ ks) (group : String → List α) :
    addToGroup key x (ks.map fun k => (k, group k)) =
      (ks.map fun k => (k, group k)) ++ [(key x, [x])] := by
  induction ks with
  | nil => rfl
  | cons k ks ih =>
    rw [List.mem_cons, not_or] at hx
    rw [List.map_cons, addToGroup, if_neg (Ne.symm hx.1), ih hx.2, List.cons_append]

end Step

/-- What the groups are at each moment. -/
theorem foldl_addToGroup (xs : List α) :
    xs.foldl (fun groups x => addToGroup key x groups) [] =
      (firstKeys key xs).map fun k => (k, withKey key k xs) := by
  induction xs using List.reverseRecOn with
  | nil => rfl
  | append_singleton xs x ih =>
    rw [List.foldl_append, ih, List.foldl_cons, List.foldl_nil, firstKeys_concat]
    simp only [withKey_concat]
    by_cases hx : key x ∈ firstKeys key xs
    · rw [addToGroup_of_mem (nodup_firstKeys key xs) hx, if_pos hx, List.append_nil]
    · have hnew : ∀ k ∈ firstKeys key xs, ¬ key x = k := fun k hk h => hx (h ▸ hk)
      have hnone : withKey key (key x) xs = [] := by
        refine List.filter_eq_nil_iff.2 fun y hy h => hx ?_
        exact (mem_firstKeys key).2 ⟨y, hy, by simpa using h⟩
      rw [addToGroup_of_not_mem hx, if_neg hx, List.map_append]
      congr 1
      · exact List.map_congr_left fun k hk => by rw [if_neg (hnew k hk), List.append_nil]
      · simp [hnone]

/-- **Grouping by key.** There is one group for each key, in the order in which the keys first
come, and a group has all the members with its key, in their order. -/
theorem groupByKey_eq (xs : List α) :
    groupByKey key xs = (firstKeys key xs).map fun k => withKey key k xs := by
  unfold groupByKey
  rw [foldl_addToGroup, List.map_map]
  rfl

section Repeated

/-- The keys that more than one member has, in the order in which they first come. -/
def repeatedKeys (xs : List α) : List String :=
  (firstKeys key xs).filter fun k => 1 < (withKey key k xs).length

theorem filter_groupByKey (xs : List α) :
    (groupByKey key xs).filter (1 < ·.length) =
      (repeatedKeys key xs).map fun k => withKey key k xs := by
  unfold repeatedKeys
  rw [groupByKey_eq, List.filter_map]
  rfl

theorem nodup_repeatedKeys (xs : List α) : (repeatedKeys key xs).Nodup :=
  (nodup_firstKeys key xs).filter _

theorem length_withKey (k : String) (xs : List α) :
    (withKey key k xs).length = (xs.map key).count k := by
  rw [withKey, ← List.countP_eq_length_filter, List.count, List.countP_map]
  rfl

variable {key} in
theorem mem_repeatedKeys {xs : List α} {k : String} :
    k ∈ repeatedKeys key xs ↔ 2 ≤ (xs.map key).count k := by
  unfold repeatedKeys
  rw [List.mem_filter, length_withKey, decide_eq_true_eq]
  constructor
  · intro h
    exact h.2
  · intro h
    have hmem : k ∈ xs.map key := List.count_pos_iff.1 (by omega)
    exact ⟨List.mem_eraseDups.2 hmem, h⟩

variable {β : Type} (f : β → α)

/-- The members with a key do not depend on what else is in them. -/
theorem map_withKey (k : String) (xs : List β) :
    (withKey (fun x => key (f x)) k xs).map f = withKey key k (xs.map f) := by
  unfold withKey
  rw [List.filter_map]
  rfl

theorem repeatedKeys_map (xs : List β) :
    repeatedKeys (fun x => key (f x)) xs = repeatedKeys key (xs.map f) := by
  have hfirst : firstKeys (fun x => key (f x)) xs = firstKeys key (xs.map f) := by
    unfold firstKeys
    rw [List.map_map]
    rfl
  unfold repeatedKeys
  rw [hfirst]
  apply List.filter_congr
  intro k _
  rw [← map_withKey, List.length_map]

end Repeated

end CatalogLint
