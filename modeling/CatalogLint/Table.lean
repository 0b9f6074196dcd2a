/-!
# Tables

Values by name, in the order in which the names first came.

* `Table.set`: a value put under a name, in the place of the old one if there is one.
* `Table.erase`: a name taken out.
-/

namespace CatalogLint

/-- Values by name, in order. -/
abbrev Table (α : Type) := List (String × α)

namespace Table

variable {κ α : Type} [DecidableEq κ]

/-- Puts a value under a name: in its place if the name is there, else at the end. -/
def set (name : κ) (value : α) : List (κ × α) → List (κ × α)
  | [] => [(name, value)]
  | (n, v) :: rest => if n = name then (name, value) :: rest else (n, v) :: set name value rest

/-- Takes a name out. -/
def erase (name : κ) (t : List (κ × α)) : List (κ × α) := t.filter (·.1 ≠ name)

theorem mem_names_set {n name : κ} {value : α} {t : List (κ × α)} :
    n ∈ (set name value t).map Prod.fst ↔ n = name ∨ n ∈ t.map Prod.fst := by
  induction t with
  | nil => simp [set]
  | cons x t ih =>
    obtain ⟨m, v⟩ := x
    unfold set
    split
    · rename_i hm
      simp [hm]
    · simp only [List.map_cons, List.mem_cons, ih]
      exact or_left_comm

/-- Names that come once still do after one is put among them. -/
theorem nodup_names_set {t : List (κ × α)} (h : (t.map Prod.fst).Nodup) (name : κ) (value : α) :
    ((set name value t).map Prod.fst).Nodup := by
  induction t with
  | nil => simp [set]
  | cons x t ih =>
    obtain ⟨m, v⟩ := x
    rw [List.map_cons, List.nodup_cons] at h
    unfold set
    split
    · rename_i hm
      rw [List.map_cons, List.nodup_cons, ← hm]
      exact h
    · rename_i hm
      rw [List.map_cons, List.nodup_cons, mem_names_set]
      exact ⟨not_or.2 ⟨hm, h.1⟩, ih h.2⟩

variable [BEq κ] [LawfulBEq κ]

theorem lookup_cons_eq (n name : κ) (v : α) (t : List (κ × α)) :
    ((n, v) :: t).lookup name = if name = n then some v else t.lookup name := by
  rw [List.lookup_cons]
  by_cases h : name = n
  · simp [h]
  · rw [beq_false_of_ne h, if_neg h]

@[simp]
theorem lookup_set (name name' : κ) (value : α) (t : List (κ × α)) :
    (set name value t).lookup name' = if name' = name then some value else t.lookup name' := by
  induction t with
  | nil => rw [set, lookup_cons_eq]
  | cons x t ih =>
    obtain ⟨n, v⟩ := x
    unfold set
    split
    · rename_i hn
      rw [lookup_cons_eq, lookup_cons_eq, hn]
      split <;> rfl
    · rename_i hn
      rw [lookup_cons_eq, lookup_cons_eq, ih]
      by_cases h : name' = n
      · rw [if_pos h, if_pos h, if_neg (h ▸ hn)]
      · rw [if_neg h, if_neg h]

@[simp]
theorem lookup_erase (name name' : κ) (t : List (κ × α)) :
    (erase name t).lookup name' = if name' = name then none else t.lookup name' := by
  induction t with
  | nil => simp [erase]
  | cons x t ih =>
    obtain ⟨n, v⟩ := x
    unfold erase at ih ⊢
    rw [lookup_cons_eq]
    by_cases hn : n = name
    · rw [List.filter_cons_of_neg (by simp [hn]), ih, hn]
      split <;> rfl
    · rw [List.filter_cons_of_pos (by simpa using hn), lookup_cons_eq, ih]
      by_cases h : name' = n
      · rw [if_pos h, if_pos h, if_neg (h ▸ hn)]
      · rw [if_neg h, if_neg h]

end Table

end CatalogLint
