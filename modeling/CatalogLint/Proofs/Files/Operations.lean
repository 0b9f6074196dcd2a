import CatalogLint.Files.Operations
import CatalogLint.Proofs.Files.Changes

/-!
# What file operations do

* `FileM.after`: the tree that operations leave, in failure too.
* `FileTree.put_concat`: to put something into a directory is to change its entries.
* `FileTree.change_of_ok`, `FileTree.exists_of_change`: when a directory is changed, and how.
* `FileTree.makeDirectories_cases`: **making directories finds them there, or adds empty ones to
  where nothing was, or finds a file in the way. If one cannot be made, none has been.**
-/

namespace CatalogLint

namespace Table

variable {κ α : Type} [DecidableEq κ] {name name' : κ} {value value' : α} {t : List (κ × α)}

theorem set_set : set name value (set name value' t) = set name value t := by
  induction t with
  | nil => simp [set]
  | cons x t ih =>
    obtain ⟨n, v⟩ := x
    by_cases h : n = name
    · simp [set, h]
    · simp [set, h, ih]

theorem erase_set_of_ne (h : name' ≠ name) :
    erase name (set name' value t) = set name' value (erase name t) := by
  induction t with
  | nil => simp [set, erase, h]
  | cons x t ih =>
    obtain ⟨n, v⟩ := x
    unfold erase at ih ⊢
    by_cases hn : n = name'
    · subst hn
      simp [set, h]
    · rw [set, if_neg hn]
      by_cases hn' : n = name
      · rw [List.filter_cons_of_neg (by simpa using hn'),
          List.filter_cons_of_neg (by simpa using hn'), ih]
      · rw [List.filter_cons_of_pos (by simpa using hn'),
          List.filter_cons_of_pos (by simpa using hn'), set, if_neg hn, ih]

variable [BEq κ] [LawfulBEq κ]

theorem set_of_lookup (h : t.lookup name = some value) : set name value t = t := by
  induction t with
  | nil => cases h
  | cons x t ih =>
    obtain ⟨n, v⟩ := x
    rw [lookup_cons_eq] at h
    by_cases hn : name = n
    · rw [if_pos hn] at h
      rw [set, if_pos hn.symm, hn, Option.some.inj h]
    · rw [if_neg hn] at h
      rw [set, if_neg (Ne.symm hn), ih h]

/-- What is added and taken out again was never there. -/
theorem erase_set_of_lookup (h : t.lookup name = none) : erase name (set name value t) = t := by
  induction t with
  | nil => simp [set, erase]
  | cons x t ih =>
    obtain ⟨n, v⟩ := x
    rw [lookup_cons_eq] at h
    by_cases hn : name = n
    · rw [if_pos hn] at h
      cases h
    · rw [if_neg hn] at h
      have hne : n ≠ name := Ne.symm hn
      unfold erase at ih ⊢
      rw [set, if_neg hne, List.filter_cons_of_pos (by simpa using hne), ih h]

end Table

namespace FileTree

section Putting

variable {root t u : FileTree} {here names : List String} {es : List (String × FileTree)}

theorem put_put : put t names (put u names root) = put t names root := by
  induction names generalizing root with
  | nil => rfl
  | cons name rest ih =>
    rw [put, put, put, entries, Table.lookup_set, if_pos rfl, Table.set_set, Option.getD_some, ih]

/-- What has entries is a directory. -/
theorem dir_entries {name : String} (h : root.entries.lookup name = some t) :
    dir root.entries = root := by
  cases root with
  | dir es => rfl
  | file bytes => cases h

theorem put_of_get? (h : root.get? names = some t) : put t names root = root := by
  induction names generalizing root with
  | nil => exact (Option.some.inj h).symm
  | cons name rest ih =>
    rw [get?] at h
    obtain ⟨u, hu, h⟩ := Option.bind_eq_some_iff.1 h
    rw [put, hu, Option.getD_some, ih h, Table.set_of_lookup hu, dir_entries hu]

/-- **To put something into a directory is to change its entries.** -/
theorem put_concat (h : root.get? here = some (dir es)) (name : String) (t : FileTree) :
    put t (here ++ [name]) root = put (dir (Table.set name t es)) here root := by
  induction here generalizing root with
  | nil =>
    obtain rfl := Option.some.inj h
    rfl
  | cons step rest ih =>
    rw [get?] at h
    obtain ⟨u, hu, h⟩ := Option.bind_eq_some_iff.1 h
    rw [List.cons_append, put, put, hu, Option.getD_some, ih h]

/-- On the way to a place where something is put, empty directories are made. -/
theorem put_below (h : root.get? here = none) (names : List String) (t : FileTree) :
    put t (here ++ names) (put (dir []) here root) = put t (here ++ names) root := by
  induction here generalizing root with
  | nil => cases h
  | cons step rest ih =>
    rw [List.cons_append, put, put, put, entries, Table.lookup_set, if_pos rfl, Table.set_set,
      Option.getD_some]
    rw [get?] at h
    cases hu : root.entries.lookup step with
    | some u =>
      rw [hu] at h
      rw [Option.getD_some, ih h]
    | none =>
      rw [Option.getD_none]
      cases rest with
      | nil => rfl
      | cons step' rest => rw [ih rfl]

theorem get?_below (h : root.get? here = none) (names : List String) :
    root.get? (here ++ names) = none := by
  rw [get?_append, h]
  rfl

/-- The entries of a directory into which something was put, and which was made if need be. -/
theorem get?_put_concat (root t : FileTree) (here : List String) (name : String) :
    (put t (here ++ [name]) root).get? here =
      some (dir (Table.set name t (((root.get? here).map entries).getD []))) := by
  induction here generalizing root with
  | nil => rfl
  | cons step rest ih =>
    rw [List.cons_append, put, get?, entries, Table.lookup_set, if_pos rfl, Option.bind_some, ih,
      get?]
    cases root.entries.lookup step with
    | some u => rfl
    | none =>
      cases rest with
      | nil => rfl
      | cons step' rest => rfl

end Putting

end FileTree

namespace FileM

variable {α β : Type} {x : FileM α} {f : α → FileM β} {root root' : FileTree} {a : α} {r : Refusal}

/-- The tree that operations leave, whether or not they fail. -/
def after (x : FileM α) (root : FileTree) : FileTree :=
  match x root with
  | .ok _ root' => root'
  | .error _ root' => root'

/-- Whoever looks at the tree leaves it as it is. -/
theorem get_bind (g : FileTree → FileM β) (root : FileTree) : (get >>= g) root = g root root := rfl

theorem bind_of_ok (h : x root = .ok a root') : (x >>= f) root = f a root' := by
  simp only [bind, EStateM.bind, h]

theorem bind_of_error (h : x root = .error r root') : (x >>= f) root = .error r root' := by
  simp only [bind, EStateM.bind, h]

/-- What ends well has gone well all along. -/
theorem exists_of_bind {b : β} (h : (x >>= f) root = .ok b root') :
    ∃ a between, x root = .ok a between ∧ f a between = .ok b root' := by
  cases hrun : x root with
  | ok a between => exact ⟨a, between, rfl, (bind_of_ok hrun).symm.trans h⟩
  | error r between =>
    rw [bind_of_error hrun] at h
    cases h

/-- What each operation keeps, a sequence of them keeps. -/
theorem after_bind {P : FileTree → Prop} (hx : P (x.after root))
    (hf : ∀ a root', P root' → P ((f a).after root')) : P ((x >>= f).after root) := by
  unfold after at hx ⊢
  cases hrun : x root with
  | ok a root' =>
    rw [hrun] at hx
    rw [bind_of_ok hrun]
    exact hf a root' hx
  | error r root' =>
    rw [hrun] at hx
    rw [bind_of_error hrun]
    exact hx

/-- What operations give in the end does not matter to the tree. -/
theorem after_discard (x : FileM α) (root : FileTree) :
    (x >>= fun _ => (pure () : FileM Unit)).after root = x.after root := by
  unfold after
  cases hrun : x root with
  | ok a root' =>
    rw [bind_of_ok hrun]
    rfl
  | error r root' => rw [bind_of_error hrun]

theorem tryCatch_of_ok {handle : Refusal → FileM α} (h : x root = .ok a root') :
    tryCatch x handle root = .ok a root' := by
  simp only [tryCatch, tryCatchThe, MonadExceptOf.tryCatch, EStateM.tryCatch, h]

theorem tryCatch_of_error {handle : Refusal → FileM α} (h : x root = .error r root') :
    tryCatch x handle root = handle r root' := by
  simp only [tryCatch, tryCatchThe, MonadExceptOf.tryCatch, EStateM.tryCatch, h]
  rfl

end FileM

namespace FileTree

section Running

variable {root : FileTree} {here : List String} {es es' : List (String × FileTree)}
  {tell : PathError → String} {op : Operation}

theorem change_of_ok (h : root.get? here = some (dir es)) (hop : op es = .ok es') :
    change here tell op root = .ok () (put (dir es') here root) := by
  rw [change, FileM.get_bind]
  simp only [h, hop]
  rfl

theorem change_of_error {e : PathError} (h : root.get? here = some (dir es))
    (hop : op es = .error e) : change here tell op root = .error ⟨e, tell e⟩ root := by
  rw [change, FileM.get_bind]
  simp only [h, hop]
  rfl

/-- A change that is made is made to the entries of a directory. -/
theorem exists_of_change {root' : FileTree} (h : change here tell op root = .ok () root') :
    ∃ es es', root.get? here = some (dir es) ∧ op es = .ok es' ∧
      root' = put (dir es') here root := by
  cases hget : root.get? here with
  | none =>
    rw [change, FileM.get_bind, hget] at h
    cases h
  | some t =>
    cases t with
    | file bytes =>
      rw [change, FileM.get_bind, hget] at h
      cases h
    | dir es =>
      cases hop : op es with
      | error e =>
        rw [change_of_error hget hop] at h
        cases h
      | ok es' =>
        rw [change_of_ok hget hop] at h
        obtain ⟨-, rfl⟩ := EStateM.Result.ok.inj h
        exact ⟨es, es', rfl, hop, rfl⟩

/-- What is done to a directory that was changed before. -/
theorem change_put (hop : op es = .ok es') :
    change here tell op (put (dir es) here root) = .ok () (put (dir es') here root) := by
  rw [change_of_ok (get?_put _ _ _) hop, put_put]

theorem change_of_not_dir (h : ∀ es, root.get? here ≠ some (dir es)) :
    ∃ r, change here tell op root = .error r root := by
  rw [change, FileM.get_bind]
  cases hget : root.get? here with
  | none => exact ⟨_, rfl⟩
  | some t =>
    cases t with
    | file bytes => exact ⟨_, rfl⟩
    | dir es => exact absurd hget (h es)

/-- What holds of a tree holds after a change, if it holds whenever the change is made. -/
theorem after_change {P : FileTree → Prop} (h : P root)
    (hop : ∀ es es', root.get? here = some (dir es) → op es = .ok es' →
      P (put (dir es') here root)) : P ((change here tell op).after root) := by
  unfold FileM.after
  by_cases hdir : ∃ es, root.get? here = some (dir es)
  · obtain ⟨es, hget⟩ := hdir
    cases hes : op es with
    | error e =>
      rw [change_of_error hget hes]
      exact h
    | ok es' =>
      rw [change_of_ok hget hes]
      exact hop es es' hget hes
  · obtain ⟨r, hrun⟩ : ∃ r, change here tell op root = .error r root :=
      change_of_not_dir (not_exists.1 hdir)
    rw [hrun]
    exact h

/-- What holds of a tree holds after a file has been written, if it holds with the file. -/
theorem after_write {P : FileTree → Prop} {name : String} {bytes : List UInt8} (h : P root)
    (hput : P (put (file bytes) (here ++ [name]) root)) :
    P ((change here tell (.write name bytes)).after root) := by
  refine after_change h fun es es' hdir hop => ?_
  have hes' : Table.set name (file bytes) es = es' := by
    unfold Operation.write at hop
    split at hop
    · cases hop
    · exact Except.ok.inj hop
  rw [← hes', ← put_concat hdir]
  exact hput

end Running

section Directories

variable {root : FileTree} {here : List String} {es : List (String × FileTree)}

/-- The ways in which the directories on the way to a list of names, and that one itself, are
made. -/
inductive Making (root : FileTree) (names : List String) :
    EStateM.Result Refusal FileTree Unit → Prop where
  | there {es : List (String × FileTree)} (h : root.get? names = some (dir es)) :
      Making root names (.ok () root)
  | made (h : root.get? names = none)
      (hway : ∀ way bytes, way <+: names → root.get? way ≠ some (file bytes)) :
      Making root names (.ok () (put (dir []) names root))
  | blocked {way : List String} {bytes : List UInt8} {r : Refusal} (hway : way <+: names)
      (hfile : root.get? way = some (file bytes)) (hr : r.kind ≠ .nullByte) :
      Making root names (.error r root)

/-- A directory is made where there is nothing. -/
theorem change_add {name : String} (h : root.get? here = some (dir es))
    (hnone : root.get? (here ++ [name]) = none) (tell : PathError → String) :
    change here tell (.add name (dir [])) root = .ok () (put (dir []) (here ++ [name]) root) := by
  have hadd : Operation.add name (dir []) es = .ok (Table.set name (dir []) es) := by
    rw [get?_concat h] at hnone
    simp [Operation.add, hnone]
  rw [change_of_ok h hadd, put_concat h]

/-- In an empty directory, nothing is in the way of others. -/
theorem makeDirectories_of_empty (h : root.get? here = some (dir [])) (names : List String) :
    makeDirectories here names root = .ok () (put (dir []) (here ++ names) root) := by
  induction names generalizing root here with
  | nil =>
    rw [List.append_nil, put_of_get? h]
    rfl
  | cons name rest ih =>
    have hnone : root.get? (here ++ [name]) = none := get?_concat h name
    rw [makeDirectories, FileM.get_bind, hnone]
    refine (FileM.bind_of_ok (change_add h hnone _)).trans ?_
    rw [ih (get?_put _ _ _), put_below hnone, ← List.append_cons]

/-- **The ways in which directories are made.** -/
theorem makeDirectories_cases (h : root.get? here = some (dir es)) (names : List String) :
    Making root (here ++ names) (makeDirectories here names root) := by
  induction names generalizing here es with
  | nil =>
    rw [List.append_nil]
    exact .there h
  | cons name rest ih =>
    have hsplit : here ++ name :: rest = here ++ [name] ++ rest := List.append_cons _ _ _
    rw [makeDirectories, FileM.get_bind, hsplit]
    cases hget : root.get? (here ++ [name]) with
    | some t =>
      cases t with
      | dir es' => exact ih hget
      | file bytes =>
        refine .blocked (List.prefix_append _ _) hget ?_
        split <;> simp
    | none =>
      have hmade : makeDirectories (here ++ [name]) rest (put (dir []) (here ++ [name]) root) =
          .ok () (put (dir []) (here ++ [name] ++ rest) root) := by
        rw [makeDirectories_of_empty (get?_put _ _ _), put_below hget]
      simp only
      rw [FileM.bind_of_ok (change_add h hget _), hmade]
      refine .made (get?_below hget rest) fun way bytes hway hfile => ?_
      -- what is beyond the first directory that is missing is missing too
      rcases List.prefix_or_prefix_of_prefix hway (List.prefix_append (here ++ [name]) rest)
        with hway | ⟨more, rfl⟩
      · rcases List.prefix_concat_iff.1 hway with rfl | hway
        · cases hget.symm.trans hfile
        · exact not_file_of_dir h hway bytes hfile
      · cases (get?_below hget more).symm.trans hfile

/-- What holds of a tree holds after directories have been made in it, if it holds whenever one is
made where nothing was. -/
theorem after_makeDirectories {P : FileTree → Prop} (h : P root) (hroot : root = dir es)
    (names : List String) (hmade : root.get? names = none → P (put (dir []) names root)) :
    P ((makeDirectories [] names).after root) := by
  have hdir : root.get? [] = some (dir es) := congrArg some hroot
  have hmaking := makeDirectories_cases hdir names
  rw [List.nil_append] at hmaking
  unfold FileM.after
  generalize makeDirectories [] names root = making at hmaking ⊢
  cases hmaking with
  | there _ => exact h
  | made hnone _ => exact hmade hnone
  | blocked _ _ _ => exact h

end Directories

end FileTree

end CatalogLint
