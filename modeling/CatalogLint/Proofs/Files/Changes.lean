import CatalogLint.Proofs.Files.Paths

/-!
# What a change of a tree leaves as it was

What is put where there was nothing, or a file where there was a file, leaves directories
directories and files files, and a path goes on leading where it led.

* `FileTree.get?_put`: what was put somewhere stands there.
* `FileTree.Keeps`: a tree goes on holding what another one held, but for the bytes of one file.
* `FileTree.keeps_put`: **what is put where it does not stand in the way changes nothing else.**
* `FileTree.Keeps.lookup`: **a path to a file goes on leading to it.**
-/

namespace CatalogLint

namespace FileTree

section Places

variable {root t : FileTree} {names : List String}

@[simp]
theorem get?_put (t root : FileTree) (names : List String) :
    (put t names root).get? names = some t := by
  induction names generalizing root with
  | nil => rfl
  | cons name rest ih =>
    rw [put, get?, entries, Table.lookup_set, if_pos rfl, Option.bind_some]
    exact ih _

theorem get?_append (root : FileTree) (names names' : List String) :
    root.get? (names ++ names') = (root.get? names).bind (·.get? names') := by
  induction names generalizing root with
  | nil => rfl
  | cons name names ih =>
    rw [List.cons_append, get?, get?, Option.bind_assoc]
    congr 1
    funext u
    exact ih u

theorem get?_file {bytes : List UInt8} {t : FileTree} (h : (file bytes).get? names = some t) :
    names = [] ∧ t = file bytes := by
  cases names with
  | nil => exact ⟨rfl, (Option.some.inj h).symm⟩
  | cons name names => cases h

/-- Nothing on the way to a directory is a file. -/
theorem not_file_of_dir {es : List (String × FileTree)} (h : root.get? names = some (dir es))
    {way : List String} (hway : way <+: names) (bytes : List UInt8) :
    root.get? way ≠ some (file bytes) := by
  intro hfile
  obtain ⟨rest, rfl⟩ := hway
  rw [get?_append, hfile] at h
  cases (get?_file h).2

end Places

/-- A tree goes on holding what another one held: directories, files, and the bytes of all files but
the one at `spare`. -/
structure Keeps (spare : List String) (root root' : FileTree) : Prop where
  dirs : ∀ {names es}, root.get? names = some (dir es) → ∃ es', root'.get? names = some (dir es')
  files : ∀ {names bytes}, root.get? names = some (file bytes) →
    ∃ bytes', root'.get? names = some (file bytes') ∧ (names ≠ spare → bytes' = bytes)

section Keeps

variable {spare here names : List String} {root root' : FileTree}

theorem Keeps.refl (spare : List String) (root : FileTree) : Keeps spare root root :=
  ⟨fun h => ⟨_, h⟩, fun h => ⟨_, h, fun _ => rfl⟩⟩

theorem Keeps.isSome (h : Keeps spare root root') (hs : (root.get? names).isSome = true) :
    (root'.get? names).isSome = true := by
  obtain ⟨t, ht⟩ := Option.isSome_iff_exists.1 hs
  cases t with
  | dir es =>
    obtain ⟨es', hdir⟩ := h.dirs ht
    rw [hdir]
    rfl
  | file bytes =>
    obtain ⟨bytes', hfile, -⟩ := h.files ht
    rw [hfile]
    rfl

theorem get?_concat {es : List (String × FileTree)} (h : root.get? here = some (dir es))
    (step : String) : root.get? (here ++ [step]) = es.lookup step := by
  rw [get?_append, h]
  show ((es.lookup step).bind fun t => t.get? []) = _
  cases es.lookup step <;> rfl

/-- A path that could be followed can be followed on. -/
theorem Keeps.follow (h : Keeps spare root root') {steps : List String}
    (hf : root.follow here steps = .ok names) : root'.follow here steps = .ok names := by
  induction steps generalizing here with
  | nil => exact hf
  | cons step rest ih =>
    obtain ⟨es, hdir⟩ := dir_of_follow hf
    obtain ⟨es', hdir'⟩ := h.dirs hdir
    have hentry : (es.lookup step).isSome = true → (es'.lookup step).isSome = true := by
      rw [← get?_concat hdir, ← get?_concat hdir']
      exact h.isSome
    rw [FileTree.follow, hdir] at hf
    rw [FileTree.follow, hdir']
    simp only at hf ⊢
    split_ifs at hf with hstill hup hlong hsome
    · rw [if_pos hstill]
      exact ih hf
    · rw [if_neg hstill, if_pos hup]
      exact ih hf
    · rw [if_neg hstill, if_neg hup, if_neg hlong, if_pos (hentry hsome)]
      exact ih hf

/-- A path to a file goes on leading to it. -/
theorem Keeps.lookup (h : Keeps spare root root') {current : List String} {path : String}
    {bytes : List UInt8} (hl : root.lookup current path = .ok (names, file bytes)) :
    ∃ bytes', root'.lookup current path = .ok (names, file bytes') ∧
      (names ≠ spare → bytes' = bytes) := by
  obtain ⟨hresolve, hget⟩ := lookup_eq_ok_iff.1 hl
  obtain ⟨hnull, hempty, hlong, hf⟩ := resolve_eq_ok_iff.1 hresolve
  obtain ⟨bytes', hget', heq⟩ := h.files hget
  refine ⟨bytes', lookup_eq_ok_iff.2 ⟨?_, hget'⟩, heq⟩
  exact resolve_eq_ok_iff.2 ⟨hnull, hempty, hlong, h.follow hf⟩

end Keeps

section Changes

variable {t root : FileTree} {names : List String}

/-- Where something may be put: no file is on the way, and there is nothing yet, or a file for which
there is to be another one. -/
structure Free (t : FileTree) (names : List String) (root : FileTree) : Prop where
  way : ∀ {way bytes}, way <+: names → root.get? way = some (file bytes) →
    way = names ∧ ∃ bytes', t = file bytes'
  spot : ∀ es, root.get? names ≠ some (dir es)

theorem Free.entry {name : String} {rest : List String} (h : Free t (name :: rest) root)
    {u : FileTree} (hu : root.entries.lookup name = some u) : Free t rest u := by
  have hget : ∀ way, root.get? (name :: way) = u.get? way := by
    intro way
    rw [get?, hu]
    rfl
  constructor
  · intro way bytes hway hfile
    obtain ⟨heq, ht⟩ := h.way (List.cons_prefix_cons.2 ⟨rfl, hway⟩) ((hget way).trans hfile)
    exact ⟨(List.cons.inj heq).2, ht⟩
  · intro es hdir
    exact h.spot es ((hget rest).trans hdir)

/-- **What is put where it does not stand in the way changes nothing else.** -/
theorem keeps_put (h : Free t names root) : Keeps names root (put t names root) := by
  induction names generalizing root with
  | nil =>
    cases root with
    | dir es => exact absurd rfl (h.spot es)
    | file bytes =>
      obtain ⟨-, bytes', rfl⟩ := h.way (List.prefix_refl []) rfl
      constructor
      · intro names es hdir
        cases (get?_file hdir).2
      · intro names bytes'' hfile
        obtain ⟨rfl, -⟩ := get?_file hfile
        exact ⟨bytes', rfl, fun hne => absurd rfl hne⟩
  | cons name rest ih =>
    -- an entry under another name is found as before, and one under this name has been dealt with
    have hother : ∀ other way, other ≠ name →
        (put t (name :: rest) root).get? (other :: way) = root.get? (other :: way) := by
      intro other way hne
      rw [put, get?, get?, entries, Table.lookup_set, if_neg hne]
    have hsame : ∀ way, (put t (name :: rest) root).get? (name :: way) =
        (put t rest ((root.entries.lookup name).getD (dir []))).get? way := by
      intro way
      rw [put, get?, entries, Table.lookup_set, if_pos rfl]
      rfl
    constructor
    · intro names es hdir
      cases names with
      | nil => exact ⟨_, rfl⟩
      | cons other way =>
        by_cases hname : other = name
        · subst hname
          rw [get?] at hdir
          obtain ⟨u, hu, hdir⟩ := Option.bind_eq_some_iff.1 hdir
          rw [hsame, hu, Option.getD_some]
          exact (ih (h.entry hu)).dirs hdir
        · rw [hother other way hname]
          exact ⟨es, hdir⟩
    · intro names bytes hfile
      cases names with
      | nil => exact absurd (h.way List.nil_prefix hfile).1 (List.cons_ne_nil _ _).symm
      | cons other way =>
        by_cases hname : other = name
        · subst hname
          rw [get?] at hfile
          obtain ⟨u, hu, hfile⟩ := Option.bind_eq_some_iff.1 hfile
          rw [hsame, hu, Option.getD_some]
          obtain ⟨bytes', hfile', heq⟩ := (ih (h.entry hu)).files hfile
          exact ⟨bytes', hfile', fun hne => heq fun hway => hne (hway ▸ rfl)⟩
        · rw [hother other way hname]
          exact ⟨bytes, hfile, fun _ => rfl⟩

end Changes

end FileTree

end CatalogLint
