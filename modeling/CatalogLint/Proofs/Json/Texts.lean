import CatalogLint.Json.Token
import CatalogLint.Json.Writer
import Mathlib.Tactic.IntervalCases

/-!
# Written texts are read back

A written text is cut off as one token, with the code points that were written, whatever follows
its closing quote.

* `writtenChar_cases`: a character is written as itself, or as an escape that names it.
* `tokenAt_writtenText`: **a written text is one token, with the code points it was written from.**
-/

namespace CatalogLint.Text

theorem stringOf?_pointsOf (s : String) : stringOf? (pointsOf s) = some s := by
  have hchars : ∀ cs : List Char, (cs.map Point.char).mapM Point.char? = some cs := by
    intro cs
    induction cs with
    | nil => rfl
    | cons c cs ih => simp [Point.char?, ih]
  unfold stringOf? pointsOf
  rw [hchars, Option.map_some, String.ofList_toList]

theorem pointsOf_injective : Function.Injective pointsOf := by
  intro s t h
  have hs := stringOf?_pointsOf s
  rw [h, stringOf?_pointsOf] at hs
  exact (Option.some.inj hs).symm

/-- Points that are a text are the points of it. -/
theorem stringOf?_eq_some_iff {ps : List Point} {s : String} :
    stringOf? ps = some s ↔ ps = pointsOf s := by
  have hpoints : ∀ {ps : List Point} {cs}, ps.mapM Point.char? = some cs →
      ps = cs.map Point.char := by
    intro ps
    induction ps with
    | nil =>
      intro cs h
      obtain rfl : [] = cs := Option.some.inj h
      rfl
    | cons p ps ih =>
      intro cs h
      rw [List.mapM_cons] at h
      obtain ⟨c, hc, h⟩ := Option.bind_eq_some_iff.1 h
      obtain ⟨cs', hcs', h⟩ := Option.bind_eq_some_iff.1 h
      obtain rfl : c :: cs' = cs := Option.some.inj h
      cases p with
      | char c' => rw [ih hcs', ← Option.some.inj hc, List.map_cons]
      | half offset => cases hc
  constructor
  · intro h
    obtain ⟨cs, hcs, rfl⟩ := Option.map_eq_some_iff.1 h
    rw [pointsOf, String.toList_ofList]
    exact hpoints hcs
  · rintro rfl
    exact stringOf?_pointsOf s

theorem lowerHexDigit_spec {n : Nat} (h : n < 16) :
    hexValue? (lowerHexDigit n) = some n ∧ 0x30 ≤ (lowerHexDigit n).toNat := by
  interval_cases n <;> decide

end CatalogLint.Text

namespace CatalogLint.Json

open CatalogLint.Text

theorem lowerHex_four (n : Nat) :
    lowerHex 4 n = [lowerHexDigit (n / 4096 % 16), lowerHexDigit (n / 256 % 16),
      lowerHexDigit (n / 16 % 16), lowerHexDigit (n % 16)] := by
  have hlast : n / Nat.pow 16 0 % 16 = n % 16 := by simp
  rw [← hlast]
  rfl

/-- Four digits name the number that they were made from. -/
theorem unit?_lowerHex {n : Nat} (h : n < 0x10000) (rest : List Char) :
    unit? (lowerHex 4 n ++ rest) = some n := by
  have hd : ∀ k, hexValue? (lowerHexDigit (k % 16)) = some (k % 16) :=
    fun k => (lowerHexDigit_spec (Nat.mod_lt k (by omega))).1
  have hn : ((n / 4096 % 16 * 16 + n / 256 % 16) * 16 + n / 16 % 16) * 16 + n % 16 = n := by omega
  rw [lowerHex_four]
  simp [unit?, hd, hn]

/-- A control character by its number. -/
theorem escapeIn?_number {c : Char} (h : c.toNat < 0x20) (rest : List Char) :
    escapeIn? ('u' :: lowerHex 4 c.toNat ++ rest) = some (.char c, 5) := by
  have hpoint : Point.ofNat c.toNat = .char c := by
    unfold Point.ofNat
    rw [dif_neg (by omega), Char.ofNat_toNat]
  have hhalf : ¬ ((decide (0xD800 ≤ c.toNat) && decide (c.toNat ≤ 0xDBFF)) = true) := by
    simp only [Bool.and_eq_true, decide_eq_true_eq]
    omega
  rw [List.cons_append]
  simp only [escapeIn?, unicodeEscape?, unit?_lowerHex (n := c.toNat) (by omega)]
  rw [if_neg hhalf, hpoint]
  rfl

/-- How a character is written: as itself, or as an escape that names it. -/
inductive Written (c : Char) : List Char → Prop where
  | plain : c ≠ '"' → c ≠ '\\' → 0x20 ≤ c.toNat → Written c [c]
  | escape {esc : List Char} : (∀ rest, escapeIn? (esc ++ rest) = some (.char c, esc.length)) →
      (∀ x ∈ esc, 0x20 ≤ x.toNat) → Written c ('\\' :: esc)

theorem writtenChar_cases (c : Char) : Written c (writtenChar c) := by
  have hshort : ∀ x : Char, 0x20 ≤ x.toNat →
      (∀ rest, escapeIn? (x :: rest) = some (.char c, 1)) → Written c ['\\', x] := by
    intro x hx he
    exact .escape he (by simpa using hx)
  unfold writtenChar
  by_cases hquote : c = '"'
  · subst hquote
    exact hshort _ (by decide) fun rest => rfl
  by_cases hslash : c = '\\'
  · subst hslash
    exact hshort _ (by decide) fun rest => rfl
  rw [if_neg hquote, if_neg hslash]
  split_ifs with hn hr ht hb hf hcontrol
  · subst hn
    exact hshort _ (by decide) fun rest => rfl
  · subst hr
    exact hshort _ (by decide) fun rest => rfl
  · subst ht
    exact hshort _ (by decide) fun rest => rfl
  · subst hb
    exact hshort _ (by decide) fun rest => rfl
  · subst hf
    exact hshort _ (by decide) fun rest => rfl
  · refine .escape (escapeIn?_number hcontrol) ?_
    have hd : ∀ k, 0x20 ≤ (lowerHexDigit (k % 16)).toNat := by
      intro k
      have := (lowerHexDigit_spec (Nat.mod_lt k (show 16 > 0 by omega))).2
      omega
    simp [lowerHex_four, hd]
  · exact .plain hquote hslash (by omega)

section Texts

variable (done : List Point) (width : Nat) (rest : List Char)

theorem textFrom_skip (cs : List Char) :
    textFrom done width cs.length (cs ++ rest) = textFrom done (width + cs.length) 0 rest := by
  induction cs generalizing width with
  | nil => rfl
  | cons c cs ih =>
    rw [List.length_cons, List.cons_append, textFrom, ih, Nat.add_right_comm, Nat.add_assoc]

/-- A written character is taken up. -/
theorem textFrom_writtenChar (c : Char) :
    textFrom done width 0 (writtenChar c ++ rest) =
      textFrom (.char c :: done) (width + (writtenChar c).length) 0 rest := by
  have hw := writtenChar_cases c
  generalize writtenChar c = cs at hw
  cases hw with
  | plain hquote hslash hspace =>
    rw [List.singleton_append, textFrom, if_neg hquote, if_neg hslash, if_neg (by omega)]
    rfl
  | @escape esc he _ =>
    rw [List.cons_append, textFrom, if_neg (by decide), if_pos rfl, he rest]
    simp only
    rw [textFrom_skip, List.length_cons, Nat.add_assoc, Nat.add_comm 1]

/-- Written characters are taken up, one after the other, up to the closing quote. -/
theorem textFrom_written (cs : List Char) :
    textFrom done width 0 (cs.flatMap writtenChar ++ '"' :: rest) =
      some (done.reverse ++ cs.map .char, width + (cs.flatMap writtenChar).length + 1) := by
  induction cs generalizing done width with
  | nil => simp [textFrom]
  | cons c cs ih =>
    rw [List.flatMap_cons, List.append_assoc, textFrom_writtenChar, ih, List.length_append]
    simp [Nat.add_assoc]

end Texts

theorem writtenText_pointsOf (s : String) :
    writtenText (pointsOf s) = '"' :: (s.toList.flatMap writtenChar ++ ['"']) := by
  unfold writtenText pointsOf
  rw [List.flatMap_map]
  rfl

/-- **A written text is one token**, with the code points that it was written from. -/
theorem tokenAt_writtenText (s : String) (rest : List Char) :
    tokenAt '"' (s.toList.flatMap writtenChar ++ '"' :: rest) =
      (.text (pointsOf s), (s.toList.flatMap writtenChar).length + 2) := by
  simp only [tokenAt, textFrom_written]
  rw [Nat.add_right_comm, Nat.add_comm]
  rfl

theorem isSpace_of_mem_newLine {depth : Nat} : ∀ c ∈ newLine depth, isSpace c = true := by
  intro c hc
  rcases List.mem_cons.1 hc with rfl | hc
  · rfl
  · rw [List.eq_of_mem_replicate hc]
    rfl

/-- Of a written text no character is a control character. -/
theorem le_toNat_of_mem_writtenText {s : String} {x : Char}
    (hx : x ∈ writtenText (pointsOf s)) : 0x20 ≤ x.toNat := by
  rw [writtenText_pointsOf] at hx
  simp only [List.mem_cons, List.mem_append, List.mem_flatMap, List.not_mem_nil, or_false] at hx
  rcases hx with rfl | ⟨c, -, hx⟩ | rfl
  · decide
  · have hw := writtenChar_cases c
    generalize writtenChar c = cs at hw hx
    cases hw with
    | plain _ _ hspace => rwa [List.mem_singleton.1 hx]
    | escape _ hesc =>
      rcases List.mem_cons.1 hx with rfl | hx
      · decide
      · exact hesc x hx
  · decide

end CatalogLint.Json
