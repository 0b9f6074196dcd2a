import CatalogLint.Json.Token
import Mathlib.Data.Nat.Digits.Defs

/-!
# Written whole numbers are read back

A whole number is written with its decimal digits, without leading zeros, so all of its digits are
taken and none of them is left, as long as what follows does not go on with a number.

* `NumberEnds`: what may follow a number.
* `wholePart_toDigits`: the digits of a number are its whole part.
* `intToken`: what a written number is read as.
* `intOf_toString`: a number can be told from its characters.
* `tokenAt_int`: **a written number is one token.**
-/

namespace CatalogLint.Json

open CatalogLint.Text

/-- A number ends before `rest`. -/
def NumberEnds (rest : List Char) : Prop :=
  ∀ c ∈ rest.head?, c.isDigit = false ∧ c ≠ '.' ∧ c ≠ 'e' ∧ c ≠ 'E'

theorem numberEnds_cons {c : Char} (rest : List Char)
    (h : c.isDigit = false ∧ c ≠ '.' ∧ c ≠ 'e' ∧ c ≠ 'E') : NumberEnds (c :: rest) := by
  intro c' hc'
  obtain rfl : c = c' := Option.some.inj hc'
  exact h

section Digits

variable {n : Nat} {rest : List Char}

theorem isDigit_of_mem_toDigits : ∀ c ∈ Nat.toDigits 10 n, c.isDigit = true :=
  fun _ hc => Nat.isDigit_of_mem_toDigits (by omega) (by omega) hc

theorem exists_toDigits (n : Nat) : ∃ c cs, Nat.toDigits 10 n = c :: cs ∧ c.isDigit = true := by
  obtain ⟨c, cs, hcs⟩ := List.exists_cons_of_ne_nil (Nat.toDigits_ne_nil (n := n) (b := 10))
  refine ⟨c, cs, hcs, isDigit_of_mem_toDigits (n := n) c ?_⟩
  rw [hcs]
  exact List.mem_cons_self

/-- Only zero begins with a zero. -/
theorem head?_toDigits (h : n ≠ 0) : (Nat.toDigits 10 n).head? ≠ some '0' := by
  induction n using Nat.strongRecOn with
  | ind n ih =>
    rw [Nat.toDigits_eq_if (by omega)]
    split
    · rename_i hlt
      have hdigit : ∀ k < 10, k ≠ 0 → [Nat.digitChar k].head? ≠ some '0' := by decide
      exact hdigit n hlt h
    · rename_i hge
      have hhead := ih (n / 10) (by omega) (by omega)
      obtain ⟨c, cs, hcs, -⟩ := exists_toDigits (n / 10)
      rw [hcs] at hhead ⊢
      exact hhead

theorem digits_toDigits (n : Nat) (h : NumberEnds rest) :
    digits (Nat.toDigits 10 n ++ rest) = Nat.toDigits 10 n := by
  have hrest : rest.takeWhile Char.isDigit = [] := by
    cases rest with
    | nil => rfl
    | cons c rest => rw [List.takeWhile_cons_of_neg (by simp [(h c rfl).1])]
  unfold digits
  rw [List.takeWhile_append_of_pos isDigit_of_mem_toDigits, hrest, List.append_nil]

/-- The digits of a number are its whole part. -/
theorem wholePart_toDigits (n : Nat) (h : NumberEnds rest) :
    wholePart (Nat.toDigits 10 n ++ rest) = Nat.toDigits 10 n := by
  unfold wholePart
  rw [digits_toDigits n h]
  by_cases hn : n = 0
  · subst hn
    rfl
  · split
    · -- a zero in front would be taken alone, and leave the other digits
      rename_i heq
      have hhead := head?_toDigits hn
      rw [heq] at hhead
      exact absurd rfl hhead
    · rfl

theorem number?_toDigits (negative : Bool) (n : Nat) (h : NumberEnds rest) :
    number? negative (Nat.toDigits 10 n ++ rest) =
      some (wholeNumber negative (Nat.toDigits 10 n), (Nat.toDigits 10 n).length) := by
  have hne : (Nat.toDigits 10 n).isEmpty = false := by simp
  have hfraction : fractionPart rest = [] := by
    cases rest with
    | nil => rfl
    | cons c rest =>
      unfold fractionPart
      split
      · rename_i heq
        exact absurd (List.cons.inj heq).1 (h c rfl).2.1
      · rfl
  have hexponent : exponentPart rest = none := by
    cases rest with
    | nil => rfl
    | cons c rest => simp [exponentPart, (h c rfl).2.2]
  unfold number?
  simp only [wholePart_toDigits n h, hne, List.drop_left, hfraction, hexponent, List.isEmpty_nil,
    if_true, Bool.false_eq_true, if_false]

end Digits

section Tokens

variable {rest : List Char}

theorem toList_toString_int (n : Int) :
    (toString n).toList = (if n < 0 then ['-'] else []) ++ Nat.toDigits 10 n.natAbs := by
  cases n with
  | ofNat m => simp [toString, Int.repr, Nat.repr_eq_ofList_toDigits]
  | negSucc m => simp [toString, Int.repr, Nat.repr_eq_ofList_toDigits]

/-- What a written number is read as. -/
def intToken (n : Int) : Token :=
  if digitLimit < (Nat.toDigits 10 n.natAbs).length then
    .longNumber (Nat.toDigits 10 n.natAbs).length
  else .scalar (.int n)

theorem natOfDigits_toDigits (n : Nat) : natOfDigits (Nat.toDigits 10 n) = n :=
  Nat.ofDigitChars_ten_toDigits

theorem wholeNumber_eq_intToken (n : Int) :
    wholeNumber (decide (n < 0)) (Nat.toDigits 10 n.natAbs) = intToken n := by
  have hsigned : signed (decide (n < 0)) (Nat.toDigits 10 n.natAbs) = n := by
    unfold signed
    rw [natOfDigits_toDigits]
    by_cases hn : n < 0
    · rw [if_pos (by simpa using hn)]
      omega
    · rw [if_neg (by simpa using hn)]
      omega
  unfold wholeNumber intToken
  rw [hsigned]

/-- The number that these characters name, however many they are. -/
def intOf : List Char → Int
  | '-' :: ds => -natOfDigits ds
  | ds => natOfDigits ds

theorem intOf_toString (n : Int) : intOf (toString n).toList = n := by
  rw [toList_toString_int]
  by_cases hn : n < 0
  · rw [if_pos hn]
    show -(natOfDigits (Nat.toDigits 10 n.natAbs) : Int) = n
    rw [natOfDigits_toDigits]
    omega
  · rw [if_neg hn, List.nil_append]
    unfold intOf
    split
    · -- digits do not begin with a sign
      rename_i ds heq
      obtain ⟨c, cs, hcs, hc⟩ := exists_toDigits n.natAbs
      rw [heq] at hcs
      rw [← (List.cons.inj hcs).1] at hc
      cases hc
    · rw [natOfDigits_toDigits]
      omega

/-- No name of a scalar begins with a digit, or with a sign and a digit. -/
theorem find?_scalarNames {c : Char} (hc : c.isDigit = true) (cs : List Char) :
    scalarNames.find? (fun x => x.1.isPrefixOf (c :: cs)) = none ∧
      scalarNames.find? (fun x => x.1.isPrefixOf ('-' :: c :: cs)) = none := by
  have hne : ∀ x : Char, x.isDigit = false → x ≠ c := by
    rintro x hx rfl
    rw [hc] at hx
    cases hx
  constructor
  · simp [scalarNames, hne]
  · simp [scalarNames, hne]

theorem scalar?_int (n : Int) (h : NumberEnds rest) :
    scalar? ((toString n).toList ++ rest) = some (intToken n, (toString n).toList.length) := by
  have hnumber := number?_toDigits (decide (n < 0)) n.natAbs h
  rw [wholeNumber_eq_intToken] at hnumber
  obtain ⟨c, cs, hcs, hc⟩ := exists_toDigits n.natAbs
  obtain ⟨hfind, hfind'⟩ := find?_scalarNames hc (cs ++ rest)
  rw [toList_toString_int]
  rw [hcs] at hnumber ⊢
  by_cases hn : n < 0
  · simp only [hn, decide_true] at hnumber
    simp only [hn, if_true, List.cons_append, List.nil_append] at hnumber ⊢
    unfold scalar?
    simp only [hfind', hnumber]
    rfl
  · simp only [hn, decide_false] at hnumber
    simp only [hn, if_false, List.cons_append, List.nil_append] at hnumber ⊢
    unfold scalar?
    simp only [hfind]
    split
    · rename_i heq
      rw [(List.cons.inj heq).1] at hc
      cases hc
    · exact hnumber

/-- A number begins with its sign or with a digit. -/
theorem exists_toString_int (n : Int) :
    ∃ c cs, (toString n).toList = c :: cs ∧ (c = '-' ∨ c.isDigit = true) := by
  rw [toList_toString_int]
  by_cases hn : n < 0
  · rw [if_pos hn]
    exact ⟨'-', _, rfl, .inl rfl⟩
  · obtain ⟨c, cs, hcs, hc⟩ := exists_toDigits n.natAbs
    rw [if_neg hn, hcs]
    exact ⟨c, cs, rfl, .inr hc⟩

/-- **A written number is one token**, unless it goes on. -/
theorem tokenAt_int {n : Int} {c : Char} {cs : List Char} (hcs : (toString n).toList = c :: cs)
    (h : NumberEnds rest) : tokenAt c (cs ++ rest) = (intToken n, cs.length + 1) := by
  have hscalar := scalar?_int n h
  rw [hcs] at hscalar
  have hfirst : c = '-' ∨ c.isDigit = true := by
    obtain ⟨c', cs', hcs', hc'⟩ := exists_toString_int n
    rw [hcs] at hcs'
    rwa [(List.cons.inj hcs').1]
  have hne : ∀ x : Char, x ≠ '-' → x.isDigit = false → c ≠ x := by
    rintro x hx hdigit rfl
    rcases hfirst with rfl | hc
    · exact hx rfl
    · rw [hc] at hdigit
      cases hdigit
  unfold tokenAt
  rw [if_neg (hne _ (by decide) rfl), if_neg (hne _ (by decide) rfl),
    if_neg (hne _ (by decide) rfl), if_neg (hne _ (by decide) rfl), if_neg (hne _ (by decide) rfl),
    if_neg (hne _ (by decide) rfl), if_neg (hne _ (by decide) rfl), ← List.cons_append, hscalar]
  rfl

end Tokens

end CatalogLint.Json
