import CatalogLint.Proofs.Catalog.Lines
import CatalogLint.Server.Units
import Mathlib.Data.List.DropRight

/-!
# Places in a client's units

A client names a place of a text by the line ends before it and by the code units that stand
between the last of them and the place. The server starts from a line and a column of a catalog,
and counts in the lines of an editor. The two come to the same unless an editor ends lines where a
catalog does not, a byte order mark stands on the line, or a client that wants UTF-8 has to do with
a character beyond ASCII.

* `breaks`, `lineSoFar`: the lines that end in a text, and what follows the last of them.
* `clientPlace`: the place after a text, as a client names it.
* `Encoding.units_eq_codeUnits_iff`: when the units that the server counts are code units.
* `getElem?_editorLinesFrom`: where an editor's lines are those of a catalog.
* `Told`: what a client is told about the place after a text.
* `told_inUnits`: **when a place is named right**, and what is named where it is not.
-/

namespace CatalogLint

open Text
open Catalog (FallsInto Unbroken unbroken_iff)

section Units

/-- The code units of a character. -/
def Encoding.width : Encoding → Char → Nat
  | .utf8, c => c.utf8Size
  | .utf16, c => if 0xFFFF < c.toNat then 2 else 1
  | .utf32, _ => 1

/-- The code units of a text. -/
def Encoding.codeUnits (e : Encoding) : List Char → Nat
  | [] => 0
  | c :: cs => e.width c + e.codeUnits cs

/-- Counting characters, and those outside the basic plane again, tells the code units of a text.
In UTF-8 it does so for ASCII only. -/
def Encoding.Countable (e : Encoding) (cs : List Char) : Prop :=
  e = .utf8 → ∀ c ∈ cs, c.toNat < 0x80

variable (e : Encoding)

theorem Encoding.units_append (cs ds : List Char) :
    e.units (cs ++ ds) = e.units cs + e.units ds := by
  simp only [Encoding.units, List.filter_append, List.length_append, Nat.mul_add]
  omega

theorem Encoding.units_cons (c : Char) (cs : List Char) :
    e.units (c :: cs) = e.units [c] + e.units cs := e.units_append [c] cs

theorem Encoding.units_singleton (c : Char) :
    e.units [c] = 1 + if 0xFFFF < c.toNat then e.surplus else 0 := by
  unfold Encoding.units
  by_cases h : 0xFFFF < c.toNat <;> simp [h]

/-- A character of ASCII takes one byte, any other one more, and one outside the basic plane
four. -/
theorem utf8Size_bounds (c : Char) :
    1 ≤ c.utf8Size ∧ (c.utf8Size = 1 ↔ c.toNat < 0x80) ∧
      (0xFFFF < c.toNat → c.utf8Size = 4) := by
  have h₁ : (127 : UInt32).toNat = 127 := rfl
  have h₂ : (65535 : UInt32).toNat = 65535 := rfl
  have hc : c.toNat = c.val.toNat := rfl
  refine ⟨c.utf8Size_pos, ?_, fun h => ?_⟩
  · rw [Char.utf8Size_eq_one_iff, UInt32.le_iff_toNat_le]
    omega
  · rw [Char.utf8Size_eq_four_iff, UInt32.lt_iff_toNat_lt]
    omega

/-- A character never has fewer code units than are counted. -/
theorem Encoding.units_singleton_le (c : Char) :
    e.units [c] ≤ e.width c ∧ (e.units [c] = e.width c ↔ e.Countable [c]) := by
  rw [units_singleton]
  cases e with
  | utf8 =>
    have hw := utf8Size_bounds c
    simp only [Encoding.width, Encoding.surplus, Encoding.Countable, List.mem_singleton, forall_eq,
      forall_const]
    split <;> omega
  | utf16 =>
    simp only [Encoding.width, Encoding.surplus, Encoding.Countable, reduceCtorEq]
    split <;> simp
  | utf32 => simp [Encoding.width, Encoding.surplus, Encoding.Countable]

theorem Encoding.countable_cons (c : Char) (cs : List Char) :
    e.Countable (c :: cs) ↔ e.Countable [c] ∧ e.Countable cs := by
  simp only [Encoding.Countable, List.mem_cons, List.not_mem_nil, or_false, forall_eq_or_imp,
    forall_eq]
  exact imp_and

/-- **When the units that are counted are code units.** They are never more. -/
theorem Encoding.units_eq_codeUnits_iff (cs : List Char) :
    e.units cs ≤ e.codeUnits cs ∧ (e.units cs = e.codeUnits cs ↔ e.Countable cs) := by
  induction cs with
  | nil => simp [Encoding.units, Encoding.codeUnits, Encoding.Countable]
  | cons c cs ih =>
    have hc := e.units_singleton_le c
    rw [e.units_cons, Encoding.codeUnits, e.countable_cons, ← hc.2, ← ih.2]
    omega

end Units

section Breaks

/-- How many lines end in a text. A carriage return and a line feed end one line. -/
def breaks : List Char → Nat
  | [] => 0
  | '\r' :: '\n' :: rest => breaks rest + 1
  | c :: rest => if isBreak c then breaks rest + 1 else breaks rest

/-- What follows the last line end of a text. -/
def lineSoFar (cs : List Char) : List Char := cs.rtakeWhile (!isBreak ·)

variable {l rest : List Char}

/-- A carriage return and a line feed apart, a text has the breaks of its characters. -/
theorem breaks_cons {c : Char} (h : c = '\r' → rest.head? ≠ some '\n') :
    breaks (c :: rest) = if isBreak c then breaks rest + 1 else breaks rest := by
  rw [breaks.eq_def]
  split
  · rename_i heq; cases heq
  · rename_i heq; cases heq; exact absurd rfl (h rfl)
  · rename_i heq; cases heq; rfl

theorem breaks_append (h : Unbroken l) (rest : List Char) : breaks (l ++ rest) = breaks rest := by
  induction l with
  | nil => rfl
  | cons c l ih =>
    have hu := unbroken_iff.1 h
    have hc : isBreak c = false := hu c List.mem_cons_self
    have hl : Unbroken l := unbroken_iff.2 fun x hx => hu x (List.mem_cons_of_mem c hx)
    have hr : c ≠ '\r' := by
      rintro rfl
      cases hc
    rw [List.cons_append, breaks_cons fun h => absurd h hr, hc]
    exact ih hl

theorem breaks_feed (rest : List Char) : breaks ('\n' :: rest) = breaks rest + 1 := by
  simp [breaks, isBreak]

theorem breaks_carriage (h : rest.head? ≠ some '\n') : breaks ('\r' :: rest) = breaks rest + 1 := by
  rw [breaks_cons fun _ => h]
  rfl

/-- A carriage return that ends a line of its own is not followed by a line feed, whatever comes
after the text. -/
theorem head?_append_of_pair {c : Char} {after : List Char}
    (hp : ∀ rest', c = '\r' → rest = '\n' :: rest' → False)
    (hcut : (c :: rest).getLast? = some '\r' → after.head? ≠ some '\n') :
    c = '\r' → (rest ++ after).head? ≠ some '\n' := by
  rintro rfl
  cases rest with
  | nil => exact hcut rfl
  | cons x rest =>
    intro hx
    obtain rfl : x = '\n' := by simpa using hx
    exact hp rest rfl rfl

/-- A character that ends no line adds none. -/
theorem breaks_concat {c : Char} (hc : isBreak c = false) (cs : List Char) :
    breaks (cs ++ [c]) = breaks cs := by
  fun_induction breaks cs with
  | case1 =>
    have hu : Unbroken [c] := unbroken_iff.2 (List.forall_mem_singleton.2 hc)
    exact breaks_append hu []
  | case2 rest ih =>
    rw [← ih]
    rfl
  | case3 x rest hp hx ih =>
    have hfeed : [c].head? ≠ some '\n' := by
      intro h
      obtain rfl : c = '\n' := by simpa using h
      cases hc
    rw [List.cons_append, breaks_cons (head?_append_of_pair hp fun _ => hfeed), if_pos hx, ih]
  | case4 x rest hp hx ih =>
    have hr : x ≠ '\r' := by
      rintro rfl
      exact hx rfl
    rw [List.cons_append, breaks_cons fun h => absurd h hr, if_neg hx, ih]

theorem lineSoFar_of_unbroken (h : Unbroken l) : lineSoFar l = l :=
  List.rtakeWhile_eq_self_iff.2 fun c hc => by rw [unbroken_iff.1 h c hc]; rfl

theorem lineSoFar_append {c : Char} (hc : isBreak c = true) (cs rest : List Char) :
    lineSoFar (cs ++ c :: rest) = lineSoFar rest := by
  unfold lineSoFar
  induction rest using List.reverseRecOn with
  | nil => rw [List.rtakeWhile_concat_neg _ _ _ (by simp [hc]), List.rtakeWhile_nil]
  | append_singleton rest x ih =>
    rw [← List.cons_append, ← List.append_assoc, List.rtakeWhile_concat, List.rtakeWhile_concat, ih]

theorem breaks_of_unbroken (h : Unbroken l) : breaks l = 0 := by
  have hb := breaks_append h []
  rwa [List.append_nil] at hb

theorem unbroken_take (h : Unbroken l) (n : Nat) : Unbroken (l.take n) :=
  unbroken_iff.2 fun c hc => unbroken_iff.1 h c (List.mem_of_mem_take hc)

theorem unbroken_of_breaks {cs : List Char} (h : breaks cs = 0) : Unbroken cs := by
  fun_induction breaks cs with
  | case1 => simp [Unbroken]
  | case2 rest ih => simp at h
  | case3 c rest hp hc ih => simp at h
  | case4 c rest hp hc ih =>
    rw [unbroken_iff]
    exact List.forall_mem_cons.2 ⟨by simpa using hc, unbroken_iff.1 (ih h)⟩

/-- What stands before the last line end does not matter. -/
theorem lineSoFar_append_of_breaks {cs : List Char} (h : breaks cs ≠ 0) (ds : List Char) :
    lineSoFar (ds ++ cs) = lineSoFar cs := by
  obtain ⟨c, hc, hb⟩ : ∃ c ∈ cs, isBreak c = true := by
    by_contra hno
    refine h (breaks_of_unbroken (unbroken_iff.2 fun c hc => ?_))
    by_contra hb
    exact hno ⟨c, hc, by simpa using hb⟩
  obtain ⟨xs, ys, rfl⟩ := List.append_of_mem hc
  rw [← List.append_assoc, lineSoFar_append hb, lineSoFar_append hb]

/-- A text is its first line, or the first line, its end and the lines after it, cut off at any
place. -/
theorem fallsInto_cons {cs : List Char} {ls : List (List Char)} (h : FallsInto cs (l :: ls)) :
    Unbroken l ∧ (cs = l ∧ ls = [] ∨ ∃ ending rest, cs = l ++ (ending ++ rest) ∧
      FallsInto rest ls ∧ ∀ x, x <+: rest → breaks (l ++ (ending ++ x)) = breaks x + 1 ∧
        lineSoFar (l ++ (ending ++ x)) = lineSoFar x) := by
  cases h with
  | last hr hn => exact ⟨⟨hr, hn⟩, .inl ⟨rfl, rfl⟩⟩
  | @feed _ rest _ hr hn hf =>
    refine ⟨⟨hr, hn⟩, .inr ⟨['\n'], rest, rfl, hf, fun x _ => ?_⟩⟩
    exact ⟨by rw [breaks_append ⟨hr, hn⟩]; exact breaks_feed x, lineSoFar_append rfl l x⟩
  | @pair _ rest _ hr hn hf =>
    refine ⟨⟨hr, hn⟩, .inr ⟨['\r', '\n'], rest, rfl, hf, fun x _ => ?_⟩⟩
    refine ⟨by rw [breaks_append ⟨hr, hn⟩]; rfl, ?_⟩
    have hline := lineSoFar_append (c := '\n') rfl (l ++ ['\r']) x
    simpa using hline
  | @carriage _ rest _ hr hn hh hf =>
    refine ⟨⟨hr, hn⟩, .inr ⟨['\r'], rest, rfl, hf, fun x hx => ?_⟩⟩
    have hhead : x.head? ≠ some '\n' := by
      cases x with
      | nil => simp
      | cons c x =>
        obtain ⟨tail, rfl⟩ := hx
        exact hh
    exact ⟨by rw [breaks_append ⟨hr, hn⟩]; exact breaks_carriage hhead, lineSoFar_append rfl l x⟩

/-- A line stands whole in its text, and the lines before it end before it. -/
theorem fallsInto_append {cs : List Char} {pre post : List (List Char)}
    (h : FallsInto cs (pre ++ l :: post)) :
    Unbroken l ∧ ∃ before after, cs = before ++ (l ++ after) ∧
      ∀ n, breaks (before ++ l.take n) = pre.length ∧
        lineSoFar (before ++ l.take n) = l.take n := by
  induction pre generalizing cs with
  | nil =>
    obtain ⟨hu, hcs⟩ := fallsInto_cons h
    have hline : ∀ n, breaks (l.take n) = 0 ∧ lineSoFar (l.take n) = l.take n := fun n =>
      ⟨breaks_of_unbroken (unbroken_take hu n), lineSoFar_of_unbroken (unbroken_take hu n)⟩
    rcases hcs with ⟨rfl, -⟩ | ⟨ending, rest, rfl, -⟩
    · exact ⟨hu, [], [], by simp, hline⟩
    · exact ⟨hu, [], ending ++ rest, rfl, hline⟩
  | cons l₀ pre ih =>
    obtain ⟨-, ⟨-, hls⟩ | ⟨ending, rest, rfl, hf, hends⟩⟩ := fallsInto_cons h
    · simp at hls
    · obtain ⟨hu, before, after, rfl, hline⟩ := ih hf
      refine ⟨hu, l₀ ++ (ending ++ before), after, by simp, fun n => ?_⟩
      have hline' : l.take n <+: l ++ after := (List.take_prefix n l).trans (l.prefix_append after)
      have hpre := (List.prefix_append_right_inj before).2 hline'
      rw [List.append_assoc, List.append_assoc, (hends _ hpre).1, (hends _ hpre).2, (hline n).1]
      exact ⟨rfl, (hline n).2⟩

end Breaks

section Editor

variable {line before after : List Char}

/-- An editor ends no line of a text where a catalog does not. -/
def Uniform (cs : List Char) : Prop := ∀ c ∈ cs, isEditorBreak c = true → isBreak c = true

/-- The first line of an editor begins with what has been read of it. -/
theorem head_editorLinesFrom (h : line ≠ [] ∨ after ≠ []) :
    ∃ tail, (editorLinesFrom line after)[0]? = some (line.reverse ++ tail) := by
  fun_induction editorLinesFrom line after with
  | case1 line hl =>
    obtain rfl := List.isEmpty_iff.1 hl
    simp at h
  | case2 line hl => exact ⟨[], by simp⟩
  | case3 line rest ih => exact ⟨['\r', '\n'], by simp⟩
  | case4 line c rest hp hc ih => exact ⟨[c], by simp⟩
  | case5 line c rest hp hc ih =>
    obtain ⟨tail, ht⟩ := ih (.inl (List.cons_ne_nil c line))
    exact ⟨c :: tail, by simpa using ht⟩

theorem editorLinesFrom_break {c : Char} (hc : isEditorBreak c = true) {rest : List Char}
    (hr : c = '\r' → rest.head? ≠ some '\n') (line : List Char) :
    editorLinesFrom line (c :: rest) = (c :: line).reverse :: editorLinesFrom [] rest := by
  rw [editorLinesFrom.eq_def]
  split
  · rename_i heq; cases heq
  · rename_i heq; cases heq; exact absurd rfl (hr rfl)
  · rename_i heq; cases heq; rw [if_pos hc]

theorem editorLinesFrom_other {c : Char} (hc : isEditorBreak c = false) (line rest : List Char) :
    editorLinesFrom line (c :: rest) = editorLinesFrom (c :: line) rest := by
  rw [editorLinesFrom.eq_def]
  split
  · rename_i heq; cases heq
  · rename_i heq; cases heq; cases hc
  · rename_i heq; cases heq; rw [hc]; rfl

/-- An editor ends a line wherever a catalog does, so before the end of a text it has a line with
every number that a catalog has. -/
theorem breaks_lt_length (hafter : after ≠ [])
    (hcut : before.getLast? = some '\r' → after.head? ≠ some '\n') :
    breaks before < (editorLinesFrom line (before ++ after)).length := by
  fun_induction breaks before generalizing line with
  | case1 =>
    have hhead : line ≠ [] ∨ after ≠ [] := .inr hafter
    obtain ⟨tail, ht⟩ := head_editorLinesFrom hhead
    exact (List.getElem?_eq_some_iff.1 ht).1
  | case2 rest ih =>
    rw [List.cons_append, List.cons_append, editorLinesFrom, List.length_cons]
    refine Nat.succ_lt_succ (ih fun h => hcut ?_)
    rw [List.getLast?_cons, List.getLast?_cons, h]
    rfl
  | case3 c rest hp hc ih =>
    have hbreak : isEditorBreak c = true := by
      rcases isBreak_eq_true.1 hc with rfl | rfl <;> rfl
    rw [List.cons_append, editorLinesFrom_break hbreak (head?_append_of_pair hp hcut),
      List.length_cons]
    refine Nat.succ_lt_succ (ih fun h => hcut ?_)
    rw [List.getLast?_cons, h]
    rfl
  | case4 c rest hp hc ih =>
    have hrest : ∀ line, breaks rest < (editorLinesFrom line (rest ++ after)).length := by
      intro line
      refine ih fun h => hcut ?_
      rw [List.getLast?_cons, h]
      rfl
    rw [List.cons_append]
    cases hb : isEditorBreak c with
    | false =>
      rw [editorLinesFrom_other hb]
      exact hrest _
    | true =>
      have hr : c ≠ '\r' := by
        rintro rfl
        exact hc rfl
      rw [editorLinesFrom_break hb fun h => absurd h hr, List.length_cons]
      exact Nat.lt_succ_of_lt (hrest [])

/-- **Where an editor's lines are those of a catalog.** If an editor ends the same lines before a
place, then its line there begins with what a catalog has of the line. -/
theorem getElem?_editorLinesFrom (hline : Unbroken line) (hu : Uniform before)
    (hcut : before.getLast? = some '\r' → after.head? ≠ some '\n')
    (hne : lineSoFar (line.reverse ++ before) ≠ [] ∨ after ≠ []) :
    ∃ tail, (editorLinesFrom line (before ++ after))[breaks before]? =
      some (lineSoFar (line.reverse ++ before) ++ tail) := by
  fun_induction breaks before generalizing line with
  | case1 =>
    have hrev : lineSoFar line.reverse = line.reverse :=
      lineSoFar_of_unbroken ⟨by simpa using hline.1, by simpa using hline.2⟩
    rw [List.append_nil, hrev] at hne ⊢
    exact head_editorLinesFrom (hne.imp_left (mt List.reverse_eq_nil_iff.2))
  | case2 rest ih =>
    have hsame : lineSoFar (line.reverse ++ '\r' :: '\n' :: rest) = lineSoFar rest := by
      have h := lineSoFar_append (c := '\n') rfl (line.reverse ++ ['\r']) rest
      simpa using h
    rw [hsame] at hne ⊢
    rw [List.cons_append, List.cons_append, editorLinesFrom, List.getElem?_cons_succ]
    refine ih ⟨by simp, by simp⟩ (fun x hx => hu x (by simp [hx])) (fun h => hcut ?_) hne
    rw [List.getLast?_cons, List.getLast?_cons, h]
    rfl
  | case3 c rest hp hc ih =>
    have hsame : lineSoFar (line.reverse ++ c :: rest) = lineSoFar rest := lineSoFar_append hc _ _
    have hbreak : isEditorBreak c = true := by
      rcases isBreak_eq_true.1 hc with rfl | rfl <;> rfl
    rw [hsame] at hne ⊢
    rw [List.cons_append, editorLinesFrom_break hbreak (head?_append_of_pair hp hcut),
      List.getElem?_cons_succ]
    refine ih ⟨by simp, by simp⟩ (fun x hx => hu x (by simp [hx])) (fun h => hcut ?_) hne
    rw [List.getLast?_cons, h]
    rfl
  | case4 c rest hp hc ih =>
    have hother : isEditorBreak c = false := by
      by_contra h
      exact hc (hu c (by simp) (by simpa using h))
    have hc' : isBreak c = false := by simpa using hc
    have hline' : Unbroken (c :: line) := by
      rw [unbroken_iff] at hline ⊢
      exact List.forall_mem_cons.2 ⟨hc', hline⟩
    have hsame : line.reverse ++ c :: rest = (c :: line).reverse ++ rest := by simp
    rw [hsame] at hne ⊢
    rw [List.cons_append, editorLinesFrom_other hother]
    refine ih hline' (fun x hx => hu x (by simp [hx])) (fun h => hcut ?_) hne
    rw [List.getLast?_cons, h]
    rfl

end Editor

section Clients

variable {e : Encoding} {before after : List Char} {n : Nat}

/-- The place after a text, as a client names it: the lines that end in the text, and the code
units that follow the last of them. -/
def clientPlace (e : Encoding) (before : List Char) : Place :=
  ⟨breaks before, e.codeUnits (lineSoFar before)⟩

/-- The position after a text, as a catalog names it: without a byte order mark, and from one. -/
def positionAfter (before : List Char) : Position :=
  ⟨breaks (dropMark before) + 1, (lineSoFar (dropMark before)).length + 1⟩

/-- A client can be told the place after a text: no byte order mark stands on its line, and the
code units of the line can be counted. -/
structure Legible (e : Encoding) (before : List Char) : Prop where
  unmarked : breaks before = 0 → before.head? ≠ some '\ufeff'
  countable : e.Countable (lineSoFar before)

/-- The client is told `p` for the place after the beginning `before` of the text `cs`. The line is
that of a catalog. The character is counted on the editor's line of the same number, over as many
characters as a catalog has before the place. If an editor ends the same lines up to the place, then
the place is right exactly if a client can be told. -/
structure Told (e : Encoding) (cs before : List Char) (p : Place) : Prop where
  line : p.line = breaks before
  character : ∃ l, (editorLinesFrom [] cs)[breaks before]? = some l ∧
    p.character = e.units (l.take (lineSoFar (dropMark before)).length)
  right : Uniform before → (p = clientPlace e before ↔ Legible e before)

theorem units_take_lt {cs : List Char} (hn : n < cs.length) : e.units (cs.take n) < e.units cs := by
  have hsplit := e.units_append (cs.take n) (cs.drop n)
  have hpos : (cs.drop n).length ≤ e.units (cs.drop n) := Nat.le_add_right _ _
  rw [List.take_append_drop] at hsplit
  rw [List.length_drop] at hpos
  omega

theorem dropMark_cases (cs : List Char) :
    dropMark cs = cs ∧ cs.head? ≠ some '\ufeff' ∨ cs = '\ufeff' :: dropMark cs := by
  unfold dropMark
  split
  · exact .inr rfl
  · rename_i h
    refine .inl ⟨rfl, fun hm => ?_⟩
    cases cs with
    | nil => simp at hm
    | cons c cs => exact h cs (by simpa using hm)

theorem dropMark_of_head? {cs : List Char} (h : cs.head? ≠ some '\ufeff') : dropMark cs = cs := by
  rcases dropMark_cases cs with ⟨hd, -⟩ | hm
  · exact hd
  · rw [hm] at h
    exact absurd rfl h

theorem unbroken_mark : Unbroken ['\ufeff'] := ⟨by decide, by decide⟩

theorem breaks_dropMark (cs : List Char) : breaks (dropMark cs) = breaks cs := by
  rcases dropMark_cases cs with ⟨hd, -⟩ | hm
  · rw [hd]
  · have hb := breaks_append unbroken_mark (dropMark cs)
    rw [List.singleton_append, ← hm] at hb
    exact hb.symm

/-- A byte order mark counts on the first line, and on no other. -/
theorem lineSoFar_dropMark_cases (cs : List Char) :
    lineSoFar cs = lineSoFar (dropMark cs) ∧ (breaks cs = 0 → cs.head? ≠ some '\ufeff') ∨
      lineSoFar cs = '\ufeff' :: lineSoFar (dropMark cs) ∧ breaks cs = 0 ∧
        cs.head? = some '\ufeff' := by
  rcases dropMark_cases cs with ⟨hd, hhead⟩ | hm
  · exact .inl ⟨by rw [hd], fun _ => hhead⟩
  · by_cases h0 : breaks cs = 0
    · have hu : Unbroken (dropMark cs) := unbroken_of_breaks ((breaks_dropMark cs).trans h0)
      refine .inr ⟨?_, h0, by rw [hm]; rfl⟩
      rw [lineSoFar_of_unbroken hu, ← hm]
      exact lineSoFar_of_unbroken (unbroken_of_breaks h0)
    · have hlater : breaks (dropMark cs) ≠ 0 := by rwa [breaks_dropMark]
      have hline := lineSoFar_append_of_breaks hlater ['\ufeff']
      rw [List.singleton_append, ← hm] at hline
      exact .inl ⟨hline, fun h => absurd h h0⟩

/-- An editor has a line with the number of every place that is not after all its lines. -/
theorem exists_editorLine (hcut : before.getLast? = some '\r' → after.head? ≠ some '\n')
    (hne : lineSoFar before ≠ [] ∨ after ≠ []) :
    ∃ l, (editorLinesFrom [] (before ++ after))[breaks before]? = some l := by
  suffices hlt : breaks before < (editorLinesFrom [] (before ++ after)).length from
    ⟨_, List.getElem?_eq_getElem hlt⟩
  cases after with
  | cons c after => exact breaks_lt_length (List.cons_ne_nil c after) hcut
  | nil =>
    -- the last character before the place is on the line, and comes after a place of the same line
    have hline : lineSoFar before ≠ [] := hne.resolve_right fun h => h rfl
    obtain ⟨start, c, rfl⟩ : ∃ start c, before = start ++ [c] := by
      rcases List.eq_nil_or_concat before with rfl | h
      · exact absurd rfl hline
      · simpa using h
    have hc : isBreak c = false := by
      by_contra h
      have h : isBreak c = true := by simpa using h
      exact hline (lineSoFar_append h start [])
    have hcut' : start.getLast? = some '\r' → [c].head? ≠ some '\n' := by
      rintro - h
      obtain rfl : c = '\n' := by simpa using h
      cases hc
    rw [List.append_nil, breaks_concat hc]
    exact breaks_lt_length (List.cons_ne_nil c []) hcut'

/-- **When a place is named right**, and what is named where it is not. -/
theorem told_inUnits (hcut : before.getLast? = some '\r' → after.head? ≠ some '\n')
    (hne : lineSoFar before ≠ [] ∨ after ≠ []) (e : Encoding) :
    Told e (before ++ after) before (Place.inUnits e (editorLinesFrom [] (before ++ after))
      ⟨breaks (dropMark before), (lineSoFar (dropMark before)).length⟩) := by
  obtain ⟨l, hl⟩ := exists_editorLine hcut hne
  have hplace : Place.inUnits e (editorLinesFrom [] (before ++ after))
      ⟨breaks (dropMark before), (lineSoFar (dropMark before)).length⟩ =
      ⟨breaks before, e.units (l.take (lineSoFar (dropMark before)).length)⟩ := by
    simp only [Place.inUnits, Int.toNat_natCast, breaks_dropMark, hl]
  rw [hplace]
  refine ⟨rfl, ⟨l, hl, rfl⟩, fun hu => ?_⟩
  have hline : Unbroken [] := by simp [Unbroken]
  obtain ⟨tail, ht⟩ := getElem?_editorLinesFrom hline hu hcut hne
  obtain rfl : l = lineSoFar before ++ tail := Option.some.inj (hl.symm.trans ht)
  have hcount := e.units_eq_codeUnits_iff (lineSoFar before)
  simp only [clientPlace, Place.mk.injEq, true_and, Nat.cast_inj]
  rcases lineSoFar_dropMark_cases before with ⟨hs, hmark⟩ | ⟨hs, h0, hmark⟩
  · rw [← hs, List.take_left, hcount.2]
    exact ⟨fun hc => ⟨hmark, hc⟩, Legible.countable⟩
  · -- one unit too few is counted for the mark
    have hlt : (lineSoFar (dropMark before)).length < (lineSoFar before).length := by
      rw [hs, List.length_cons]
      exact Nat.lt_succ_self _
    have hfew := units_take_lt (e := e) hlt
    rw [List.take_append_of_le_length hlt.le]
    constructor
    · intro heq
      exact absurd heq (Nat.ne_of_lt (hfew.trans_le hcount.1))
    · intro hlegible
      exact absurd hmark (hlegible.unmarked h0)

theorem take_append_drop_append {α : Type} (xs ys zs : List α) (n : Nat) :
    xs ++ (ys ++ zs) = xs ++ ys.take n ++ (ys.drop n ++ zs) := by
  rw [List.append_assoc, ← List.append_assoc (ys.take n), List.take_append_drop]

/-- Where a line of a catalog has `n` characters before it, the text has a place. -/
theorem exists_before {cs l : List Char} {pre post : List (List Char)}
    (h : FallsInto (dropMark cs) (pre ++ l :: post)) (hn : n ≤ l.length) :
    ∃ before, before ++ l.drop n <+: cs ∧ l.take n <:+ before ∧
      positionAfter before = ⟨pre.length + 1, n + 1⟩ := by
  obtain ⟨-, start, after, hcs, hline⟩ := fallsInto_append h
  obtain ⟨hbreaks, hsofar⟩ := hline n
  have hlen : (l.take n).length = n := List.length_take_of_le hn
  rw [take_append_drop_append start l after n] at hcs
  rcases dropMark_cases cs with ⟨hd, hhead⟩ | hm
  · -- no mark is dropped
    rw [hd] at hcs
    have hhead' : (start ++ l.take n).head? ≠ some '\ufeff' := by
      intro hx
      rw [hcs, List.head?_append, hx] at hhead
      exact hhead rfl
    refine ⟨start ++ l.take n, ⟨after, ?_⟩, List.suffix_append _ _, ?_⟩
    · rw [hcs, List.append_assoc _ (l.drop n)]
    · rw [positionAfter, dropMark_of_head? hhead', hbreaks, hsofar, hlen]
  · rw [hcs] at hm
    refine ⟨'\ufeff' :: (start ++ l.take n), ⟨after, ?_⟩,
      (List.suffix_append _ _).trans (List.suffix_cons _ _), ?_⟩
    · rw [hm, List.append_assoc _ (l.drop n)]
      rfl
    · rw [positionAfter, dropMark, hbreaks, hsofar, hlen]

end Clients

end CatalogLint
