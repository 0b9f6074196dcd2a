import CatalogLint.Proofs.Catalog.Reading

/-!
# What is at fault on a line

A line that cannot be read is at fault at one of its characters, and the reason tells which one to
look for. Here this is said of one line, whatever was read before it.

* `hasQuote`: whether a quote closes a literal.
* `LiteralFault`: what can be wrong with a literal, and the column of it.
* `PointsAt`: the character of a line that a reason points at.
* `Progress.step_error`: **a step fails on its own line, at the character that the reason points
  at.**
-/

namespace CatalogLint.Catalog

open CatalogLint.Text

/-- Whether a quote stands in `cs` that no backslash escapes. A backslash escapes whatever comes
after it. -/
def hasQuote : List Char → Bool
  | [] => false
  | '\\' :: _ :: rest => hasQuote rest
  | c :: rest => c == '"' || hasQuote rest

/-- No escape of the grammar begins here. -/
def NoEscape (cs : List Char) : Prop := ∀ esc d rest, cs = esc ++ rest → ¬ Escape esc d rest

/-- What is wrong with a literal whose opening quote stands in column `start` and is followed by
`cs`. -/
inductive LiteralFault (start : Nat) : List Char → Fault → Prop where
  | unterminated {cs : List Char} : hasQuote cs = false →
      LiteralFault start cs ⟨start, .unterminated⟩
  | badEscape {body ds rest : List Char} {c : Char} : Spells body ds → NoEscape (c :: rest) →
      LiteralFault start (body ++ '\\' :: c :: rest) ⟨start + body.length + 1, .badEscape c⟩
  | trailingText {body ds trail rest : List Char} {c : Char} : Spells body ds → Blanks trail →
      isBlank c = false → LiteralFault start (body ++ '"' :: (trail ++ c :: rest))
        ⟨start + body.length + trail.length + 2, .trailingText⟩

/-- What stands on a line before the opening quote of its literal. -/
inductive Opening : List Char → Prop where
  | continuation {indent : List Char} : Blanks indent → Opening indent
  | field {indent index gap : List Char} (k : Keyword) : Blanks indent → Index index → Blanks gap →
      Opening (indent ++ k.text.toList ++ index ++ gap)

/-- The first character of a line that is not blank stands in this column. -/
def FirstAt (cs : List Char) (column : Nat) : Prop :=
  ∃ indent c rest, Blanks indent ∧ isBlank c = false ∧ cs = indent ++ c :: rest ∧
    column = indent.length + 1

/-- What stands in a column of a line, if it is at fault for this reason: the opening quote of a
literal that no quote closes, the backslash of what is no escape, the first character after a line
that would be in order, or the first character of all. A missing value is no fault of a line. -/
def PointsAt (cs : List Char) (column : Nat) : Reason → Prop
  | .unterminated => ∃ opening rest, Opening opening ∧ cs = opening ++ '"' :: rest ∧
      hasQuote rest = false ∧ column = opening.length + 1
  | .badEscape c => ∃ opening body ds rest, Opening opening ∧ Spells body ds ∧
      cs = (opening ++ '"' :: body) ++ '\\' :: c :: rest ∧ NoEscape (c :: rest) ∧
      column = (opening ++ '"' :: body).length + 1
  | .trailingText => ∃ line c rest t, LineSpells line t ∧ isBlank c = false ∧
      cs = line ++ c :: rest ∧ column = line.length + 1
  | .valueless => False
  | _ => FirstAt cs column

section Escapes

theorem hasQuote_append {run : List Char} (h : ∀ c ∈ run, c ≠ '"' ∧ c ≠ '\\') (cs : List Char) :
    hasQuote (run ++ cs) = hasQuote cs := by
  induction run with
  | nil => rfl
  | cons c run ih =>
    obtain ⟨hq, hb⟩ := h c (by simp)
    have htail : ∀ c ∈ run, c ≠ '"' ∧ c ≠ '\\' := by
      intro d hd
      exact h d (by simp [hd])
    rw [List.cons_append, hasQuote.eq_def]
    split
    · rename_i heq; cases heq
    · rename_i heq
      exact absurd (List.cons.inj heq).1 hb
    · rename_i heq
      obtain ⟨rfl, rfl⟩ := List.cons.inj heq
      rw [ih htail, beq_false_of_ne hq, Bool.false_or]

/-- Digits are neither quotes nor backslashes. -/
theorem DigitRun.plain {value? : Char → Option Nat} {limit : Nat} {run rest : List Char}
    {ns : List Nat} (hq : value? '"' = none) (hb : value? '\\' = none)
    (h : DigitRun value? limit run ns rest) : ∀ c ∈ run, c ≠ '"' ∧ c ≠ '\\' := by
  intro c hc
  have hmem : value? c ∈ ns.map some := h.digits ▸ List.mem_map_of_mem hc
  obtain ⟨n, -, hn⟩ := List.mem_map.1 hmem
  constructor
  · rintro rfl
    rw [hq] at hn
    cases hn
  · rintro rfl
    rw [hb] at hn
    cases hn

/-- A quote in an escape closes nothing. -/
theorem hasQuote_escape {esc cs : List Char} {d : Char} (h : Escape esc d cs) :
    hasQuote ('\\' :: (esc ++ cs)) = hasQuote cs := by
  cases h with
  | simple _ => rfl
  | octal hrun =>
    have hplain := hrun.plain rfl rfl
    cases esc with
    | nil => exact absurd rfl hrun.nonempty
    | cons c run =>
      show hasQuote (run ++ cs) = hasQuote cs
      apply hasQuote_append
      intro x hx
      exact hplain x (by simp [hx])
  | @hex run _ _ hrun =>
    show hasQuote (run ++ cs) = hasQuote cs
    exact hasQuote_append (hrun.plain rfl rfl) cs

theorem noEscape_of_escape? {cs : List Char} (h : escape? cs = none) : NoEscape cs := by
  rintro esc d rest rfl he
  rw [escape?_complete he] at h
  cases h

end Escapes

section Literals

/-- Why no closing quote is found: there is none, or an escape before it is wrong. -/
theorem scan_error (start : Nat) {f : Fault} (n : Nat) :
    ∀ cs done column, cs.length = n → scan start done column 0 cs = .error f →
      (f = ⟨start, .unterminated⟩ ∧ hasQuote cs = false) ∨
      ∃ body ds c rest, cs = body ++ '\\' :: c :: rest ∧ Spells body ds ∧ NoEscape (c :: rest) ∧
        f = ⟨column + body.length, .badEscape c⟩ := by
  -- an escape takes several characters at once, so the induction is on their number
  induction n using Nat.strong_induction_on with
  | _ n ih =>
    intro cs done column hn h
    cases cs with
    | nil =>
      rw [scan] at h
      exact .inl ⟨(Except.error.inj h).symm, rfl⟩
    | cons c cs =>
      by_cases hq : c = '"'
      · subst hq
        simp [scan] at h
      by_cases hb : c = '\\'
      · subst hb
        cases he : escape? cs with
        | none =>
          rw [scan_badEscape _ _ _ he] at h
          obtain rfl := Except.error.inj h
          cases cs with
          | nil => exact .inl ⟨rfl, rfl⟩
          | cons e rest =>
            exact .inr ⟨[], [], e, rest, rfl, .nil, noEscape_of_escape? he, rfl⟩
        | some x =>
          obtain ⟨d, w⟩ := x
          obtain ⟨esc, cs', rfl, rfl, hesc⟩ := escape?_sound he
          rw [scan_escape _ _ _ he, scan_skip] at h
          have hlt : cs'.length < n := by
            simp only [List.length_cons, List.length_append] at hn; omega
          rcases ih _ hlt cs' _ _ rfl h with ⟨rfl, hnone⟩ | ⟨body, ds, c, rest, rfl, hs, hno, rfl⟩
          · exact .inl ⟨rfl, by rw [hasQuote_escape hesc, hnone]⟩
          · refine .inr ⟨'\\' :: (esc ++ body), d :: ds, c, rest, by simp, ?_, hno, ?_⟩
            · exact .escape (Escape.before_backslash.1 hesc) hs
            · simp only [List.length_cons, List.length_append, Fault.mk.injEq, and_true]
              omega
      · rw [scan_plain _ _ _ hq hb] at h
        have hlt : cs.length < n := by simp only [List.length_cons] at hn; omega
        rcases ih _ hlt cs _ _ rfl h with ⟨rfl, hnone⟩ | ⟨body, ds, e, rest, rfl, hs, hno, rfl⟩
        · refine .inl ⟨rfl, ?_⟩
          have hplain : ∀ x ∈ [c], x ≠ '"' ∧ x ≠ '\\' := by
            intro x hx
            obtain rfl := List.mem_singleton.1 hx
            exact ⟨hq, hb⟩
          exact (hasQuote_append hplain cs).trans hnone
        · refine .inr ⟨c :: body, c :: ds, e, rest, rfl, .plain hq hb hs, hno, ?_⟩
          simp only [List.length_cons, Fault.mk.injEq, and_true]
          omega

/-- After the leading blanks comes a character that is not blank. -/
theorem isBlank_of_trimStart {cs rest : List Char} {c : Char} (h : trimStart cs = c :: rest) :
    isBlank c = false := by
  unfold trimStart at h
  have hne : cs.dropWhile isBlank ≠ [] := by
    rw [h]
    exact List.cons_ne_nil c rest
  have hhead := List.head_dropWhile_not isBlank hne
  simpa only [h, List.head_cons] using hhead

/-- A text that is not all blank has a first character that is not. -/
theorem exists_not_blank {cs : List Char} (h : ¬ cs.all isBlank = true) :
    ∃ c rest, isBlank c = false ∧ cs = cs.takeWhile isBlank ++ c :: rest := by
  have hcs := takeWhile_append_trimStart cs
  cases hd : trimStart cs with
  | nil =>
    exfalso
    apply h
    rw [hd, List.append_nil] at hcs
    rw [← hcs]
    exact List.all_takeWhile
  | cons c rest => exact ⟨c, rest, isBlank_of_trimStart hd, by rw [← hd, hcs]⟩

/-- **A literal is refused for what is wrong with it**, at the column of it. -/
theorem Literal.fault_of_read {start : Nat} {cs : List Char} {f : Fault}
    (h : Literal.read start cs = .error f) : LiteralFault start cs f := by
  unfold Literal.read at h
  cases hs : scan start [] (start + 1) 0 cs with
  | error f' =>
    obtain rfl : f' = f := by simpa [hs, bind, Except.bind] using h
    rcases scan_error start cs.length cs _ _ rfl hs with
      ⟨rfl, hnone⟩ | ⟨body, ds, c, rest, rfl, hsp, hno, rfl⟩
    · exact .unterminated hnone
    · rw [show start + 1 + body.length = start + body.length + 1 by omega]
      exact .badEscape hsp hno
  | ok x =>
    obtain ⟨value, stop, rest⟩ := x
    obtain ⟨body, rfl, hsp, rfl⟩ := scan_eq_ok_iff.1 hs
    simp only [hs, bind, Except.bind] at h
    by_cases hr : rest.all isBlank = true
    · rw [if_pos hr] at h
      cases h
    · rw [if_neg hr] at h
      obtain rfl := Except.error.inj h
      obtain ⟨c, after, hc, hrest⟩ := exists_not_blank hr
      have hcolumn : start + 1 + body.length + 1 + (rest.takeWhile isBlank).length =
          start + body.length + (rest.takeWhile isBlank).length + 2 := by omega
      have hfault : LiteralFault start (body ++ '"' :: (rest.takeWhile isBlank ++ c :: after))
          ⟨start + body.length + (rest.takeWhile isBlank).length + 2, .trailingText⟩ :=
        .trailingText hsp (blanks_takeWhile rest) hc
      rwa [← hrest, ← hcolumn] at hfault

end Literals

section Lines

variable {cs : List Char}

/-- A fault of the literal is a fault of its line. -/
theorem LiteralFault.pointsAt {opening rest : List Char} {f : Fault} (ho : Opening opening)
    (h : LiteralFault (opening.length + 1) rest f) :
    PointsAt (opening ++ '"' :: rest) f.column f.reason := by
  cases h with
  | unterminated hnone => exact ⟨opening, rest, ho, rfl, hnone, rfl⟩
  | @badEscape body ds after c hs hno =>
    refine ⟨opening, body, ds, after, ho, hs, by simp, hno, ?_⟩
    simp only [List.length_append, List.length_cons]
    omega
  | @trailingText body ds trail after c hs hb hc =>
    -- what stands before the character is a line of its own
    obtain ⟨t, hline⟩ : ∃ t, LineSpells (opening ++ '"' :: (body ++ ['"']) ++ trail) t := by
      cases ho with
      | continuation hi => exact ⟨_, .continuation hi (.mk hs) hb⟩
      | field k hi hx hg => exact ⟨_, .field k hi hx hg (.mk hs) hb⟩
    refine ⟨_, c, after, t, hline, hc, by simp, ?_⟩
    simp only [List.length_append, List.length_cons, List.length_nil]
    omega

theorem Line.pointsAt_of_continuation {column : Nat} {f : Fault}
    (h : Line.read cs = .continuation column (.error f)) : PointsAt cs f.column f.reason := by
  obtain ⟨indent, rest, hi, rfl, rfl, hl⟩ := Line.read_eq_continuation_iff.1 h
  exact (Literal.fault_of_read hl.symm).pointsAt (.continuation hi)

theorem Line.pointsAt_of_field {k : Keyword} {column : Nat} {f : Fault}
    (h : Line.read cs = .field k column (.error f)) : PointsAt cs f.column f.reason := by
  obtain ⟨indent, index, gap, rest, hi, hx, hg, hcs, -, hl⟩ := Line.read_eq_field_iff.1 h
  have hsplit : cs = (indent ++ k.text.toList ++ index ++ gap) ++ '"' :: rest := by
    rw [hcs]
    simp
  have hstart : cs.length - rest.length = (indent ++ k.text.toList ++ index ++ gap).length + 1 := by
    rw [hsplit, List.length_append, List.length_cons]
    omega
  rw [hstart] at hl
  rw [hsplit]
  exact (Literal.fault_of_read hl.symm).pointsAt (.field k hi hx hg)

/-- The column that a line has, if it has any. -/
def Line.column? : Line → Option Nat
  | .skipped => none
  | .continuation column _ | .field _ column _ | .unexpected column _ => some column

/-- The column of a line is that of its first character. -/
theorem Line.firstAt {column : Nat} (h : (Line.read cs).column? = some column) :
    FirstAt cs column := by
  have hfirst : ∀ c rest, trimStart cs = c :: rest →
      FirstAt cs ((cs.takeWhile isBlank).length + 1) := by
    intro c rest hb
    have hsplit : cs = cs.takeWhile isBlank ++ c :: rest := by rw [← hb, takeWhile_append_trimStart]
    exact ⟨_, c, rest, blanks_takeWhile cs, isBlank_of_trimStart hb, hsplit, rfl⟩
  rcases trimStart_cases cs with hi | ⟨rest, hb⟩ | ⟨c, rest, hb, hh, hq⟩
  · rw [Line.read_eq_skipped_iff.2 hi] at h
    cases h
  · rw [Line.read_of_quote hb] at h
    obtain rfl := Option.some.inj h
    exact hfirst _ _ hb
  · rw [Line.read_of_other hb hh hq] at h
    have hcolumn : (cs.takeWhile isBlank).length + 1 = column := by
      split at h <;> exact Option.some.inj h
    subst hcolumn
    exact hfirst _ _ hb

end Lines

section Steps

variable {p : Progress} {line column : Nat} {e : ParseError}

/-- A field that is out of place is at fault at its keyword. -/
theorem Progress.field_error {cs : List Char} (hf : FirstAt cs column) {l : Literal} {k : Keyword}
    (h : p.field line column l k = .error e) : e.line = line ∧ PointsAt cs e.column e.reason := by
  obtain ⟨entries, draft⟩ := p
  cases k with
  | msgctxt =>
    rcases draft with _ | ⟨_, _⟩ | ⟨_⟩ | ⟨_, _, _, _⟩ <;> cases h <;> exact ⟨rfl, hf⟩
  | msgid =>
    rcases draft with _ | ⟨_, _⟩ | ⟨_⟩ | ⟨_, _, _, _⟩ <;> cases h
    exact ⟨rfl, hf⟩
  | msgidPlural =>
    rcases draft with _ | ⟨_, _⟩ | ⟨_, _, _, _, _ | _⟩ | ⟨_, _, _, _⟩ <;> cases h <;>
      exact ⟨rfl, hf⟩
  | msgstr =>
    rcases draft with _ | ⟨_, _⟩ | ⟨_⟩ | ⟨_, _, _, _⟩ <;> cases h <;> exact ⟨rfl, hf⟩

/-- **A step fails on its own line, at the character that the reason points at.** -/
theorem Progress.step_error {cs : List Char} (h : p.step line (Line.read cs) = .error e) :
    e.line = line ∧ PointsAt cs e.column e.reason := by
  cases hl : Line.read cs with
  | skipped =>
    rw [hl] at h
    cases h
  | continuation column literal =>
    rw [hl] at h
    have hfirst : FirstAt cs column := Line.firstAt (by rw [hl]; rfl)
    cases hd : p.draft with
    | none =>
      simp only [Progress.step, hd] at h
      obtain rfl := Except.error.inj h
      exact ⟨rfl, hfirst⟩
    | some d =>
      cases literal with
      | ok l => simp [Progress.step, hd] at h
      | error f =>
        simp only [Progress.step, hd] at h
        obtain rfl := Except.error.inj h
        exact ⟨rfl, Line.pointsAt_of_continuation hl⟩
  | field k column literal =>
    rw [hl] at h
    cases literal with
    | ok l => exact Progress.field_error (Line.firstAt (by rw [hl]; rfl)) h
    | error f =>
      obtain rfl := Except.error.inj h
      exact ⟨rfl, Line.pointsAt_of_field hl⟩
  | unexpected column word =>
    rw [hl] at h
    obtain rfl := Except.error.inj h
    exact ⟨rfl, Line.firstAt (by rw [hl]; rfl)⟩

end Steps

end CatalogLint.Catalog
