import CatalogLint.Catalog.Line
import CatalogLint.Proofs.Catalog.Blocks
import CatalogLint.Proofs.Catalog.Literals
import CatalogLint.Text.Lines

/-!
# Lines are read by the grammar

* `lines_eq_iff`: a text is cut into the lines that the grammar says.
* `Line.read_eq_skipped_iff`, `Line.read_eq_continuation_iff`, `Line.read_eq_field_iff`: what kind
  of line is found, and where its parts stand.
* `lineSpells_iff`: **a line is accepted exactly if the grammar has it**, with the text that the
  grammar gives.
-/

namespace CatalogLint.Text

theorem isBreak_eq_true {c : Char} : isBreak c = true ↔ c = '\r' ∨ c = '\n' := by simp [isBreak]

/-- Characters that end no line are taken up. -/
theorem linesFrom_append {l : List Char} (hr : '\r' ∉ l) (hn : '\n' ∉ l) (line rest : List Char) :
    linesFrom line (l ++ rest) = linesFrom (l.reverse ++ line) rest := by
  induction l generalizing line with
  | nil => rfl
  | cons c l ih =>
    simp only [List.mem_cons, not_or] at hr hn
    have hb : ¬ isBreak c = true := by
      rw [isBreak_eq_true]; exact fun h => h.elim (fun h => hr.1 h.symm) (fun h => hn.1 h.symm)
    rw [List.cons_append, linesFrom.eq_def]
    split
    · rename_i h; cases h
    · rename_i h
      obtain ⟨rfl, -⟩ := List.cons.inj h
      exact absurd rfl hr.1
    · rename_i h
      obtain ⟨rfl, rfl⟩ := List.cons.inj h
      rw [if_neg hb, ih hr.2 hn.2, List.reverse_cons, List.append_assoc, List.singleton_append]

theorem linesFrom_feed (line rest : List Char) :
    linesFrom line ('\n' :: rest) = line.reverse :: linesFrom [] rest := by
  rw [linesFrom.eq_def]; simp [isBreak]

theorem linesFrom_pair (line rest : List Char) :
    linesFrom line ('\r' :: '\n' :: rest) = line.reverse :: linesFrom [] rest := by
  simp [linesFrom]

theorem linesFrom_carriage {rest : List Char} (h : rest.head? ≠ some '\n') (line : List Char) :
    linesFrom line ('\r' :: rest) = line.reverse :: linesFrom [] rest := by
  rw [linesFrom.eq_def]
  split
  · rename_i h'; cases h'
  · rename_i h'; cases h'; simp at h
  · rename_i h'; cases h'; simp [isBreak]

end CatalogLint.Text

namespace CatalogLint.Catalog

open CatalogLint.Text

/-- Characters that end no line. -/
def Unbroken (cs : List Char) : Prop := '\r' ∉ cs ∧ '\n' ∉ cs

theorem unbroken_iff {cs : List Char} : Unbroken cs ↔ ∀ c ∈ cs, isBreak c = false := by
  simp only [Unbroken, isBreak, Bool.or_eq_false_iff, beq_eq_false_iff_ne]
  exact ⟨fun h c hc => ⟨fun hr => h.1 (hr ▸ hc), fun hn => h.2 (hn ▸ hc)⟩,
    fun h => ⟨fun hr => (h _ hr).1 rfl, fun hn => (h _ hn).2 rfl⟩⟩

theorem Unbroken.append {cs cs' : List Char} (h : Unbroken cs) (h' : Unbroken cs') :
    Unbroken (cs ++ cs') := by
  unfold Unbroken at *
  simp [h.1, h.2, h'.1, h'.2]

theorem FallsInto.lines_eq {cs : List Char} {ls : List (List Char)} (h : FallsInto cs ls) :
    lines cs = ls := by
  unfold lines
  induction h with
  | last hr hn =>
    have := linesFrom_append hr hn [] []
    simpa [linesFrom] using this
  | feed hr hn _ ih => rw [linesFrom_append hr hn, linesFrom_feed, ih]; simp
  | pair hr hn _ ih => rw [linesFrom_append hr hn, linesFrom_pair, ih]; simp
  | carriage hr hn hh _ ih => rw [linesFrom_append hr hn, linesFrom_carriage hh, ih]; simp

theorem fallsInto_linesFrom (line cs : List Char) :
    '\r' ∉ line → '\n' ∉ line → FallsInto (line.reverse ++ cs) (linesFrom line cs) := by
  fun_induction linesFrom line cs with
  | case1 line =>
    intro hr hn
    rw [List.append_nil]
    exact .last (by simpa using hr) (by simpa using hn)
  | case2 line rest ih =>
    intro hr hn
    exact .pair (by simpa using hr) (by simpa using hn) (ih (by simp) (by simp))
  | case3 line c rest hnp hb ih =>
    intro hr hn
    have h := ih (by simp) (by simp)
    rcases isBreak_eq_true.1 hb with rfl | rfl
    · refine .carriage (by simpa using hr) (by simpa using hn) ?_ h
      intro hh
      obtain ⟨rest', rfl⟩ : ∃ rest', rest = '\n' :: rest' := by
        cases rest with
        | nil => simp at hh
        | cons x xs => exact ⟨xs, by simpa using hh⟩
      exact hnp rest' rfl rfl
    · exact .feed (by simpa using hr) (by simpa using hn) h
  | case4 line c rest hnp hb ih =>
    intro hr hn
    rw [isBreak_eq_true, not_or] at hb
    have h := ih (by simp [Ne.symm hb.1, hr]) (by simp [Ne.symm hb.2, hn])
    rwa [List.reverse_cons, List.append_assoc, List.singleton_append] at h

/-- **A text is cut into the lines that the grammar says.** -/
theorem lines_eq_iff {cs : List Char} {ls : List (List Char)} :
    lines cs = ls ↔ FallsInto cs ls := by
  constructor
  · rintro rfl
    exact fallsInto_linesFrom [] cs (by simp) (by simp)
  · exact FallsInto.lines_eq

theorem dropMark_eq_unmarked (cs : List Char) : dropMark cs = unmarked cs := by
  unfold dropMark unmarked
  split
  · simp
  · rename_i h
    cases cs with
    | nil => rfl
    | cons c cs => rw [if_neg]; intro hc; exact h cs (by simpa using hc)

theorem unbroken_of_mem_lines {cs l : List Char} (h : l ∈ lines cs) : Unbroken l := by
  have hfalls : FallsInto cs (lines cs) := lines_eq_iff.1 rfl
  generalize lines cs = ls at h hfalls
  induction hfalls with
  | last hr hn =>
    obtain rfl := List.mem_singleton.1 h
    exact ⟨hr, hn⟩
  | feed hr hn _ ih | pair hr hn _ ih | carriage hr hn _ _ ih =>
    rcases List.mem_cons.1 h with rfl | h
    · exact ⟨hr, hn⟩
    · exact ih h

/-- Lines are the lines of a text, unless there are none. -/
theorem exists_text {ls : List (List Char)} (hne : ls ≠ []) (hu : ∀ l ∈ ls, Unbroken l) :
    ∃ text : String, lines (dropMark text.toList) = ls := by
  obtain ⟨cs, hcs⟩ : ∃ cs, FallsInto cs ls := by
    induction ls with
    | nil => exact absurd rfl hne
    | cons l ls ih =>
      obtain ⟨hr, hn⟩ := hu l (by simp)
      cases ls with
      | nil => exact ⟨l, .last hr hn⟩
      | cons l' ls =>
        have htail : ∀ x ∈ l' :: ls, Unbroken x := by
          intro x hx
          exact hu x (by simp [hx])
        obtain ⟨cs, hcs⟩ := ih (by simp) htail
        exact ⟨l ++ '\n' :: cs, .feed hr hn hcs⟩
  -- a mark in front, so that one which the first line may begin with is kept
  refine ⟨String.ofList ('\ufeff' :: cs), ?_⟩
  rw [String.toList_ofList]
  exact lines_eq_iff.2 hcs

section Blanks

variable {indent cs : List Char}

/-- What follows the blanks does not begin with one. -/
def Bare (cs : List Char) : Prop := ∀ c ∈ cs.head?, isBlank c = false

theorem trimStart_append (hi : Blanks indent) (hc : Bare cs) : trimStart (indent ++ cs) = cs := by
  unfold trimStart
  rw [List.dropWhile_append_of_pos hi]
  cases cs with
  | nil => rfl
  | cons c cs => rw [List.dropWhile_cons_of_neg]; simpa [Bare] using hc

theorem takeWhile_append (hi : Blanks indent) (hc : Bare cs) :
    (indent ++ cs).takeWhile isBlank = indent := by
  rw [List.takeWhile_append_of_pos hi]
  cases cs with
  | nil => simp
  | cons c cs => rw [List.takeWhile_cons_of_neg, List.append_nil]; simpa [Bare] using hc

theorem blanks_takeWhile (cs : List Char) : Blanks (cs.takeWhile isBlank) :=
  List.all_eq_true.1 List.all_takeWhile

theorem takeWhile_append_trimStart (cs : List Char) : cs.takeWhile isBlank ++ trimStart cs = cs :=
  List.takeWhile_append_dropWhile

/-- A line is ignored exactly if it is read as such. -/
theorem ignored_iff (cs : List Char) :
    ignored cs = true ↔ trimStart cs = [] ∨ ∃ rest, trimStart cs = '#' :: rest := by
  unfold ignored trimStart
  induction cs with
  | nil => simp
  | cons c cs ih =>
    by_cases hc : isBlank c = true
    · rw [List.find?_cons_of_neg (by simp [hc]), List.dropWhile_cons_of_pos hc]; exact ih
    · rw [List.find?_cons_of_pos (by simpa using hc), List.dropWhile_cons_of_neg hc]
      simp

end Blanks

section Keywords

/-- The letters of a keyword. -/
def Keyword.letters : Keyword → List Char
  | msgctxt => ['m', 's', 'g', 'c', 't', 'x', 't']
  | msgid => ['m', 's', 'g', 'i', 'd']
  | msgidPlural => ['m', 's', 'g', 'i', 'd', '_', 'p', 'l', 'u', 'r', 'a', 'l']
  | msgstr => ['m', 's', 'g', 's', 't', 'r']

theorem Keyword.toList_text (k : Keyword) : k.text.toList = k.letters := by cases k <;> rfl

theorem keyword?_eq (cs : List Char) :
    keyword? cs = keywords.findSome? fun k =>
      if k.letters.isPrefixOf cs then some (k, cs.drop k.letters.length) else none := by
  unfold keyword?
  congr 1
  funext k
  rw [← String.length_toList, k.toList_text]

theorem keyword?_append (k : Keyword) {rest : List Char} (hr : rest.head? ≠ some '_') :
    keyword? (k.text.toList ++ rest) = some (k, rest) := by
  rw [keyword?_eq, k.toList_text]
  cases k with
  | msgctxt => simp [keywords, Keyword.letters]
  | msgidPlural => simp [keywords, Keyword.letters]
  | msgstr => simp [keywords, Keyword.letters]
  | msgid =>
    -- the only keyword with which another one begins
    cases rest with
    | nil => simp [keywords, Keyword.letters]
    | cons c rest =>
      have hc : ¬ '_' = c := by rintro rfl; exact hr rfl
      simp [keywords, Keyword.letters, hc]

theorem eq_append_of_keyword? {cs rest : List Char} {k : Keyword}
    (h : keyword? cs = some (k, rest)) : cs = k.text.toList ++ rest := by
  unfold keyword? at h
  obtain ⟨k', -, hk⟩ := List.exists_of_findSome?_eq_some h
  split at hk
  · rename_i hp
    obtain ⟨rfl, rfl⟩ := by simpa using hk
    obtain ⟨rest, rfl⟩ := List.isPrefixOf_iff_prefix.1 hp
    rw [← String.length_toList, List.drop_left]
  · cases hk

/-- What is passed over as a plural index is one. -/
theorem index_skipIndex (cs : List Char) : ∃ index, Index index ∧ cs = index ++ skipIndex cs := by
  unfold skipIndex
  split
  · rename_i rest
    split
    · rename_i d ds after hd ha
      refine ⟨'[' :: ((d :: ds) ++ [']']), .digits (by simp) ?_, ?_⟩
      · rw [← hd]; exact List.all_eq_true.1 List.all_takeWhile
      · rw [← hd]
        simp only [List.cons_append, List.append_assoc, List.nil_append]
        rw [← ha, List.takeWhile_append_dropWhile]
    · exact ⟨[], .none, rfl⟩
  · exact ⟨[], .none, rfl⟩

/-- A plural index is passed over. -/
theorem skipIndex_append {index rest : List Char} (hi : Index index) (hr : rest.head? ≠ some '[') :
    skipIndex (index ++ rest) = rest := by
  cases hi with
  | none =>
    cases rest with
    | nil => rfl
    | cons c rest =>
      unfold skipIndex
      split
      · rename_i h; simp at h; simp [h.1] at hr
      · rfl
  | @digits ds hne hd =>
    have htake : (ds ++ ']' :: rest).takeWhile isDecimalDigit = ds := by
      rw [List.takeWhile_append_of_pos hd, List.takeWhile_cons_of_neg (by decide), List.append_nil]
    have hdrop : (ds ++ ']' :: rest).dropWhile isDecimalDigit = ']' :: rest := by
      rw [List.dropWhile_append_of_pos hd, List.dropWhile_cons_of_neg (by decide)]
    simp only [List.cons_append, List.append_assoc, List.nil_append, skipIndex]
    rw [htake, hdrop]
    cases ds with
    | nil => exact absurd rfl hne
    | cons d ds => rfl

theorem head?_gap {gap rest : List Char} {c : Char} (hg : Blanks gap) (hc : isBlank c = false)
    (hq : c ≠ '"') : (gap ++ '"' :: rest).head? ≠ some c := by
  cases gap with
  | nil => simpa using Ne.symm hq
  | cons x gap =>
    intro h
    obtain rfl : x = c := by simpa using h
    rw [hg x (by simp)] at hc
    cases hc

/-- The start of a field, found exactly where the grammar has one. -/
theorem fieldStart?_eq_some_iff {cs rest : List Char} {k : Keyword} :
    fieldStart? cs = some (k, rest) ↔ ∃ index gap, Index index ∧ Blanks gap ∧
      cs = k.text.toList ++ (index ++ (gap ++ '"' :: rest)) := by
  constructor
  · intro h
    unfold fieldStart? at h
    cases hk : keyword? cs with
    | none => rw [hk] at h; cases h
    | some x =>
      obtain ⟨k', after⟩ := x
      rw [hk] at h
      simp only at h
      split at h
      · rename_i rest' ht
        obtain ⟨rfl, rfl⟩ := by simpa using h
        obtain ⟨index, hi, ha⟩ := index_skipIndex after
        refine ⟨index, _, hi, blanks_takeWhile (skipIndex after), ?_⟩
        rw [← ht, takeWhile_append_trimStart, ← ha]
        exact eq_append_of_keyword? hk
      · cases h
  · rintro ⟨index, gap, hi, hg, rfl⟩
    have hk : keyword? (k.text.toList ++ (index ++ (gap ++ '"' :: rest))) =
        some (k, index ++ (gap ++ '"' :: rest)) := by
      -- neither an index nor a gap goes on with the name of a plural key
      apply keyword?_append
      cases hi with
      | none => exact head?_gap hg (by decide) (by decide)
      | digits => simp
    have hh : (gap ++ '"' :: rest).head? ≠ some '[' := head?_gap hg (by decide) (by decide)
    have hs := skipIndex_append hi hh
    unfold fieldStart?
    rw [hk]
    simp only [hs]
    rw [trimStart_append hg (by simp [Bare]; decide)]
    rfl

end Keywords

section Reading

variable {cs : List Char} {k : Keyword} {column : Nat} {r : Except Fault Literal}

theorem Line.read_of_quote {rest : List Char} (h : trimStart cs = '"' :: rest) :
    Line.read cs = .continuation ((cs.takeWhile isBlank).length + 1)
      (Literal.read ((cs.takeWhile isBlank).length + 1) rest) := by
  unfold Line.read
  simp only [h]

theorem Line.read_of_other {c : Char} {rest : List Char} (h : trimStart cs = c :: rest)
    (hh : c ≠ '#') (hq : c ≠ '"') :
    Line.read cs = match fieldStart? (c :: rest) with
      | some (k, rest) =>
        .field k ((cs.takeWhile isBlank).length + 1) (Literal.read (cs.length - rest.length) rest)
      | none =>
        .unexpected ((cs.takeWhile isBlank).length + 1)
          (String.ofList (firstWord (c :: rest))) := by
  unfold Line.read
  simp only [h]
  split
  · rename_i h'; cases h'
  · rename_i h'; cases h'; exact absurd rfl hh
  · rename_i h'; cases h'; exact absurd rfl hq
  · rfl

/-- The ways in which a line begins. -/
theorem trimStart_cases (cs : List Char) :
    ignored cs = true ∨ (∃ rest, trimStart cs = '"' :: rest) ∨
      ∃ c rest, trimStart cs = c :: rest ∧ c ≠ '#' ∧ c ≠ '"' := by
  rw [ignored_iff]
  cases h : trimStart cs with
  | nil => exact .inl (.inl rfl)
  | cons c rest =>
    by_cases hh : c = '#'
    · exact .inl (.inr ⟨rest, by rw [hh]⟩)
    by_cases hq : c = '"'
    · exact .inr (.inl ⟨rest, by rw [hq]⟩)
    · exact .inr (.inr ⟨c, rest, rfl, hh, hq⟩)

theorem Line.read_eq_skipped_iff : Line.read cs = .skipped ↔ ignored cs = true := by
  constructor
  · intro h
    rcases trimStart_cases cs with hi | ⟨rest, hb⟩ | ⟨c, rest, hb, hh, hq⟩
    · exact hi
    · rw [Line.read_of_quote hb] at h; cases h
    · rw [Line.read_of_other hb hh hq] at h
      split at h <;> cases h
  · intro h
    unfold Line.read
    rcases (ignored_iff cs).1 h with hb | ⟨rest, hb⟩ <;> simp only [hb]

theorem Line.read_eq_continuation_iff : Line.read cs = .continuation column r ↔
    ∃ indent rest, Blanks indent ∧ cs = indent ++ '"' :: rest ∧ column = indent.length + 1 ∧
      r = Literal.read column rest := by
  constructor
  · intro h
    rcases trimStart_cases cs with hi | ⟨rest, hb⟩ | ⟨c, rest, hb, hh, hq⟩
    · rw [Line.read_eq_skipped_iff.2 hi] at h; cases h
    · rw [Line.read_of_quote hb] at h
      obtain ⟨rfl, rfl⟩ := by simpa using h
      refine ⟨_, rest, blanks_takeWhile cs, ?_, rfl, rfl⟩
      rw [← hb, takeWhile_append_trimStart]
    · rw [Line.read_of_other hb hh hq] at h
      split at h <;> cases h
  · rintro ⟨indent, rest, hi, rfl, rfl, rfl⟩
    have hbare : Bare ('"' :: rest) := by simp [Bare]; decide
    rw [Line.read_of_quote (trimStart_append hi hbare), takeWhile_append hi hbare]

theorem Line.read_eq_field_iff : Line.read cs = .field k column r ↔
    ∃ indent index gap rest, Blanks indent ∧ Index index ∧ Blanks gap ∧
      cs = indent ++ (k.text.toList ++ (index ++ (gap ++ '"' :: rest))) ∧
      column = indent.length + 1 ∧ r = Literal.read (cs.length - rest.length) rest := by
  constructor
  · intro h
    rcases trimStart_cases cs with hi | ⟨rest, hb⟩ | ⟨c, rest, hb, hh, hq⟩
    · rw [Line.read_eq_skipped_iff.2 hi] at h; cases h
    · rw [Line.read_of_quote hb] at h; cases h
    · rw [Line.read_of_other hb hh hq] at h
      split at h
      · rename_i k' rest' hf
        obtain ⟨rfl, rfl, rfl⟩ := by simpa using h
        obtain ⟨index, gap, hi, hg, hcs⟩ := fieldStart?_eq_some_iff.1 hf
        refine ⟨_, index, gap, rest', blanks_takeWhile cs, hi, hg, ?_, rfl, rfl⟩
        rw [← hcs, ← hb, takeWhile_append_trimStart]
      · cases h
  · rintro ⟨indent, index, gap, rest, hb, hi, hg, hcs, rfl, rfl⟩
    have hf : fieldStart? (k.text.toList ++ (index ++ (gap ++ '"' :: rest))) = some (k, rest) :=
      fieldStart?_eq_some_iff.2 ⟨index, gap, hi, hg, rfl⟩
    obtain ⟨letters, hl⟩ : ∃ letters, k.text.toList = 'm' :: letters := by
      rw [k.toList_text]; cases k <;> exact ⟨_, rfl⟩
    have hbare : Bare (k.text.toList ++ (index ++ (gap ++ '"' :: rest))) := by
      simp [hl, Bare]; decide
    have ht := trimStart_append hb hbare
    have htake := takeWhile_append hb hbare
    rw [← hcs] at ht htake
    rw [hl, List.cons_append] at ht hf
    rw [Line.read_of_other ht (by decide) (by decide), hf, htake]

end Reading

section Tokens

/-- What a line adds to an entry, if it is in order. -/
def Line.token? : Line → Option (Token Literal)
  | .continuation _ (.ok l) => some (.continuation l)
  | .field k _ (.ok l) => some (.field k l)
  | _ => none

theorem Line.token?_eq_continuation {line : Line} {l : Literal} :
    line.token? = some (.continuation l) ↔ ∃ column, line = .continuation column (.ok l) := by
  unfold Line.token?
  split
  · simp
  · simp
  · rename_i hc hf
    exact ⟨fun h => (by cases h), fun ⟨column, h⟩ => (hc column l h).elim⟩

theorem Line.token?_eq_field {line : Line} {k : Keyword} {l : Literal} :
    line.token? = some (.field k l) ↔ ∃ column, line = .field k column (.ok l) := by
  unfold Line.token?
  split
  · simp
  · simp [eq_comm]
  · rename_i hc hf
    exact ⟨fun h => (by cases h), fun ⟨column, h⟩ => (hf k column l h).elim⟩

theorem Literal.read_of_spells {body ds trail : List Char} (hs : Spells body ds) (ht : Blanks trail)
    (start : Nat) :
    ∃ l, Literal.read start (body ++ '"' :: trail) = .ok l ∧ l.value = String.ofList ds :=
  ⟨_, Literal.read_eq_ok_iff.2 ⟨body, ds, trail, rfl, hs, ht, rfl⟩, rfl⟩

theorem Line.token?_read_of_continuation {cs : List Char} {text : String}
    (h : LineSpells cs (.continuation text)) :
    ∃ l, (Line.read cs).token? = some (.continuation l) ∧ l.value = text := by
  cases h with
  | @continuation indent _ trail _ hi hq ht =>
    obtain ⟨hs⟩ := hq
    rename_i body ds
    obtain ⟨l, hl, hv⟩ := Literal.read_of_spells hs ht (indent.length + 1)
    refine ⟨l, Line.token?_eq_continuation.2 ⟨indent.length + 1, ?_⟩, hv⟩
    exact Line.read_eq_continuation_iff.2
      ⟨indent, body ++ '"' :: trail, hi, by simp, rfl, hl.symm⟩

theorem Line.token?_read_of_field {cs : List Char} {k : Keyword} {text : String}
    (h : LineSpells cs (.field k text)) :
    ∃ l, (Line.read cs).token? = some (.field k l) ∧ l.value = text := by
  cases h with
  | @field indent index gap _ trail _ _ hi hx hg hq ht =>
    obtain ⟨hs⟩ := hq
    rename_i body ds
    obtain ⟨l, hl, hv⟩ := Literal.read_of_spells hs ht ((indent ++ k.text.toList ++ index ++ gap ++
      '"' :: (body ++ ['"']) ++ trail).length - (body ++ '"' :: trail).length)
    refine ⟨l, Line.token?_eq_field.2 ⟨indent.length + 1, ?_⟩, hv⟩
    exact Line.read_eq_field_iff.2
      ⟨indent, index, gap, body ++ '"' :: trail, hi, hx, hg, by simp, rfl, hl.symm⟩

/-- **A line is accepted exactly if the grammar has it**, with the text that the grammar gives. -/
theorem lineSpells_iff {cs : List Char} {t : Token String} :
    LineSpells cs t ↔ ∃ t', (Line.read cs).token? = some t' ∧ t'.map (·.value) = t := by
  constructor
  · intro h
    cases t with
    | continuation text =>
      obtain ⟨l, hl, rfl⟩ := Line.token?_read_of_continuation h
      exact ⟨_, hl, rfl⟩
    | field k text =>
      obtain ⟨l, hl, rfl⟩ := Line.token?_read_of_field h
      exact ⟨_, hl, rfl⟩
  · rintro ⟨t', ht, rfl⟩
    cases t' with
    | continuation l =>
      obtain ⟨column, hr⟩ := Line.token?_eq_continuation.1 ht
      obtain ⟨indent, rest, hi, rfl, -, hl⟩ := Line.read_eq_continuation_iff.1 hr
      obtain ⟨body, ds, trail, rfl, hs, hb, rfl⟩ := Literal.read_eq_ok_iff.1 hl.symm
      simpa [Token.map] using LineSpells.continuation hi (Quoted.mk hs) hb
    | field k l =>
      obtain ⟨column, hr⟩ := Line.token?_eq_field.1 ht
      obtain ⟨indent, index, gap, rest, hi, hx, hg, rfl, -, hl⟩ := Line.read_eq_field_iff.1 hr
      obtain ⟨body, ds, trail, rfl, hs, hb, rfl⟩ := Literal.read_eq_ok_iff.1 hl.symm
      simpa [Token.map] using LineSpells.field k hi hx hg (Quoted.mk hs) hb

theorem LineSpells.not_ignored {cs : List Char} {t : Token String} (h : LineSpells cs t) :
    ignored cs = false := by
  obtain ⟨t', ht, -⟩ := lineSpells_iff.1 h
  by_contra hi
  rw [Line.read_eq_skipped_iff.2 (by simpa using hi)] at ht
  cases ht

end Tokens

end CatalogLint.Catalog
