import CatalogLint.Proofs.Catalog.Regions
import CatalogLint.Proofs.Duplicates.Exact

/-!
# Spans lie within the text, one after the other

The end of a span moves on while literals are read, but a literal that comes later stands on a later
line. So the fields of a catalog take up lines of their own, in the order of the text.

* `Span.Within`: a span that is not empty and lies within the lines of a text.
* `tokens?_stands`: where a literal stands.
* `Block.extents`: the key and the first value of a block.
* `parse_extents`: **the spans of a catalog lie within its text, each entry after the one before.**
* `spans_in_order`: the same, and what follows for the ranges of reports.
-/

namespace CatalogLint

/-- Earlier in a catalog: on an earlier line, or on the same line in an earlier column. -/
def Position.Before (p q : Position) : Prop :=
  p.line < q.line ∨ p.line = q.line ∧ p.column < q.column

/-- Earlier in a document: on an earlier line, or at an earlier character of the same line. -/
def Place.Before (p q : Place) : Prop :=
  p.line < q.line ∨ p.line = q.line ∧ p.character < q.character

/-- The place is in the range, which it may start at and ends before. -/
def Range.Contains (r : Range) (p : Place) : Prop := ¬ p.Before r.start ∧ p.Before r.stop

/-- The position is that of a character of one of these lines, or just after the last of a line. -/
structure Position.Within (ls : List (List Char)) (p : Position) : Prop where
  line_pos : 1 ≤ p.line
  line_le : p.line ≤ ls.length
  column_pos : 1 ≤ p.column
  column_le : ∃ cs, ls[p.line.toNat - 1]? = some cs ∧ p.column ≤ cs.length + 1

/-- The span starts before it ends, both within these lines. -/
structure Span.Within (ls : List (List Char)) (s : Span) : Prop where
  start : s.start.Within ls
  stop : s.stop.Within ls
  before : s.start.Before s.stop

/-- The key and the first value have spans, and the value begins on a line after that on which the
key ends. -/
structure Entry.Within (ls : List (List Char)) (e : Entry) : Prop where
  key : e.keySpan.Within ls
  value : ∃ s, e.valueSpan = some s ∧ s.Within ls ∧ e.keySpan.stop.line < s.start.line

/-- The first value of `e` ends on a line before that on which the key of `e'` begins. -/
def Entry.Precedes (e e' : Entry) : Prop :=
  ∃ s, e.valueSpan = some s ∧ s.stop.line < e'.keySpan.start.line

theorem Span.Within.line_le {ls : List (List Char)} {s : Span} (h : s.Within ls) :
    s.start.line ≤ s.stop.line := by
  rcases h.before with hlt | ⟨heq, -⟩ <;> omega

/-- Keys stand on lines of their own too. -/
theorem Entry.Precedes.key_lt {ls : List (List Char)} {e e' : Entry} (h : e.Precedes e')
    (he : e.Within ls) : e.keySpan.stop.line < e'.keySpan.start.line := by
  obtain ⟨s, hs, hlt⟩ := h
  obtain ⟨s', hs', hwithin, hkey⟩ := he.value
  obtain rfl : s = s' := Option.some.inj (hs.symm.trans hs')
  have := hwithin.line_le
  omega

namespace Catalog

open CatalogLint.Text

/-- A literal with its quotes stands on its line, which is one of these. -/
structure Piece.Stands (ls : List (List Char)) (x : Piece) : Prop where
  line_pos : 1 ≤ x.line
  start_pos : 1 ≤ x.literal.start
  start_lt : x.literal.start < x.literal.stop
  stop_le : ∃ cs, ls[x.line - 1]? = some cs ∧ x.literal.stop ≤ cs.length + 1

/-- Where a literal stands. -/
theorem tokens?_stands {ls : List (List Char)} {ts : List (Token Piece)}
    (h : tokens? 1 ls = some ts) {t : Token Piece} (ht : t ∈ ts) : t.literal.Stands ls := by
  obtain ⟨before, after, rfl⟩ := List.append_of_mem ht
  obtain ⟨pre, cs, post, t', rfl, -, hread, rfl, -⟩ := tokens?_split h
  obtain ⟨hstart, hlt, hstop⟩ := Line.token?_read_columns hread
  rw [Token.literal_map]
  refine ⟨by simp, hstart, hlt, cs, ?_, hstop⟩
  rw [Nat.add_sub_cancel_left]
  simp

theorem Piece.Stands.within {ls : List (List Char)} {x : Piece} (h : x.Stands ls) {column : Nat}
    (hc : 1 ≤ column) (hc' : column ≤ x.literal.stop) :
    Position.Within ls ⟨x.line, column⟩ := by
  obtain ⟨cs, hline, hstop⟩ := h.stop_le
  have hpos := h.line_pos
  have hlt : x.line - 1 < ls.length := (List.getElem?_eq_some_iff.1 hline).1
  refine ⟨?_, ?_, ?_, cs, ?_, ?_⟩
  · simpa using hpos
  · show (x.line : Int) ≤ ls.length
    omega
  · simpa using hc
  · simpa using hline
  · show (column : Int) ≤ cs.length + 1
    omega

section Fields

variable {ls : List (List Char)} {f : Field Piece} {k : Keyword}

theorem Field.first_mem_tokens (f : Field Piece) (k : Keyword) :
    .field k f.first ∈ f.tokens k := List.mem_cons_self

theorem Field.last_mem_tokens (f : Field Piece) (k : Keyword) :
    ∃ t ∈ f.tokens k, t.literal = f.last := by
  rcases f.last_mem with h | h
  · exact ⟨_, f.first_mem_tokens k, h.symm⟩
  · exact ⟨.continuation f.last, by simp [Field.tokens, h], rfl⟩

/-- A field ends on the line on which it begins, with the same literal, or on a later one. -/
theorem Field.last_cases (h : (f.tokens k).Pairwise (·.literal.line < ·.literal.line)) :
    f.last = f.first ∨ f.first.line < f.last.line := by
  rcases f.last_mem with hlast | hlast
  · exact .inl hlast
  · refine .inr ((List.pairwise_cons.1 h).1 (.continuation f.last) ?_)
    exact List.mem_map_of_mem hlast

theorem Field.span_within (hs : ∀ t ∈ f.tokens k, t.literal.Stands ls)
    (h : (f.tokens k).Pairwise (·.literal.line < ·.literal.line)) : f.span.Within ls := by
  have hfirst : f.first.Stands ls := hs _ (f.first_mem_tokens k)
  obtain ⟨t, ht, hlast⟩ := f.last_mem_tokens k
  have hstands : f.last.Stands ls := hlast ▸ hs t ht
  refine ⟨hfirst.within hfirst.start_pos hfirst.start_lt.le, ?_, ?_⟩
  · refine hstands.within ?_ le_rfl
    have := hstands.start_lt
    omega
  · rcases Field.last_cases h with heq | hlt
    · refine .inr ⟨by simp only [Field.span, heq], ?_⟩
      have := hfirst.start_lt
      simp only [Field.span, heq]
      omega
    · refine .inl ?_
      simp only [Field.span]
      omega

end Fields

section Blocks

variable {ls : List (List Char)} {b : Block Piece} {v : Field Piece} {vs : List (Field Piece)}

theorem Block.sublist_tokens (hv : b.values = v :: vs) :
    (b.key.tokens .msgid ++ v.tokens .msgstr).Sublist b.tokens := by
  unfold Block.tokens
  rw [hv, List.flatMap_cons]
  refine List.Sublist.append ?_ (List.sublist_append_left _ _)
  exact (List.sublist_append_right _ _).trans (List.sublist_append_left _ _)

/-- The key of a block and its first value take up lines of their own, one after the other. -/
theorem Block.extents (hv : b.values = v :: vs) (hs : ∀ t ∈ b.tokens, t.literal.Stands ls)
    (h : b.tokens.Pairwise (·.literal.line < ·.literal.line)) :
    b.key.span.Within ls ∧ v.span.Within ls ∧ b.key.last.line < v.first.line := by
  have hsub := Block.sublist_tokens hv
  obtain ⟨hkey, hvalue, hacross⟩ := List.pairwise_append.1 (h.sublist hsub)
  have hstands : ∀ t ∈ b.key.tokens .msgid ++ v.tokens .msgstr, t.literal.Stands ls :=
    fun t ht => hs t (hsub.subset ht)
  refine ⟨Field.span_within (fun t ht => hstands t ?_) hkey,
    Field.span_within (fun t ht => hstands t ?_) hvalue, ?_⟩
  · exact List.mem_append_left _ ht
  · exact List.mem_append_right _ ht
  · obtain ⟨t, ht, hlast⟩ := b.key.last_mem_tokens .msgid
    have hlt := hacross t ht _ (v.first_mem_tokens .msgstr)
    rwa [hlast] at hlt

end Blocks

/-- **The spans of a catalog lie within its text, each entry after the one before.** -/
theorem parse_extents {text : String} {catalog : Catalog} (h : parse text = .ok catalog) :
    (∀ e ∈ catalog, e.Within (lines (dropMark text.toList))) ∧ catalog.Pairwise Entry.Precedes := by
  obtain ⟨bs, ht, rfl⟩ := parseLines_eq_ok_iff.1 h
  have hlines := (tokens?_lines ht).2
  obtain ⟨hblock, hacross⟩ := List.pairwise_flatMap.1 hlines
  constructor
  · intro e he
    obtain ⟨b, hb, rfl⟩ := List.mem_map.1 he
    obtain ⟨v, vs, hv⟩ := List.exists_cons_of_ne_nil b.values_ne
    have hstands : ∀ t ∈ b.tokens, t.literal.Stands (lines (dropMark text.toList)) := by
      intro t htb
      exact tokens?_stands ht (List.mem_flatMap.2 ⟨b, hb, htb⟩)
    obtain ⟨hkey, hvalue, hlt⟩ := Block.extents hv hstands (hblock b hb)
    refine ⟨hkey, v.span, by simp [Block.entry, hv], hvalue, ?_⟩
    simp only [Block.entry, Field.span]
    omega
  · rw [List.pairwise_map]
    refine hacross.imp fun {b b'} hbb => ?_
    obtain ⟨v, vs, hv⟩ := List.exists_cons_of_ne_nil b.values_ne
    obtain ⟨t, htv, hlast⟩ := v.last_mem_tokens .msgstr
    have htb : t ∈ b.tokens :=
      (Block.sublist_tokens hv).subset (List.mem_append_right _ htv)
    have hlt := hbb t htb _ b'.key_first_mem
    rw [hlast] at hlt
    simp only [Token.literal] at hlt
    refine ⟨v.span, by simp [Block.entry, hv], ?_⟩
    simp only [Block.entry, Field.span]
    omega

/-- Ranges one of which ends on a line before that on which the other starts have no place in
common. -/
theorem not_contains_of_line_lt {r r' : Range} (h : r.stop.line < r'.start.line) (p : Place) :
    ¬ (r.Contains p ∧ r'.Contains p) := by
  rintro ⟨⟨-, hstop⟩, hstart, -⟩
  apply hstart
  left
  rcases hstop with hlt | ⟨heq, -⟩ <;> omega

/-- **Spans lie within the text, one after the other.** In the lines of a text that can be read, the
spans of keys and first values start before they end, and run from characters of a line to
characters of a line. The key of an entry ends on a line before its first value, and the first value
on a line before the key of any later entry. So a report stands at the key of one entry, and of the
reports at the keys of two entries that at the earlier one starts earlier, and no place is in both
ranges. -/
theorem spans_in_order {text : String} {catalog : Catalog} (hp : parse text = .ok catalog) :
    ∃ ls, FallsInto (unmarked text.toList) ls ∧ (∀ e ∈ catalog, e.Within ls) ∧
      catalog.Pairwise Entry.Precedes ∧
      ∀ uri settings checks ds, (analyze text uri settings checks).value = .ok ds →
        (∀ d ∈ ds, ∃! i : Fin catalog.length, d.isOn (catalog.get i) = true) ∧
        ∀ d ∈ ds, ∀ d' ∈ ds, ∀ i j : Fin catalog.length, i < j →
          d.isOn (catalog.get i) = true → d'.isOn (catalog.get j) = true →
          d.range.start.Before d'.range.start ∧
            ∀ p, ¬ (d.range.Contains p ∧ d'.range.Contains p) := by
  obtain ⟨hwithin, hprecedes⟩ := parse_extents hp
  refine ⟨lines (dropMark text.toList), ?_, hwithin, hprecedes, ?_⟩
  · rw [← dropMark_eq_unmarked]
    exact lines_eq_iff.1 rfl
  intro uri settings checks ds hds
  -- the key of an earlier entry ends on a line before that on which the key of a later one begins
  have hkeys : ∀ i j : Fin catalog.length, i < j →
      (catalog.get i).keySpan.stop.line < (catalog.get j).keySpan.start.line := by
    intro i j hij
    have hpair := List.pairwise_iff_get.1 hprecedes i j hij
    exact hpair.key_lt (hwithin _ (List.get_mem _ i))
  have hon : ∀ (d : Diagnostic) (i : Fin catalog.length), d.isOn (catalog.get i) = true →
      d.range = (catalog.get i).keySpan.range :=
    fun d i h => (isOn_iff hp (List.get_mem _ i) d).1 h
  constructor
  · intro d hd
    obtain ⟨catalog', severity, hp', rfl⟩ := eq_reports_of_analyze hds
    obtain rfl : catalog = catalog' := Except.ok.inj (hp.symm.trans hp')
    obtain ⟨e, hmem, rfl⟩ := List.mem_map.1 hd
    have he := mem_of_mem_reported hmem
    obtain ⟨i, rfl⟩ := List.mem_iff_get.1 he
    refine ⟨i, (isOn_iff hp he _).2 rfl, fun j hj => ?_⟩
    have hentry := range_injective hp (List.get_mem _ j) he (hon _ j hj).symm
    exact (nodup_catalog hp).injective_get hentry
  · intro d hd d' hd' i j hij hi hj
    have hlt := hkeys i j hij
    have hle := (hwithin _ (List.get_mem _ i)).key.line_le
    rw [hon d i hi, hon d' j hj]
    refine ⟨.inl ?_, not_contains_of_line_lt ?_⟩
    · simp only [Span.range]
      omega
    · simp only [Span.range]
      omega

/-- A byte order mark, a comment within the first key, and a context and a plural key about the
second one. -/
theorem spans_in_order_woven :
    let text := "\ufeffmsgid \"a\"\n#\n \"b\" \nmsgstr \"\"\n\"x\"\nmsgctxt \"c\"\n" ++
      "msgid \"ab\"\nmsgid_plural \"d\"\nmsgstr[0] \"y\""
    ∃ e e' : Entry, parse text = .ok [e, e'] ∧ e.keySpan = ⟨⟨1, 7⟩, ⟨3, 5⟩⟩ ∧
      e'.keySpan = ⟨⟨7, 7⟩, ⟨7, 11⟩⟩ ∧
      ∃ ls ds, FallsInto (unmarked text.toList) ls ∧ e.Within ls ∧ e'.Within ls ∧ e.Precedes e' ∧
        (analyze text "a.po").value = .ok ds ∧
        ∀ d ∈ ds, ∀ d' ∈ ds, d.isOn e = true → d'.isOn e' = true →
          ∀ p, ¬ (d.range.Contains p ∧ d'.range.Contains p) := by
  intro text
  have hp : parse text = .ok
      [⟨"ab", ⟨⟨1, 7⟩, ⟨3, 5⟩⟩, ["x"], some ⟨⟨4, 8⟩, ⟨5, 4⟩⟩, none, none⟩,
        ⟨"ab", ⟨⟨7, 7⟩, ⟨7, 11⟩⟩, ["y"], some ⟨⟨9, 11⟩, ⟨9, 14⟩⟩, some "c", some "d"⟩] := by
    decide +kernel
  obtain ⟨ls, hls, hwithin, hprecedes, hreports⟩ := spans_in_order hp
  have hlevel : Settings.level {} = .ok .error := by decide +kernel
  have hds := analyze_value_default hp hlevel "a.po"
  obtain ⟨-, hdisjoint⟩ := hreports _ _ _ _ hds
  refine ⟨_, _, hp, rfl, rfl, ls, _, hls, hwithin _ (by simp), hwithin _ (by simp), ?_, hds, ?_⟩
  · exact (List.pairwise_cons.1 hprecedes).1 _ (by simp)
  · intro d hd d' hd' hon hon'
    exact (hdisjoint d hd d' hd' 0 1 (by decide) hon hon').2

end Catalog

end CatalogLint
