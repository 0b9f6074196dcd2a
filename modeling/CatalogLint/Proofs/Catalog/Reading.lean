import CatalogLint.Catalog.Reader
import CatalogLint.Proofs.Catalog.Lines

/-!
# The reader finds the blocks of a text

The reader keeps entries and a draft where an outline keeps blocks and a part of one. Each line
that is not ignored is a token, and what it does to the draft is what its token does to the
outline, so the reader gives the entries of the blocks that the tokens are made of.

* `Piece`: a literal and the line that it stands on.
* `tokens?`: the tokens of lines.
* `parseLines_eq_ok_iff`: **what is accepted, and what is read**, with all places.
-/

namespace CatalogLint.Catalog

open CatalogLint.Text

/-- A literal and the number of its line. -/
structure Piece where
  line : Nat
  literal : Literal
  deriving DecidableEq, Repr

/-- The tokens of lines, of which the first has the number `line`. -/
def tokens? : Nat → List (List Char) → Option (List (Token Piece))
  | _, [] => some []
  | line, cs :: rest =>
    if ignored cs then tokens? (line + 1) rest
    else (Line.read cs).token?.bind fun t =>
      (tokens? (line + 1) rest).map (t.map (Piece.mk line) :: ·)

/-- The literals of a field, one after the other. -/
def Field.value (f : Field Piece) : String := (f.map (·.literal.value)).text

def Field.last {α : Type} (f : Field α) : α := f.more.getLast?.getD f.first

/-- From the opening quote of the first literal to the closing quote of the last one. -/
def Field.span (f : Field Piece) : Span :=
  ⟨⟨f.first.line, f.first.literal.start⟩, ⟨f.last.line, f.last.literal.stop⟩⟩

/-- The entry that a block is read as. -/
def Block.entry (b : Block Piece) : Entry :=
  { key := b.key.value, keySpan := b.key.span, values := b.values.map (·.value)
    valueSpan := b.values.head?.map (·.span), context := b.context.map (·.value)
    plural := b.plural.map (·.value) }

section Outline

def Head.ofFields (c : Option (Field Piece)) (k : Field Piece) (p : Option (Field Piece)) : Head :=
  ⟨(c.getD k).first.line, c.map (·.value), k.value, k.span, p.map (·.value)⟩

/-- How the reader keeps a part. -/
def Part.draft : Part Piece → Draft
  | context c => .context c.first.line c.value
  | head c k p => .head (.ofFields c k p)
  | body c k p vs v =>
    .body (.ofFields c k p) (vs.head?.getD v).span (vs.map (·.value)).reverse v.value

/-- How the reader keeps an outline. -/
def Outline.progress (o : Outline Piece) : Progress :=
  ⟨(o.blocks.map Block.entry).reverse, o.part.map Part.draft⟩

variable (f : Field Piece) (x : Piece)

@[simp]
theorem Field.value_single : Field.value ⟨x, []⟩ = x.literal.value := by
  simp [Field.value, Field.map, Field.text]

@[simp]
theorem Field.span_single : Field.span ⟨x, []⟩ = x.literal.span x.line := rfl

@[simp]
theorem Field.value_snoc : (f.snoc x).value = f.value ++ x.literal.value := by
  simp [Field.value, Field.map, Field.text, Field.snoc, String.append_assoc]

@[simp]
theorem Field.span_snoc :
    (f.snoc x).span = { f.span with stop := ⟨x.line, x.literal.stop⟩ } := by
  simp [Field.span, Field.last, Field.snoc]

theorem Part.draft_extend (p : Part Piece) :
    (p.extend x).draft = p.draft.extend x.line x.literal := by
  cases p with
  | context c =>
    -- what follows a field does not move its first line
    have hfirst : (c.snoc x).first = c.first := rfl
    simp [Part.extend, Part.draft, Draft.extend, hfirst]
  | head c k p =>
    have hfirst : (k.snoc x).first = k.first := rfl
    cases p <;> cases c <;> simp [Part.extend, Part.draft, Draft.extend, Head.ofFields, hfirst]
  | body c k p vs v =>
    -- the span is that of the first value, so it grows only while there is one value
    rcases List.eq_nil_or_concat vs with rfl | ⟨vs, w, rfl⟩
    · simp [Part.extend, Part.draft, Draft.extend]
    · cases vs <;> simp [Part.extend, Part.draft, Draft.extend]

end Outline

section Simulation

variable (o : Outline Piece) (line column : Nat)

theorem Progress.finish_toOption :
    o.progress.finish.toOption = o.closed?.map (List.map Block.entry) := by
  obtain ⟨bs, part⟩ := o
  rcases part with _ | ⟨c⟩ | ⟨c, k, p⟩ | ⟨c, k, p, vs, v⟩
  · simp [Outline.progress, Progress.finish, Outline.closed?, Except.toOption]
  · simp [Outline.progress, Progress.finish, Outline.closed?, Part.draft, Except.toOption]
  · simp [Outline.progress, Progress.finish, Outline.closed?, Part.draft, Except.toOption]
  · cases vs <;> simp [Outline.progress, Progress.finish, Outline.closed?, Part.draft,
      Except.toOption, Head.entry, Head.ofFields, Block.entry]

/-- A field does to the draft what its token does to the outline. -/
theorem Progress.field_toOption (l : Literal) (k : Keyword) :
    (o.progress.field line column l k).toOption =
      (o.feed (.field k ⟨line, l⟩)).map Outline.progress := by
  obtain ⟨bs, part⟩ := o
  cases k with
  | msgctxt =>
    rcases part with _ | ⟨c⟩ | ⟨c, k, p⟩ | ⟨c, k, p, _ | ⟨w, vs⟩, v⟩ <;>
      simp [Outline.progress, Progress.field, Outline.feed, Outline.closed?, Part.draft,
        Except.toOption, Head.entry, Head.ofFields, Block.entry]
  | msgid =>
    rcases part with _ | ⟨c⟩ | ⟨c, k, p⟩ | ⟨c, k, p, _ | ⟨w, vs⟩, v⟩ <;>
      simp [Outline.progress, Progress.field, Outline.feed, Outline.closed?, Part.draft,
        Except.toOption, Head.entry, Head.ofFields, Block.entry]
  | msgidPlural =>
    rcases part with _ | ⟨c⟩ | ⟨_ | c, k, _ | p⟩ | ⟨c, k, p, vs, v⟩ <;>
      simp [Outline.progress, Progress.field, Outline.feed, Part.draft, Except.toOption,
        Head.ofFields]
  | msgstr =>
    rcases part with _ | ⟨c⟩ | ⟨c, k, p⟩ | ⟨c, k, p, _ | ⟨w, vs⟩, v⟩ <;>
      simp [Outline.progress, Progress.field, Outline.feed, Part.draft, Except.toOption]

/-- A line that is not ignored does to the draft what its token does to the outline. -/
theorem Progress.step_toOption {l : Line} (hl : l ≠ .skipped) :
    (o.progress.step line l).toOption =
      l.token?.bind fun t => (o.feed (t.map (Piece.mk line))).map Outline.progress := by
  cases l with
  | skipped => exact absurd rfl hl
  | unexpected column word => rfl
  | continuation column literal =>
    cases literal with
    | error e =>
      cases hd : o.progress.draft <;> simp [Progress.step, hd, Line.token?, Except.toOption]
    | ok l =>
      obtain ⟨bs, part⟩ := o
      cases part <;> simp [Progress.step, Outline.progress, Line.token?, Token.map, Outline.feed,
        Except.toOption, Part.draft_extend]
  | field k column literal =>
    cases literal with
    | error e => rfl
    | ok l => exact Progress.field_toOption o line column l k

theorem toOption_bind {ε α β : Type} (x : Except ε α) (f : α → Except ε β) :
    (x >>= f).toOption = x.toOption.bind fun a => (f a).toOption := by
  cases x <;> rfl

theorem Progress.run_toOption (ls : List (List Char)) :
    (o.progress.run line ls).toOption =
      (tokens? line ls).bind fun ts => (ts.foldlM Outline.feed o).map Outline.progress := by
  induction ls generalizing o line with
  | nil => simp [Progress.run, tokens?, Except.toOption]
  | cons cs ls ih =>
    rw [Progress.run, toOption_bind, tokens?]
    by_cases hi : ignored cs = true
    · rw [Line.read_eq_skipped_iff.2 hi, if_pos hi, ← ih]
      rfl
    · rw [if_neg hi, Progress.step_toOption o line (mt Line.read_eq_skipped_iff.1 hi)]
      cases (Line.read cs).token? with
      | none => rfl
      | some t =>
        simp only [Option.bind_some, Option.bind_map]
        -- the reader stops at a token without a place, whatever the lines after it are
        cases hf : o.feed (t.map (Piece.mk line)) with
        | none => cases tokens? (line + 1) ls <;> simp [hf]
        | some o' => simp [ih o', hf]

end Simulation

theorem parseLines_toOption (ls : List (List Char)) :
    (parseLines ls).toOption =
      (tokens? 1 ls).bind fun ts => (blocks? ts).map (List.map Block.entry) := by
  have hstart : Progress.start = Outline.progress ⟨[], none⟩ := rfl
  unfold parseLines
  rw [toOption_bind, hstart, Progress.run_toOption]
  cases tokens? 1 ls with
  | none => rfl
  | some ts =>
    simp only [Option.bind_some, blocks?, Outline.blocks?]
    cases ts.foldlM Outline.feed ⟨[], none⟩ with
    | none => rfl
    | some o => exact Progress.finish_toOption o

theorem toOption_eq_some_iff {ε α : Type} {x : Except ε α} {a : α} :
    x.toOption = some a ↔ x = .ok a := by
  cases x <;> simp [Except.toOption]

/-- **What is accepted, and what is read.** Lines are accepted if their tokens are those of
blocks, and the catalog has the entries of the blocks. -/
theorem parseLines_eq_ok_iff {ls : List (List Char)} {catalog : Catalog} :
    parseLines ls = .ok catalog ↔ ∃ bs : List (Block Piece),
      tokens? 1 ls = some (bs.flatMap (·.tokens)) ∧ catalog = bs.map Block.entry := by
  rw [← toOption_eq_some_iff, parseLines_toOption]
  constructor
  · intro h
    obtain ⟨ts, ht, h⟩ := Option.bind_eq_some_iff.1 h
    obtain ⟨bs, hb, rfl⟩ := Option.map_eq_some_iff.1 h
    exact ⟨bs, by rw [ht, blocks?_eq_some_iff.1 hb], rfl⟩
  · rintro ⟨bs, ht, rfl⟩
    rw [ht, Option.bind_some, blocks?_eq_some_iff.2 rfl, Option.map_some]

end CatalogLint.Catalog
