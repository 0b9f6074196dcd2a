import CatalogLint.Proofs.Catalog.Acceptance
import CatalogLint.Proofs.Catalog.Spans

/-!
# Reading undoes writing

Messages can be written as a catalog in many ways: a text may be cut into chunks, each on a line of
its own, with blanks around it, ignored lines before it and any line end after it. All these texts
are read as the same messages.

* `Chunk`: a chunk of a text and how its line is laid out.
* `Document`: the lines of a catalog, chunk by chunk, and `Document.text`, the text that they make.
* `spells_escaped`: no character of a chunk ends its literal.
* `fallsInto_written`: no line ends early, and a line that is swallowed by the end of the line
  before it is one that is ignored.
* `reading_undoes_writing`: **a text that messages are written as is read as these messages.**
-/

namespace CatalogLint.Catalog

open CatalogLint.Text

/-- How a line ends. -/
inductive Ending where
  | feed
  | carriage
  | pair
  deriving DecidableEq, Repr

def Ending.chars : Ending → List Char
  | feed => ['\n']
  | carriage => ['\r']
  | pair => ['\r', '\n']

/-- Blanks that end no line. -/
structure Space where
  chars : List Char
  blanks : Blanks chars
  unbroken : Unbroken chars

/-- A line that is ignored: blank, or a comment. -/
structure Remark where
  chars : List Char
  unbroken : Unbroken chars
  ignored : ignored chars = true
  ending : Ending

/-- A chunk of a text and the layout of its line: what is ignored before it, the blanks at the
start of the line and at its end, and how the line ends. The index and the gap stand between
a keyword and the literal, if there is a keyword. -/
structure Chunk where
  text : String
  remarks : List Remark
  indent : Space
  index : List Char
  index_ok : Index index
  gap : Space
  trail : Space
  ending : Ending

/-- A character within a literal. -/
def escaped : Char → List Char
  | '\\' => ['\\', '\\']
  | '"' => ['\\', '"']
  | '\r' => ['\\', 'r']
  | '\n' => ['\\', 'n']
  | c => [c]

/-- A text as a literal. -/
def quoted (text : String) : List Char := '"' :: (text.toList.flatMap escaped ++ ['"'])

/-- The line of a chunk. -/
def lineOf : Token Chunk → List Char
  | .continuation c => c.indent.chars ++ quoted c.text ++ c.trail.chars
  | .field k c => c.indent.chars ++ k.text.toList ++ c.index ++ c.gap.chars ++ quoted c.text ++
      c.trail.chars

/-- The line of a chunk and the lines ignored before it, with their ends. -/
def linesOf (t : Token Chunk) : List (List Char × Ending) :=
  t.literal.remarks.map (fun r => (r.chars, r.ending)) ++ [(lineOf t, t.literal.ending)]

/-- Messages as they are written: their chunks block by block, what is ignored after the last
one, and whether a byte order mark opens the text. -/
structure Document where
  mark : Bool
  blocks : List (Block Chunk)
  remarks : List Remark

namespace Document

/-- The messages that are written. A text is the join of its chunks. -/
def messages (d : Document) : List Message := d.blocks.map fun b => (b.map Chunk.text).message

/-- The lines of a document, with their ends. -/
def lines (d : Document) : List (List Char × Ending) :=
  (d.blocks.flatMap (·.tokens)).flatMap linesOf ++ d.remarks.map fun r => (r.chars, r.ending)

/-- The text of a document. -/
def text (d : Document) : String :=
  String.ofList ((if d.mark then ['\ufeff'] else []) ++ d.lines.flatMap fun l => l.1 ++ l.2.chars)

end Document

section Literals

/-- **No character of a chunk ends its literal.** -/
theorem spells_escaped (cs : List Char) : Spells (cs.flatMap escaped) cs := by
  induction cs with
  | nil => exact .nil
  | cons c cs ih =>
    rw [List.flatMap_cons]
    unfold escaped
    split
    · exact .escape (show Escape ['\\'] _ _ from .simple (by decide)) ih
    · exact .escape (show Escape ['"'] _ _ from .simple (by decide)) ih
    · exact .escape (show Escape ['r'] _ _ from .simple (by decide)) ih
    · exact .escape (show Escape ['n'] _ _ from .simple (by decide)) ih
    · rename_i hb hq _ _
      exact .plain hq hb ih

theorem quoted_spells (text : String) : Quoted (quoted text) text := by
  have h := Quoted.mk (spells_escaped text.toList)
  rwa [String.ofList_toList] at h

theorem unbroken_escaped (c : Char) : Unbroken (escaped c) := by
  unfold escaped
  split
  · exact ⟨by decide, by decide⟩
  · exact ⟨by decide, by decide⟩
  · exact ⟨by decide, by decide⟩
  · exact ⟨by decide, by decide⟩
  · rename_i hr hn
    exact ⟨by simpa using Ne.symm hr, by simpa using Ne.symm hn⟩

end Literals

section Unbroken

variable {cs : List Char}

theorem unbroken_quoted (text : String) : Unbroken (quoted text) := by
  have hbody : Unbroken (text.toList.flatMap escaped) := by
    constructor
    · intro hm
      obtain ⟨c, -, hc⟩ := List.mem_flatMap.1 hm
      exact (unbroken_escaped c).1 hc
    · intro hm
      obtain ⟨c, -, hc⟩ := List.mem_flatMap.1 hm
      exact (unbroken_escaped c).2 hc
  have hquote : Unbroken ['"'] := ⟨by decide, by decide⟩
  exact hquote.append (hbody.append hquote)

theorem unbroken_keyword (k : Keyword) : Unbroken k.text.toList := by
  rw [k.toList_text]
  cases k <;> exact ⟨by decide, by decide⟩

theorem unbroken_index (h : Index cs) : Unbroken cs := by
  cases h with
  | none => exact ⟨by simp, by simp⟩
  | @digits ds hne hd =>
    have hds : Unbroken ds := by
      constructor
      · intro hm
        exact absurd (hd _ hm) (by decide)
      · intro hm
        exact absurd (hd _ hm) (by decide)
    have hopen : Unbroken ['['] := ⟨by decide, by decide⟩
    have hclose : Unbroken [']'] := ⟨by decide, by decide⟩
    exact hopen.append (hds.append hclose)

theorem unbroken_lineOf (t : Token Chunk) : Unbroken (lineOf t) := by
  cases t with
  | continuation c => exact (c.indent.unbroken.append (unbroken_quoted _)).append c.trail.unbroken
  | field k c =>
    exact ((((c.indent.unbroken.append (unbroken_keyword k)).append
      (unbroken_index c.index_ok)).append c.gap.unbroken).append (unbroken_quoted _)).append
      c.trail.unbroken

end Unbroken

/-- A line of a chunk says its text. -/
theorem lineSpells_lineOf (t : Token Chunk) : LineSpells (lineOf t) (t.map Chunk.text) := by
  cases t with
  | continuation c => exact .continuation c.indent.blanks (quoted_spells _) c.trail.blanks
  | field k c =>
    exact .field k c.indent.blanks c.index_ok c.gap.blanks (quoted_spells _) c.trail.blanks

section Lines

/-- What follows an empty line. -/
theorem FallsInto.of_feed {cs : List Char} {ls : List (List Char)} (h : FallsInto ('\n' :: cs) ls) :
    ∃ ls', ls = [] :: ls' ∧ FallsInto cs ls' := by
  refine ⟨lines cs, ?_, lines_eq_iff.1 rfl⟩
  rw [← lines_eq_iff.2 h]
  exact linesFrom_feed [] cs

/-- **The lines that are not ignored are those that were written.** A carriage return and the line
feed of an empty line after it are one line end, so that empty line is lost, and it is one that is
ignored. -/
theorem fallsInto_written {ws : List (List Char × Ending)} (hw : ∀ w ∈ ws, Unbroken w.1) :
    ∃ ls, FallsInto (ws.flatMap fun w => w.1 ++ w.2.chars) ls ∧
      ls.filter (!ignored ·) = (ws.map (·.1)).filter (!ignored ·) := by
  induction ws with
  | nil => exact ⟨[[]], .last (by simp) (by simp), rfl⟩
  | cons w ws ih =>
    obtain ⟨l, e⟩ := w
    obtain ⟨hr, hn⟩ := hw _ List.mem_cons_self
    obtain ⟨ls, hfalls, hls⟩ := ih fun w hm => hw w (List.mem_cons_of_mem _ hm)
    have hcons : (l :: ls).filter (!ignored ·) = (l :: ws.map (·.1)).filter (!ignored ·) := by
      rw [List.filter_cons, List.filter_cons, hls]
    rw [List.flatMap_cons, List.map_cons]
    cases e with
    | feed => exact ⟨l :: ls, by simpa [Ending.chars] using FallsInto.feed hr hn hfalls, hcons⟩
    | pair => exact ⟨l :: ls, by simpa [Ending.chars] using FallsInto.pair hr hn hfalls, hcons⟩
    | carriage =>
      by_cases hh : (ws.flatMap fun w => w.1 ++ w.2.chars).head? = some '\n'
      · obtain ⟨cs, hcs⟩ : ∃ cs, (ws.flatMap fun w => w.1 ++ w.2.chars) = '\n' :: cs :=
          List.head?_eq_some_iff.1 hh
        rw [hcs] at hfalls ⊢
        obtain ⟨ls', rfl, hfalls'⟩ := hfalls.of_feed
        refine ⟨l :: ls', by simpa [Ending.chars] using FallsInto.pair hr hn hfalls', ?_⟩
        rw [← hcons]
        rfl
      · exact ⟨l :: ls, by simpa [Ending.chars] using FallsInto.carriage hr hn hh hfalls, hcons⟩

variable (d : Document)

theorem Document.unbroken_lines : ∀ w ∈ d.lines, Unbroken w.1 := by
  intro w hw
  rcases List.mem_append.1 hw with hw | hw
  · obtain ⟨t, -, hw⟩ := List.mem_flatMap.1 hw
    rcases List.mem_append.1 hw with hw | hw
    · obtain ⟨r, -, rfl⟩ := List.mem_map.1 hw
      exact r.unbroken
    · rw [List.mem_singleton.1 hw]
      exact unbroken_lineOf t
  · obtain ⟨r, -, rfl⟩ := List.mem_map.1 hw
    exact r.unbroken

theorem filter_remarks (rs : List Remark) :
    ((rs.map fun r => (r.chars, r.ending)).map (·.1)).filter (!ignored ·) = [] := by
  rw [List.filter_eq_nil_iff]
  intro l hl
  obtain ⟨r, -, rfl⟩ := by simpa using hl
  simp [r.ignored]

/-- The lines of a document that are not ignored are those of its chunks. -/
theorem Document.filter_lines :
    (d.lines.map (·.1)).filter (!ignored ·) = (d.blocks.flatMap (·.tokens)).map lineOf := by
  have htokens : ∀ ts : List (Token Chunk),
      ((ts.flatMap linesOf).map (·.1)).filter (!ignored ·) = ts.map lineOf := by
    intro ts
    induction ts with
    | nil => rfl
    | cons t ts ih =>
      have hline : [lineOf t].filter (!ignored ·) = [lineOf t] := by
        simp [(lineSpells_lineOf t).not_ignored]
      rw [List.flatMap_cons, List.map_append, List.filter_append, ih, linesOf, List.map_append,
        List.filter_append, filter_remarks, List.nil_append, List.map_cons, List.map_nil, hline]
      rfl
  rw [Document.lines, List.map_append, List.filter_append, htokens, filter_remarks, List.append_nil]

end Lines

section Marks

theorem head?_blanks_append {indent rest : List Char} {c : Char} (hi : Blanks indent)
    (hc : isBlank c = false) (hr : rest.head? ≠ some c) : (indent ++ rest).head? ≠ some c := by
  cases indent with
  | nil => exact hr
  | cons x indent =>
    intro h
    obtain rfl : x = c := by simpa using h
    rw [hi x List.mem_cons_self] at hc
    cases hc

theorem head?_lineOf (t : Token Chunk) : (lineOf t).head? ≠ some '\ufeff' := by
  cases t with
  | continuation c =>
    rw [lineOf, List.append_assoc]
    exact head?_blanks_append c.indent.blanks (by decide) (by simp [quoted])
  | field k c =>
    obtain ⟨letters, hl⟩ : ∃ letters, k.text.toList = 'm' :: letters := by
      rw [k.toList_text]; cases k <;> exact ⟨_, rfl⟩
    simp only [lineOf, List.append_assoc]
    exact head?_blanks_append c.indent.blanks (by decide) (by simp [hl])

theorem Remark.head? (r : Remark) : r.chars.head? ≠ some '\ufeff' := by
  intro h
  obtain ⟨cs, hcs⟩ := List.head?_eq_some_iff.1 h
  have hi := r.ignored
  have hmark : isBlank '\ufeff' = false := by decide
  simp [hcs, Catalog.ignored, hmark] at hi

theorem Document.head?_lines (d : Document) : ∀ w ∈ d.lines, w.1.head? ≠ some '\ufeff' := by
  intro w hw
  rcases List.mem_append.1 hw with hw | hw
  · obtain ⟨t, -, hw⟩ := List.mem_flatMap.1 hw
    rcases List.mem_append.1 hw with hw | hw
    · obtain ⟨r, -, rfl⟩ := List.mem_map.1 hw
      exact r.head?
    · rw [List.mem_singleton.1 hw]
      exact head?_lineOf t
  · obtain ⟨r, -, rfl⟩ := List.mem_map.1 hw
    exact r.head?

/-- Without its mark, the text of a document is its lines. -/
theorem Document.unmarked_text (d : Document) :
    unmarked d.text.toList = d.lines.flatMap fun l => l.1 ++ l.2.chars := by
  have hhead : (d.lines.flatMap fun l => l.1 ++ l.2.chars).head? ≠ some '\ufeff' := by
    cases hd : d.lines with
    | nil => simp
    | cons w ws =>
      have hw := d.head?_lines w (by rw [hd]; exact List.mem_cons_self)
      obtain ⟨l, e⟩ := w
      cases l with
      | nil => cases e <;> simp [Ending.chars]
      | cons c l => simpa using hw
  unfold Document.text unmarked
  rw [String.toList_ofList]
  cases d.mark with
  | true => simp
  | false =>
    rw [if_neg Bool.false_ne_true, List.nil_append, if_neg hhead]

end Marks

theorem Document.written (d : Document) : Written d.text.toList d.messages := by
  obtain ⟨ls, hfalls, hls⟩ := fallsInto_written d.unbroken_lines
  refine ⟨ls, _, d.blocks.map (Block.map Chunk.text), d.unmarked_text ▸ hfalls, ?_, rfl, by
    simp [Document.messages]⟩
  rw [hls, d.filter_lines]
  have htokens : (d.blocks.map (Block.map Chunk.text)).flatMap (·.tokens) =
      (d.blocks.flatMap (·.tokens)).map (Token.map Chunk.text) := by
    rw [List.flatMap_map, List.map_flatMap]
    simp only [Block.tokens_map]
  rw [htokens, List.forall₂_map_left_iff, List.forall₂_map_right_iff]
  exact List.forall₂_same.2 fun t _ => lineSpells_lineOf t

theorem parse_of_written {text : String} {ms : List Message} (h : Written text.toList ms) :
    ∃ catalog, parse text = .ok catalog ∧ catalog.map Message.ofEntry = ms := by
  obtain ⟨bs, ht, rfl⟩ := written_iff.1 h
  exact ⟨_, parseLines_eq_ok_iff.2 ⟨bs, ht, rfl⟩, by simp [Message.ofEntry_entry]⟩

section Plain

def Space.none : Space := ⟨[], by simp [Blanks], by simp [Unbroken]⟩

/-- A text on one line, with nothing around it. -/
def Chunk.plain (text : String) : Chunk :=
  ⟨text, [], .none, [], .none, .none, .none, .feed⟩

theorem Field.text_plain (text : String) :
    (Field.map Chunk.text ⟨.plain text, []⟩).text = text := by
  simp [Field.map, Field.text, Chunk.plain]

/-- Messages with values can be written. -/
theorem exists_document {ms : List Message} (h : ∀ m ∈ ms, m.values ≠ []) :
    ∃ d : Document, d.messages = ms := by
  suffices hb : ∃ bs : List (Block Chunk), bs.map (fun b => (b.map Chunk.text).message) = ms by
    obtain ⟨bs, rfl⟩ := hb
    exact ⟨⟨false, bs, []⟩, rfl⟩
  induction ms with
  | nil => exact ⟨[], rfl⟩
  | cons m ms ih =>
    obtain ⟨bs, rfl⟩ := ih fun m hm => h m (List.mem_cons_of_mem _ hm)
    let field (text : String) : Field Chunk := ⟨.plain text, []⟩
    have hne : m.values.map field ≠ [] := by simpa using h m List.mem_cons_self
    refine ⟨⟨m.context.map field, field m.key, m.plural.map field, _, hne⟩ :: bs, ?_⟩
    simp [Block.message, Block.map, Function.comp_def, field, Field.text_plain]

end Plain

/-- **Reading undoes writing.** Messages that have values can be written, and however they are
written, the text is read as a catalog with these messages, in order. -/
theorem reading_undoes_writing (ms : List Message) (h : ∀ m ∈ ms, m.values ≠ []) :
    (∃ d : Document, d.messages = ms) ∧
      ∀ d : Document, d.messages = ms →
        ∃ catalog, parse d.text = .ok catalog ∧ catalog.map Message.ofEntry = ms :=
  ⟨exists_document h, fun d hd => hd ▸ parse_of_written d.written⟩

/-- A key in two chunks, and an empty line whose end is lost to the end of the line before it. -/
def chunked : Document :=
  { mark := true
    blocks := [
      { context := some ⟨{ Chunk.plain "c" with ending := .carriage }, []⟩
        key := ⟨{ Chunk.plain "\"\r" with remarks := [⟨[], by simp [Unbroken], rfl, .feed⟩] },
          [{ Chunk.plain "\n\\" with ending := .pair }]⟩
        plural := none
        values := [⟨.plain "", []⟩, ⟨.plain "x", []⟩]
        values_ne := by simp }]
    remarks := [] }

theorem reading_undoes_writing_chunked :
    chunked.text =
        "\ufeffmsgctxt\"c\"\r\nmsgid\"\\\"\\r\"\n\"\\n\\\\\"\r\nmsgstr\"\"\nmsgstr\"x\"\n" ∧
      (∀ m ∈ [(⟨some "c", "\"\r\n\\", none, ["", "x"]⟩ : Message)], m.values ≠ []) ∧
      chunked.messages = [⟨some "c", "\"\r\n\\", none, ["", "x"]⟩] ∧
      ∃ catalog, parse chunked.text = .ok catalog ∧
        catalog.map Message.ofEntry = [⟨some "c", "\"\r\n\\", none, ["", "x"]⟩] := by
  have hne : ∀ m ∈ [(⟨some "c", "\"\r\n\\", none, ["", "x"]⟩ : Message)], m.values ≠ [] := by decide
  have hmessages : chunked.messages = [⟨some "c", "\"\r\n\\", none, ["", "x"]⟩] := by decide +kernel
  exact ⟨by decide +kernel, hne, hmessages, (reading_undoes_writing _ hne).2 chunked hmessages⟩

end CatalogLint.Catalog
