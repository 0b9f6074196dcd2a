import CatalogLint.Catalog.Entry
import CatalogLint.Catalog.Line
import CatalogLint.Text.Lines

/-!
# Reading a catalog

Entries are built up line by line. An entry is an optional context, a key, an optional plural
key and one or more values, each a field of one or more literals.

* `Draft`: an entry under construction. Its constructors are the stages that an entry goes
  through, so each says which field a further literal extends.
* `Progress.step`: what a line does to the entries read so far.
* `parse`: the catalog that a text is.
-/

namespace CatalogLint.Catalog

open CatalogLint.Text

/-- An entry up to its key or its plural key. -/
structure Head where
  /-- The line that opened the entry. -/
  line : Nat
  context : Option String
  key : String
  keySpan : Span
  plural : Option String
  deriving DecidableEq, Repr

/-- An entry under construction. -/
inductive Draft where
  /-- A context, opened on `line`, with no key yet. -/
  | context (line : Nat) (text : String)
  /-- A key, and perhaps a plural key, with no value yet. -/
  | head (head : Head)
  /-- Values: the one that a literal would extend, and those before it, newest first.
  The span is that of the first of all. -/
  | body (head : Head) (span : Span) (earlier : List String) (last : String)
  deriving DecidableEq, Repr

/-- The span of a literal on line `line`. -/
def Literal.span (line : Nat) (l : Literal) : Span := ⟨⟨line, l.start⟩, ⟨line, l.stop⟩⟩

/-- The draft with one more literal, from line `line`. -/
def Draft.extend (line : Nat) (l : Literal) : Draft → Draft
  | context opened text => .context opened (text ++ l.value)
  | head h =>
    match h.plural with
    | some text => .head { h with plural := some (text ++ l.value) }
    | none =>
      let keySpan := { h.keySpan with stop := ⟨line, l.stop⟩ }
      .head { h with key := h.key ++ l.value, keySpan }
  | body h span [] last => .body h { span with stop := ⟨line, l.stop⟩ } [] (last ++ l.value)
  | body h span (v :: vs) last => .body h span (v :: vs) (last ++ l.value)

/-- The entry that a head and its values make. -/
def Head.entry (h : Head) (span : Span) (values : List String) : Entry :=
  { key := h.key, keySpan := h.keySpan, values := values, valueSpan := some span
    context := h.context, plural := h.plural }

/-- What has been read: the finished entries, newest first, and the entry at hand. -/
structure Progress where
  entries : List Entry
  draft : Option Draft
  deriving DecidableEq, Repr

/-- Nothing read yet. -/
def Progress.start : Progress := ⟨[], none⟩

/-- What a field does, once its literal has been read. -/
def Progress.field (p : Progress) (line column : Nat) (l : Literal) :
    Keyword → Except ParseError Progress
  | .msgctxt =>
    match p.draft with
    | none => .ok { p with draft := some (.context line l.value) }
    | some (.body h span earlier last) =>
      .ok ⟨h.entry span (last :: earlier).reverse :: p.entries, some (.context line l.value)⟩
    | some _ => .error ⟨line, column, .openedTooEarly .msgctxt⟩
  | .msgid =>
    match p.draft with
    | none => .ok { p with draft := some (.head ⟨line, none, l.value, l.span line, none⟩) }
    | some (.context opened text) =>
      .ok { p with draft := some (.head ⟨opened, some text, l.value, l.span line, none⟩) }
    | some (.body h span earlier last) =>
      .ok ⟨h.entry span (last :: earlier).reverse :: p.entries,
        some (.head ⟨line, none, l.value, l.span line, none⟩)⟩
    | some (.head _) => .error ⟨line, column, .openedTooEarly .msgid⟩
  | .msgidPlural =>
    match p.draft with
    | some (.head h) =>
      match h.plural with
      | none => .ok { p with draft := some (.head { h with plural := some l.value }) }
      | some _ => .error ⟨line, column, .misplacedPlural⟩
    | some (.body ..) => .error ⟨line, column, .misplacedPlural⟩
    | _ => .error ⟨line, column, .missingKey .msgidPlural⟩
  | .msgstr =>
    match p.draft with
    | some (.head h) => .ok { p with draft := some (.body h (l.span line) [] l.value) }
    | some (.body h span earlier last) =>
      .ok { p with draft := some (.body h span (last :: earlier) l.value) }
    | _ => .error ⟨line, column, .missingKey .msgstr⟩

/-- What line `line` does. A literal that continues nothing is at fault before it is read; a
field is read before it can be out of place. -/
def Progress.step (p : Progress) (line : Nat) : Line → Except ParseError Progress
  | .skipped => .ok p
  | .continuation column literal =>
    match p.draft, literal with
    | none, _ => .error ⟨line, column, .strayLiteral⟩
    | some _, .error f => .error (f.onLine line)
    | some d, .ok l => .ok { p with draft := some (d.extend line l) }
  | .field keyword column literal =>
    match literal with
    | .error f => .error (f.onLine line)
    | .ok l => p.field line column l keyword
  | .unexpected column word => .error ⟨line, column, .unexpectedWord word⟩

/-- The catalog, once all lines have been read. -/
def Progress.finish (p : Progress) : Except ParseError Catalog :=
  match p.draft with
  | none => .ok p.entries.reverse
  | some (.context line _) => .error ⟨line, 1, .valueless⟩
  | some (.head h) => .error ⟨h.line, 1, .valueless⟩
  | some (.body h span earlier last) =>
    .ok (h.entry span (last :: earlier).reverse :: p.entries).reverse

/-- Reads lines, of which the first has the number `line`. -/
def Progress.run (p : Progress) (line : Nat) : List (List Char) → Except ParseError Progress
  | [] => .ok p
  | cs :: rest => do (← p.step line (Line.read cs)).run (line + 1) rest

/-- The catalog that lines make. -/
def parseLines (ls : List (List Char)) : Except ParseError Catalog := do
  (← Progress.start.run 1 ls).finish

/-- The catalog that a text is, apart from the byte order mark that may open it. -/
def parse (text : String) : Except ParseError Catalog := parseLines (lines (dropMark text.toList))

end CatalogLint.Catalog
