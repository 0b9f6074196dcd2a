import CatalogLint.Catalog.Entry
import CatalogLint.Catalog.Error
import CatalogLint.Text.Blank
import CatalogLint.Text.Digit
import Mathlib.Data.Nat.Digits.Defs

/-!
# The grammar of catalogs

What a catalog is, said without a reader. From the inside out: what a literal spells, what a line
spells, which lines make an entry, and how a text falls into lines.

* `Spells`: the characters between two quotes, and the text they stand for.
* `LineSpells`: a line, and the keyword and text on it.
* `Block`: the lines of one entry. Blocks are over any kind of literal, so that a block can be of
  texts, or of literals with their places.
* `Written`: a text, and the messages that it holds.
-/

namespace CatalogLint.Catalog

open CatalogLint.Text

/-- The simple escapes, with what they stand for. -/
def simpleEscapes : List (Char × Char) :=
  [('\\', '\\'), ('"', '"'), ('\x27', '\x27'), ('?', '?'), ('a', '\x07'), ('b', '\x08'),
    ('f', '\x0c'), ('n', '\n'), ('r', '\r'), ('t', '\t'), ('v', '\x0b')]

/-- `run` are digits with the values `ns`, one at least and `limit` at most, and as many as
`run ++ rest` begins with. -/
structure DigitRun (value? : Char → Option Nat) (limit : Nat) (run : List Char) (ns : List Nat)
    (rest : List Char) : Prop where
  digits : run.map value? = ns.map some
  nonempty : run ≠ []
  short : run.length ≤ limit
  longest : run.length = limit ∨ ∀ c ∈ rest.head?, value? c = none

/-- `esc`, after a backslash and before `rest`, stands for `d`. -/
inductive Escape : List Char → Char → List Char → Prop where
  | simple {c d : Char} {rest : List Char} : (c, d) ∈ simpleEscapes → Escape [c] d rest
  | octal {run rest : List Char} {ns : List Nat} : DigitRun (digitValue? 8) 3 run ns rest →
      Escape run (Char.ofNat (Nat.ofDigits 8 ns.reverse)) rest
  | hex {run rest : List Char} {ns : List Nat} : DigitRun hexValue? 2 run ns rest →
      Escape ('x' :: run) (Char.ofNat (Nat.ofDigits 16 ns.reverse)) rest

/-- What the characters between two quotes stand for. -/
inductive Spells : List Char → List Char → Prop where
  | nil : Spells [] []
  | plain {c : Char} {cs ds : List Char} :
      c ≠ '"' → c ≠ '\\' → Spells cs ds → Spells (c :: cs) (c :: ds)
  | escape {esc cs ds : List Char} {d : Char} :
      Escape esc d cs → Spells cs ds → Spells ('\\' :: (esc ++ cs)) (d :: ds)

/-- A literal with its quotes, and the text that it stands for. -/
inductive Quoted : List Char → String → Prop where
  | mk {body ds : List Char} : Spells body ds → Quoted ('"' :: (body ++ ['"'])) (String.ofList ds)

/-- Blanks, or nothing. -/
def Blanks (cs : List Char) : Prop := ∀ c ∈ cs, isBlank c = true

/-- A plural index, or nothing. -/
inductive Index : List Char → Prop where
  | none : Index []
  | digits {ds : List Char} : ds ≠ [] → (∀ d ∈ ds, isDecimalDigit d = true) →
      Index ('[' :: (ds ++ [']']))

/-- What a line says that is not ignored: a literal alone, or a keyword and a literal. -/
inductive Token (α : Type) where
  | continuation (literal : α)
  | field (keyword : Keyword) (literal : α)
  deriving DecidableEq, Repr

/-- How a line is written. -/
inductive LineSpells : List Char → Token String → Prop where
  | continuation {indent literal trail : List Char} {text : String} :
      Blanks indent → Quoted literal text → Blanks trail →
      LineSpells (indent ++ literal ++ trail) (.continuation text)
  | field {indent index gap literal trail : List Char} {text : String} (k : Keyword) :
      Blanks indent → Index index → Blanks gap → Quoted literal text → Blanks trail →
      LineSpells (indent ++ k.text.toList ++ index ++ gap ++ literal ++ trail) (.field k text)

/-- A line is ignored if it is blank or its first character that is not blank is a hash. -/
def ignored (cs : List Char) : Bool := (cs.find? (!isBlank ·)).all (· == '#')

/-- A field of an entry: the literal beside its keyword, and those on the lines after. -/
structure Field (α : Type) where
  first : α
  more : List α
  deriving DecidableEq, Repr

/-- The lines of an entry: perhaps a context, a key, perhaps a plural key, and values. -/
structure Block (α : Type) where
  context : Option (Field α)
  key : Field α
  plural : Option (Field α)
  values : List (Field α)
  values_ne : values ≠ []

section Lines

variable {α β : Type}

def Field.tokens (k : Keyword) (f : Field α) : List (Token α) :=
  .field k f.first :: f.more.map .continuation

/-- The tokens of a field that may be absent. -/
def optionalTokens (k : Keyword) (f : Option (Field α)) : List (Token α) :=
  f.elim [] (·.tokens k)

def Block.tokens (b : Block α) : List (Token α) :=
  optionalTokens .msgctxt b.context ++ b.key.tokens .msgid ++
    optionalTokens .msgidPlural b.plural ++ b.values.flatMap (·.tokens .msgstr)

end Lines

/-- A message: an entry without its places. -/
structure Message where
  context : Option String
  key : String
  plural : Option String
  values : List String
  deriving DecidableEq, Repr

/-- The message of an entry. -/
def Message.ofEntry (e : Entry) : Message := ⟨e.context, e.key, e.plural, e.values⟩

/-- The literals of a field, one after the other. -/
def Field.text (f : Field String) : String := String.join (f.first :: f.more)

/-- The message that a block of texts stands for. -/
def Block.message (b : Block String) : Message :=
  ⟨b.context.map (·.text), b.key.text, b.plural.map (·.text), b.values.map (·.text)⟩

/-- A text and its lines. A carriage return and a line feed are one line end. -/
inductive FallsInto : List Char → List (List Char) → Prop where
  | last {l : List Char} : '\r' ∉ l → '\n' ∉ l → FallsInto l [l]
  | feed {l rest : List Char} {ls : List (List Char)} : '\r' ∉ l → '\n' ∉ l → FallsInto rest ls →
      FallsInto (l ++ '\n' :: rest) (l :: ls)
  | pair {l rest : List Char} {ls : List (List Char)} : '\r' ∉ l → '\n' ∉ l → FallsInto rest ls →
      FallsInto (l ++ '\r' :: '\n' :: rest) (l :: ls)
  | carriage {l rest : List Char} {ls : List (List Char)} : '\r' ∉ l → '\n' ∉ l →
      rest.head? ≠ some '\n' → FallsInto rest ls → FallsInto (l ++ '\r' :: rest) (l :: ls)

/-- The text without one byte order mark that opens it. -/
def unmarked (cs : List Char) : List Char := if cs.head? = some '\ufeff' then cs.tail else cs

/-- **The grammar.** The text `cs` is a catalog with the messages `ms`: the lines that are not
ignored are the lines of blocks, and the messages are those of the blocks. -/
def Written (cs : List Char) (ms : List Message) : Prop :=
  ∃ ls tokens, ∃ blocks : List (Block String),
    FallsInto (unmarked cs) ls ∧
    List.Forall₂ LineSpells (ls.filter (!ignored ·)) tokens ∧
    tokens = blocks.flatMap (·.tokens) ∧ ms = blocks.map (·.message)

end CatalogLint.Catalog
