import CatalogLint.Proofs.Catalog.Reading
import Mathlib.Data.List.Forall2

/-!
# The reader accepts the grammar

* `parse_accepts_grammar`: **a text is read as a catalog exactly if the grammar has it**, and the
  entries are then the messages that the grammar gives.
-/

namespace CatalogLint.Catalog

open CatalogLint.Text

theorem Token.map_piece (line : Nat) (t : Token Literal) :
    (t.map (Piece.mk line)).map (·.literal.value) = t.map (·.value) := by
  cases t <;> rfl

/-- The lines that are not ignored are spelled as the tokens found on them. -/
theorem forall₂_lineSpells_iff {line : Nat} {ls : List (List Char)} {ts : List (Token String)} :
    List.Forall₂ LineSpells (ls.filter (!ignored ·)) ts ↔
      ∃ ts', tokens? line ls = some ts' ∧ ts'.map (Token.map (·.literal.value)) = ts := by
  induction ls generalizing line ts with
  | nil => simp [tokens?, eq_comm]
  | cons cs ls ih =>
    by_cases hi : ignored cs = true
    · rw [List.filter_cons_of_neg (by simp [hi]), tokens?, if_pos hi]
      exact ih
    · rw [List.filter_cons_of_pos (by simp [hi]), tokens?, if_neg hi, List.forall₂_cons_left_iff]
      constructor
      · rintro ⟨t, ts, ht, hts, rfl⟩
        obtain ⟨t', hr, rfl⟩ := lineSpells_iff.1 ht
        obtain ⟨ts', hrs, rfl⟩ := (@ih (line + 1) _).1 hts
        exact ⟨t'.map (Piece.mk line) :: ts', by simp [hr, hrs], by simp [Token.map_piece]⟩
      · rintro ⟨ts', h, rfl⟩
        obtain ⟨t, ht, h⟩ := Option.bind_eq_some_iff.1 h
        obtain ⟨ts', hts, rfl⟩ := Option.map_eq_some_iff.1 h
        refine ⟨t.map (·.value), _, lineSpells_iff.2 ⟨t, ht, rfl⟩, ih.2 ⟨ts', hts, rfl⟩, ?_⟩
        rw [List.map_cons, Token.map_piece]

/-- The message of a block, read or spelled. -/
theorem Message.ofEntry_entry (b : Block Piece) :
    Message.ofEntry b.entry = (b.map (·.literal.value)).message := by
  simp [Message.ofEntry, Block.entry, Block.message, Block.map, Field.value, Function.comp_def]

theorem written_iff {cs : List Char} {ms : List Message} :
    Written cs ms ↔ ∃ bs : List (Block Piece),
      tokens? 1 (lines (dropMark cs)) = some (bs.flatMap (·.tokens)) ∧
      ms = bs.map fun b => (b.map (·.literal.value)).message := by
  constructor
  · rintro ⟨ls, ts, bs, hl, hs, hts, rfl⟩
    obtain rfl := lines_eq_iff.2 hl
    obtain ⟨ts', ht, rfl⟩ := forall₂_lineSpells_iff.1 hs
    have hb := blocks?_eq_some_iff.2 hts
    rw [blocks?_map] at hb
    obtain ⟨bs', hb', rfl⟩ := Option.map_eq_some_iff.1 hb
    refine ⟨bs', ?_, by simp⟩
    rw [dropMark_eq_unmarked, ht, blocks?_eq_some_iff.1 hb']
  · rintro ⟨bs, ht, rfl⟩
    have hb := blocks?_map (fun x : Piece => x.literal.value) (bs.flatMap (·.tokens))
    rw [blocks?_eq_some_iff.2 rfl, Option.map_some, blocks?_eq_some_iff] at hb
    refine ⟨lines (dropMark cs), _, bs.map (Block.map (·.literal.value)), ?_, ?_, hb, by simp⟩
    · rw [← dropMark_eq_unmarked]
      exact lines_eq_iff.1 rfl
    · exact forall₂_lineSpells_iff.2 ⟨_, ht, rfl⟩

/-- **The reader accepts the grammar.** A text is read as a catalog exactly if the grammar has it,
with the messages that the grammar gives, and it has a syntax error in all other cases. -/
theorem parse_accepts_grammar (text : String) :
    (∀ ms, (∃ catalog, parse text = .ok catalog ∧ catalog.map Message.ofEntry = ms) ↔
      Written text.toList ms) ∧
    ((∃ e, parse text = .error e) ↔ ∀ ms, ¬ Written text.toList ms) := by
  have haccept : ∀ ms, (∃ catalog, parse text = .ok catalog ∧ catalog.map Message.ofEntry = ms) ↔
      Written text.toList ms := by
    intro ms
    rw [written_iff]
    constructor
    · rintro ⟨catalog, hp, rfl⟩
      obtain ⟨bs, ht, rfl⟩ := parseLines_eq_ok_iff.1 hp
      exact ⟨bs, ht, by simp [Message.ofEntry_entry]⟩
    · rintro ⟨bs, ht, rfl⟩
      exact ⟨_, parseLines_eq_ok_iff.2 ⟨bs, ht, rfl⟩, by simp [Message.ofEntry_entry]⟩
  refine ⟨haccept, ?_⟩
  constructor
  · rintro ⟨e, he⟩ ms hw
    obtain ⟨catalog, hp, -⟩ := (haccept ms).2 hw
    rw [he] at hp
    cases hp
  · intro h
    cases hp : parse text with
    | error e => exact ⟨e, rfl⟩
    | ok catalog => exact absurd ((haccept _).1 ⟨catalog, hp, rfl⟩) (h _)

/-- Comments stand anywhere, digits of an escape are taken as far as they go, and an index is
not read. -/
example : (parse "msgid \"a\"\n# note\n \"\\1017\"\nmsgstr[9]\"\\x41g\"").toOption.map
    (·.map Message.ofEntry) = some [⟨none, "aA7", none, ["Ag"]⟩] := by decide +kernel

end CatalogLint.Catalog
