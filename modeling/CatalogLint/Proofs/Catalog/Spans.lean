import CatalogLint.Proofs.Catalog.Reading

/-!
# Where entries stand

* `Line.token?_read_columns`: the columns of a literal, within its line.
* `tokens?_lines`: tokens stand on lines of their own, one after the other.
* `parse_placed`: **the keys of a catalog have valid places, and no two of them start on the same
  line**.
-/

namespace CatalogLint.Catalog

open CatalogLint.Text

def Token.literal {α : Type} : Token α → α
  | .continuation x => x
  | .field _ x => x

@[simp]
theorem Token.literal_map {α β : Type} (g : α → β) (t : Token α) :
    (t.map g).literal = g t.literal := by
  cases t <;> rfl

/-- The quotes of a literal stand in order on its line. -/
theorem Line.token?_read_columns {cs : List Char} {t : Token Literal}
    (h : (Line.read cs).token? = some t) :
    1 ≤ t.literal.start ∧ t.literal.start < t.literal.stop ∧ t.literal.stop ≤ cs.length + 1 := by
  cases t with
  | continuation l =>
    obtain ⟨column, hr⟩ := Line.token?_eq_continuation.1 h
    obtain ⟨indent, rest, -, rfl, rfl, hl⟩ := Line.read_eq_continuation_iff.1 hr
    obtain ⟨body, ds, trail, rfl, -, -, rfl⟩ := Literal.read_eq_ok_iff.1 hl.symm
    simp only [Token.literal, List.length_append, List.length_cons]
    omega
  | field k l =>
    obtain ⟨column, hr⟩ := Line.token?_eq_field.1 h
    obtain ⟨indent, index, gap, rest, -, -, -, rfl, rfl, hl⟩ := Line.read_eq_field_iff.1 hr
    obtain ⟨body, ds, trail, rfl, -, -, rfl⟩ := Literal.read_eq_ok_iff.1 hl.symm
    simp only [Token.literal, List.length_append, List.length_cons]
    omega

/-- Tokens stand on lines of their own, one after the other. -/
theorem tokens?_lines {line : Nat} {ls : List (List Char)} {ts : List (Token Piece)}
    (h : tokens? line ls = some ts) :
    (∀ t ∈ ts, line ≤ t.literal.line) ∧ ts.Pairwise (·.literal.line < ·.literal.line) := by
  induction ls generalizing line ts with
  | nil =>
    obtain rfl := by simpa [tokens?] using h
    simp
  | cons cs ls ih =>
    unfold tokens? at h
    split at h
    · obtain ⟨hl, hp⟩ := ih h
      exact ⟨fun t ht => Nat.le_of_succ_le (hl t ht), hp⟩
    · obtain ⟨t, -, h⟩ := Option.bind_eq_some_iff.1 h
      obtain ⟨ts, hts, rfl⟩ := Option.map_eq_some_iff.1 h
      obtain ⟨hl, hp⟩ := ih hts
      refine ⟨?_, List.pairwise_cons.2 ⟨fun s hs => ?_, hp⟩⟩
      · intro s hs
        rcases List.mem_cons.1 hs with rfl | hs
        · simp
        · exact Nat.le_of_succ_le (hl s hs)
      · rw [Token.literal_map]
        exact hl s hs

theorem tokens?_columns {line : Nat} {ls : List (List Char)} {ts : List (Token Piece)}
    (h : tokens? line ls = some ts) {t : Token Piece} (ht : t ∈ ts) :
    1 ≤ t.literal.literal.start ∧ t.literal.literal.start < t.literal.literal.stop := by
  induction ls generalizing line ts with
  | nil =>
    obtain rfl := by simpa [tokens?] using h
    cases ht
  | cons cs ls ih =>
    unfold tokens? at h
    split at h
    · exact ih h ht
    · obtain ⟨t', hr, h⟩ := Option.bind_eq_some_iff.1 h
      obtain ⟨ts, hts, rfl⟩ := Option.map_eq_some_iff.1 h
      rcases List.mem_cons.1 ht with rfl | ht
      · obtain ⟨h₁, h₂, -⟩ := Line.token?_read_columns hr
        exact ⟨by simpa using h₁, by simpa using h₂⟩
      · exact ih hts ht

section Blocks

variable {α : Type}

theorem Field.last_mem (f : Field α) : f.last = f.first ∨ f.last ∈ f.more := by
  unfold Field.last
  cases h : f.more.getLast? with
  | none => exact .inl rfl
  | some x => exact .inr (List.mem_of_getLast? h)

theorem Block.key_first_mem (b : Block α) : .field .msgid b.key.first ∈ b.tokens := by
  simp [Block.tokens, Field.tokens]

theorem Block.key_last_mem (b : Block α) : ∃ t ∈ b.tokens, t.literal = b.key.last := by
  rcases b.key.last_mem with h | h
  · exact ⟨_, b.key_first_mem, h.symm⟩
  · exact ⟨.continuation b.key.last, by simp [Block.tokens, Field.tokens, h], rfl⟩

end Blocks

/-- The key of an entry has a place that an editor can show, and the entry has a value. -/
structure Placed (e : Entry) : Prop where
  start_line : 1 ≤ e.keySpan.start.line
  start_column : 1 ≤ e.keySpan.start.column
  stop_line : 1 ≤ e.keySpan.stop.line
  stop_column : 1 ≤ e.keySpan.stop.column
  values_ne : e.values ≠ []

/-- **The keys of a catalog have valid places, and no two of them start on the same line.** -/
theorem parse_placed {text : String} {catalog : Catalog} (h : parse text = .ok catalog) :
    (∀ e ∈ catalog, Placed e) ∧
      catalog.Pairwise (·.keySpan.start.line < ·.keySpan.start.line) := by
  obtain ⟨bs, ht, rfl⟩ := parseLines_eq_ok_iff.1 h
  obtain ⟨hlines, hpair⟩ := tokens?_lines ht
  constructor
  · intro e he
    obtain ⟨b, hb, rfl⟩ := List.mem_map.1 he
    have hmem : ∀ t ∈ b.tokens, t ∈ bs.flatMap (·.tokens) :=
      fun t ht => List.mem_flatMap.2 ⟨b, hb, ht⟩
    obtain ⟨t, htb, hlast⟩ := b.key_last_mem
    have hfl := hlines _ (hmem _ b.key_first_mem)
    have hfc := tokens?_columns ht (hmem _ b.key_first_mem)
    have hll := hlines _ (hmem _ htb)
    have hlc := tokens?_columns ht (hmem _ htb)
    rw [hlast] at hll hlc
    simp only [Token.literal] at hfl hfc
    constructor <;> simp only [Block.entry, Field.span]
    · omega
    · omega
    · omega
    · omega
    · simpa using b.values_ne
  · rw [List.pairwise_map]
    refine (List.pairwise_flatMap.1 hpair).2.imp fun {b b'} hbb => ?_
    have hlt := hbb _ b.key_first_mem _ b'.key_first_mem
    simp only [Block.entry, Field.span, Token.literal] at hlt ⊢
    omega

end CatalogLint.Catalog
