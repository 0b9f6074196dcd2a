import CatalogLint.Proofs.Catalog.Acceptance
import CatalogLint.Proofs.Catalog.Spans
import Mathlib.Data.List.ModifyLast

/-!
# The places of fields are faithful

An entry tells where its key and its first value stand. Reading what stands there, by the grammar
and without the reader, gives the key and the value again.

* `Located`: a line, what it says, and the columns of its literal.
* `region`: the part of the lines that a span covers.
* `Delimits`: **a span runs from the opening quote beside a keyword to the closing quote of the last
  literal of the same field, and what it covers spells a text.**
* `locations_faithful`: the spans of a catalog delimit the keys and the first values.
-/

namespace CatalogLint.Catalog

open CatalogLint.Text

/-- The line `cs` says `t`, and its literal stands from column `start` up to column `stop`. -/
inductive Located : List Char → Token String → Nat → Nat → Prop where
  | continuation {indent literal trail : List Char} {text : String} :
      Blanks indent → Quoted literal text → Blanks trail →
      Located (indent ++ literal ++ trail) (.continuation text) (indent.length + 1)
        (indent.length + literal.length + 1)
  | field {indent index gap literal trail : List Char} {text : String} (k : Keyword) :
      Blanks indent → Index index → Blanks gap → Quoted literal text → Blanks trail →
      Located (indent ++ k.text.toList ++ index ++ gap ++ literal ++ trail) (.field k text)
        ((indent ++ k.text.toList ++ index ++ gap).length + 1)
        ((indent ++ k.text.toList ++ index ++ gap).length + literal.length + 1)

/-- The line of a position. -/
def lineAt? (ls : List (List Char)) (p : Position) : Option (List Char) :=
  if p.line < 1 then none else ls[p.line.toNat - 1]?

/-- The character at a position. -/
def charAt? (ls : List (List Char)) (p : Position) : Option Char :=
  if p.column < 1 then none else (lineAt? ls p).bind (·[p.column.toNat - 1]?)

/-- What a span covers: its lines, the last one up to where the span ends and the first one from
where it starts. -/
def region (ls : List (List Char)) (s : Span) : List (List Char) :=
  (((ls.take s.stop.line.toNat).drop (s.start.line.toNat - 1)).modifyLast
    (·.take (s.stop.column.toNat - 1))).modifyHead (·.drop (s.start.column.toNat - 1))

/-- The span `s` delimits a field with the keyword `k` and the text `text`. It starts at the
opening quote of the literal beside the keyword and ends after the closing quote of a literal.
The lines that it covers and that are not ignored are literals alone, the first of them once what
stands before the span is cut off, and spell `text` together. No further literal of the field
follows. -/
structure Delimits (ls : List (List Char)) (k : Keyword) (s : Span) (text : String) : Prop where
  opening : charAt? ls s.start = some '"'
  closing : charAt? ls { s.stop with column := s.stop.column - 1 } = some '"'
  opens : ∃ cs t stop, lineAt? ls s.start = some cs ∧
    Located cs (.field k t) s.start.column.toNat stop
  closes : ∃ cs t start, lineAt? ls s.stop = some cs ∧ Located cs t start s.stop.column.toNat
  spells : ∃ texts, List.Forall₂ LineSpells ((region ls s).filter (!ignored ·))
    (texts.map Token.continuation) ∧ text = String.join texts
  whole : ∀ cs ∈ (ls.drop s.stop.line.toNat).find? (!ignored ·), ∀ t,
    ¬ LineSpells cs (.continuation t)

section Lines

variable {cs : List Char} {t : Token String} {start stop : Nat}

theorem Line.located_of_token? {t : Token Literal} (h : (Line.read cs).token? = some t) :
    Located cs (t.map (·.value)) t.literal.start t.literal.stop := by
  cases t with
  | continuation l =>
    obtain ⟨column, hr⟩ := Line.token?_eq_continuation.1 h
    obtain ⟨indent, rest, hi, rfl, rfl, hl⟩ := Line.read_eq_continuation_iff.1 hr
    obtain ⟨body, ds, trail, rfl, hs, hb, rfl⟩ := Literal.read_eq_ok_iff.1 hl.symm
    have hloc := Located.continuation hi (Quoted.mk hs) hb
    simp only [Token.map, Token.literal]
    convert hloc using 1
    · simp
    · simp only [List.length_cons, List.length_append, List.length_nil]
      omega
  | field k l =>
    obtain ⟨column, hr⟩ := Line.token?_eq_field.1 h
    obtain ⟨indent, index, gap, rest, hi, hx, hg, rfl, -, hl⟩ := Line.read_eq_field_iff.1 hr
    obtain ⟨body, ds, trail, rfl, hs, hb, rfl⟩ := Literal.read_eq_ok_iff.1 hl.symm
    have hloc := Located.field k hi hx hg (Quoted.mk hs) hb
    simp only [Token.map, Token.literal]
    convert hloc using 1
    · simp
    · simp only [List.length_cons, List.length_append]
      omega
    · simp only [List.length_cons, List.length_append, List.length_nil]
      omega

/-- A line is cut in three by its literal, and only blanks follow the literal. -/
theorem Located.parts (h : Located cs t start stop) :
    ∃ before body ds trail, cs = before ++ ('"' :: (body ++ ['"'])) ++ trail ∧ Spells body ds ∧
      t.literal = String.ofList ds ∧ Blanks trail ∧ start = before.length + 1 ∧
      stop = before.length + body.length + 3 := by
  cases h with
  | continuation hi hq hb =>
    obtain ⟨hs⟩ := hq
    refine ⟨_, _, _, _, rfl, hs, rfl, hb, rfl, ?_⟩
    simp only [List.length_cons, List.length_append, List.length_nil]
    omega
  | field k hi hx hg hq hb =>
    obtain ⟨hs⟩ := hq
    refine ⟨_, _, _, _, rfl, hs, rfl, hb, rfl, ?_⟩
    simp only [List.length_cons, List.length_append, List.length_nil]
    omega

theorem Located.opening (h : Located cs t start stop) : 1 ≤ start ∧ cs[start - 1]? = some '"' := by
  obtain ⟨before, body, ds, trail, rfl, -, -, -, rfl, -⟩ := h.parts
  simp

theorem Located.closing (h : Located cs t start stop) : 2 ≤ stop ∧ cs[stop - 2]? = some '"' := by
  obtain ⟨before, body, ds, trail, rfl, -, -, -, -, rfl⟩ := h.parts
  have hsplit : before ++ '"' :: (body ++ ['"']) ++ trail =
      (before ++ '"' :: body) ++ '"' :: trail := by simp
  have hlen : before.length + body.length + 3 - 2 = (before ++ '"' :: body).length := by
    simp only [List.length_append, List.length_cons]
    omega
  rw [hsplit, hlen]
  simp

theorem blanks_nil : Blanks [] := by simp [Blanks]

/-- Without what stands before its literal, a line is a literal alone. -/
theorem Located.spells_drop (h : Located cs t start stop) :
    LineSpells (cs.drop (start - 1)) (.continuation t.literal) := by
  obtain ⟨before, body, ds, trail, rfl, hs, ht, hb, rfl, -⟩ := h.parts
  have hline := LineSpells.continuation blanks_nil (Quoted.mk hs) hb
  rw [ht]
  simpa using hline

/-- So is its literal. -/
theorem Located.spells_cut (h : Located cs t start stop) :
    LineSpells ((cs.take (stop - 1)).drop (start - 1)) (.continuation t.literal) := by
  obtain ⟨before, body, ds, trail, rfl, hs, ht, hb, rfl, rfl⟩ := h.parts
  have hline := LineSpells.continuation blanks_nil (Quoted.mk hs) blanks_nil
  have htake : (before ++ '"' :: (body ++ ['"']) ++ trail).take
      (before.length + body.length + 3 - 1) = before ++ '"' :: (body ++ ['"']) := by
    apply List.take_left'
    simp only [List.length_append, List.length_cons, List.length_nil]
    omega
  rw [ht, htake]
  simpa using hline

/-- A literal alone is still one without the blanks after it. -/
theorem Located.spells_take {text : String} (h : Located cs (.continuation text) start stop) :
    LineSpells (cs.take (stop - 1)) (.continuation text) := by
  cases h with
  | @continuation indent literal trail _ hi hq hb =>
    have hline := LineSpells.continuation hi hq blanks_nil
    have htake : (indent ++ literal ++ trail).take (indent.length + literal.length + 1 - 1) =
        indent ++ literal := by
      apply List.take_left'
      simp
    rw [htake]
    simpa using hline

end Lines

section Splitting

variable {n : Nat} {ls : List (List Char)} {A B : List (Token Piece)}

/-- Where a token stands: the lines before hold the tokens before, and the lines after hold the
tokens after. -/
theorem tokens?_split {t : Token Piece} (h : tokens? n ls = some (A ++ t :: B)) :
    ∃ pre cs post t', ls = pre ++ cs :: post ∧ tokens? n pre = some A ∧
      (Line.read cs).token? = some t' ∧ t = t'.map (Piece.mk (n + pre.length)) ∧
      tokens? (n + pre.length + 1) post = some B := by
  induction ls generalizing n A with
  | nil => simp [tokens?] at h
  | cons cs ls ih =>
    unfold tokens? at h
    split at h
    · rename_i hi
      obtain ⟨pre, cs', post, t', rfl, hpre, ht, rfl, hpost⟩ := ih h
      refine ⟨cs :: pre, cs', post, t', rfl, ?_, ht, ?_, ?_⟩
      · rw [tokens?, if_pos hi, hpre]
      · rw [List.length_cons, Nat.add_right_comm, Nat.add_assoc n]
      · rw [← hpost, List.length_cons]
        congr 1
        omega
    · rename_i hi
      obtain ⟨t', ht, h⟩ := Option.bind_eq_some_iff.1 h
      obtain ⟨ts, hts, hcons⟩ := Option.map_eq_some_iff.1 h
      cases A with
      | nil =>
        obtain ⟨rfl, rfl⟩ := List.cons.inj hcons
        exact ⟨[], cs, ls, t', rfl, rfl, ht, rfl, hts⟩
      | cons a A =>
        obtain ⟨rfl, rfl⟩ := List.cons.inj hcons
        obtain ⟨pre, cs', post, t'', rfl, hpre, ht', rfl, hpost⟩ := ih hts
        refine ⟨cs :: pre, cs', post, t'', rfl, ?_, ht', ?_, ?_⟩
        · rw [tokens?, if_neg hi, ht, Option.bind_some, hpre, Option.map_some]
        · rw [List.length_cons, Nat.add_right_comm, Nat.add_assoc n]
        · rw [← hpost, List.length_cons]
          congr 1
          omega

/-- The lines `reg`, of which the first has the number `n`, are those from the first literal of a
field to its last. -/
inductive Covers (k : Keyword) (n : Nat) : Field Piece → List (List Char) → Prop where
  | single {cs : List Char} {l : Literal} (h : (Line.read cs).token? = some (.field k l)) :
      Covers k n ⟨⟨n, l⟩, []⟩ [cs]
  | several {cs cs' : List Char} {mid : List (List Char)} {l l' : Literal} {xs : List Piece}
      (h : (Line.read cs).token? = some (.field k l))
      (hmid : tokens? (n + 1) mid = some (xs.map .continuation))
      (h' : (Line.read cs').token? = some (.continuation l')) :
      Covers k n ⟨⟨n, l⟩, xs ++ [⟨n + 1 + mid.length, l'⟩]⟩ (cs :: (mid ++ [cs']))

theorem tokens?_field {k : Keyword} {f : Field Piece}
    (h : tokens? n ls = some (A ++ (f.tokens k ++ B))) :
    ∃ pre reg post, ls = pre ++ (reg ++ post) ∧ tokens? n pre = some A ∧
      Covers k (n + pre.length) f reg ∧ tokens? (n + pre.length + reg.length) post = some B := by
  obtain ⟨first, more⟩ := f
  obtain ⟨pre, cs, post, t, rfl, hpre, ht, hfirst, hpost⟩ := tokens?_split h
  obtain ⟨l, rfl, rfl⟩ : ∃ l, t = .field k l ∧ first = ⟨n + pre.length, l⟩ := by
    cases t with
    | continuation l => cases hfirst
    | field k' l => cases hfirst; exact ⟨l, rfl, rfl⟩
  -- the last literal of the field stands beside the keyword, or on a line of its own
  rcases List.eq_nil_or_concat' more with rfl | ⟨xs, x, rfl⟩
  · exact ⟨pre, [cs], post, rfl, hpre, .single ht, hpost⟩
  · have hpost' : tokens? (n + pre.length + 1) post =
        some (xs.map .continuation ++ .continuation x :: B) := by
      simpa using hpost
    obtain ⟨mid, cs', post', t', rfl, hmid, ht', hlast, hB⟩ := tokens?_split hpost'
    obtain ⟨l', rfl, rfl⟩ : ∃ l', t' = .continuation l' ∧
        x = ⟨n + pre.length + 1 + mid.length, l'⟩ := by
      cases t' with
      | continuation l' => cases hlast; exact ⟨l', rfl, rfl⟩
      | field k' l' => cases hlast
    refine ⟨pre, cs :: (mid ++ [cs']), post', by simp, hpre, .several ht hmid ht', ?_⟩
    rw [← hB]
    congr 1
    simp only [List.length_cons, List.length_append, List.length_nil]
    omega

end Splitting

section Places

variable {ls pre post : List (List Char)} {cs cs' : List Char} {p : Position}

theorem lineAt?_append (hp : p.line = (1 + pre.length : Nat)) :
    lineAt? (pre ++ cs :: post) p = some cs := by
  unfold lineAt?
  rw [if_neg (by omega), hp, Int.toNat_natCast, Nat.add_sub_cancel_left]
  simp

theorem charAt?_of_lineAt? (hl : lineAt? ls p = some cs) {column : Nat} (hc : 1 ≤ column)
    (hp : p.column = column) : charAt? ls p = cs[column - 1]? := by
  unfold charAt?
  rw [if_neg (by omega), hl, hp, Int.toNat_natCast, Option.bind_some]

/-- What a span from the first line of `reg` to its last covers. -/
theorem region_append {reg : List (List Char)} {s : Span}
    (hs : s.start.line = (1 + pre.length : Nat))
    (hs' : s.stop.line = (pre.length + reg.length : Nat)) :
    region (pre ++ (reg ++ post)) s =
      (reg.modifyLast (·.take (s.stop.column.toNat - 1))).modifyHead
        (·.drop (s.start.column.toNat - 1)) := by
  have hlines : ((pre ++ (reg ++ post)).take (pre.length + reg.length)).drop pre.length = reg := by
    rw [← List.append_assoc, List.take_left' (by simp), List.drop_left]
  unfold region
  rw [hs, hs', Int.toNat_natCast, Int.toNat_natCast, Nat.add_sub_cancel_left, hlines]

/-- A span between two literals that are located delimits what it spells. -/
theorem Delimits.of_located {k : Keyword} {s : Span} {text t : String} {t' : Token String}
    {start stop start' stop' : Nat}
    (hl : lineAt? ls s.start = some cs) (h : Located cs (.field k t) start stop)
    (hs : s.start.column = start)
    (hl' : lineAt? ls s.stop = some cs') (h' : Located cs' t' start' stop')
    (hs' : s.stop.column = stop')
    (hspells : ∃ texts, List.Forall₂ LineSpells ((region ls s).filter (!ignored ·))
      (texts.map Token.continuation) ∧ text = String.join texts)
    (hwhole : ∀ cs ∈ (ls.drop s.stop.line.toNat).find? (!ignored ·), ∀ t,
      ¬ LineSpells cs (.continuation t)) : Delimits ls k s text := by
  have hstart : s.start.column.toNat = start := by rw [hs, Int.toNat_natCast]
  have hstop : s.stop.column.toNat = stop' := by rw [hs', Int.toNat_natCast]
  obtain ⟨ho, hopening⟩ := h.opening
  obtain ⟨hc, hclosing⟩ := h'.closing
  refine ⟨?_, ?_, ⟨cs, t, stop, hl, hstart ▸ h⟩, ⟨cs', t', start', hl', hstop ▸ h'⟩, hspells,
    hwhole⟩
  · rw [charAt?_of_lineAt? hl ho hs, hopening]
  · have hl'' : lineAt? ls { s.stop with column := s.stop.column - 1 } = some cs' := hl'
    have hcolumn : s.stop.column - 1 = (stop' - 1 : Nat) := by omega
    rw [charAt?_of_lineAt? hl'' (by omega) hcolumn, Nat.sub_sub, hclosing]

end Places

/-- The span of a field delimits it, if what follows is no further literal. -/
theorem Covers.delimits {k : Keyword} {f : Field Piece} {pre reg post : List (List Char)}
    (hc : Covers k (1 + pre.length) f reg)
    (hw : ∀ cs ∈ post.find? (!ignored ·), ∀ t, ¬ LineSpells cs (.continuation t)) :
    f.span.start.line = (1 + pre.length : Nat) ∧
      f.span.stop.line = (pre.length + reg.length : Nat) ∧
      Delimits (pre ++ (reg ++ post)) k f.span f.value := by
  have hwhole : ∀ n : Int, n = (pre.length + reg.length : Nat) →
      ∀ cs ∈ ((pre ++ (reg ++ post)).drop n.toNat).find? (!ignored ·), ∀ t,
        ¬ LineSpells cs (.continuation t) := by
    rintro n rfl
    rw [Int.toNat_natCast, ← List.append_assoc, List.drop_left' (by simp)]
    exact hw
  cases hc with
  | @single cs l h =>
    have hloc : Located cs (.field k l.value) l.start l.stop := Line.located_of_token? h
    have hstop : ((1 + pre.length : Nat) : Int) = (pre.length + [cs].length : Nat) := by
      rw [Nat.add_comm]; rfl
    have hregion : region (pre ++ ([cs] ++ post)) (l.span (1 + pre.length)) =
        [(cs.take (l.stop - 1)).drop (l.start - 1)] := region_append rfl hstop
    refine ⟨rfl, hstop, Delimits.of_located (lineAt?_append rfl) hloc rfl (lineAt?_append rfl) hloc
      rfl ⟨[l.value], ?_, by simp⟩ (hwhole _ hstop)⟩
    rw [Field.span_single, hregion,
      List.filter_cons_of_pos (by rw [hloc.spells_cut.not_ignored]; rfl)]
    exact .cons hloc.spells_cut .nil
  | @several cs cs' mid l l' xs h hmid h' =>
    have hloc : Located cs (.field k l.value) l.start l.stop := Line.located_of_token? h
    have hloc' : Located cs' (.continuation l'.value) l'.start l'.stop := Line.located_of_token? h'
    have hstop : ((1 + pre.length + 1 + mid.length : Nat) : Int) =
        (pre.length + (cs :: (mid ++ [cs'])).length : Nat) := by
      simp only [List.length_cons, List.length_append, List.length_nil]
      omega
    have hspan : Field.span ⟨⟨1 + pre.length, l⟩, xs ++ [⟨1 + pre.length + 1 + mid.length, l'⟩]⟩ =
        ⟨⟨(1 + pre.length : Nat), l.start⟩, ⟨(1 + pre.length + 1 + mid.length : Nat), l'.stop⟩⟩ :=
      Field.span_snoc ⟨⟨1 + pre.length, l⟩, xs⟩ _
    have hlast : pre ++ (cs :: (mid ++ [cs']) ++ post) = (pre ++ cs :: mid) ++ cs' :: post := by
      simp
    have hregion : region (pre ++ (cs :: (mid ++ [cs']) ++ post))
        ⟨⟨(1 + pre.length : Nat), l.start⟩, ⟨(1 + pre.length + 1 + mid.length : Nat), l'.stop⟩⟩ =
          cs.drop (l.start - 1) :: (mid ++ [cs'.take (l'.stop - 1)]) := by
      rw [region_append rfl hstop, ← List.cons_append, List.modifyLast_concat]
      rfl
    rw [hspan]
    refine ⟨rfl, hstop, Delimits.of_located (lineAt?_append rfl) hloc rfl ?_ hloc' rfl
      ⟨l.value :: (xs.map (·.literal.value) ++ [l'.value]), ?_, ?_⟩ (hwhole _ hstop)⟩
    · rw [hlast]
      refine lineAt?_append ?_
      simp only [List.length_append, List.length_cons]
      omega
    · have hmid' := forall₂_lineSpells_iff.2 ⟨_, hmid, rfl⟩
      rw [hregion, List.filter_cons_of_pos (by rw [hloc.spells_drop.not_ignored]; rfl),
        List.filter_append, List.filter_cons_of_pos (by rw [hloc'.spells_take.not_ignored]; rfl)]
      refine .cons hloc.spells_drop ?_
      rw [List.map_append]
      refine List.rel_append ?_ (.cons hloc'.spells_take .nil)
      simpa [Token.map, Function.comp_def] using hmid'
    · simp [Field.value, Field.map, Field.text]

section Fields

variable {α : Type}

/-- Tokens that do not begin in the middle of a field. -/
def Fresh (ts : List (Token α)) : Prop := ∀ x, ts.head? ≠ some (.continuation x)

theorem fresh_append {ts ts' : List (Token α)} (h : Fresh ts) (h' : Fresh ts') :
    Fresh (ts ++ ts') := by
  cases ts with
  | nil => exact h'
  | cons t ts => exact h

theorem fresh_field (k : Keyword) (f : Field α) : Fresh (f.tokens k) := by
  simp [Fresh, Field.tokens]

theorem fresh_optional (k : Keyword) (f : Option (Field α)) : Fresh (optionalTokens k f) := by
  cases f with
  | none => simp [Fresh, optionalTokens]
  | some f => exact fresh_field k f

theorem fresh_flatMap {β : Type} {tokens : β → List (Token α)} (h : ∀ b, Fresh (tokens b))
    (bs : List β) : Fresh (bs.flatMap tokens) := by
  induction bs with
  | nil => simp [Fresh]
  | cons b bs ih => exact fresh_append (h b) ih

theorem fresh_block (b : Block α) : Fresh b.tokens :=
  fresh_append (fresh_append (fresh_append (fresh_optional _ _) (fresh_field _ _))
    (fresh_optional _ _)) (fresh_flatMap (fresh_field _) _)

/-- The first line of fresh tokens is no literal alone. -/
theorem Fresh.find? {n : Nat} {ls : List (List Char)} {ts : List (Token Piece)} (hf : Fresh ts)
    (h : tokens? n ls = some ts) :
    ∀ cs ∈ ls.find? (!ignored ·), ∀ t, ¬ LineSpells cs (.continuation t) := by
  induction ls generalizing n with
  | nil => simp
  | cons cs ls ih =>
    unfold tokens? at h
    split at h
    · rename_i hi
      rw [List.find?_cons_of_neg (by simp [hi])]
      exact ih h
    · rename_i hi
      obtain ⟨t, ht, h⟩ := Option.bind_eq_some_iff.1 h
      obtain ⟨ts', -, rfl⟩ := Option.map_eq_some_iff.1 h
      rw [List.find?_cons_of_pos (by simpa using hi)]
      rintro cs' hcs text hspells
      obtain rfl : cs = cs' := by simpa using hcs
      obtain ⟨l, hl, -⟩ := Line.token?_read_of_continuation hspells
      obtain rfl := Option.some.inj (ht.symm.trans hl)
      exact hf _ rfl

end Fields

/-- The lines after that of `p` and before that of `q` that are not ignored. -/
def linesBetween (ls : List (List Char)) (p q : Position) : List (List Char) :=
  ((ls.take (q.line.toNat - 1)).drop p.line.toNat).filter (!ignored ·)

/-- The places of a block, in the lines that its tokens stand on. -/
theorem Block.delimits {ls : List (List Char)} {bs : List (Block Piece)}
    (h : tokens? 1 ls = some (bs.flatMap (·.tokens))) {b : Block Piece} (hb : b ∈ bs) :
    Delimits ls .msgid b.key.span b.key.value ∧
      ∃ v vs, b.values = v :: vs ∧ Delimits ls .msgstr v.span v.value ∧
        b.key.span.stop.line < v.span.start.line ∧
        List.Forall₂ LineSpells (linesBetween ls b.key.span.stop v.span.start)
          (optionalTokens .msgidPlural (b.plural.map (·.map (·.literal.value)))) := by
  obtain ⟨bs₁, bs₂, rfl⟩ := List.append_of_mem hb
  obtain ⟨v, vs, hv⟩ := List.exists_cons_of_ne_nil b.values_ne
  have hts : (bs₁ ++ b :: bs₂).flatMap (·.tokens) =
      (bs₁.flatMap (·.tokens) ++ optionalTokens .msgctxt b.context) ++ (b.key.tokens .msgid ++
        (optionalTokens .msgidPlural b.plural ++ (v.tokens .msgstr ++
          (vs.flatMap (·.tokens .msgstr) ++ bs₂.flatMap (·.tokens))))) := by
    simp [Block.tokens, hv]
  rw [hts] at h
  obtain ⟨pre, reg, post, rfl, -, hkey, hpost⟩ := tokens?_field h
  obtain ⟨mid, reg', post', rfl, hmid, hvalue, hpost'⟩ := tokens?_field hpost
  have hafter := (fresh_append (fresh_optional _ _) (fresh_append (fresh_field _ _)
    (fresh_append (fresh_flatMap (fresh_field _) _) (fresh_flatMap fresh_block _)))).find? hpost
  have hafter' := (fresh_append (fresh_flatMap (fresh_field _) _)
    (fresh_flatMap fresh_block _)).find? hpost'
  obtain ⟨-, hstop, hdel⟩ := hkey.delimits hafter
  have hpre : 1 + (pre ++ (reg ++ mid)).length = 1 + pre.length + reg.length + mid.length := by
    simp only [List.length_append]
    omega
  rw [← hpre] at hvalue
  obtain ⟨hstart', -, hdel'⟩ := hvalue.delimits hafter'
  have hls : pre ++ (reg ++ (mid ++ (reg' ++ post'))) =
      (pre ++ (reg ++ mid)) ++ (reg' ++ post') := by simp
  have hbetween : ((pre ++ (reg ++ (mid ++ (reg' ++ post')))).take
      (pre ++ (reg ++ mid)).length).drop (pre.length + reg.length) = mid := by
    rw [hls, List.take_left, ← List.append_assoc, List.drop_left' (by simp)]
  refine ⟨hdel, v, vs, hv, hls ▸ hdel', ?_, ?_⟩
  · rw [hstop, hstart']
    simp only [List.length_append]
    omega
  · unfold linesBetween
    rw [hstop, hstart', Int.toNat_natCast, Int.toNat_natCast, Nat.add_sub_cancel_left, hbetween,
      optionalTokens_map]
    exact forall₂_lineSpells_iff.2 ⟨_, hmid, rfl⟩

/-- **The places in a catalog are faithful.** In the lines of a text that can be read, the span of
each key runs over the literals of the key and no others, and the span of the first value over
those of the first value, which comes next but for a plural key. -/
theorem locations_faithful {text : String} {catalog : Catalog} (hp : parse text = .ok catalog) :
    ∃ ls, FallsInto (unmarked text.toList) ls ∧ ∀ e ∈ catalog,
      Delimits ls .msgid e.keySpan e.key ∧
      ∃ s v vs, e.valueSpan = some s ∧ e.values = v :: vs ∧ Delimits ls .msgstr s v ∧
        e.keySpan.stop.line < s.start.line ∧ ∃ p, e.plural = p.map Field.text ∧
          List.Forall₂ LineSpells (linesBetween ls e.keySpan.stop s.start)
            (optionalTokens .msgidPlural p) := by
  obtain ⟨bs, ht, rfl⟩ := parseLines_eq_ok_iff.1 hp
  refine ⟨lines (dropMark text.toList), ?_, ?_⟩
  · rw [← dropMark_eq_unmarked]
    exact lines_eq_iff.1 rfl
  · intro e he
    obtain ⟨b, hb, rfl⟩ := List.mem_map.1 he
    obtain ⟨hkey, v, vs, hv, hvalue, hlt, hbetween⟩ := Block.delimits ht hb
    refine ⟨hkey, v.span, v.value, vs.map (·.value), ?_, ?_, hvalue, hlt, _, ?_, hbetween⟩
    · simp [Block.entry, hv]
    · simp [Block.entry, hv]
    · simp [Block.entry, Field.value, Function.comp_def]

/-- A comment stands within the key, and the second value goes on after the first one has ended. -/
theorem locations_faithful_commented :
    parse "msgid \"a\"\n#\n \"b\" \nmsgstr[0] \"\"\n\"x\"\nmsgstr[1] \"y\"\n\"z\"" =
      .ok [⟨"ab", ⟨⟨1, 7⟩, ⟨3, 5⟩⟩, ["x", "yz"], some ⟨⟨4, 11⟩, ⟨5, 4⟩⟩, none, none⟩] ∧
    ∃ ls,
      FallsInto "msgid \"a\"\n#\n \"b\" \nmsgstr[0] \"\"\n\"x\"\nmsgstr[1] \"y\"\n\"z\"".toList ls ∧
      Delimits ls .msgid ⟨⟨1, 7⟩, ⟨3, 5⟩⟩ "ab" ∧ Delimits ls .msgstr ⟨⟨4, 11⟩, ⟨5, 4⟩⟩ "x" := by
  have hp : parse "msgid \"a\"\n#\n \"b\" \nmsgstr[0] \"\"\n\"x\"\nmsgstr[1] \"y\"\n\"z\"" =
      .ok [⟨"ab", ⟨⟨1, 7⟩, ⟨3, 5⟩⟩, ["x", "yz"], some ⟨⟨4, 11⟩, ⟨5, 4⟩⟩, none, none⟩] := by
    decide +kernel
  obtain ⟨ls, hls, hall⟩ := locations_faithful hp
  obtain ⟨hkey, s, v, vs, hs, hv, hvalue, -⟩ := hall _ (List.mem_singleton.2 rfl)
  obtain rfl := Option.some.inj hs
  obtain ⟨rfl, -⟩ := List.cons.inj hv
  exact ⟨hp, ls, hls, hkey, hvalue⟩

end CatalogLint.Catalog
