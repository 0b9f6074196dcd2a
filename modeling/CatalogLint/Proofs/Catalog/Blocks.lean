import CatalogLint.Proofs.Catalog.Grammar

/-!
# Blocks are found token by token

Tokens fall into blocks in at most one way, and the way is found by taking the tokens one after
the other. What has been found at each moment is an `Outline`: the blocks that are finished and
the part of the next one. Nothing here depends on what a literal is.

* `Outline.feed_tokens`: what one token adds.
* `blocks?_eq_some_iff`: **the blocks found are the ones that the tokens are made of.**
* `blocks?_map`: the blocks found do not depend on the literals.
-/

namespace CatalogLint.Catalog

variable {α β : Type}

/-- A block of which the last tokens may be missing. -/
inductive Part (α : Type) where
  | context (context : Field α)
  | head (context : Option (Field α)) (key : Field α) (plural : Option (Field α))
  | body (context : Option (Field α)) (key : Field α) (plural : Option (Field α))
      (earlier : List (Field α)) (last : Field α)

/-- The blocks that tokens make, and the part of a block at their end. -/
structure Outline (α : Type) where
  blocks : List (Block α)
  part : Option (Part α)

/-- The field with one more literal. -/
def Field.snoc (f : Field α) (x : α) : Field α := ⟨f.first, f.more ++ [x]⟩

def Part.extend (x : α) : Part α → Part α
  | context c => .context (c.snoc x)
  | head c k none => .head c (k.snoc x) none
  | head c k (some p) => .head c k (some (p.snoc x))
  | body c k p vs v => .body c k p vs (v.snoc x)

/-- The blocks, if no block is left unfinished. -/
def Outline.closed? (o : Outline α) : Option (List (Block α)) :=
  match o.part with
  | none => some o.blocks
  | some (.body c k p vs v) => some (o.blocks ++ [⟨c, k, p, vs ++ [v], by simp⟩])
  | some _ => none

/-- The outline with one more token, if there is a place for it. -/
def Outline.feed (o : Outline α) : Token α → Option (Outline α)
  | .continuation x => o.part.map fun p => ⟨o.blocks, some (p.extend x)⟩
  | .field .msgctxt x => o.closed?.map fun bs => ⟨bs, some (.context ⟨x, []⟩)⟩
  | .field .msgid x =>
    match o.part with
    | some (.context c) => some ⟨o.blocks, some (.head (some c) ⟨x, []⟩ none)⟩
    | _ => o.closed?.map fun bs => ⟨bs, some (.head none ⟨x, []⟩ none)⟩
  | .field .msgidPlural x =>
    match o.part with
    | some (.head c k none) => some ⟨o.blocks, some (.head c k (some ⟨x, []⟩))⟩
    | _ => none
  | .field .msgstr x =>
    match o.part with
    | some (.head c k p) => some ⟨o.blocks, some (.body c k p [] ⟨x, []⟩)⟩
    | some (.body c k p vs v) => some ⟨o.blocks, some (.body c k p (vs ++ [v]) ⟨x, []⟩)⟩
    | _ => none

/-- The blocks that tokens make from an outline on. -/
def Outline.blocks? (o : Outline α) (ts : List (Token α)) : Option (List (Block α)) :=
  (ts.foldlM Outline.feed o).bind Outline.closed?

section Sound

def Part.tokens : Part α → List (Token α)
  | context c => c.tokens .msgctxt
  | head c k p =>
    optionalTokens .msgctxt c ++ k.tokens .msgid ++ optionalTokens .msgidPlural p
  | body c k p vs v =>
    optionalTokens .msgctxt c ++ k.tokens .msgid ++ optionalTokens .msgidPlural p ++
      (vs ++ [v]).flatMap (·.tokens .msgstr)

/-- The tokens that were taken. -/
def Outline.tokens (o : Outline α) : List (Token α) :=
  o.blocks.flatMap (·.tokens) ++ o.part.elim [] (·.tokens)

theorem Field.tokens_snoc (k : Keyword) (f : Field α) (x : α) :
    (f.snoc x).tokens k = f.tokens k ++ [.continuation x] := by
  simp [Field.tokens, Field.snoc]

theorem Part.tokens_extend (p : Part α) (x : α) :
    (p.extend x).tokens = p.tokens ++ [.continuation x] := by
  cases p with
  | context c => simp [Part.extend, Part.tokens, Field.tokens_snoc]
  | head c k p => cases p <;> simp [Part.extend, Part.tokens, Field.tokens_snoc, optionalTokens]
  | body c k p vs v => simp [Part.extend, Part.tokens, Field.tokens_snoc]

theorem Outline.closed?_tokens {o : Outline α} {bs : List (Block α)} (h : o.closed? = some bs) :
    o.tokens = bs.flatMap (·.tokens) := by
  unfold Outline.closed? at h
  unfold Outline.tokens
  split at h
  · rename_i hp
    obtain rfl := by simpa using h
    simp [hp]
  · rename_i hp
    obtain rfl := by simpa using h
    simp [hp, Part.tokens, Block.tokens]
  · cases h

/-- What one token adds: itself. -/
theorem Outline.feed_tokens {o o' : Outline α} {t : Token α} (h : o.feed t = some o') :
    o'.tokens = o.tokens ++ [t] := by
  unfold Outline.feed at h
  split at h
  · obtain ⟨p, hp, rfl⟩ := Option.map_eq_some_iff.1 h
    simp [Outline.tokens, hp, Part.tokens_extend]
  · obtain ⟨bs, hb, rfl⟩ := Option.map_eq_some_iff.1 h
    rw [Outline.closed?_tokens hb]
    simp [Outline.tokens, Part.tokens, Field.tokens]
  · split at h
    · rename_i hp
      obtain rfl := by simpa using h
      simp [Outline.tokens, hp, Part.tokens, Field.tokens, optionalTokens]
    · obtain ⟨bs, hb, rfl⟩ := Option.map_eq_some_iff.1 h
      rw [Outline.closed?_tokens hb]
      simp [Outline.tokens, Part.tokens, Field.tokens, optionalTokens]
  · split at h
    · rename_i hp
      obtain rfl := by simpa using h
      simp [Outline.tokens, hp, Part.tokens, Field.tokens, optionalTokens]
    · cases h
  · split at h
    · rename_i hp
      obtain rfl := by simpa using h
      simp [Outline.tokens, hp, Part.tokens, Field.tokens]
    · rename_i hp
      obtain rfl := by simpa using h
      simp [Outline.tokens, hp, Part.tokens, Field.tokens]
    · cases h

theorem Outline.foldlM_feed_tokens {o o' : Outline α} {ts : List (Token α)}
    (h : ts.foldlM Outline.feed o = some o') : o'.tokens = o.tokens ++ ts := by
  induction ts generalizing o with
  | nil => simp_all
  | cons t ts ih =>
    rw [List.foldlM_cons] at h
    obtain ⟨o₁, h₁, h₂⟩ := Option.bind_eq_some_iff.1 h
    rw [ih h₂, Outline.feed_tokens h₁, List.append_assoc, List.singleton_append]

end Sound

section Complete

variable {o : Outline α}

/-- A field is taken whole, if a place for its keyword is found and further literals extend it. -/
theorem Outline.foldlM_feed_field {k : Keyword} {bs : List (Block α)} (part : Field α → Part α)
    (hp : ∀ f x, (part f).extend x = part (f.snoc x)) (f : Field α)
    (ho : o.feed (.field k f.first) = some ⟨bs, some (part ⟨f.first, []⟩)⟩) :
    (f.tokens k).foldlM Outline.feed o = some ⟨bs, some (part f)⟩ := by
  -- the literals that were taken already vary along the field
  have hmore : ∀ (xs done : List α), (xs.map Token.continuation).foldlM Outline.feed
      ⟨bs, some (part ⟨f.first, done⟩)⟩ = some ⟨bs, some (part ⟨f.first, done ++ xs⟩)⟩ := by
    intro xs
    induction xs with
    | nil => simp
    | cons x xs ih =>
      intro done
      have hx : Outline.feed ⟨bs, some (part ⟨f.first, done⟩)⟩ (.continuation x) =
          some ⟨bs, some (part ⟨f.first, done ++ [x]⟩)⟩ := by
        simp [Outline.feed, hp, Field.snoc]
      rw [List.map_cons, List.foldlM_cons, hx]
      simpa using ih (done ++ [x])
  rw [Field.tokens, List.foldlM_cons, ho]
  exact hmore f.more []

theorem Outline.foldlM_feed_values (bs : List (Block α)) (c : Option (Field α)) (k : Field α)
    (p : Option (Field α)) (ws : List (Field α)) : ∀ vs v, ∃ vs' v', vs' ++ [v'] = vs ++ v :: ws ∧
      (ws.flatMap (·.tokens .msgstr)).foldlM Outline.feed ⟨bs, some (.body c k p vs v)⟩ =
        some ⟨bs, some (.body c k p vs' v')⟩ := by
  induction ws with
  | nil => exact fun vs v => ⟨vs, v, rfl, rfl⟩
  | cons w ws ih =>
    intro vs v
    obtain ⟨vs', v', heq, hrun⟩ := ih (vs ++ [v]) w
    refine ⟨vs', v', by simpa using heq, ?_⟩
    have hw := Outline.foldlM_feed_field (.body c k p (vs ++ [v])) (fun _ _ => rfl) w
      (show Outline.feed ⟨bs, some (.body c k p vs v)⟩ (.field .msgstr w.first) = _ from rfl)
    rw [List.flatMap_cons, List.foldlM_append, hw]
    exact hrun

/-- A context and a key are taken where a block may begin. -/
theorem Outline.foldlM_feed_key {bs : List (Block α)} (ho : o.closed? = some bs)
    (c : Option (Field α)) (k : Field α) :
    (optionalTokens .msgctxt c ++ k.tokens .msgid).foldlM Outline.feed o =
      some ⟨bs, some (.head c k none)⟩ := by
  cases c with
  | none =>
    refine Outline.foldlM_feed_field (fun k => .head none k none) (fun _ _ => rfl) k ?_
    unfold Outline.closed? at ho
    unfold Outline.feed Outline.closed?
    split at ho <;> simp_all
  | some c =>
    have hc := Outline.foldlM_feed_field .context (fun _ _ => rfl) c
      (show o.feed (.field .msgctxt c.first) = some ⟨bs, _⟩ by simp [Outline.feed, ho])
    rw [optionalTokens, Option.elim_some, List.foldlM_append, hc]
    show (k.tokens .msgid).foldlM Outline.feed ⟨bs, some (.context c)⟩ = _
    exact Outline.foldlM_feed_field (fun k => .head (some c) k none) (fun _ _ => rfl) k rfl

/-- A block is taken whole where one may begin. -/
theorem Outline.foldlM_feed_block {bs : List (Block α)} (ho : o.closed? = some bs) (b : Block α) :
    ∃ o', b.tokens.foldlM Outline.feed o = some o' ∧ o'.closed? = some (bs ++ [b]) := by
  obtain ⟨c, k, p, values, hne⟩ := b
  obtain ⟨v, vs, rfl⟩ := List.exists_cons_of_ne_nil hne
  have hkey := Outline.foldlM_feed_key ho c k
  have hplural : (optionalTokens .msgidPlural p).foldlM Outline.feed ⟨bs, some (.head c k none)⟩ =
      some ⟨bs, some (.head c k p)⟩ := by
    cases p with
    | none => rfl
    | some p =>
      exact Outline.foldlM_feed_field (fun p => .head c k (some p)) (fun _ _ => rfl) p rfl
  have hvalue : (v.tokens .msgstr).foldlM Outline.feed ⟨bs, some (.head c k p)⟩ =
      some ⟨bs, some (.body c k p [] v)⟩ :=
    Outline.foldlM_feed_field (.body c k p []) (fun _ _ => rfl) v rfl
  obtain ⟨vs', v', heq, hvalues⟩ := Outline.foldlM_feed_values bs c k p vs [] v
  refine ⟨⟨bs, some (.body c k p vs' v')⟩, ?_, ?_⟩
  · simp only [Block.tokens, List.flatMap_cons]
    rw [List.foldlM_append, List.foldlM_append, hkey]
    simp only [Option.bind_eq_bind, Option.bind_some]
    rw [hplural, Option.bind_some, List.foldlM_append, hvalue]
    exact hvalues
  · simp [Outline.closed?, heq]

theorem Outline.blocks?_flatMap {bs : List (Block α)} (ho : o.closed? = some bs)
    (bs' : List (Block α)) : o.blocks? (bs'.flatMap (·.tokens)) = some (bs ++ bs') := by
  induction bs' generalizing o bs with
  | nil => simpa [Outline.blocks?] using ho
  | cons b bs' ih =>
    obtain ⟨o', hrun, hclosed⟩ := Outline.foldlM_feed_block ho b
    have h := ih hclosed
    unfold Outline.blocks? at h ⊢
    rw [List.flatMap_cons, List.foldlM_append, hrun]
    simpa using h

end Complete

/-- The blocks that tokens make. -/
def blocks? (ts : List (Token α)) : Option (List (Block α)) := Outline.blocks? ⟨[], none⟩ ts

/-- **The blocks found are the ones that the tokens are made of.** -/
theorem blocks?_eq_some_iff {ts : List (Token α)} {bs : List (Block α)} :
    blocks? ts = some bs ↔ ts = bs.flatMap (·.tokens) := by
  constructor
  · intro h
    obtain ⟨o, ho, hc⟩ := Option.bind_eq_some_iff.1 h
    rw [← Outline.closed?_tokens hc, Outline.foldlM_feed_tokens ho]
    rfl
  · rintro rfl
    have hstart : Outline.closed? (⟨[], none⟩ : Outline α) = some [] := rfl
    exact Outline.blocks?_flatMap hstart bs

section Map

def Field.map (g : α → β) (f : Field α) : Field β := ⟨g f.first, f.more.map g⟩

def Block.map (g : α → β) (b : Block α) : Block β :=
  ⟨b.context.map (·.map g), b.key.map g, b.plural.map (·.map g), b.values.map (·.map g),
    by simpa using b.values_ne⟩

def Part.map (g : α → β) : Part α → Part β
  | context c => .context (c.map g)
  | head c k p => .head (c.map (·.map g)) (k.map g) (p.map (·.map g))
  | body c k p vs v =>
    .body (c.map (·.map g)) (k.map g) (p.map (·.map g)) (vs.map (·.map g)) (v.map g)

def Outline.map (g : α → β) (o : Outline α) : Outline β :=
  ⟨o.blocks.map (·.map g), o.part.map (·.map g)⟩

/-- The token with another literal. -/
def Token.map (g : α → β) : Token α → Token β
  | .continuation x => .continuation (g x)
  | .field k x => .field k (g x)

variable (g : α → β)

theorem Field.tokens_map (k : Keyword) (f : Field α) :
    (f.map g).tokens k = (f.tokens k).map (Token.map g) := by
  simp [Field.tokens, Field.map, Token.map, Function.comp_def]

theorem optionalTokens_map (k : Keyword) (f : Option (Field α)) :
    optionalTokens k (f.map (·.map g)) = (optionalTokens k f).map (Token.map g) := by
  cases f with
  | none => rfl
  | some f => exact f.tokens_map g k

theorem Block.tokens_map (b : Block α) : (b.map g).tokens = b.tokens.map (Token.map g) := by
  simp [Block.tokens, Block.map, Field.tokens_map, optionalTokens_map, List.map_flatMap,
    List.flatMap_map]

theorem Field.map_snoc (f : Field α) (x : α) : (f.snoc x).map g = (f.map g).snoc (g x) := by
  simp [Field.map, Field.snoc]

theorem Part.map_extend (p : Part α) (x : α) : (p.extend x).map g = (p.map g).extend (g x) := by
  cases p with
  | context c => simp [Part.map, Part.extend, Field.map_snoc]
  | head c k p => cases p <;> simp [Part.map, Part.extend, Field.map_snoc]
  | body c k p vs v => simp [Part.map, Part.extend, Field.map_snoc]

theorem Outline.closed?_map (o : Outline α) :
    (o.map g).closed? = o.closed?.map (List.map (Block.map g)) := by
  obtain ⟨bs, part⟩ := o
  rcases part with _ | ⟨c⟩ | ⟨c, k, p⟩ | ⟨c, k, p, vs, v⟩ <;>
    simp [Outline.map, Outline.closed?, Part.map, Block.map]

theorem Outline.feed_map (o : Outline α) (t : Token α) :
    (o.map g).feed (t.map g) = (o.feed t).map (Outline.map g) := by
  obtain ⟨bs, part⟩ := o
  cases t with
  | continuation x =>
    cases part <;> simp [Outline.feed, Outline.map, Token.map, Part.map_extend]
  | field k x =>
    cases k with
    | msgctxt =>
      rcases part with _ | ⟨c⟩ | ⟨c, k, p⟩ | ⟨c, k, p, vs, v⟩ <;>
        simp [Outline.feed, Token.map, Outline.map, Outline.closed?, Part.map, Field.map, Block.map]
    | msgid =>
      rcases part with _ | ⟨c⟩ | ⟨c, k, p⟩ | ⟨c, k, p, vs, v⟩ <;>
        simp [Outline.feed, Token.map, Outline.map, Outline.closed?, Part.map, Field.map, Block.map]
    | msgidPlural =>
      rcases part with _ | ⟨c⟩ | ⟨c, k, _ | p⟩ | ⟨c, k, p, vs, v⟩ <;>
        simp [Outline.feed, Token.map, Outline.map, Part.map, Field.map]
    | msgstr =>
      rcases part with _ | ⟨c⟩ | ⟨c, k, p⟩ | ⟨c, k, p, vs, v⟩ <;>
        simp [Outline.feed, Token.map, Outline.map, Part.map, Field.map]

/-- The blocks found do not depend on the literals. -/
theorem blocks?_map (ts : List (Token α)) :
    blocks? (ts.map (Token.map g)) = (blocks? ts).map (List.map (Block.map g)) := by
  have hrun : ∀ o : Outline α, (o.map g).blocks? (ts.map (Token.map g)) =
      (o.blocks? ts).map (List.map (Block.map g)) := by
    induction ts with
    | nil => intro o; simp [Outline.blocks?, Outline.closed?_map]
    | cons t ts ih =>
      intro o
      unfold Outline.blocks? at ih ⊢
      rw [List.map_cons, List.foldlM_cons, List.foldlM_cons, Outline.feed_map]
      cases o.feed t with
      | none => rfl
      | some o' => exact ih o'
  exact hrun ⟨[], none⟩

end Map

end CatalogLint.Catalog
