import CatalogLint.Catalog.Reader
import Mathlib.Logic.Basic

/-!
# Entries in slots

The reader keeps the entry at hand in stages, and no stage lacks a field that it needs. Here the
entry is a record of slots instead, each of which may be empty, with the keyword whose slot a
further literal goes to. Such a reader can find a slot empty that it needs, and then fails in a way
that is no fault of the text.

* `Slots`, `parseInSlots`: that reader.
* `Fits`: the slots that are filled at a stage.
* `parseInSlots_eq`: **no slot is ever found empty**, and both readers give the same.
-/

namespace CatalogLint.Catalog

open CatalogLint.Text

/-- An entry under construction, in slots. The literals of a field are kept one by one. -/
structure Slots where
  line : Nat
  context : Option (List String) := none
  key : Option (List String) := none
  keySpan : Option Span := none
  plural : Option (List String) := none
  /-- The values, newest first. -/
  values : List (List String) := []
  valueSpan : Option Span := none
  /-- The field that a further literal goes to. -/
  target : Option Keyword := none

/-- Why a reader with slots fails. -/
inductive SlotError where
  | parse (e : ParseError)
  /-- A slot that is needed is empty. -/
  | emptySlot

namespace Slots

def complete (s : Slots) : Bool := !s.values.isEmpty

/-- One more literal, from line `line`, for the field at hand. -/
def extend (s : Slots) (line : Nat) (l : Literal) : Except SlotError Slots :=
  match s.target with
  | some .msgctxt =>
    match s.context with
    | some parts => .ok { s with context := some (parts ++ [l.value]) }
    | none => .error .emptySlot
  | some .msgid =>
    match s.key, s.keySpan with
    | some parts, some span =>
      let keySpan := some { span with stop := ⟨line, l.stop⟩ }
      .ok { s with key := some (parts ++ [l.value]), keySpan }
    | _, _ => .error .emptySlot
  | some .msgidPlural =>
    match s.plural with
    | some parts => .ok { s with plural := some (parts ++ [l.value]) }
    | none => .error .emptySlot
  | _ =>
    match s.values, s.valueSpan with
    | [last], some span =>
      let valueSpan := some { span with stop := ⟨line, l.stop⟩ }
      .ok { s with values := [last ++ [l.value]], valueSpan }
    | last :: v :: vs, _ => .ok { s with values := (last ++ [l.value]) :: v :: vs }
    | _, _ => .error .emptySlot

/-- The entry in the slots. -/
def entry (s : Slots) : Except SlotError Entry :=
  match s.key, s.keySpan with
  | some key, some keySpan =>
    .ok { key := String.join key, keySpan, values := (s.values.map String.join).reverse
          valueSpan := s.valueSpan, context := s.context.map String.join
          plural := s.plural.map String.join }
  | _, _ => .error .emptySlot

end Slots

/-- The finished entries, newest first, and the slots at hand. -/
structure SlotProgress where
  entries : List Entry
  pending : Option Slots

namespace SlotProgress

/-- The entry at hand goes to the finished ones, if it is complete. -/
def flush (p : SlotProgress) : Except SlotError SlotProgress :=
  match p.pending with
  | none => .ok p
  | some s =>
    if s.complete then do return ⟨(← s.entry) :: p.entries, none⟩ else .ok p

def field (p : SlotProgress) (line column : Nat) (l : Literal) (k : Keyword) :
    Except SlotError SlotProgress :=
  match k with
  | .msgctxt => do
    let p ← p.flush
    match p.pending with
    | some _ => throw (.parse ⟨line, column, .openedTooEarly .msgctxt⟩)
    | none =>
      let opened : Slots := { line, context := some [l.value], target := some .msgctxt }
      return { p with pending := some opened }
  | .msgid => do
    let p ← p.flush
    let s := p.pending.getD { line }
    if s.key.isSome then throw (.parse ⟨line, column, .openedTooEarly .msgid⟩)
    let keyed := { s with
      key := some [l.value], keySpan := some (l.span line), target := some .msgid }
    return { p with pending := some keyed }
  | .msgidPlural =>
    match p.pending.filter (·.key.isSome) with
    | none => .error (.parse ⟨line, column, .missingKey .msgidPlural⟩)
    | some s =>
      if s.complete || s.plural.isSome then .error (.parse ⟨line, column, .misplacedPlural⟩)
      else
        let plural := { s with plural := some [l.value], target := some .msgidPlural }
        .ok { p with pending := some plural }
  | .msgstr =>
    match p.pending.filter (·.key.isSome) with
    | none => .error (.parse ⟨line, column, .missingKey .msgstr⟩)
    | some s =>
      let valued := { s with
        values := [l.value] :: s.values, target := some .msgstr
        valueSpan := if s.complete then s.valueSpan else some (l.span line) }
      .ok { p with pending := some valued }

def step (p : SlotProgress) (line : Nat) : Line → Except SlotError SlotProgress
  | .skipped => .ok p
  | .continuation column literal =>
    match p.pending.filter (·.target.isSome), literal with
    | none, _ => .error (.parse ⟨line, column, .strayLiteral⟩)
    | some _, .error f => .error (.parse (f.onLine line))
    | some s, .ok l => do return { p with pending := some (← s.extend line l) }
  | .field keyword column literal =>
    match literal with
    | .error f => .error (.parse (f.onLine line))
    | .ok l => p.field line column l keyword
  | .unexpected column word => .error (.parse ⟨line, column, .unexpectedWord word⟩)

def finish (p : SlotProgress) : Except SlotError Catalog := do
  let p ← p.flush
  match p.pending with
  | none => return p.entries.reverse
  | some s => throw (.parse ⟨s.line, 1, .valueless⟩)

def run (p : SlotProgress) (line : Nat) : List (List Char) → Except SlotError SlotProgress
  | [] => .ok p
  | cs :: rest => do (← p.step line (Line.read cs)).run (line + 1) rest

end SlotProgress

/-- The catalog that a text is, read with slots. -/
def parseInSlots (text : String) : Except SlotError Catalog := do
  (← SlotProgress.run ⟨[], none⟩ 1 (lines (dropMark text.toList))).finish

/-- The slots that are filled at each stage of an entry, and where a further literal goes. -/
inductive Fits : Slots → Draft → Prop where
  | context {line : Nat} {parts : List String} :
      Fits { line, context := some parts, target := some .msgctxt }
        (.context line (String.join parts))
  | key {line : Nat} {context : Option (List String)} {key : List String} {keySpan : Span} :
      Fits { line, context, key := some key, keySpan := some keySpan, target := some .msgid }
        (.head ⟨line, context.map String.join, String.join key, keySpan, none⟩)
  | plural {line : Nat} {context : Option (List String)} {key plural : List String}
      {keySpan : Span} :
      Fits { line, context, key := some key, keySpan := some keySpan, plural := some plural
             target := some .msgidPlural }
        (.head ⟨line, context.map String.join, String.join key, keySpan,
          some (String.join plural)⟩)
  | values {line : Nat} {context plural : Option (List String)} {key last : List String}
      {earlier : List (List String)} {keySpan valueSpan : Span} :
      Fits { line, context, key := some key, keySpan := some keySpan, plural
             values := last :: earlier, valueSpan := some valueSpan, target := some .msgstr }
        (.body ⟨line, context.map String.join, String.join key, keySpan, plural.map String.join⟩
          valueSpan (earlier.map String.join) (String.join last))

/-- Both readers have read the same. -/
inductive Agrees : SlotProgress → Progress → Prop where
  | idle {entries : List Entry} : Agrees ⟨entries, none⟩ ⟨entries, none⟩
  | busy {entries : List Entry} {s : Slots} {d : Draft} : Fits s d →
      Agrees ⟨entries, some s⟩ ⟨entries, some d⟩

/-- Both readers have gone on to the same, or have found the same fault. -/
inductive Follows : Except SlotError SlotProgress → Except ParseError Progress → Prop where
  | ok {p : SlotProgress} {q : Progress} : Agrees p q → Follows (.ok p) (.ok q)
  | error (e : ParseError) : Follows (.error (.parse e)) (.error e)

section Simulation

variable {p : SlotProgress} {q : Progress} {s : Slots} {d : Draft}

theorem join_concat (parts : List String) (t : String) :
    String.join (parts ++ [t]) = String.join parts ++ t := by
  simp

/-- The slot that a literal goes to is filled. -/
theorem Fits.extend (h : Fits s d) (line : Nat) (l : Literal) :
    ∃ s', s.extend line l = .ok s' ∧ Fits s' (d.extend line l) := by
  cases h with
  | context =>
    refine ⟨_, rfl, ?_⟩
    rw [Draft.extend, ← join_concat]
    exact .context
  | key =>
    refine ⟨_, rfl, ?_⟩
    simp only [Draft.extend, ← join_concat]
    exact .key
  | plural =>
    refine ⟨_, rfl, ?_⟩
    simp only [Draft.extend, ← join_concat]
    exact .plural
  | @values line context plural key last earlier keySpan valueSpan =>
    -- the span is moved only while there is one value
    cases earlier with
    | nil =>
      refine ⟨_, rfl, ?_⟩
      simp only [List.map_nil, Draft.extend, ← join_concat]
      exact .values
    | cons v vs =>
      refine ⟨_, rfl, ?_⟩
      simp only [List.map_cons, Draft.extend, ← join_concat]
      exact .values

theorem Fits.target (h : Fits s d) : s.target.isSome = true := by
  cases h <;> rfl

/-- A field fills the slots of its stage, or is out of place for both readers. -/
theorem Agrees.field (h : Agrees p q) (line column : Nat) (l : Literal) (k : Keyword) :
    Follows (p.field line column l k) (q.field line column l k) := by
  have hjoin : String.join [l.value] = l.value := by simp
  -- stage by stage: a keyword opens a slot that was empty, or both readers refuse it
  cases h with
  | idle =>
    cases k with
    | msgctxt => exact .ok (.busy (hjoin ▸ .context))
    | msgid => exact .ok (.busy (hjoin ▸ .key))
    | msgidPlural => exact .error _
    | msgstr => exact .error _
  | busy h =>
    cases h with
    | @context opened parts =>
      cases k with
      | msgctxt => exact .error _
      | msgid =>
        have hkey := @Fits.key opened (some parts) [l.value] (l.span line)
        rw [hjoin] at hkey
        exact .ok (.busy hkey)
      | msgidPlural => exact .error _
      | msgstr => exact .error _
    | @key opened context key keySpan =>
      cases k with
      | msgctxt => exact .error _
      | msgid => exact .error _
      | msgidPlural =>
        have hplural := @Fits.plural opened context key [l.value] keySpan
        rw [hjoin] at hplural
        exact .ok (.busy hplural)
      | msgstr =>
        have hvalues := @Fits.values opened context none key [l.value] [] keySpan (l.span line)
        rw [hjoin] at hvalues
        exact .ok (.busy hvalues)
    | @plural opened context key plural keySpan =>
      cases k with
      | msgctxt => exact .error _
      | msgid => exact .error _
      | msgidPlural => exact .error _
      | msgstr =>
        have hvalues := @Fits.values opened context (some plural) key [l.value] [] keySpan
          (l.span line)
        rw [hjoin] at hvalues
        exact .ok (.busy hvalues)
    | @values opened context plural key last earlier keySpan valueSpan =>
      cases k with
      | msgctxt =>
        have hcontext := @Fits.context line [l.value]
        rw [hjoin] at hcontext
        exact .ok (.busy hcontext)
      | msgid =>
        have hkey := @Fits.key line none [l.value] (l.span line)
        rw [hjoin] at hkey
        exact .ok (.busy hkey)
      | msgidPlural => exact .error _
      | msgstr =>
        have hvalues := @Fits.values opened context plural key [l.value] (last :: earlier) keySpan
          valueSpan
        rw [hjoin] at hvalues
        exact .ok (.busy hvalues)

/-- **A line does the same for both readers.** -/
theorem Agrees.step (h : Agrees p q) (line : Nat) (l : Line) :
    Follows (p.step line l) (q.step line l) := by
  cases l with
  | skipped => exact .ok h
  | unexpected column word => exact .error _
  | field k column literal =>
    cases literal with
    | error f => exact .error _
    | ok l => exact h.field line column l k
  | continuation column literal =>
    cases h with
    | idle => exact .error _
    | @busy entries s d h =>
      have hpending : (some s).filter (·.target.isSome) = some s := by
        rw [Option.filter_some, if_pos h.target]
      cases literal with
      | error f =>
        simp only [SlotProgress.step, hpending]
        exact .error _
      | ok l =>
        obtain ⟨s', hs, hfits⟩ := h.extend line l
        simp only [SlotProgress.step, hpending, hs]
        exact .ok (.busy hfits)

theorem Agrees.run (h : Agrees p q) (line : Nat) (ls : List (List Char)) :
    Follows (p.run line ls) (q.run line ls) := by
  induction ls generalizing p q line with
  | nil => exact .ok h
  | cons cs ls ih =>
    have hstep := h.step line (Line.read cs)
    unfold SlotProgress.run Progress.run
    generalize p.step line (Line.read cs) = x, q.step line (Line.read cs) = y at hstep
    cases hstep with
    | ok h => exact ih h (line + 1)
    | error e => exact .error e

/-- The slots of an entry are filled when it is finished. -/
theorem Agrees.finish (h : Agrees p q) : p.finish = q.finish.mapError .parse := by
  cases h with
  | idle => rfl
  | busy h => cases h <;> rfl

end Simulation

/-- **No slot is ever found empty.** A text is read with slots as it is read in stages, with the
same entries or the same fault. -/
theorem parseInSlots_eq (text : String) : parseInSlots text = (parse text).mapError .parse := by
  have hrun : Follows (SlotProgress.run ⟨[], none⟩ 1 (lines (dropMark text.toList)))
      (Progress.start.run 1 (lines (dropMark text.toList))) := Agrees.idle.run 1 _
  unfold parseInSlots parse parseLines
  generalize SlotProgress.run ⟨[], none⟩ 1 (lines (dropMark text.toList)) = x,
    Progress.start.run 1 (lines (dropMark text.toList)) = y at hrun
  cases hrun with
  | ok h => exact h.finish
  | error e => rfl

end CatalogLint.Catalog
