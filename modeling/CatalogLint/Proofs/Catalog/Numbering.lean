import CatalogLint.Proofs.Catalog.FirstFault

/-!
# Line numbers

Lines are numbered as they come, and nothing that a catalog says depends on the numbers. So if lines
get other numbers, the same is read with these numbers in its place: in finished entries, in the
entry at hand, and in faults.

* `Progress.step_relined`, `Progress.run_relined`, `Progress.finish_relined`: **reading lines under
  other numbers gives the same result, with the other numbers**.
* `TextOf`: the text of lines, whatever their ends.
* `remarks_shift_lines`: **a blank line or a comment, put in anywhere, moves what comes after it
  down by one line, and does nothing else.**
-/

namespace CatalogLint

/-- The position with the number `f n` for its line `n`. -/
def Position.relined (f : Nat → Nat) (p : Position) : Position := { p with line := f p.line.toNat }

def Span.relined (f : Nat → Nat) (s : Span) : Span := ⟨s.start.relined f, s.stop.relined f⟩

def Entry.relined (f : Nat → Nat) (e : Entry) : Entry :=
  { e with keySpan := e.keySpan.relined f, valueSpan := e.valueSpan.map (·.relined f) }

namespace Catalog

open CatalogLint.Text

def ParseError.relined (f : Nat → Nat) (e : ParseError) : ParseError := { e with line := f e.line }

def Head.relined (f : Nat → Nat) (h : Head) : Head :=
  { h with line := f h.line, keySpan := h.keySpan.relined f }

def Draft.relined (f : Nat → Nat) : Draft → Draft
  | context line text => .context (f line) text
  | head h => .head (h.relined f)
  | body h span earlier last => .body (h.relined f) (span.relined f) earlier last

def Progress.relined (f : Nat → Nat) (p : Progress) : Progress :=
  ⟨p.entries.map (·.relined f), p.draft.map (·.relined f)⟩

/-- What is read, or why nothing is, with other line numbers: `g` gives them to what is read. -/
def relinedResult {α : Type} (f : Nat → Nat) (g : α → α) :
    Except ParseError α → Except ParseError α
  | .ok a => .ok (g a)
  | .error e => .error (e.relined f)

theorem relinedResult_bind {α β : Type} {f : Nat → Nat} {g : α → α} {g' : β → β}
    {h h' : α → Except ParseError β} (hh : ∀ a, h' (g a) = relinedResult f g' (h a))
    (x : Except ParseError α) : relinedResult f g x >>= h' = relinedResult f g' (x >>= h) := by
  cases x with
  | error e => rfl
  | ok a => exact hh a

section Numbers

variable (f : Nat → Nat) (p : Progress) (n : Nat)

theorem Draft.extend_relined (l : Literal) (d : Draft) :
    (d.extend n l).relined f = (d.relined f).extend (f n) l := by
  cases d with
  | context opened text => rfl
  | head h => obtain ⟨opened, context, key, keySpan, _ | plural⟩ := h <;> rfl
  | body h span earlier last => cases earlier <;> rfl

theorem Progress.field_relined (column : Nat) (l : Literal) (k : Keyword) :
    (p.relined f).field (f n) column l k =
      relinedResult f (·.relined f) (p.field n column l k) := by
  obtain ⟨entries, draft⟩ := p
  cases k with
  | msgidPlural =>
    rcases draft with _ | ⟨opened, text⟩ | ⟨opened, context, key, keySpan, _ | plural⟩ | _ <;> rfl
  | _ => rcases draft with _ | ⟨opened, text⟩ | h | ⟨h, span, earlier, last⟩ <;> rfl

/-- A line under another number. -/
theorem Progress.step_relined (l : Line) :
    (p.relined f).step (f n) l = relinedResult f (·.relined f) (p.step n l) := by
  cases l with
  | skipped => rfl
  | unexpected column word => rfl
  | continuation column literal =>
    obtain ⟨entries, _ | d⟩ := p
    · rfl
    · cases literal with
      | error e => rfl
      | ok l =>
        have hextend := d.extend_relined f n l
        simp only [step, relined, Option.map_some, relinedResult, hextend]
  | field k column literal =>
    cases literal with
    | error e => rfl
    | ok l => exact p.field_relined f n column l k

/-- **Lines under other numbers**: `f` says which, and they begin with `m`. -/
theorem Progress.run_relined {m : Nat} {ls : List (List Char)}
    (hf : ∀ i < ls.length, f (n + i) = m + i) :
    (p.relined f).run m ls = relinedResult f (·.relined f) (p.run n ls) := by
  induction ls generalizing p n m with
  | nil => rfl
  | cons cs ls ih =>
    have hfirst : f n = m := hf 0 (by simp)
    have hrest : ∀ i < ls.length, f (n + 1 + i) = m + 1 + i := by
      intro i hi
      have hnext : n + 1 + i = n + (i + 1) := by omega
      rw [hnext, hf (i + 1) (by simpa using hi)]
      omega
    have hstep := p.step_relined f n (Line.read cs)
    rw [hfirst] at hstep
    rw [run, run, hstep]
    exact relinedResult_bind (fun q => ih q (n + 1) hrest) _

theorem Progress.finish_relined :
    (p.relined f).finish = relinedResult f (List.map (Entry.relined f)) p.finish := by
  obtain ⟨entries, draft⟩ := p
  rcases draft with _ | ⟨opened, text⟩ | h | ⟨h, span, earlier, last⟩
  · simp [finish, relined, relinedResult]
  · rfl
  · rfl
  · simp [finish, relined, relinedResult, Draft.relined, Head.entry, Head.relined, Entry.relined]

end Numbers

section Texts

variable {ls : List (List Char)} {text : String}

/-- The text of lines, with a line end of any kind between each two of them. No lines make the empty
text. -/
def TextOf (ls : List (List Char)) (text : String) : Prop :=
  ls = [] ∧ text = "" ∨ FallsInto text.toList ls

/-- A text begins as its first line does, or with a line end. -/
theorem FallsInto.head? {cs : List Char} (h : FallsInto cs ls) {c : Char} (hc : isBreak c = false) :
    cs.head? = some c ↔ ls.head?.bind List.head? = some c := by
  have hend : ∀ b l rest, isBreak b = true →
      ((l ++ b :: rest).head? = some c ↔ l.head? = some c) := by
    intro b l rest hb
    cases l with
    | nil =>
      have hne : b ≠ c := by
        rintro rfl
        rw [hb] at hc
        cases hc
      simpa using hne
    | cons x l => rfl
  cases h with
  | last hr hn => rfl
  | feed hr hn hrest => exact hend _ _ _ rfl
  | pair hr hn hrest => exact hend _ _ _ rfl
  | carriage hr hn hhead hrest => exact hend _ _ _ rfl

theorem TextOf.head? (h : TextOf ls text) {c : Char} (hc : isBreak c = false) :
    text.toList.head? = some c ↔ ls.head?.bind List.head? = some c := by
  rcases h with ⟨rfl, rfl⟩ | h
  · rfl
  · exact h.head? hc

/-- Without a byte order mark, a text is read line by line. -/
theorem TextOf.parse_eq (h : TextOf ls text) (hm : text.toList.head? ≠ some '\ufeff') :
    parse text = parseLines ls := by
  unfold parse
  rw [dropMark_eq_unmarked, unmarked, if_neg hm]
  rcases h with ⟨rfl, rfl⟩ | h
  · rfl
  · rw [h.lines_eq]

end Texts

section Remarks

variable {before after : List (List Char)} {remark : List Char}

/-- The number of line `n` once a line has been put in as line `k`. -/
def moved (k n : Nat) : Nat := if k ≤ n then n + 1 else n

/-- Lines that come before keep their numbers. -/
theorem Progress.run_before {ls : List (List Char)} :
    Progress.start.run 1 ls =
      relinedResult (moved (ls.length + 1)) (·.relined (moved (ls.length + 1)))
        (Progress.start.run 1 ls) := by
  refine Progress.start.run_relined (moved (ls.length + 1)) 1 fun i hi => ?_
  unfold moved
  rw [if_neg (by omega)]

/-- A line that is ignored does nothing but take up a number. -/
theorem parseLines_remark (hi : ignored remark = true) :
    parseLines (before ++ remark :: after) =
      relinedResult (moved (before.length + 1))
        (List.map (Entry.relined (moved (before.length + 1)))) (parseLines (before ++ after)) := by
  have hafter : ∀ p : Progress,
      (p.relined (moved (before.length + 1))).run (1 + before.length) (remark :: after) =
        relinedResult (moved (before.length + 1)) (·.relined (moved (before.length + 1)))
          (p.run (1 + before.length) after) := by
    intro p
    rw [Progress.run, Line.read_eq_skipped_iff.2 hi]
    refine p.run_relined _ _ fun i _ => ?_
    unfold moved
    rw [if_pos (by omega)]
    omega
  have hrun : Progress.start.run 1 (before ++ remark :: after) =
      relinedResult (moved (before.length + 1)) (·.relined (moved (before.length + 1)))
        (Progress.start.run 1 (before ++ after)) := by
    rw [Progress.run_append, Progress.run_append]
    conv_lhs => rw [Progress.run_before]
    exact relinedResult_bind hafter _
  unfold parseLines
  rw [hrun]
  exact relinedResult_bind (fun q => q.finish_relined _) _

theorem head?_of_ignored (hi : ignored remark = true) : remark.head? ≠ some '\ufeff' := by
  intro h
  cases remark with
  | nil => cases h
  | cons c cs =>
    obtain rfl := Option.some.inj h
    cases hi

end Remarks

/-- **Blank lines and comments only shift line numbers.** A line that is blank or a comment is put
into a text that does not begin with a byte order mark, before its first line or after any other.
Then the same is read as before, or the text is refused for the same reason and in the same column,
and the numbers of the lines that come after the new one are larger by one: wherever an entry tells
of them, at either end of a span, and in the place of the fault. -/
theorem remarks_shift_lines {before after : List (List Char)} {remark : List Char}
    {text text' : String} (hi : ignored remark = true) (ht : TextOf (before ++ after) text)
    (hm : text.toList.head? ≠ some '\ufeff') (ht' : TextOf (before ++ remark :: after) text') :
    parse text' =
      relinedResult (moved (before.length + 1))
        (List.map (Entry.relined (moved (before.length + 1)))) (parse text) := by
  have hm' : text'.toList.head? ≠ some '\ufeff' := by
    have hbreak : isBreak '\ufeff' = false := by decide
    rw [Ne, ht.head? hbreak] at hm
    rw [Ne, ht'.head? hbreak]
    cases before with
    | nil => exact head?_of_ignored hi
    | cons l before => exact hm
  rw [ht.parse_eq hm, ht'.parse_eq hm']
  exact parseLines_remark hi

/-- An obsolete entry between the literals of a key: only the end of the key moves. A blank line in
front of a context without a key: the fault moves. -/
theorem remarks_shift_lines_within :
    ignored " #~ msgid \"z\"".toList = true ∧ ignored ['\t'] = true ∧
      parse "msgid \"a\"\n \"b\"\r\nmsgstr \"\"" =
        .ok [⟨"ab", ⟨⟨1, 7⟩, ⟨2, 5⟩⟩, [""], some ⟨⟨3, 8⟩, ⟨3, 10⟩⟩, none, none⟩] ∧
      parse "msgid \"a\"\r #~ msgid \"z\"\n \"b\"\nmsgstr \"\"" =
        .ok [⟨"ab", ⟨⟨1, 7⟩, ⟨3, 5⟩⟩, [""], some ⟨⟨4, 8⟩, ⟨4, 10⟩⟩, none, none⟩] ∧
      parse "msgctxt \"c\"" = .error ⟨1, 1, .valueless⟩ ∧
      parse "\t\nmsgctxt \"c\"" = .error ⟨2, 1, .valueless⟩ := by
  have hkey : TextOf (["msgid \"a\"".toList] ++ [" \"b\"".toList, "msgstr \"\"".toList])
      "msgid \"a\"\n \"b\"\r\nmsgstr \"\"" := .inr (lines_eq_iff.1 (by decide +kernel))
  have hkey' : TextOf (["msgid \"a\"".toList] ++
      " #~ msgid \"z\"".toList :: [" \"b\"".toList, "msgstr \"\"".toList])
      "msgid \"a\"\r #~ msgid \"z\"\n \"b\"\nmsgstr \"\"" :=
    .inr (lines_eq_iff.1 (by decide +kernel))
  have hcontext : TextOf ([] ++ ["msgctxt \"c\"".toList]) "msgctxt \"c\"" :=
    .inr (lines_eq_iff.1 (by decide +kernel))
  have hcontext' : TextOf ([] ++ ['\t'] :: ["msgctxt \"c\"".toList]) "\t\nmsgctxt \"c\"" :=
    .inr (lines_eq_iff.1 (by decide +kernel))
  have hp : parse "msgid \"a\"\n \"b\"\r\nmsgstr \"\"" =
      .ok [⟨"ab", ⟨⟨1, 7⟩, ⟨2, 5⟩⟩, [""], some ⟨⟨3, 8⟩, ⟨3, 10⟩⟩, none, none⟩] := by decide +kernel
  have hp' : parse "msgctxt \"c\"" = .error ⟨1, 1, .valueless⟩ := by decide +kernel
  have hi : ignored " #~ msgid \"z\"".toList = true := by decide +kernel
  refine ⟨hi, rfl, hp, ?_, hp', ?_⟩
  · rw [remarks_shift_lines hi hkey (by decide +kernel) hkey', hp]
    rfl
  · rw [remarks_shift_lines rfl hcontext (by decide +kernel) hcontext', hp']
    rfl

end Catalog

end CatalogLint
