import CatalogLint.Proofs.Catalog.Faults
import CatalogLint.Proofs.Catalog.Regions
import Mathlib.Data.List.Induction

/-!
# The first line that cannot be right

A text that is no catalog is at fault on the first line after which nothing can make it one. Before
that line what was read can still be finished, and how depends on the draft alone.

* `Progress.run_completion`: **whatever has been read can be finished.**
* `Progress.run_opensLast`: where the entry at hand was opened.
* `errors_at_first_bad_line`: **the lines before the fault begin a catalog, and no text that goes on
  after the fault is one**; an entry without a value is told of where it was opened.
* `errors_point_at_fault`: **the column of a fault is that of the character at fault.**
-/

namespace CatalogLint.Catalog

open CatalogLint.Text

section Runs

variable {p : Progress} {n : Nat}

theorem Progress.run_append (p : Progress) (n : Nat) (ls ls' : List (List Char)) :
    p.run n (ls ++ ls') = p.run n ls >>= fun q => q.run (n + ls.length) ls' := by
  induction ls generalizing p n with
  | nil => rfl
  | cons cs ls ih =>
    rw [List.cons_append, Progress.run, Progress.run]
    cases p.step n (Line.read cs) with
    | error e => rfl
    | ok q =>
      have hn : n + 1 + ls.length = n + (cs :: ls).length := by
        rw [List.length_cons]
        omega
      have h := ih q (n + 1)
      rw [hn] at h
      exact h

/-- Lines that can be read up to the last one. -/
theorem Progress.run_concat_ok {q : Progress} {ls : List (List Char)} {cs : List Char}
    (h : p.run n (ls ++ [cs]) = .ok q) :
    ∃ p', p.run n ls = .ok p' ∧ p'.step (n + ls.length) (Line.read cs) = .ok q := by
  rw [Progress.run_append] at h
  cases hp : p.run n ls with
  | error e =>
    rw [hp] at h
    cases h
  | ok p' =>
    refine ⟨p', rfl, ?_⟩
    rw [hp] at h
    cases hs : p'.step (n + ls.length) (Line.read cs) with
    | error e => simp [Progress.run, hs, bind, Except.bind] at h
    | ok q' => simpa [Progress.run, hs, bind, Except.bind] using h

/-- A run fails at a line before which it did not. -/
theorem Progress.run_error {ls : List (List Char)} {e : ParseError} (h : p.run n ls = .error e) :
    ∃ before cs after q, ls = before ++ cs :: after ∧ p.run n before = .ok q ∧
      q.step (n + before.length) (Line.read cs) = .error e := by
  induction ls generalizing p n with
  | nil => cases h
  | cons cs ls ih =>
    rw [Progress.run] at h
    cases hs : p.step n (Line.read cs) with
    | error e' =>
      rw [hs] at h
      obtain rfl := Except.error.inj h
      exact ⟨[], cs, ls, p, rfl, rfl, hs⟩
    | ok p' =>
      rw [hs] at h
      obtain ⟨before, cs', after, q, rfl, hrun, hstep⟩ := ih h
      refine ⟨cs :: before, cs', after, q, rfl, ?_, ?_⟩
      · rw [Progress.run, hs]
        exact hrun
      · rw [List.length_cons, ← Nat.add_assoc, Nat.add_right_comm]
        exact hstep

/-- Lines are refused at one of them, or at their end. -/
theorem parseLines_error {ls : List (List Char)} {e : ParseError} (h : parseLines ls = .error e) :
    (∃ before cs after p, ls = before ++ cs :: after ∧ Progress.start.run 1 before = .ok p ∧
      p.step (1 + before.length) (Line.read cs) = .error e) ∨
    ∃ p, Progress.start.run 1 ls = .ok p ∧ p.finish = .error e := by
  unfold parseLines at h
  cases hr : Progress.start.run 1 ls with
  | error e' =>
    rw [hr] at h
    obtain rfl := Except.error.inj h
    exact .inl (Progress.run_error hr)
  | ok p =>
    rw [hr] at h
    exact .inr ⟨p, rfl, h⟩

end Runs

section Completion

/-- Lines after which nothing is left unfinished. -/
def Progress.completion (p : Progress) : List (List Char) :=
  match p.draft with
  | none | some (.body ..) => [[]]
  | some (.context ..) => ["msgid\"\"".toList, "msgstr\"\"".toList]
  | some (.head _) => ["msgstr\"\"".toList]

theorem Progress.unbroken_completion (p : Progress) : ∀ l ∈ p.completion, Unbroken l := by
  unfold Progress.completion Unbroken
  split <;> decide

/-- **Whatever has been read can be finished.** -/
theorem Progress.run_completion (p : Progress) (n : Nat) :
    ∃ q catalog, p.run n p.completion = .ok q ∧ q.finish = .ok catalog := by
  obtain ⟨entries, draft⟩ := p
  rcases draft with _ | ⟨opened, text⟩ | ⟨h⟩ | ⟨h, span, earlier, last⟩
  · exact ⟨_, _, rfl, rfl⟩
  · exact ⟨_, _, rfl, rfl⟩
  · exact ⟨_, _, rfl, rfl⟩
  · exact ⟨_, _, rfl, rfl⟩

/-- Lines that can be read begin the lines of a catalog. -/
theorem exists_catalog {ls : List (List Char)} {p : Progress} (hu : ∀ l ∈ ls, Unbroken l)
    (hp : Progress.start.run 1 ls = .ok p) :
    ∃ text catalog, ls <+: lines (dropMark text.toList) ∧ parse text = .ok catalog := by
  obtain ⟨q, catalog, hrun, hfinish⟩ := p.run_completion (1 + ls.length)
  have hne : ls ++ p.completion ≠ [] := by
    unfold Progress.completion
    split <;> simp
  have hunbroken : ∀ l ∈ ls ++ p.completion, Unbroken l := by
    intro l hl
    rcases List.mem_append.1 hl with hl | hl
    · exact hu l hl
    · exact p.unbroken_completion l hl
  obtain ⟨text, htext⟩ := exists_text hne hunbroken
  refine ⟨text, catalog, htext ▸ List.prefix_append ls _, ?_⟩
  unfold parse parseLines
  rw [htext, Progress.run_append, hp]
  show p.run (1 + ls.length) p.completion >>= Progress.finish = _
  rw [hrun]
  exact hfinish

end Completion

section Opened

/-- Line `n` opens the last entry of lines, which has no value: before it stand whole entries, on
it a context or a key, and after it no value. -/
def OpensLast (ls : List (List Char)) (n : Nat) : Prop :=
  ∃ before opening after k t catalog, ls = before ++ opening :: after ∧ n = before.length + 1 ∧
    parseLines before = .ok catalog ∧ (k = .msgctxt ∨ k = .msgid) ∧
    LineSpells opening (.field k t) ∧ ∀ l ∈ after, ∀ t, ¬ LineSpells l (.field .msgstr t)

/-- The line that opened the entry at hand, as long as it has no value. -/
def Progress.openedAt? (p : Progress) : Option Nat :=
  match p.draft with
  | some (.context line _) => some line
  | some (.head h) => some h.line
  | _ => none

variable {p q : Progress} {n line : Nat} {cs : List Char}

theorem Progress.finish_error {e : ParseError} (h : p.finish = .error e) :
    p.openedAt? = some e.line ∧ e.column = 1 ∧ e.reason = .valueless := by
  unfold Progress.finish at h
  unfold Progress.openedAt?
  split at h <;> cases h <;> simp_all

theorem Progress.finish_of_openedAt? (h : p.openedAt? = none) :
    ∃ catalog, p.finish = .ok catalog := by
  unfold Progress.openedAt? at h
  unfold Progress.finish
  rcases hd : p.draft with _ | ⟨opened, text⟩ | ⟨h'⟩ | ⟨h', span, earlier, last⟩
  · exact ⟨_, rfl⟩
  · rw [hd] at h
    cases h
  · rw [hd] at h
    cases h
  · exact ⟨_, rfl⟩

theorem spells_field_iff {k : Keyword} {t : String} : LineSpells cs (.field k t) ↔
    ∃ column l, Line.read cs = .field k column (.ok l) ∧ l.value = t := by
  rw [lineSpells_iff]
  constructor
  · rintro ⟨t', ht, hmap⟩
    cases t' with
    | continuation l => cases hmap
    | field k' l =>
      obtain ⟨rfl, rfl⟩ := by simpa [Token.map] using hmap
      obtain ⟨column, hr⟩ := Line.token?_eq_field.1 ht
      exact ⟨column, l, hr, rfl⟩
  · rintro ⟨column, l, hr, rfl⟩
    exact ⟨.field k l, Line.token?_eq_field.2 ⟨column, hr⟩, rfl⟩

/-- An entry without a value was there before the line, which then holds no value, or is opened on
the line. -/
theorem Progress.step_openedAt? (h : p.step line (Line.read cs) = .ok q)
    (hq : q.openedAt? = some n) :
    (p.openedAt? = some n ∧ ∀ t, ¬ LineSpells cs (.field .msgstr t)) ∨
    (p.openedAt? = none ∧ n = line ∧
      ∃ k t, (k = .msgctxt ∨ k = .msgid) ∧ LineSpells cs (.field k t)) := by
  have hother : (∀ column l, Line.read cs ≠ .field .msgstr column (.ok l)) →
      ∀ t, ¬ LineSpells cs (.field .msgstr t) := by
    intro hne t ht
    obtain ⟨column, l, hr, -⟩ := spells_field_iff.1 ht
    exact hne column l hr
  cases hl : Line.read cs with
  | skipped =>
    rw [hl] at h
    obtain rfl := Except.ok.inj h
    exact .inl ⟨hq, hother (by simp [hl])⟩
  | unexpected column word =>
    rw [hl] at h
    cases h
  | continuation column literal =>
    rw [hl] at h
    refine .inl ⟨?_, hother (by simp [hl])⟩
    rcases literal with f | l
    · rcases hd : p.draft with _ | d <;> simp [Progress.step, hd] at h
    · obtain ⟨entries, draft⟩ := p
      -- one more literal changes neither the kind of the draft nor its line
      rcases draft with _ | ⟨opened, text⟩ | ⟨h'⟩ | ⟨h', span, _ | ⟨v, vs⟩, last⟩
      · cases h
      · obtain rfl := Except.ok.inj h
        exact hq
      · obtain rfl := Except.ok.inj h
        obtain ⟨opened, context, key, keySpan, _ | plural⟩ := h' <;> exact hq
      · obtain rfl := Except.ok.inj h
        exact hq
      · obtain rfl := Except.ok.inj h
        exact hq
  | field k column literal =>
    rw [hl] at h
    rcases literal with f | l
    · cases h
    · have hspells : LineSpells cs (.field k l.value) := spells_field_iff.2 ⟨column, l, hl, rfl⟩
      obtain ⟨entries, draft⟩ := p
      cases k with
      | msgctxt =>
        rcases draft with _ | ⟨opened, text⟩ | ⟨h'⟩ | ⟨h', span, earlier, last⟩ <;> cases h <;>
          exact .inr ⟨rfl, (Option.some.inj hq).symm, .msgctxt, _, .inl rfl, hspells⟩
      | msgid =>
        rcases draft with _ | ⟨opened, text⟩ | ⟨h'⟩ | ⟨h', span, earlier, last⟩ <;> cases h
        · exact .inr ⟨rfl, (Option.some.inj hq).symm, .msgid, _, .inr rfl, hspells⟩
        · exact .inl ⟨hq, hother (by simp [hl])⟩
        · exact .inr ⟨rfl, (Option.some.inj hq).symm, .msgid, _, .inr rfl, hspells⟩
      | msgidPlural =>
        rcases draft with _ | ⟨opened, text⟩ | ⟨_, _, _, _, _ | _⟩ | ⟨h', span, earlier, last⟩ <;>
          cases h
        exact .inl ⟨hq, hother (by simp [hl])⟩
      | msgstr =>
        rcases draft with _ | ⟨opened, text⟩ | ⟨h'⟩ | ⟨h', span, earlier, last⟩ <;> cases h <;>
          cases hq

/-- **Where the entry at hand was opened**: on the line that opens the last entry of all. -/
theorem Progress.run_opensLast {ls : List (List Char)} (h : Progress.start.run 1 ls = .ok p) :
    ∀ n, p.openedAt? = some n → OpensLast ls n := by
  induction ls using List.reverseRecOn generalizing p with
  | nil =>
    intro n hn
    obtain rfl := Except.ok.inj h
    cases hn
  | append_singleton ls cs ih =>
    intro n hn
    obtain ⟨p', hrun, hstep⟩ := Progress.run_concat_ok h
    rcases Progress.step_openedAt? hstep hn with ⟨hold, hno⟩ | ⟨hnone, rfl, k, t, hk, hspells⟩
    · obtain ⟨before, opening, after, k, t, catalog, rfl, hline, hp, hk, hs, hafter⟩ :=
        ih hrun n hold
      refine ⟨before, opening, after ++ [cs], k, t, catalog, by simp, hline, hp, hk, hs, ?_⟩
      intro l hl
      rcases List.mem_append.1 hl with hl | hl
      · exact hafter l hl
      · rw [List.mem_singleton.1 hl]
        exact hno
    · obtain ⟨catalog, hfinish⟩ := Progress.finish_of_openedAt? hnone
      have hparse : parseLines ls = .ok catalog := by
        unfold parseLines
        rw [hrun]
        exact hfinish
      exact ⟨ls, cs, [], k, t, catalog, rfl, Nat.add_comm _ _, hparse, hk, hspells, by simp⟩

end Opened

/-- **Faults are reported on the first line that cannot be right.** If a text is refused for
anything but an entry without a value, the lines before the one that is reported begin some
catalog, but every text that begins with the lines up to that one is refused for the same reason in
the same place. If it is refused for an entry without a value, all of it begins some catalog, and
the line that is reported opened the last entry. -/
theorem errors_at_first_bad_line {text : String} {e : ParseError} (h : parse text = .error e) :
    let ls := lines (dropMark text.toList)
    (e.reason ≠ .valueless → 1 ≤ e.line ∧ e.line ≤ ls.length ∧
      (∃ text' catalog, ls.take (e.line - 1) <+: lines (dropMark text'.toList) ∧
        parse text' = .ok catalog) ∧
      ∀ text', ls.take e.line <+: lines (dropMark text'.toList) → parse text' = .error e) ∧
    (e.reason = .valueless →
      (∃ text' catalog, ls <+: lines (dropMark text'.toList) ∧ parse text' = .ok catalog) ∧
      OpensLast ls e.line) := by
  intro ls
  have hu : ∀ l ∈ ls, Unbroken l := fun l hl => unbroken_of_mem_lines hl
  rcases parseLines_error h with ⟨before, cs, after, p, hls, hrun, hstep⟩ | ⟨p, hrun, hfinish⟩
  · obtain ⟨hline, hpoints⟩ := Progress.step_error hstep
    have hreason : e.reason ≠ .valueless := by
      intro hr
      rw [hr] at hpoints
      exact hpoints
    refine ⟨fun _ => ?_, fun hr => absurd hr hreason⟩
    have hbefore : ls.take (e.line - 1) = before := by
      rw [hline, Nat.add_sub_cancel_left, show ls = before ++ cs :: after from hls, List.take_left]
    have hupto : ls.take e.line = before ++ [cs] := by
      rw [hline, Nat.add_comm, show ls = before ++ [cs] ++ after by simpa using hls,
        List.take_left' (by simp)]
    refine ⟨by omega, ?_, ?_, ?_⟩
    · rw [hline, show ls = before ++ cs :: after from hls, List.length_append, List.length_cons]
      omega
    · rw [hbefore]
      apply exists_catalog _ hrun
      intro l hl
      apply hu
      rw [show ls = before ++ cs :: after from hls]
      exact List.mem_append_left _ hl
    · rintro text' ⟨more, hmore⟩
      rw [hupto] at hmore
      unfold parse parseLines
      rw [← hmore, List.append_assoc, Progress.run_append, hrun]
      show (p.run (1 + before.length) (cs :: more) >>= Progress.finish) = _
      rw [Progress.run, hstep]
      rfl
  · obtain ⟨hopened, -, hreason⟩ := Progress.finish_error hfinish
    refine ⟨fun hr => absurd hreason hr, fun _ => ⟨exists_catalog hu hrun, ?_⟩⟩
    exact Progress.run_opensLast hrun _ hopened

/-- Nothing that follows can mend a key that comes too early; a context alone can be finished, and
is told of on its own line. -/
theorem errors_at_first_bad_line_early :
    parse "msgid \"a\"\n# note\n  msgid \"b\"\nmsgstr \"\"" =
        .error ⟨3, 3, .openedTooEarly .msgid⟩ ∧
      parse "msgid \"a\"\n# note\n  msgid \"b\"\r\"c\"\r\nmsgstr \"x\"" =
        .error ⟨3, 3, .openedTooEarly .msgid⟩ ∧
      parse "msgid \"a\"\nmsgstr \"\"\nmsgctxt \"b\"\n\"c\"" = .error ⟨3, 1, .valueless⟩ ∧
      OpensLast ["msgid \"a\"".toList, "msgstr \"\"".toList, "msgctxt \"b\"".toList,
        "\"c\"".toList] 3 := by
  have h : parse "msgid \"a\"\n# note\n  msgid \"b\"\nmsgstr \"\"" =
      .error ⟨3, 3, .openedTooEarly .msgid⟩ := by decide +kernel
  have h' : parse "msgid \"a\"\nmsgstr \"\"\nmsgctxt \"b\"\n\"c\"" =
      .error ⟨3, 1, .valueless⟩ := by decide +kernel
  obtain ⟨-, -, -, hsame⟩ := (errors_at_first_bad_line h).1 (by decide)
  refine ⟨h, hsame _ ?_, h', ((errors_at_first_bad_line h').2 rfl).2⟩
  exact ⟨["\"c\"".toList, "msgstr \"x\"".toList], by decide +kernel⟩

section Columns

/-- Where a syntax error is reported. -/
def ParseError.position (e : ParseError) : Position := ⟨e.line, e.column⟩

/-- The character that a reason points at stands on the line, and is not blank. -/
theorem PointsAt.char {cs : List Char} {column : Nat} {r : Reason} (h : PointsAt cs column r) :
    1 ≤ column ∧ ∃ c, cs[column - 1]? = some c ∧ isBlank c = false := by
  have hat : ∀ (before rest : List Char) (c : Char), isBlank c = false →
      1 ≤ before.length + 1 ∧ ∃ x, (before ++ c :: rest)[before.length + 1 - 1]? = some x ∧
        isBlank x = false := by
    intro before rest c hc
    exact ⟨by omega, c, by simp, hc⟩
  cases r with
  | unterminated =>
    obtain ⟨opening, rest, -, rfl, -, rfl⟩ := h
    exact hat opening rest '"' (by decide)
  | badEscape c =>
    obtain ⟨opening, body, ds, rest, -, -, rfl, -, rfl⟩ := h
    exact hat _ _ '\\' (by decide)
  | trailingText =>
    obtain ⟨line, c, rest, t, -, hc, rfl, rfl⟩ := h
    exact hat line rest c hc
  | valueless => exact h.elim
  | strayLiteral | unexpectedWord _ | openedTooEarly _ | missingKey _ | misplacedPlural =>
    obtain ⟨indent, c, rest, -, hc, rfl, rfl⟩ := h
    exact hat indent rest c hc

end Columns

/-- **The column of a fault is that of the character at fault.** A syntax error is reported on one
of the lines of the text. An entry without a value is reported in the first column. For any other
reason a character that is not blank stands in the column that is reported, and it is the one that
the reason points at. -/
theorem errors_point_at_fault {text : String} {e : ParseError} (h : parse text = .error e) :
    let ls := lines (dropMark text.toList)
    1 ≤ e.line ∧ e.line ≤ ls.length ∧ (e.reason = .valueless → e.column = 1) ∧
      (e.reason ≠ .valueless → ∃ cs c, lineAt? ls e.position = some cs ∧
        charAt? ls e.position = some c ∧ isBlank c = false ∧ PointsAt cs e.column e.reason) := by
  intro ls
  rcases parseLines_error h with ⟨before, cs, after, p, hls, -, hstep⟩ | ⟨p, hrun, hfinish⟩
  · have hls' : ls = before ++ cs :: after := hls
    obtain ⟨hline, hpoints⟩ := Progress.step_error hstep
    obtain ⟨hcolumn, c, hc, hblank⟩ := hpoints.char
    have hat : lineAt? ls e.position = some cs := by
      rw [hls']
      apply lineAt?_append
      rw [ParseError.position, hline]
    have hlength : ls.length = before.length + (after.length + 1) := by
      rw [hls', List.length_append, List.length_cons]
    refine ⟨by omega, by omega, ?_, fun _ => ⟨cs, c, hat, ?_, hblank, hpoints⟩⟩
    · intro hr
      rw [hr] at hpoints
      exact hpoints.elim
    · rw [charAt?_of_lineAt? hat hcolumn rfl, hc]
  · obtain ⟨hopened, hcolumn, hreason⟩ := Progress.finish_error hfinish
    obtain ⟨before, opening, after, -, -, -, hls, hline, -⟩ := Progress.run_opensLast hrun _ hopened
    have hlength : ls.length = before.length + (after.length + 1) := by
      rw [show ls = before ++ opening :: after from hls, List.length_append, List.length_cons]
    exact ⟨by omega, by omega, fun _ => hcolumn, fun hr => absurd hreason hr⟩

/-- The backslash of what is no escape, after an escape that is one, and text after a literal. -/
theorem errors_point_at_fault_escape :
    parse "msgid \"a\"\n msgstr[0] \"\\101\\q\" z" = .error ⟨2, 17, .badEscape 'q'⟩ ∧
      parse "msgid \"a\"\n msgstr[0] \"\\101\" z" = .error ⟨2, 19, .trailingText⟩ ∧
      PointsAt " msgstr[0] \"\\101\\q\" z".toList 17 (.badEscape 'q') ∧
      PointsAt " msgstr[0] \"\\101\" z".toList 19 .trailingText := by
  have h : parse "msgid \"a\"\n msgstr[0] \"\\101\\q\" z" = .error ⟨2, 17, .badEscape 'q'⟩ := by
    decide +kernel
  have h' : parse "msgid \"a\"\n msgstr[0] \"\\101\" z" = .error ⟨2, 19, .trailingText⟩ := by
    decide +kernel
  obtain ⟨cs, c, hl, -, -, hp⟩ := (errors_point_at_fault h).2.2.2 (by decide)
  obtain ⟨cs', c', hl', -, -, hp'⟩ := (errors_point_at_fault h').2.2.2 (by decide)
  refine ⟨h, h', ?_, ?_⟩
  · rwa [← Option.some.inj hl] at hp
  · rwa [← Option.some.inj hl'] at hp'

end CatalogLint.Catalog
