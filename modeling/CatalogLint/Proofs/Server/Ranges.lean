import CatalogLint.Proofs.Catalog.Regions
import CatalogLint.Proofs.Duplicates.Exact
import CatalogLint.Proofs.Server.Places
import CatalogLint.Proofs.Validation.Founded
import CatalogLint.Server.Basic

/-!
# Published ranges

A range that the server publishes starts at the opening quote of a key and ends after the last
closing quote of the same key. The client gets both places in its own units, right as long as an
editor's lines are those of a catalog and the client can be told what stands on the line.

* `Encloses`: what comes before the key of an entry, and what comes up to its end.
* `Points`: a range for a client that stands for the place of an entry's key.
* `Shows`: a report for a client, whose ranges stand for an entry and for all with the same key.
* `exists_encloses`, `Encloses.told`: the place of a key, and what a client is told about it.
* `act_published`: what a client sees are reports on the text that a document has.
* `published_ranges_point`: **every range that is published points at its own key.**
-/

namespace CatalogLint

open Text
open Catalog (Delimits charAt? lineAt? lines_eq_iff toOption_eq_some_iff)

/-- The key of `entry` stands in the text `cs` after `before`, where its first quote is, and up to
the last quote of `upto`. -/
structure Encloses (cs : List Char) (entry : Entry) (before upto : List Char) : Prop where
  opens : before ++ ['"'] <+: cs
  closes : upto <+: cs
  quote : upto.getLast? = some '"'
  start : positionAfter before = entry.keySpan.start
  stop : positionAfter upto = entry.keySpan.stop
  delimits : Delimits (lines (dropMark cs)) .msgid entry.keySpan entry.key

/-- The range `r` is what a client is told for the place of an entry's key. -/
structure Points (e : Encoding) (cs : List Char) (entry : Entry) (r : Range) : Prop where
  enclosed : ∃ before upto, Encloses cs entry before upto
  told : ∀ before upto, Encloses cs entry before upto →
    Told e cs before r.start ∧ Told e cs upto r.stop

/-- The report `m` is on `entry`: its own range points at the key of the entry, and the related ones
point at those of all entries with the same key, in document order. -/
structure Shows (e : Encoding) (text : String) (catalog : Catalog) (entry : Entry)
    (m : Server.Message) : Prop where
  own : Points e text.toList entry m.range
  related : List.Forall₂ (Points e text.toList) (definitions catalog entry.key)
    (m.related.map (·.range))

section Places

theorem charAt?_eq_some {ls : List (List Char)} {p : Position} {c : Char}
    (h : charAt? ls p = some c) :
    ∃ pre l post, ∃ n : Nat,
      ls = pre ++ l :: post ∧ p = ⟨pre.length + 1, n + 1⟩ ∧ l[n]? = some c := by
  obtain ⟨line, column⟩ := p
  unfold charAt? at h
  split at h
  · cases h
  · rename_i hcolumn
    obtain ⟨l, hl, hc⟩ := Option.bind_eq_some_iff.1 h
    unfold lineAt? at hl
    split at hl
    · cases hl
    · rename_i hline
      simp only at hcolumn hline hl hc
      obtain ⟨hlt, rfl⟩ := List.getElem?_eq_some_iff.1 hl
      refine ⟨ls.take (line.toNat - 1), _, ls.drop (line.toNat - 1 + 1), column.toNat - 1, ?_, ?_,
        hc⟩
      · rw [← List.drop_eq_getElem_cons, List.take_append_drop]
      · rw [List.length_take_of_le hlt.le, Position.mk.injEq]
        omega

/-- **The place of a key.** -/
theorem exists_encloses {cs : List Char} {entry : Entry}
    (h : Delimits (lines (dropMark cs)) .msgid entry.keySpan entry.key) :
    ∃ before upto, Encloses cs entry before upto := by
  obtain ⟨pre, l, post, n, hls, hstart, hopen⟩ := charAt?_eq_some h.opening
  obtain ⟨pre', l', post', n', hls', hstop, hclose⟩ := charAt?_eq_some h.closing
  obtain ⟨hn, hquote⟩ := List.getElem?_eq_some_iff.1 hopen
  obtain ⟨hn', hquote'⟩ := List.getElem?_eq_some_iff.1 hclose
  obtain ⟨before, hbefore, -, hpos⟩ := exists_before (lines_eq_iff.1 hls) hn.le
  obtain ⟨upto, hupto, hsuffix, hpos'⟩ := exists_before (lines_eq_iff.1 hls') hn'
  refine ⟨before, upto, ?_, ?_, ?_, hpos.trans hstart.symm, ?_, h⟩
  · have hdrop : ['"'] <+: l.drop n := by
      rw [List.drop_eq_getElem_cons hn, hquote]
      exact ⟨_, rfl⟩
    exact ((List.prefix_append_right_inj before).2 hdrop).trans hbefore
  · exact (List.prefix_append _ _).trans hupto
  · obtain ⟨start, rfl⟩ := hsuffix
    rw [← List.take_append_getElem hn', hquote', ← List.append_assoc]
    exact List.getLast?_concat
  · -- the last quote is the character before the end
    obtain ⟨hline, hcolumn⟩ := Position.mk.inj hstop
    have hstop' : entry.keySpan.stop = ⟨entry.keySpan.stop.line, entry.keySpan.stop.column⟩ := rfl
    rw [hpos', hstop', Position.mk.injEq]
    omega

/-- The place after a text, without the one that a catalog counts from. -/
theorem range_of_positionAfter {s : Span} {before upto : List Char}
    (hstart : positionAfter before = s.start) (hstop : positionAfter upto = s.stop) :
    s.range = ⟨⟨breaks (dropMark before), (lineSoFar (dropMark before)).length⟩,
      ⟨breaks (dropMark upto), (lineSoFar (dropMark upto)).length⟩⟩ := by
  unfold Span.range
  rw [← hstart, ← hstop]
  simp only [positionAfter, Int.add_sub_cancel]

/-- **The place of a key, told to a client.** -/
theorem Encloses.told {cs before upto : List Char} {entry : Entry}
    (h : Encloses cs entry before upto) (e : Encoding) :
    Told e cs before (entry.keySpan.range.inUnits e (editorLinesFrom [] cs)).start ∧
      Told e cs upto (entry.keySpan.range.inUnits e (editorLinesFrom [] cs)).stop := by
  rw [range_of_positionAfter h.start h.stop]
  constructor
  · obtain ⟨after, rfl⟩ := h.opens
    rw [List.append_assoc]
    apply told_inUnits
    · intro _ hfeed
      cases hfeed
    · exact .inr (List.cons_ne_nil _ _)
  · obtain ⟨after, rfl⟩ := h.closes
    apply told_inUnits
    · intro hcarriage
      rw [h.quote] at hcarriage
      cases hcarriage
    · -- a quote ends no line, so that the line is not empty
      left
      obtain ⟨start, rfl⟩ := List.getLast?_eq_some_iff.1 h.quote
      unfold lineSoFar
      rw [List.rtakeWhile_concat_pos _ _ _ rfl]
      exact List.append_ne_nil_of_right_ne_nil _ (List.cons_ne_nil _ _)

theorem points_of_delimits {cs : List Char} {entry : Entry}
    (h : Delimits (lines (dropMark cs)) .msgid entry.keySpan entry.key) (e : Encoding) :
    Points e cs entry (entry.keySpan.range.inUnits e (editorLinesFrom [] cs)) :=
  ⟨exists_encloses h, fun _ _ h => h.told e⟩

end Places

theorem Catalog.parse_delimits {text : String} {catalog : Catalog}
    (h : Catalog.parse text = .ok catalog) {e : Entry} (he : e ∈ catalog) :
    Delimits (lines (dropMark text.toList)) .msgid e.keySpan e.key := by
  obtain ⟨bs, ht, rfl⟩ := Catalog.parseLines_eq_ok_iff.1 h
  obtain ⟨b, hb, rfl⟩ := List.mem_map.1 he
  exact (Catalog.Block.delimits ht hb).1

section Messages

variable {convert : Range → Range}

theorem Place.eq_of_checked {p q : Place} (h : p.checked = .ok q) : q = p := by
  obtain ⟨-, -, h⟩ := exists_of_bind h
  obtain ⟨-, -, h⟩ := exists_of_bind h
  exact (Except.ok.inj h).symm

theorem Range.eq_of_checked {r r' : Range} (h : r.checked = .ok r') : r' = r := by
  obtain ⟨p, hp, h⟩ := exists_of_bind h
  obtain ⟨q, hq, h⟩ := exists_of_bind h
  rw [← Except.ok.inj h, Place.eq_of_checked hp, Place.eq_of_checked hq]

/-- A client gets a range converted, or not at all. -/
theorem Range.eq_of_forClient {r r' : Range} (h : r.forClient convert = .ok r') :
    r' = convert r := by
  obtain ⟨q, hq, h⟩ := exists_of_bind h
  rw [← Range.eq_of_checked hq]
  exact Range.eq_of_checked h

/-- A client gets a report with all its ranges converted, or not at all. -/
theorem Diagnostic.ranges_of_forClient {d : Diagnostic} {m : Server.Message}
    (h : d.forClient convert = .ok m) :
    m.range = convert d.range ∧
      m.related.map (·.range) = d.related.map fun r => convert r.range := by
  obtain ⟨range, hrange, h⟩ := exists_of_bind h
  obtain ⟨related, hrelated, h⟩ := exists_of_bind h
  obtain rfl := Except.ok.inj h
  refine ⟨Range.eq_of_forClient hrange, ?_⟩
  have hranges : List.Forall₂ (· = ·) (related.map (·.range))
      (d.related.map fun r => convert r.range) := by
    rw [List.forall₂_map_left_iff, List.forall₂_map_right_iff]
    apply (forall₂_of_mapM hrelated).flip.imp
    intro r r' hconvert
    obtain ⟨range', hrange', hconvert⟩ := exists_of_bind hconvert
    obtain rfl := Except.ok.inj hconvert
    exact Range.eq_of_forClient hrange'
  rwa [List.forall₂_eq_eq_eq] at hranges

/-- The related ranges of a report are those of all entries with the key. -/
theorem map_range_related {β : Type} (f : Range → β) (catalog : Catalog) (uri : String)
    (severity : Severity) (e : Entry) :
    (report catalog uri severity e).related.map (fun r => f r.range) =
      (definitions catalog e.key).map fun d => f d.keySpan.range := by
  apply List.ext_getElem
  · simp [report]
  · intro n h₁ h₂
    simp [report]

/-- A report on an entry of a catalog, as a client gets it. -/
theorem shows_of_forClient {text uri : String} {catalog : Catalog} {severity : Severity}
    {entry : Entry} {m : Server.Message} {e : Encoding}
    (hparse : Catalog.parse text = .ok catalog) (hmem : entry ∈ catalog)
    (h : (report catalog uri severity entry).forClient
      (·.inUnits e (editorLinesFrom [] text.toList)) = .ok m) :
    Shows e text catalog entry m := by
  have hpoints : ∀ entry ∈ catalog, Points e text.toList entry
      (entry.keySpan.range.inUnits e (editorLinesFrom [] text.toList)) := by
    intro entry hmem
    exact points_of_delimits (Catalog.parse_delimits hparse hmem) e
  obtain ⟨hown, hrelated⟩ := Diagnostic.ranges_of_forClient h
  constructor
  · rw [hown]
    exact hpoints entry hmem
  · rw [hrelated, map_range_related, List.forall₂_map_right_iff, List.forall₂_same]
    intro d hd
    exact hpoints d (mem_definitions.1 hd).1

end Messages

namespace Server

variable {s : Server} {uri : String} {ms : List Message}

theorem mem_seen {e : Encoding} {read : String → Except Log.Cause String}
    {effects : List (Effect TaskResult)} (h : (uri, ms) ∈ (seen e read effects).published) :
    ∃ token ds text, .published token uri ds ∈ effects ∧ read uri = .ok text ∧
      messages e text ds = .ok ms := by
  obtain ⟨effect, heffect, hseen⟩ := List.mem_filterMap.1 h
  cases effect with
  | published token uri' ds =>
    simp only at hseen
    cases hread : read uri' with
    | error cause => rw [hread] at hseen; cases hseen
    | ok text =>
      rw [hread] at hseen
      obtain ⟨ms', hms, heq⟩ := Option.map_eq_some_iff.1 hseen
      obtain ⟨rfl, rfl⟩ := Prod.mk.inj heq
      exact ⟨token, ds, text, heffect, hread, toOption_eq_some_iff.1 hms⟩
  | _ => cases hseen

/-- **What a client sees are reports on the text that a document has.** -/
theorem act_published {event : Validator.Event} (h : (uri, ms) ∈ (s.act event).2.published) :
    ∃ text ds settings, (s.act event).1.session.state.surroundings.read uri = .ok text ∧
      (analyze text uri settings (s.act event).1.session.state.checks).value = .ok ds ∧
      messages s.encoding text ds = .ok ms := by
  have hact : (s.act event).2 =
      seen s.encoding (s.act event).1.session.state.surroundings.read
        (Validator.process.act s.session (·.step event)).2 := rfl
  rw [hact] at h
  obtain ⟨token, ds, text, heffect, hread, hms⟩ := mem_seen h
  obtain ⟨text', settings, hread', hanalysis⟩ :=
    (Validator.act_founded s.session event).published token uri ds heffect
  obtain rfl : text = text' := Except.ok.inj (hread.symm.trans hread')
  unfold Validator.analysis at hanalysis
  split at hanalysis
  · cases hanalysis
  · exact ⟨text, ds, settings, hread, hanalysis, hms⟩

/-- What a notification makes a client see, an event of the validator does. -/
theorem step_published {n : Notification} (h : (uri, ms) ∈ (s.step n).2.published) :
    ∃ (s' : Server) (event : Validator.Event), s'.encoding = s.encoding ∧
      (s.step n).1 = (s'.act event).1 ∧ (uri, ms) ∈ (s'.act event).2.published := by
  cases n with
  | initialized =>
    simp only [step] at h
    split at h <;> simp at h
  | opened uri' text =>
    simp only [step] at h ⊢
    split at h
    · simp at h
    · exact ⟨s.edit uri' (some text), .validate 0 uri', rfl, rfl, h⟩
  | changed uri' text =>
    refine ⟨_, .validate 0 uri', ?_, rfl, h⟩
    split <;> rfl
  | closed uri' => exact ⟨s.edit uri' none, .close uri', rfl, rfl, h⟩
  | configurationChanged =>
    refine ⟨s, .reconfigure 0 (s.documents.map (·.1)), rfl, ?_⟩
    simp only [step, true_and] at h ⊢
    exact h

/-- **Every range that is published points at its own key.** What is published for a document are
reports on entries of the text that it has, one for each entry that is reported, in order. The range
of a report points at the key of its entry, and its related ranges at all entries with that key, in
the units of the client. -/
theorem published_ranges_point (s : Server) (n : Notification) {uri : String} {ms : List Message}
    (h : (uri, ms) ∈ (s.step n).2.published) :
    ∃ text catalog, (s.step n).1.session.state.surroundings.read uri = .ok text ∧
      Catalog.parse text = .ok catalog ∧
      List.Forall₂ (Shows s.encoding text catalog)
        (reported catalog (s.step n).1.session.state.checks) ms := by
  obtain ⟨s', event, hencoding, hstep, h⟩ := step_published h
  obtain ⟨text, ds, settings, hread, hanalysis, hms⟩ := act_published h
  obtain ⟨catalog, severity, hparse, rfl⟩ := eq_reports_of_analyze hanalysis
  rw [hstep, ← hencoding]
  refine ⟨text, catalog, hread, hparse, ?_⟩
  have hclient := List.forall₂_map_left_iff.1 (forall₂_of_mapM hms)
  have hmem : ∀ entry ∈ reported catalog (s'.act event).1.session.state.checks,
      entry ∈ catalog := fun _ => mem_of_mem_reported
  apply ((List.forall₂_and_left _ _).2 ⟨hmem, hclient⟩).imp
  intro entry m h
  exact shows_of_forClient hparse h.1 h.2

/-- A key with a character that takes two units, on the first line and on the third. -/
def astral : String := "msgid \"😀\"\nmsgstr \"\"\nmsgid \"😀\"\nmsgstr \"\"\n"

/-- The reports on `astral` for a client that counts in UTF-16. -/
def astralMessages : List Message :=
  let first : Range := ⟨⟨0, 6⟩, ⟨0, 10⟩⟩
  let second : Range := ⟨⟨2, 6⟩, ⟨2, 10⟩⟩
  let related := [⟨"file:///a", first, "First definition"⟩,
    ⟨"file:///a", second, "Duplicate definition"⟩]
  [first, second].map fun range =>
    { range, severity := .error, message := "Duplicate message definition"
      source := productName, code := some "duplicate-msgid", related }

theorem published_ranges_point_astral :
    ("file:///a", astralMessages) ∈
        ((Server.create none false).step (.opened "file:///a" astral)).2.published ∧
      ∃ text catalog, ((Server.create none false).step
          (.opened "file:///a" astral)).1.session.state.surroundings.read "file:///a" = .ok text ∧
        Catalog.parse text = .ok catalog ∧
        List.Forall₂ (Shows .utf16 text catalog) (reported catalog ((Server.create none false).step
          (.opened "file:///a" astral)).1.session.state.checks) astralMessages := by
  have h : ("file:///a", astralMessages) ∈
      ((Server.create none false).step (.opened "file:///a" astral)).2.published := by
    decide +kernel
  exact ⟨h, published_ranges_point _ _ h⟩

/-- A form feed, which ends a line for an editor, in a comment before a key. -/
def fed : String := "#\x0c\nmsgid \"k\"\nmsgstr \"\"\nmsgid \"k\"\nmsgstr \"\"\n"

/-- The first entry of `fed`. -/
def fedEntry : Entry :=
  ⟨"k", ⟨⟨2, 7⟩, ⟨2, 10⟩⟩, [""], some ⟨⟨3, 8⟩, ⟨3, 10⟩⟩, none, none⟩

/-- The opening quote of the first key stands at character 6 of line 1, and the client is told
character 1. -/
theorem range_after_form_feed :
    Encloses fed.toList fedEntry "#\x0c\nmsgid ".toList "#\x0c\nmsgid \"k\"".toList ∧
      clientPlace .utf16 "#\x0c\nmsgid ".toList = ⟨1, 6⟩ ∧
      ((Server.create none false).step (.opened "file:///a" fed)).2.published.map
        (fun p => p.2.map (·.range)) = [[⟨⟨1, 1⟩, ⟨1, 1⟩⟩, ⟨⟨3, 6⟩, ⟨3, 9⟩⟩]] := by
  have hparse : Catalog.parse fed = .ok [fedEntry,
      ⟨"k", ⟨⟨4, 7⟩, ⟨4, 10⟩⟩, [""], some ⟨⟨5, 8⟩, ⟨5, 10⟩⟩, none, none⟩] := by
    decide +kernel
  exact ⟨⟨by decide +kernel, by decide +kernel, by decide +kernel, by decide +kernel,
    by decide +kernel, Catalog.parse_delimits hparse List.mem_cons_self⟩, by decide +kernel,
    by decide +kernel⟩

end Server

end CatalogLint
