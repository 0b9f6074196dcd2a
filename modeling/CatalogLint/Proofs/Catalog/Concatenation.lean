import CatalogLint.Proofs.Catalog.Numbering
import CatalogLint.Proofs.Duplicates.Exact

/-!
# One catalog after another

A catalog may be followed by another one. When the second one begins, the last entry of the first is
still at hand, but it has a value, and whatever can begin a catalog ends such an entry. From then on
the entries of the first catalog are out of reach.

* `ReadAfter`: what has been read of the second catalog alone, and of both.
* `ReadAfter.step`, `ReadAfter.run`: **a catalog is read after another one as it is read alone.**
* `concatenation_parses`: **the entries of two catalogs, one after the other, are those of the first
  and those of the second**, further down by as many lines as the first one has; so what is reported
  depends on the keys of both.
-/

namespace CatalogLint

namespace Catalog

/-- What has been read of some lines alone, and of the same lines after those of the catalog `c`. As
long as the lines have been ignored, the last entry of `c` may still be at hand. -/
inductive ReadAfter (c : Catalog) : Progress → Progress → Prop where
  | idle {q : Progress} : q.finish = .ok c → ReadAfter c ⟨[], none⟩ q
  | busy (entries : List Entry) (d : Draft) :
      ReadAfter c ⟨entries, some d⟩ ⟨entries ++ c.reverse, some d⟩

section Steps

variable {c c' : Catalog} {p p' q q' : Progress} {n : Nat}

/-- What can be finished has no draft, or one with a value. -/
theorem Progress.finish_eq_ok (h : q.finish = .ok c) :
    q = ⟨c.reverse, none⟩ ∨ ∃ head span earlier last entries,
      q = ⟨entries, some (.body head span earlier last)⟩ ∧
        head.entry span (last :: earlier).reverse :: entries = c.reverse := by
  obtain ⟨entries, draft⟩ := q
  rcases draft with _ | ⟨opened, text⟩ | head | ⟨head, span, earlier, last⟩
  · obtain rfl := Except.ok.inj h
    exact .inl (by simp)
  · cases h
  · cases h
  · obtain rfl := Except.ok.inj h
    exact .inr ⟨head, span, earlier, last, entries, rfl, by simp⟩

/-- A field that can stand first ends the entry at hand, if that one can be ended. -/
theorem ReadAfter.field_idle {column : Nat} {l : Literal} {k : Keyword} (hq : q.finish = .ok c)
    (h : Progress.field ⟨[], none⟩ n column l k = .ok p') :
    ∃ q', q.field n column l k = .ok q' ∧ ReadAfter c p' q' := by
  cases k with
  | msgctxt | msgid =>
    obtain rfl := Except.ok.inj h
    refine ⟨⟨c.reverse, _⟩, ?_, .busy [] _⟩
    rcases Progress.finish_eq_ok hq with rfl | ⟨head, span, earlier, last, entries, rfl, hc⟩
    · rfl
    · rw [← hc]
      rfl
  | msgidPlural | msgstr => cases h

/-- A field does to the entry at hand what it does without the entries before. -/
theorem ReadAfter.field_busy {column : Nat} {l : Literal} {k : Keyword} {entries : List Entry}
    {d : Draft} (h : Progress.field ⟨entries, some d⟩ n column l k = .ok p') :
    ∃ q', Progress.field ⟨entries ++ c.reverse, some d⟩ n column l k = .ok q' ∧
      ReadAfter c p' q' := by
  cases k with
  | msgctxt | msgid | msgstr =>
    rcases d with ⟨opened, text⟩ | head | ⟨head, span, earlier, last⟩ <;> cases h <;>
      exact ⟨_, rfl, .busy _ _⟩
  | msgidPlural =>
    rcases d with ⟨opened, text⟩ | ⟨opened, context, key, keySpan, _ | plural⟩ | _ <;> cases h
    exact ⟨_, rfl, .busy _ _⟩

/-- **One line after a catalog**, if it can be read alone. -/
theorem ReadAfter.step (hf : ReadAfter c p q) {l : Line} (h : p.step n l = .ok p') :
    ∃ q', q.step n l = .ok q' ∧ ReadAfter c p' q' := by
  cases l with
  | skipped =>
    obtain rfl := Except.ok.inj h
    exact ⟨q, rfl, hf⟩
  | unexpected column word => cases h
  | continuation column literal =>
    cases hf with
    | idle hq => cases h
    | busy entries d =>
      cases literal with
      | error f => cases h
      | ok l =>
        obtain rfl := Except.ok.inj h
        exact ⟨_, rfl, .busy _ _⟩
  | field k column literal =>
    cases literal with
    | error f => cases h
    | ok l =>
      cases hf with
      | idle hq => exact ReadAfter.field_idle hq h
      | busy entries d => exact ReadAfter.field_busy h

/-- **Lines after a catalog**, if they can be read alone. -/
theorem ReadAfter.run (hf : ReadAfter c p q) {ls : List (List Char)} (h : p.run n ls = .ok p') :
    ∃ q', q.run n ls = .ok q' ∧ ReadAfter c p' q' := by
  induction ls generalizing p q n with
  | nil =>
    obtain rfl := Except.ok.inj h
    exact ⟨q, rfl, hf⟩
  | cons cs ls ih =>
    rw [Progress.run] at h
    obtain ⟨p₁, hp₁, h⟩ := exists_of_bind h
    obtain ⟨q₁, hq₁, hf₁⟩ := hf.step hp₁
    obtain ⟨q', hq', hf'⟩ := ih hf₁ h
    refine ⟨q', ?_, hf'⟩
    rw [Progress.run, hq₁]
    exact hq'

theorem ReadAfter.finish (hf : ReadAfter c p q) (h : p.finish = .ok c') :
    q.finish = .ok (c ++ c') := by
  cases hf with
  | idle hq =>
    obtain rfl := Except.ok.inj h
    rw [hq]
    simp
  | busy entries d =>
    rcases Progress.finish_eq_ok h with hp | ⟨head, span, earlier, last, entries', hp, hc⟩
    · cases hp
    · obtain ⟨rfl, rfl⟩ := by simpa using hp
      have hc' : c' = (head.entry span (last :: earlier).reverse :: entries).reverse := by
        rw [hc, List.reverse_reverse]
      rw [hc']
      simp [Progress.finish]

end Steps

/-- **Lines that make catalogs make one catalog.** -/
theorem parseLines_append {l₁ l₂ : List (List Char)} {c₁ c₂ : Catalog} (h₁ : parseLines l₁ = .ok c₁)
    (h₂ : parseLines l₂ = .ok c₂) :
    parseLines (l₁ ++ l₂) = .ok (c₁ ++ c₂.map (Entry.relined (· + l₁.length))) := by
  obtain ⟨p, hp, hfinish⟩ := exists_of_bind h₁
  obtain ⟨q, hq, hfinish'⟩ := exists_of_bind h₂
  -- the second catalog alone, but under the numbers that its lines have after the first one
  have hrun : Progress.start.run (1 + l₁.length) l₂ = .ok (q.relined (· + l₁.length)) := by
    have h : Progress.start.run (1 + l₁.length) l₂ =
        relinedResult (· + l₁.length) (·.relined (· + l₁.length)) (Progress.start.run 1 l₂) :=
      Progress.start.run_relined (· + l₁.length) 1 fun i _ => by omega
    rw [hq] at h
    exact h
  have hends : (q.relined (· + l₁.length)).finish =
      .ok (c₂.map (Entry.relined (· + l₁.length))) := by
    rw [Progress.finish_relined, hfinish']
    rfl
  obtain ⟨r, hr, hf⟩ := (ReadAfter.idle hfinish).run hrun
  unfold parseLines
  rw [Progress.run_append, hp]
  show p.run (1 + l₁.length) l₂ >>= Progress.finish = _
  rw [hr]
  exact hf.finish hends

/-- **Two catalogs, one after the other, are one catalog.** Its entries are those of the first one
and those of the second one, as they are but for the numbers of their lines, which are larger by the
number of lines that the first one has. Under any settings that name a severity, an entry of the
first one is reported, once, exactly if its key occurs at least twice in both together. -/
theorem concatenation_parses {l₁ l₂ : List (List Char)} {text₁ text₂ text : String}
    {c₁ c₂ : Catalog} (ht₁ : TextOf l₁ text₁) (ht₂ : TextOf l₂ text₂) (ht : TextOf (l₁ ++ l₂) text)
    (hm₁ : text₁.toList.head? ≠ some '\ufeff') (hm₂ : text₂.toList.head? ≠ some '\ufeff')
    (hp₁ : parse text₁ = .ok c₁) (hp₂ : parse text₂ = .ok c₂) :
    parse text = .ok (c₁ ++ c₂.map (Entry.relined (· + l₁.length))) ∧
    ∀ uri settings severity, settings.level = .ok severity →
      ∃ ds, (analyze text uri settings).value = .ok ds ∧
        ∀ e ∈ c₁, ds.countP (·.isOn e) =
          if 2 ≤ (c₁.map (·.key) ++ c₂.map (·.key)).count e.key then 1 else 0 := by
  have hm : text.toList.head? ≠ some '\ufeff' := by
    have hbreak : Text.isBreak '\ufeff' = false := by decide
    rw [Ne, ht₁.head? hbreak] at hm₁
    rw [Ne, ht₂.head? hbreak] at hm₂
    rw [Ne, ht.head? hbreak]
    cases l₁ with
    | nil => exact hm₂
    | cons l l₁ => exact hm₁
  have hp : parse text = .ok (c₁ ++ c₂.map (Entry.relined (· + l₁.length))) := by
    rw [ht₁.parse_eq hm₁] at hp₁
    rw [ht₂.parse_eq hm₂] at hp₂
    rw [ht.parse_eq hm]
    exact parseLines_append hp₁ hp₂
  refine ⟨hp, fun uri settings severity hs => ⟨_, analyze_value_default hp hs uri, fun e he => ?_⟩⟩
  have hkeys : (c₁ ++ c₂.map (Entry.relined (· + l₁.length))).map (·.key) =
      c₁.map (·.key) ++ c₂.map (·.key) := by
    rw [List.map_append, List.map_map]
    rfl
  rw [countP_isOn hp (List.mem_append_left _ he)]
  simp only [mem_repeatedKeys, hkeys]

/-- The last value of the first catalog is not taken further by what follows it, and its key, which
was alone, is reported. -/
theorem concatenation_parses_shared :
    parse "msgid \"k\"\nmsgstr \"x\"" =
        .ok [⟨"k", ⟨⟨1, 7⟩, ⟨1, 10⟩⟩, ["x"], some ⟨⟨2, 8⟩, ⟨2, 11⟩⟩, none, none⟩] ∧
      parse "#\rmsgctxt \"c\"\nmsgid \"\"\n\"k\"\nmsgstr \"\"" =
        .ok [⟨"k", ⟨⟨3, 7⟩, ⟨4, 4⟩⟩, [""], some ⟨⟨5, 8⟩, ⟨5, 10⟩⟩, some "c", none⟩] ∧
      parse "msgid \"k\"\r\nmsgstr \"x\"\n#\rmsgctxt \"c\"\nmsgid \"\"\n\"k\"\nmsgstr \"\"" =
        .ok [⟨"k", ⟨⟨1, 7⟩, ⟨1, 10⟩⟩, ["x"], some ⟨⟨2, 8⟩, ⟨2, 11⟩⟩, none, none⟩,
          ⟨"k", ⟨⟨5, 7⟩, ⟨6, 4⟩⟩, [""], some ⟨⟨7, 8⟩, ⟨7, 10⟩⟩, some "c", none⟩] ∧
      ∃ ds, (analyze ("msgid \"k\"\r\nmsgstr \"x\"\n#\rmsgctxt \"c\"\n" ++
          "msgid \"\"\n\"k\"\nmsgstr \"\"") "a.po").value = .ok ds ∧
        ds.countP (·.isOn ⟨"k", ⟨⟨1, 7⟩, ⟨1, 10⟩⟩, ["x"], some ⟨⟨2, 8⟩, ⟨2, 11⟩⟩, none, none⟩) =
          1 := by
  have ht₁ : TextOf ["msgid \"k\"".toList, "msgstr \"x\"".toList]
      "msgid \"k\"\nmsgstr \"x\"" := .inr (lines_eq_iff.1 (by decide +kernel))
  have ht₂ : TextOf ["#".toList, "msgctxt \"c\"".toList, "msgid \"\"".toList, "\"k\"".toList,
      "msgstr \"\"".toList] "#\rmsgctxt \"c\"\nmsgid \"\"\n\"k\"\nmsgstr \"\"" :=
    .inr (lines_eq_iff.1 (by decide +kernel))
  have ht : TextOf (["msgid \"k\"".toList, "msgstr \"x\"".toList] ++ ["#".toList,
      "msgctxt \"c\"".toList, "msgid \"\"".toList, "\"k\"".toList, "msgstr \"\"".toList])
      "msgid \"k\"\r\nmsgstr \"x\"\n#\rmsgctxt \"c\"\nmsgid \"\"\n\"k\"\nmsgstr \"\"" :=
    .inr (lines_eq_iff.1 (by decide +kernel))
  have hp₁ : parse "msgid \"k\"\nmsgstr \"x\"" =
      .ok [⟨"k", ⟨⟨1, 7⟩, ⟨1, 10⟩⟩, ["x"], some ⟨⟨2, 8⟩, ⟨2, 11⟩⟩, none, none⟩] := by decide +kernel
  have hp₂ : parse "#\rmsgctxt \"c\"\nmsgid \"\"\n\"k\"\nmsgstr \"\"" =
      .ok [⟨"k", ⟨⟨3, 7⟩, ⟨4, 4⟩⟩, [""], some ⟨⟨5, 8⟩, ⟨5, 10⟩⟩, some "c", none⟩] := by
    decide +kernel
  obtain ⟨hp, hreports⟩ :=
    concatenation_parses ht₁ ht₂ ht (by decide +kernel) (by decide +kernel) hp₁ hp₂
  obtain ⟨ds, hds, hcount⟩ := hreports "a.po" {} .error (by decide +kernel)
  exact ⟨hp₁, hp₂, hp, ds, hds, hcount _ List.mem_cons_self⟩

end Catalog

end CatalogLint
