import CatalogLint.Proofs.Duplicates.Report
import Mathlib.Data.List.Duplicate
import Mathlib.Data.List.NodupEquivFin

/-!
# The report on duplicates is exact

* `shared_iff`: which keys more than one entry has.
* `countP_isOn`: how many reports stand at the key of an entry.
* `duplicates_reported`: **an entry is reported once if another entry has its key and not at all
  otherwise, and its report names all the entries with the key**.
-/

namespace CatalogLint

open Catalog (Placed)

/-- Whether a report stands at the key of an entry. -/
def Diagnostic.isOn (e : Entry) (d : Diagnostic) : Bool := e.keySpan.toRange = .ok d.range

/-- Another entry has the key of the entry number `i`. -/
def Shared (catalog : Catalog) (i : Fin catalog.length) : Prop :=
  ∃ j, j ≠ i ∧ (catalog.get j).key = (catalog.get i).key

instance (catalog : Catalog) (i : Fin catalog.length) : Decidable (Shared catalog i) :=
  inferInstanceAs (Decidable (∃ j, j ≠ i ∧ (catalog.get j).key = (catalog.get i).key))

/-- The related ranges are those of all entries with the key `k`, in document order. -/
def NamesAll (catalog : Catalog) (uri k : String) (related : List Related) : Prop :=
  List.Forall₂ (fun (x : Entry × Nat) r => r.uri = uri ∧ x.1.keySpan.toRange = .ok r.range ∧
    r.message = definitionLabel x.2 x.1) (catalog.filter (·.key = k)).zipIdx related

section Keys

variable {catalog : Catalog}

/-- Two entries have the key exactly if it is shared. -/
theorem shared_iff (i : Fin catalog.length) :
    Shared catalog i ↔ (catalog.get i).key ∈ repeatedKeys Entry.key catalog := by
  rw [mem_repeatedKeys, ← List.duplicate_iff_two_le_count, List.duplicate_iff_exists_distinct_get]
  constructor
  · rintro ⟨j, hne, hk⟩
    rcases Nat.lt_or_gt_of_ne (Fin.val_ne_of_ne hne) with hlt | hlt
    · exact ⟨⟨j, by simp⟩, ⟨i, by simp⟩, hlt, by simpa using hk.symm, by simp⟩
    · exact ⟨⟨i, by simp⟩, ⟨j, by simp⟩, hlt, by simp, by simpa using hk.symm⟩
  · rintro ⟨n, m, hlt, hn, hm⟩
    by_cases hi : (n : Nat) = i
    · refine ⟨⟨m, by simpa using m.2⟩, ?_, by simpa using hm.symm⟩
      intro h
      have : (m : Nat) = i := congrArg Fin.val h
      omega
    · exact ⟨⟨n, by simpa using n.2⟩, fun h => hi (congrArg Fin.val h), by simpa using hn.symm⟩

end Keys

section Counting

variable {text uri : String} {catalog : Catalog} {severity : Severity}

/-- No two keys of a catalog have the same range. -/
theorem range_injective (hp : Catalog.parse text = .ok catalog) {e e' : Entry} (he : e ∈ catalog)
    (he' : e' ∈ catalog) (h : e.keySpan.range = e'.keySpan.range) : e = e' := by
  have hline : e.keySpan.start.line = e'.keySpan.start.line := by
    have := congrArg (·.start.line) h
    simp only [Span.range] at this
    omega
  have hnodup : (catalog.map (·.keySpan.start.line)).Nodup := by
    rw [List.Nodup, List.pairwise_map]
    exact (Catalog.parse_placed hp).2.imp fun hlt => ne_of_lt hlt
  exact List.inj_on_of_nodup_map hnodup he he' hline

theorem nodup_catalog (hp : Catalog.parse text = .ok catalog) : catalog.Nodup :=
  (Catalog.parse_placed hp).2.imp fun hlt h => absurd (h ▸ hlt) (lt_irrefl _)

theorem mem_definitions {k : String} {e : Entry} :
    e ∈ definitions catalog k ↔ e ∈ catalog ∧ e.key = k := by
  simp [definitions, withKey]

theorem map_range_reports : (reports catalog uri severity).map (·.range) =
    (repeatedKeys Entry.key catalog).flatMap fun k =>
      (definitions catalog k).map (·.keySpan.range) := by
  simp [reports, duplicates, List.map_flatMap, report, Function.comp_def]

theorem nodup_ranges (hp : Catalog.parse text = .ok catalog) :
    ((reports catalog uri severity).map (·.range)).Nodup := by
  rw [map_range_reports, List.nodup_flatMap]
  constructor
  · intro k _
    refine List.Nodup.map_on ?_ ((nodup_catalog hp).filter _)
    intro e he e' he' h
    exact range_injective hp (mem_definitions.1 he).1 (mem_definitions.1 he').1 h
  · refine (nodup_repeatedKeys Entry.key catalog).imp fun {k k'} hne => ?_
    intro r hr hr'
    obtain ⟨e, he, rfl⟩ := List.mem_map.1 hr
    obtain ⟨e', he', h⟩ := List.mem_map.1 hr'
    rw [mem_definitions] at he he'
    obtain rfl := range_injective hp he'.1 he.1 h
    exact hne (he.2.symm.trans he'.2)

theorem isOn_iff (hp : Catalog.parse text = .ok catalog) {e : Entry} (he : e ∈ catalog)
    (d : Diagnostic) : d.isOn e = true ↔ d.range = e.keySpan.range := by
  rw [Diagnostic.isOn, decide_eq_true_eq, ((Catalog.parse_placed hp).1 e he).toRange,
    Except.ok.injEq, eq_comm]

/-- How many reports stand at the key of an entry. -/
theorem countP_isOn (hp : Catalog.parse text = .ok catalog) {e : Entry} (he : e ∈ catalog) :
    (reports catalog uri severity).countP (·.isOn e) =
      if e.key ∈ repeatedKeys Entry.key catalog then 1 else 0 := by
  -- ranges are those of one entry each, so it is enough to count the range of the key
  have hcount : (reports catalog uri severity).countP (·.isOn e) =
      ((reports catalog uri severity).map (·.range)).count e.keySpan.range := by
    rw [List.count, List.countP_map]
    refine List.countP_congr fun d _ => ?_
    rw [isOn_iff hp he, Function.comp_apply, beq_iff_eq]
  have hmem : e.keySpan.range ∈ (reports catalog uri severity).map (·.range) ↔
      e.key ∈ repeatedKeys Entry.key catalog := by
    rw [map_range_reports, List.mem_flatMap]
    constructor
    · rintro ⟨k, hk, hr⟩
      obtain ⟨e', he', h⟩ := List.mem_map.1 hr
      rw [mem_definitions] at he'
      obtain rfl := range_injective hp he'.1 he h
      rwa [he'.2]
    · intro hk
      exact ⟨e.key, hk, List.mem_map.2 ⟨e, mem_definitions.2 ⟨he, rfl⟩, rfl⟩⟩
  rw [hcount, (nodup_ranges hp).count]
  simp only [hmem]

theorem namesAll_related (hp : Catalog.parse text = .ok catalog) (e : Entry) :
    NamesAll catalog uri e.key (report catalog uri severity e).related := by
  unfold NamesAll report
  rw [List.mapIdx_eq_zipIdx_map, List.forall₂_map_right_iff]
  refine List.forall₂_same.2 fun x hx => ⟨rfl, ?_, rfl⟩
  have hmem : x.1 ∈ definitions catalog e.key := List.fst_mem_of_mem_zipIdx hx
  exact ((Catalog.parse_placed hp).1 _ (mem_definitions.1 hmem).1).toRange

/-- The entries that are reported are those with a key that another one has. -/
theorem mem_duplicates {e : Entry} :
    e ∈ duplicates catalog ↔ e ∈ catalog ∧ e.key ∈ repeatedKeys Entry.key catalog := by
  unfold duplicates
  rw [List.mem_flatMap]
  constructor
  · rintro ⟨k, hk, he⟩
    obtain ⟨hmem, rfl⟩ := mem_definitions.1 he
    exact ⟨hmem, hk⟩
  · rintro ⟨hmem, hk⟩
    exact ⟨e.key, hk, mem_definitions.2 ⟨hmem, rfl⟩⟩

theorem mem_of_mem_reported {checks : Option (List String)} {e : Entry}
    (he : e ∈ reported catalog checks) : e ∈ catalog := by
  obtain ⟨-, -, he⟩ := List.mem_flatMap.1 he
  exact (mem_duplicates.1 he).1

end Counting

/-- Reports are only made with a severity. -/
theorem level_of_analyze {text uri : String} {settings : Settings} {catalog : Catalog}
    {ds : List Diagnostic} (hp : Catalog.parse text = .ok catalog)
    (h : (analyze text uri settings).value = .ok ds) :
    ∃ severity, settings.level = .ok severity := by
  cases hs : settings.level with
  | ok severity => exact ⟨severity, rfl⟩
  | error e =>
    have hc : knownChecks ((none : Option (List String)).getD allChecks) = .ok () :=
      knownChecks_allChecks
    rw [analyze_value_severity hp hc hs (by simp) uri] at h
    cases h

theorem any_isOn {text uri : String} {settings : Settings} {catalog : Catalog}
    {ds : List Diagnostic} (hp : Catalog.parse text = .ok catalog)
    (h : (analyze text uri settings).value = .ok ds) {e : Entry} (he : e ∈ catalog) :
    ds.any (·.isOn e) = decide (2 ≤ (catalog.map (·.key)).count e.key) := by
  obtain ⟨severity, hs⟩ := level_of_analyze hp h
  rw [analyze_value_default hp hs, Except.ok.injEq] at h
  subst h
  rw [Bool.eq_iff_iff, List.any_eq_true, decide_eq_true_eq, ← mem_repeatedKeys,
    ← List.countP_pos_iff, countP_isOn hp he]
  split <;> simp [*]

/-- **The report on duplicates is exact.** Of every text that can be read, with every severity: an
entry has one report at its key if another entry has the same key, and none otherwise, and there
are no other reports. A report names all the entries with the key, in document order, the first
as the first definition. Which entries are reported depends on the keys alone. -/
theorem duplicates_reported {text : String} {catalog : Catalog} {settings : Settings}
    {severity : Severity} (hp : Catalog.parse text = .ok catalog)
    (hs : settings.level = .ok severity) (uri : String) :
    ∃ ds, (analyze text uri settings).value = .ok ds ∧
      (∀ i, Shared catalog i → ds.countP (·.isOn (catalog.get i)) = 1) ∧
      (∀ i, ¬ Shared catalog i → ds.countP (·.isOn (catalog.get i)) = 0) ∧
      (∀ d ∈ ds, d.severity = severity ∧ (∃ e ∈ catalog, d.isOn e = true) ∧
        ∀ e ∈ catalog, d.isOn e = true → NamesAll catalog uri e.key d.related) ∧
      ∀ text' catalog' uri' settings' ds', Catalog.parse text' = .ok catalog' →
        catalog'.map (·.key) = catalog.map (·.key) →
        (analyze text' uri' settings').value = .ok ds' →
        ∀ (i : Nat) (h : i < catalog.length) (h' : i < catalog'.length),
          ds'.any (·.isOn (catalog'.get ⟨i, h'⟩)) = ds.any (·.isOn (catalog.get ⟨i, h⟩)) := by
  have hds := analyze_value_default hp hs uri
  refine ⟨reports catalog uri severity, hds, ?_, ?_, ?_, ?_⟩
  · intro i hi
    rw [countP_isOn hp (List.get_mem _ i), if_pos ((shared_iff i).1 hi)]
  · intro i hi
    rw [countP_isOn hp (List.get_mem _ i), if_neg (mt (shared_iff i).2 hi)]
  · intro d hd
    obtain ⟨e, hmem, rfl⟩ := List.mem_map.1 hd
    have he := (mem_duplicates.1 hmem).1
    refine ⟨rfl, ⟨e, he, (isOn_iff hp he _).2 rfl⟩, fun e' he' hon => ?_⟩
    obtain rfl := range_injective hp he he' ((isOn_iff hp he' _).1 hon)
    exact namesAll_related hp e
  · intro text' catalog' uri' settings' ds' hp' hkeys hds' i h h'
    have hkey : (catalog'.get ⟨i, h'⟩).key = (catalog.get ⟨i, h⟩).key := by
      have hat : (catalog'.map (·.key))[i]? = (catalog.map (·.key))[i]? := by rw [hkeys]
      simpa [h, h'] using hat
    rw [any_isOn hp' hds' (List.get_mem _ _), any_isOn hp hds (List.get_mem _ _), hkeys, hkey]

/-- Of three entries, the two with the same key are reported, although only one has a context. -/
theorem duplicates_reported_two_of_three : ∃ e₀ e₁ e₂,
    Catalog.parse ("msgid \"a\"\nmsgstr \"x\"\nmsgid \"b\"\nmsgstr \"y\"\n" ++
      "msgctxt \"c\"\nmsgid \"\"\n\"a\"\nmsgstr \"\"") = .ok [e₀, e₁, e₂] ∧
    Settings.level { severity := "Hint" } = .ok .hint ∧
    ∃ ds, (analyze ("msgid \"a\"\nmsgstr \"x\"\nmsgid \"b\"\nmsgstr \"y\"\n" ++
      "msgctxt \"c\"\nmsgid \"\"\n\"a\"\nmsgstr \"\"") "a.po" { severity := "Hint" }).value =
        .ok ds ∧
      ds.countP (·.isOn e₀) = 1 ∧ ds.countP (·.isOn e₁) = 0 ∧ ds.countP (·.isOn e₂) = 1 := by
  have hp : Catalog.parse ("msgid \"a\"\nmsgstr \"x\"\nmsgid \"b\"\nmsgstr \"y\"\n" ++
      "msgctxt \"c\"\nmsgid \"\"\n\"a\"\nmsgstr \"\"") = .ok
      [⟨"a", ⟨⟨1, 7⟩, ⟨1, 10⟩⟩, ["x"], some ⟨⟨2, 8⟩, ⟨2, 11⟩⟩, none, none⟩,
        ⟨"b", ⟨⟨3, 7⟩, ⟨3, 10⟩⟩, ["y"], some ⟨⟨4, 8⟩, ⟨4, 11⟩⟩, none, none⟩,
        ⟨"a", ⟨⟨6, 7⟩, ⟨7, 4⟩⟩, [""], some ⟨⟨8, 8⟩, ⟨8, 10⟩⟩, some "c", none⟩] := by
    decide +kernel
  have hs : Settings.level { severity := "Hint" } = .ok .hint := by decide +kernel
  obtain ⟨ds, hds, hone, hnone, -⟩ := duplicates_reported hp hs "a.po"
  exact ⟨_, _, _, hp, hs, ds, hds, hone 0 (by decide), hnone 1 (by decide), hone 2 (by decide)⟩

end CatalogLint
