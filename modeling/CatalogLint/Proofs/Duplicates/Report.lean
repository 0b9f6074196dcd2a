import CatalogLint.Analysis
import CatalogLint.Proofs.Catalog.Spans
import CatalogLint.Proofs.Duplicates.Grouping
import Mathlib.Data.List.Forall2

/-!
# What is reported on a text

* `duplicateDiagnostics_eq`: the reports on a catalog in closed form.
* `analyze_value`: **a text that can be read always gets its reports.**
-/

namespace CatalogLint

open Catalog (Placed)

/-- The editor's name for a span that has one. -/
def Span.range (s : Span) : Range :=
  ⟨⟨s.start.line - 1, s.start.column - 1⟩, ⟨s.stop.line - 1, s.stop.column - 1⟩⟩

/-- What a report says about the definition number `n`. -/
def definitionLabel (n : Nat) (e : Entry) : String :=
  let label := if n = 0 then "First definition" else "Duplicate definition"
  if e.values.headD "" = "" then label else label ++ ": " ++ e.values.headD ""

/-- The entries with the key `k`, in document order. -/
def definitions (catalog : Catalog) (k : String) : List Entry := withKey Entry.key k catalog

/-- The report on an entry. -/
def report (catalog : Catalog) (uri : String) (severity : Severity) (e : Entry) : Diagnostic :=
  { range := e.keySpan.range, severity, message := "Duplicate message definition"
    code := "duplicate-msgid"
    related := (definitions catalog e.key).mapIdx fun n d =>
      ⟨uri, d.keySpan.range, definitionLabel n d⟩ }

/-- The entries that share their key with another one, key by key. -/
def duplicates (catalog : Catalog) : List Entry :=
  (repeatedKeys Entry.key catalog).flatMap (definitions catalog)

/-- The reports on a catalog, one on each of these entries. -/
def reports (catalog : Catalog) (uri : String) (severity : Severity) : List Diagnostic :=
  (duplicates catalog).map (report catalog uri severity)

section Groups

theorem mapM_ok {ε α β : Type} {f : α → Except ε β} {g : α → β} {xs : List α}
    (h : ∀ x ∈ xs, f x = .ok (g x)) : xs.mapM f = .ok (xs.map g) := by
  induction xs with
  | nil => rfl
  | cons x xs ih =>
    rw [List.mapM_cons, h x (by simp), ih fun y hy => h y (by simp [hy])]
    rfl

theorem exists_of_bind {ε α β : Type} {x : Except ε α} {f : α → Except ε β} {b : β}
    (h : (x >>= f) = .ok b) : ∃ a, x = .ok a ∧ f a = .ok b := by
  cases x with
  | error e => cases h
  | ok a => exact ⟨a, rfl, h⟩

/-- What succeeds for all members of a list succeeds for each, in their order. -/
theorem forall₂_of_mapM {ε α β : Type} {f : α → Except ε β} {xs : List α} {ys : List β}
    (h : xs.mapM f = .ok ys) : List.Forall₂ (fun x y => f x = .ok y) xs ys := by
  induction xs generalizing ys with
  | nil =>
    obtain rfl : [] = ys := Except.ok.inj h
    exact .nil
  | cons x xs ih =>
    rw [List.mapM_cons] at h
    obtain ⟨z, hx, h⟩ := exists_of_bind h
    obtain ⟨zs, hxs, h⟩ := exists_of_bind h
    obtain rfl : z :: zs = ys := Except.ok.inj h
    exact .cons hx (ih hxs)

theorem mapIdx_map {α β γ : Type} (f : α → β) (g : Nat → β → γ) (xs : List α) :
    (xs.map f).mapIdx g = xs.mapIdx fun n x => g n (f x) :=
  List.ext_getElem (by simp) fun n h₁ h₂ => by simp

theorem Catalog.Placed.toRange {e : Entry} (h : Placed e) :
    e.keySpan.toRange = .ok e.keySpan.range := by
  have hstart : ¬ (e.keySpan.start.line < 1 ∨ e.keySpan.start.column < 1) := by
    have := h.start_line; have := h.start_column; omega
  have hstop : ¬ (e.keySpan.stop.line < 1 ∨ e.keySpan.stop.column < 1) := by
    have := h.stop_line; have := h.stop_column; omega
  unfold Span.toRange Position.toPlace
  rw [if_neg hstart, if_neg hstop]
  rfl

theorem relatedLabel_eq (n : Nat) (e : Entry) : relatedLabel (n == 0) e = definitionLabel n e := by
  unfold relatedLabel definitionLabel
  cases hv : e.values with
  | nil => simp
  | cons v vs =>
    by_cases h : v = ""
    · simp [h]
    · simp [h, toString]

/-- What a report says about an entry that has a place. -/
def relatedTo (uri : String) (isFirst : Bool) (e : Entry) : Related :=
  ⟨uri, e.keySpan.range, relatedLabel isFirst e⟩

/-- Numbers tell the first member of a group from the others. -/
theorem map_isFirst {β : Type} {first : Occurrence} {rest : List Occurrence}
    (h : (first :: rest).Pairwise (·.index < ·.index)) (f : Bool → Occurrence → β) :
    (first :: rest).map (fun o => f (o.index == first.index) o) =
      (first :: rest).mapIdx fun n o => f (n == 0) o := by
  rw [List.pairwise_cons] at h
  rw [List.map_cons, List.mapIdx_cons, beq_self_eq_true]
  congr 1
  refine List.ext_getElem (by simp) fun n h₁ h₂ => ?_
  have hlt := h.1 (rest.get ⟨n, by simpa using h₁⟩) (List.get_mem _ _)
  have hne : ((rest.get ⟨n, by simpa using h₁⟩).index == first.index) = false := by
    simpa using (Nat.ne_of_lt hlt).symm
  simp only [List.getElem_map, List.getElem_mapIdx]
  rw [show ((n + 1 == 0) = false) from rfl, ← hne]
  rfl

theorem pairwise_occurrences (catalog : Catalog) :
    (occurrences catalog).Pairwise (·.index < ·.index) := by
  unfold occurrences
  rw [List.pairwise_iff_getElem]
  intro i j hi hj hij
  simpa using hij

theorem map_entry_occurrences (catalog : Catalog) :
    (occurrences catalog).map (·.entry) = catalog := by
  refine List.ext_getElem (by simp [occurrences]) fun n h₁ h₂ => ?_
  simp [occurrences]

/-- The occurrences with a key, without their numbers. -/
theorem map_entry_withKey (catalog : Catalog) (k : String) :
    (withKey (·.entry.key) k (occurrences catalog)).map (·.entry) = definitions catalog k := by
  rw [map_withKey Entry.key Occurrence.entry, map_entry_occurrences]
  rfl

/-- The reports on the entries with one key. -/
theorem groupDiagnostics_withKey {catalog : Catalog} (hp : ∀ e ∈ catalog, Placed e) {k : String}
    (hk : definitions catalog k ≠ []) (uri : String) (severity : Severity) :
    groupDiagnostics (withKey (·.entry.key) k (occurrences catalog)) uri severity =
      .ok ((definitions catalog k).map (report catalog uri severity)) := by
  have hmap := map_entry_withKey catalog k
  have hpair : (withKey (·.entry.key) k (occurrences catalog)).Pairwise (·.index < ·.index) :=
    (pairwise_occurrences catalog).filter _
  have hkey : ∀ o ∈ withKey (·.entry.key) k (occurrences catalog), o.entry.key = k :=
    fun o ho => by simpa using (List.mem_filter.1 ho).2
  have hrange : ∀ o ∈ withKey (·.entry.key) k (occurrences catalog),
      o.entry.keyRange = .ok o.entry.keySpan.range := by
    intro o ho
    have hmem : o.entry ∈ catalog := by
      rw [← map_entry_occurrences catalog]
      exact List.mem_map_of_mem (List.mem_filter.1 ho).1
    rw [Entry.keyRange, (hp _ hmem).toRange]
    rfl
  generalize withKey (·.entry.key) k (occurrences catalog) = group at *
  cases group with
  | nil => exact absurd hmap.symm hk
  | cons first rest =>
    -- occurrences are told apart by their numbers, definitions by where they stand in the group
    have hrelated : (first :: rest).map (fun o => relatedTo uri (o.index == first.index) o.entry) =
        (definitions catalog k).mapIdx fun n d => ⟨uri, d.keySpan.range, definitionLabel n d⟩ := by
      rw [map_isFirst hpair fun b o => relatedTo uri b o.entry, ← hmap, mapIdx_map]
      simp only [relatedTo, relatedLabel_eq]
    simp only [groupDiagnostics]
    rw [mapM_ok (g := fun o => relatedTo uri (o.index == first.index) o.entry)
      fun o ho => by rw [hrange o ho]; rfl]
    rw [hrelated, ← hmap, List.map_map]
    refine mapM_ok fun o ho => ?_
    rw [hrange o ho, Function.comp_apply, report, hkey o ho, hmap]
    rfl

theorem definitions_ne {catalog : Catalog} {k : String}
    (hk : k ∈ repeatedKeys Entry.key catalog) : definitions catalog k ≠ [] := by
  intro h
  have hlen : (definitions catalog k).length = (catalog.map Entry.key).count k :=
    length_withKey Entry.key k catalog
  have htwo := mem_repeatedKeys.1 hk
  rw [← hlen, h] at htwo
  cases htwo

/-- **The reports on a catalog**, if its keys have places. -/
theorem duplicateDiagnostics_eq {catalog : Catalog} (hp : ∀ e ∈ catalog, Placed e) (uri : String)
    (severity : Severity) :
    duplicateDiagnostics catalog uri severity = .ok (reports catalog uri severity) := by
  -- the occurrences have the keys of their entries
  have hkeys : repeatedKeys (·.entry.key) (occurrences catalog) =
      repeatedKeys Entry.key catalog := by
    rw [repeatedKeys_map Entry.key Occurrence.entry, map_entry_occurrences]
  have hgroups : ((repeatedKeys Entry.key catalog).map fun k =>
      withKey (·.entry.key) k (occurrences catalog)).mapM (groupDiagnostics · uri severity) =
      .ok ((repeatedKeys Entry.key catalog).map fun k =>
        (definitions catalog k).map (report catalog uri severity)) := by
    rw [List.mapM_map]
    exact mapM_ok fun k hk => groupDiagnostics_withKey hp (definitions_ne hk) uri severity
  unfold duplicateDiagnostics duplicateGroups reports duplicates
  rw [filter_groupByKey, hkeys, hgroups, List.map_flatMap]
  rfl

end Groups

section Analysis

variable {text : String} {settings : Settings} {catalog : Catalog} {severity : Severity}

theorem knownChecks_allChecks : knownChecks allChecks = .ok () := by decide +kernel

/-- **A text that can be read gets its reports**, once for each check. -/
theorem analyze_value (hp : Catalog.parse text = .ok catalog) (hs : settings.level = .ok severity)
    {checks : Option (List String)} (hc : knownChecks (checks.getD allChecks) = .ok ())
    (uri : String) :
    (analyze text uri settings checks).value =
      .ok ((checks.getD allChecks).flatMap fun _ => reports catalog uri severity) := by
  have hcheck : checkDuplicates catalog uri settings = .ok (reports catalog uri severity) := by
    have hd := duplicateDiagnostics_eq (Catalog.parse_placed hp).1 uri severity
    unfold checkDuplicates
    rw [hs]
    show (duplicateDiagnostics catalog uri severity).mapError _ = _
    rw [hd]
    rfl
  have hrun : runChecks catalog uri settings (checks.getD allChecks) =
      .ok ((checks.getD allChecks).flatMap fun _ => reports catalog uri severity) := by
    unfold runChecks
    rw [mapM_ok fun _ _ => hcheck]
    rfl
  simp only [analyze, hc, hp]
  simp only [bind, hrun]
  rfl

theorem analyze_value_error {e : Catalog.ParseError} (hp : Catalog.parse text = .error e)
    {checks : Option (List String)} (hc : knownChecks (checks.getD allChecks) = .ok ())
    (uri : String) (settings : Settings) :
    (analyze text uri settings checks).value = .error (.parse e) := by
  simp only [analyze, hc, hp]
  rfl

/-- A check needs a severity, also if there is nothing to report. -/
theorem analyze_value_severity {e : UnknownSeverity} (hp : Catalog.parse text = .ok catalog)
    {checks : Option (List String)} (hc : knownChecks (checks.getD allChecks) = .ok ())
    (hs : settings.level = .error e) (hne : checks ≠ some []) (uri : String) :
    (analyze text uri settings checks).value = .error (.severity e) := by
  obtain ⟨name, names, hnames⟩ : ∃ name names, checks.getD allChecks = name :: names := by
    rcases checks with - | - | ⟨name, names⟩
    · exact ⟨_, _, rfl⟩
    · exact absurd rfl hne
    · exact ⟨name, names, rfl⟩
  have hrun : runChecks catalog uri settings (checks.getD allChecks) = .error (.severity e) := by
    simp only [runChecks, hnames, List.mapM_cons, checkDuplicates, hs]
    rfl
  simp only [analyze, hc, hp]
  simp only [bind, hrun]
  rfl

/-- With a severity, or without checks, a text that can be read gets its reports. -/
theorem exists_analyze_value (hp : Catalog.parse text = .ok catalog)
    {checks : Option (List String)} (hc : knownChecks (checks.getD allChecks) = .ok ())
    (hs : checks = some [] ∨ ∃ severity, settings.level = .ok severity) (uri : String) :
    ∃ ds, (analyze text uri settings checks).value = .ok ds := by
  rcases hs with rfl | ⟨severity, hs⟩
  · refine ⟨[], ?_⟩
    simp only [analyze, hc, hp]
    rfl
  · exact ⟨_, analyze_value hp hs hc uri⟩

/-- Of a text that can be read, only the severity can be wrong. -/
theorem analyze_value_cases (hp : Catalog.parse text = .ok catalog)
    {checks : Option (List String)} (hc : knownChecks (checks.getD allChecks) = .ok ())
    (uri : String) :
    ((checks = some [] ∨ ∃ severity, settings.level = .ok severity) ∧
        ∃ ds, (analyze text uri settings checks).value = .ok ds) ∨
      checks ≠ some [] ∧ ∃ e, settings.level = .error e ∧
        (analyze text uri settings checks).value = .error (.severity e) := by
  by_cases hne : checks = some []
  · exact .inl ⟨.inl hne, exists_analyze_value hp hc (.inl hne) uri⟩
  · cases hs : settings.level with
    | ok severity =>
      have hs' : ∃ severity, settings.level = .ok severity := ⟨severity, hs⟩
      exact .inl ⟨.inr ⟨severity, rfl⟩, exists_analyze_value hp hc (.inr hs') uri⟩
    | error e => exact .inr ⟨hne, e, rfl, analyze_value_severity hp hc hs hne uri⟩

/-- The entries that are reported, once for each check. -/
def reported (catalog : Catalog) (checks : Option (List String)) : List Entry :=
  (checks.getD allChecks).flatMap fun _ => duplicates catalog

/-- **What is reported on a text is reported on the entries of its catalog**, with some severity. -/
theorem eq_reports_of_analyze {uri : String} {checks : Option (List String)} {ds : List Diagnostic}
    (h : (analyze text uri settings checks).value = .ok ds) :
    ∃ catalog severity, Catalog.parse text = .ok catalog ∧
      ds = (reported catalog checks).map (report catalog uri severity) := by
  cases hc : knownChecks (checks.getD allChecks) with
  | error e => simp only [analyze, hc] at h; cases h
  | ok =>
    cases hp : Catalog.parse text with
    | error e => rw [analyze_value_error hp hc] at h; cases h
    | ok catalog =>
      cases hs : settings.level with
      | ok severity =>
        rw [analyze_value hp hs hc, Except.ok.injEq] at h
        refine ⟨catalog, severity, rfl, ?_⟩
        rw [← h, reported, List.map_flatMap]
        rfl
      | error e =>
        -- without a severity there are reports only if there are no checks, and then none
        by_cases hne : checks = some []
        · subst hne
          simp only [analyze, hc, hp] at h
          obtain rfl : [] = ds := Except.ok.inj h
          exact ⟨catalog, .error, rfl, rfl⟩
        · rw [analyze_value_severity hp hc hs hne] at h
          cases h

theorem analyze_value_default (hp : Catalog.parse text = .ok catalog)
    (hs : settings.level = .ok severity) (uri : String) :
    (analyze text uri settings).value = .ok (reports catalog uri severity) := by
  have hc : knownChecks ((none : Option (List String)).getD allChecks) = .ok () :=
    knownChecks_allChecks
  have h := analyze_value hp hs hc uri
  simpa [allChecks] using h

end Analysis

end CatalogLint
