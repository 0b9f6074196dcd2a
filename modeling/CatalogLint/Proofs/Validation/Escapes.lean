import CatalogLint.Proofs.Duplicates.Report
import CatalogLint.Proofs.Validation.History

/-!
# What escapes from a pass

A pass deals with a lookup that fails, with a document that has no text and with a text that is no
catalog. It does not deal with settings that name no severity, nor with a sink that takes no
reports: these escape from it, and end the task that it belongs to.

* `Uncaught`: when something escapes, and what.
* `conclude_eq_escaped_iff`: **something escapes from a pass exactly if it is uncaught**.
-/

namespace CatalogLint

namespace Validator

variable {v w : Validator} {p : Pass} {o : Outcome} {e : Escape}

/-- The checks exist, and no analysis is made to fail. -/
structure Undisturbed (v : Validator) : Prop where
  checks : knownChecks (v.checks.getD allChecks) = .ok ()
  fault : v.surroundings.fault = none

/-- A validator that was just made has checks that exist. -/
theorem undisturbed_create {checks : Option (List String)} (hv : create checks = .ok v)
    {surroundings : Surroundings} (hf : surroundings.fault = none) :
    v = { checks } ∧ Undisturbed { v with surroundings } := by
  unfold create at hv
  cases hk : knownChecks (checks.getD []) with
  | error e => rw [hk] at hv; cases hv
  | ok =>
    rw [hk] at hv
    obtain rfl := Except.ok.inj hv
    refine ⟨rfl, ?_, hf⟩
    cases checks with
    | none => exact knownChecks_allChecks
    | some names => exact hk

/-- What escapes from a pass with the outcome of its lookup. The pass is the latest one over its
document, and the text is a catalog. -/
inductive Uncaught (v : Validator) (p : Pass) : Outcome → Escape → Prop where
  /-- The settings name no severity, and a check needs one. -/
  | severity {s : Settings} {text : String} {catalog : Catalog} {e : UnknownSeverity}
      (hl : v.latest.lookup p.uri = some p.token) (ht : v.surroundings.read p.uri = .ok text)
      (hp : Catalog.parse text = .ok catalog) (hne : v.checks ≠ some [])
      (hs : s.level = .error e) : Uncaught v p (.ok s) (.analysis (.severity e))
  /-- There are reports, perhaps none, and the sink does not take them. -/
  | refused {s : Settings} {text : String} {catalog : Catalog}
      (hl : v.latest.lookup p.uri = some p.token) (ht : v.surroundings.read p.uri = .ok text)
      (hp : Catalog.parse text = .ok catalog)
      (hs : v.checks = some [] ∨ ∃ severity, s.level = .ok severity)
      (hc : v.surroundings.sinkClosed = true) : Uncaught v p (.ok s) .sinkClosed

theorem Uncaught.congr (h : Uncaught v p o e) (hl : w.latest = v.latest)
    (hs : w.surroundings = v.surroundings) (hc : w.checks = v.checks) : Uncaught w p o e := by
  cases h with
  | severity hl' ht hp hne hs' =>
    exact .severity (hl ▸ hl') (hs ▸ ht) hp (hc ▸ hne) hs'
  | refused hl' ht hp hs' hc' =>
    exact .refused (hl ▸ hl') (hs ▸ ht) hp (hc ▸ hs') (hs ▸ hc')

theorem Undisturbed.analysis_eq (hv : Undisturbed v) (uri text : String) (s : Settings) :
    v.analysis uri text s = analyze text uri s v.checks := by
  unfold analysis
  rw [hv.fault]

theorem conclude_latest {s : Settings} {text : String}
    (hl : v.latest.lookup p.uri = some p.token) (ht : v.surroundings.read p.uri = .ok text) :
    (v.conclude p (.ok s)).2.2 = (v.report p s text).2 := by
  simp only [conclude, SettingsCache.receive, proceed]
  rw [if_neg (not_not.2 hl), ht]

theorem Undisturbed.escaped_of_uncaught (hv : Undisturbed v) (h : Uncaught v p o e) :
    (v.conclude p o).2.2 = .escaped e := by
  cases h with
  | severity hl ht hp hne hs =>
    have ha := analyze_value_severity hp hv.checks hs hne p.uri
    rw [conclude_latest hl ht, report, hv.analysis_eq, ha]
  | refused hl ht hp hs hc =>
    obtain ⟨ds, ha⟩ := exists_analyze_value hp hv.checks hs p.uri
    simp only [conclude_latest hl ht, report, hv.analysis_eq, ha, hc, if_true]

theorem Undisturbed.uncaught_of_escaped (hv : Undisturbed v)
    (h : (v.conclude p o).2.2 = .escaped e) : Uncaught v p o e := by
  have hcases := conclude_cases v p o
  rw [h] at hcases
  generalize (v.conclude p o).2.1 = effects at hcases
  -- of the ways in which a pass ends, in two something escapes
  cases hcases with
  | @escaped s text a log hl ht ha he hs =>
    rw [hv.analysis_eq] at ha
    cases hp : Catalog.parse text with
    | error e' =>
      rw [analyze_value_error hp hv.checks] at ha
      exact absurd (Except.error.inj ha).symm (he.1 e')
    | ok catalog =>
      -- the text can be read, so it is the severity that is missing
      rcases analyze_value_cases hp hv.checks p.uri with ⟨-, ds, hds⟩ | ⟨hne, e', hs, he'⟩
      · rw [hds] at ha
        cases ha
      · rw [he'] at ha
        obtain rfl := Except.error.inj ha
        exact .severity hl ht hp hne hs
  | @refused s text ds log hl ht ha hc hs =>
    rw [hv.analysis_eq] at ha
    obtain ⟨catalog, -, hp, -⟩ := eq_reports_of_analyze ha
    rcases analyze_value_cases hp hv.checks p.uri with ⟨hs, -⟩ | ⟨-, e', -, he'⟩
    · exact .refused hl ht hp hs hc
    · rw [he'] at ha
      cases ha

/-- **Something escapes from a pass exactly if it is uncaught.** -/
theorem Undisturbed.conclude_eq_escaped_iff (hv : Undisturbed v) :
    (v.conclude p o).2.2 = .escaped e ↔ Uncaught v p o e :=
  ⟨hv.uncaught_of_escaped, hv.escaped_of_uncaught⟩

end Validator

end CatalogLint
