import CatalogLint.Proofs.Catalog.Slots
import CatalogLint.Proofs.Duplicates.Report
import CatalogLint.Proofs.Settings.Lookups

/-!
# Only a text that is no catalog has no report

An analysis looks up a severity, fills in the fields of entries, turns digits into characters,
groups entries and converts places, and each of these can fail in its own way. None of them does,
whatever the text and wherever the settings come from.

* `toNat_charOfDigits`: the digits of an escape name a character.
* `analysis_fails_only_to_parse`: **a text gets its reports, or has a fault of its own.**
-/

namespace CatalogLint

open CatalogLint.Text

section Digits

variable {value? : Char → Option Nat} {base limit : Nat}

theorem mem_digitRun_lt (hv : ∀ c n, value? c = some n → n < base) {cs : List Char} {n : Nat}
    (hn : n ∈ Catalog.digitRun value? limit cs) : n < base := by
  obtain ⟨run, rest, -, hrun, -⟩ := Catalog.digitRun_spec value? limit cs
  have hmem : some n ∈ run.map value? := hrun ▸ List.mem_map_of_mem hn
  obtain ⟨c, -, hc⟩ := List.mem_map.1 hmem
  exact hv c n hc

/-- As long as there are few digits, the number that they name is a character's. -/
theorem toNat_charOfDigits (hb : 1 < base) (hv : ∀ c n, value? c = some n → n < base)
    (hsmall : base ^ limit ≤ 0xD800) (cs : List Char) :
    (Catalog.charOfDigits base (Catalog.digitRun value? limit cs)).toNat =
      Nat.ofDigits base (Catalog.digitRun value? limit cs).reverse := by
  obtain ⟨run, rest, -, hrun, hlen, -⟩ := Catalog.digitRun_spec value? limit cs
  have hlength : (Catalog.digitRun value? limit cs).reverse.length ≤ limit := by
    have := congrArg List.length hrun
    simp only [List.length_map] at this
    rw [List.length_reverse]
    omega
  -- so few digits cannot name a half of a surrogate pair, or more
  have hlt : Nat.ofDigits base (Catalog.digitRun value? limit cs).reverse < 0xD800 := by
    calc Nat.ofDigits base (Catalog.digitRun value? limit cs).reverse
        < base ^ (Catalog.digitRun value? limit cs).reverse.length := by
          apply Nat.ofDigits_lt_base_pow_length hb
          intro n hn
          exact mem_digitRun_lt hv (List.mem_reverse.1 hn)
      _ ≤ base ^ limit := Nat.pow_le_pow_right (by omega) hlength
      _ ≤ 0xD800 := hsmall
  rw [Catalog.charOfDigits_eq, Char.ofNat, dif_pos (.inl hlt)]
  rfl

theorem digitValue?_lt {c : Char} {n : Nat} (h : digitValue? base c = some n) : n < base := by
  unfold digitValue? at h
  split at h
  · rename_i hc
    simp only [Bool.and_eq_true, decide_eq_true_eq] at hc
    obtain rfl := Option.some.inj h
    omega
  · cases h

theorem hexValue?_lt {c : Char} {n : Nat} (h : hexValue? c = some n) : n < 16 := by
  unfold hexValue? at h
  simp only [Bool.and_eq_true, decide_eq_true_eq] at h
  split_ifs at h <;> obtain rfl := Option.some.inj h <;> omega

end Digits

theorem nil_not_mem_duplicateGroups (os : List Occurrence) : [] ∉ duplicateGroups os := by
  intro h
  have hlen := (List.mem_filter.1 h).2
  simp at hlen

theorem knownChecks_of_mem {names : List String} (h : ∀ name ∈ names, name ∈ allChecks) :
    knownChecks names = .ok () := by
  have hnone : names.filter (!allChecks.contains ·) = [] := by
    apply List.filter_eq_nil_iff.2
    intro name hname
    simpa using h name hname
  unfold knownChecks unknownChecks
  rw [hnone, List.eraseDups_nil, List.mergeSort_nil]

/-- **Only a text that is no catalog has no report.** With checks that exist, and with the default
settings or with settings from any value at all, a text either gets its reports or has a fault of
its own, which is then all that is wrong. No field of an entry is missing when it is needed, the
settings name a severity, keys have places, groups have members, and the digits of an escape name a
character. -/
theorem analysis_fails_only_to_parse (text uri : String) {settings : Settings}
    (hs : settings = {} ∨ ∃ v, settings = (Settings.ofJson v).value)
    {checks : Option (List String)} (hc : ∀ names ∈ checks, ∀ name ∈ names, name ∈ allChecks) :
    ((∃ ds catalog, (analyze text uri settings checks).value = .ok ds ∧
        Catalog.parse text = .ok catalog) ∨
      ∃ e, (analyze text uri settings checks).value = .error (.parse e) ∧
        Catalog.parse text = .error e) ∧
    Catalog.parseInSlots text = (Catalog.parse text).mapError .parse ∧
    (∃ severity, settings.level = .ok severity) ∧
    (∀ catalog, Catalog.parse text = .ok catalog →
      (∀ e ∈ catalog, ∃ range, e.keySpan.toRange = .ok range) ∧
        [] ∉ duplicateGroups (occurrences catalog)) ∧
    ∀ cs, (Catalog.charOfDigits 8 (Catalog.digitRun (digitValue? 8) 3 cs)).toNat =
        Nat.ofDigits 8 (Catalog.digitRun (digitValue? 8) 3 cs).reverse ∧
      (Catalog.charOfDigits 16 (Catalog.digitRun hexValue? 2 cs)).toNat =
        Nat.ofDigits 16 (Catalog.digitRun hexValue? 2 cs).reverse := by
  have hknown : knownChecks (checks.getD allChecks) = .ok () := by
    cases checks with
    | none => exact knownChecks_allChecks
    | some names => exact knownChecks_of_mem (hc names rfl)
  obtain ⟨severity, hlevel⟩ : ∃ severity, settings.level = .ok severity := by
    rcases hs with rfl | ⟨v, rfl⟩
    · exact Settings.level_ofJson .null
    · exact Settings.level_ofJson v
  refine ⟨?_, Catalog.parseInSlots_eq text, ⟨severity, hlevel⟩, ?_, ?_⟩
  · cases hp : Catalog.parse text with
    | ok catalog => exact .inl ⟨_, catalog, analyze_value hp hlevel hknown uri, rfl⟩
    | error e => exact .inr ⟨e, analyze_value_error hp hknown uri settings, rfl⟩
  · intro catalog hp
    refine ⟨fun e he => ?_, nil_not_mem_duplicateGroups _⟩
    exact ⟨_, ((Catalog.parse_placed hp).1 e he).toRange⟩
  · intro cs
    exact ⟨toNat_charOfDigits (by omega) (fun _ _ => digitValue?_lt) (by omega) cs,
      toNat_charOfDigits (by omega) (fun _ _ => hexValue?_lt) (by omega) cs⟩

/-- Settings with a dotless letter and an unknown field, and the greatest number that an escape can
name. -/
theorem analysis_fails_only_to_parse_dotless :
    let settings := (Settings.ofJson
      (.object [("colour", .null), ("severity", .string "hınt")])).value
    let text := "msgid \"\\777\"\nmsgstr \"\"\nmsgid \"\\777\"\nmsgstr \"\""
    settings = ⟨"hınt"⟩ ∧ (∀ name ∈ ["Duplicates", "Duplicates"], name ∈ allChecks) ∧
      ∃ ds, (analyze text "a.po" settings (some ["Duplicates", "Duplicates"])).value = .ok ds := by
  intro settings text
  have hc : ∀ names ∈ some ["Duplicates", "Duplicates"], ∀ name ∈ names, name ∈ allChecks := by
    decide
  have hp : (Catalog.parse text).toOption.isSome = true := by decide +kernel
  refine ⟨by decide +kernel, by decide, ?_⟩
  rcases (analysis_fails_only_to_parse text "a.po" (.inr ⟨_, rfl⟩) hc).1 with
    ⟨ds, -, hds, -⟩ | ⟨e, -, he⟩
  · exact ⟨ds, hds⟩
  · rw [he] at hp
    cases hp

end CatalogLint
