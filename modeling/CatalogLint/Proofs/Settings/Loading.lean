import CatalogLint.Proofs.Json.Reading
import CatalogLint.Proofs.Settings.Stored

/-!
# Loading settings from whatever is there

A settings file that is missing, unreadable or not JSON gives the defaults, and so does one that
names no severity. Three kinds of content are refused instead: bytes that are not UTF-8, whole
numbers with too many digits, and arrays or objects that are nested too deep.

* `value_ofJson_of_names`, `value_ofJson_of_not_names`: settings from an object are those it names,
  or the defaults.
* `settings_of_any_content`: **which contents are refused, and what all others give.**
* `stray_byte_refused`: a byte that is no text is not made up for by the defaults.
-/

namespace CatalogLint.Settings

open CatalogLint.Text

section Fields

variable {v : Json} {severity : String}

/-- A value has a field for the severity, which names one in any case. -/
def Names (v : Json) (severity : String) : Prop :=
  v.field? "severity" = some (.string (pointsOf severity)) ∧
    upper severity ∈ Severity.all.map Severity.name

/-- The text in a field. -/
def textIn? : Option Json → Option (List Point)
  | some (.string points) => some points
  | _ => none

theorem value_givenSeverity_cons (key : List Point) (value : Json) (rest : Json.Fields) :
    (givenSeverity ((key, value) :: rest)).value =
      if key = pointsOf "severity" then (givenSeverity rest).value.or (textIn? (some value))
      else (givenSeverity rest).value := by
  have hnone : (givenSeverity rest).value = (givenSeverity rest).value.or none :=
    (Option.or_none ..).symm
  by_cases hkey : key = pointsOf "severity"
  · rw [if_pos hkey]
    cases value with
    | string points =>
      simp only [givenSeverity, if_pos hkey]
      rfl
    | _ =>
      simp only [givenSeverity, if_pos hkey]
      exact hnone
  · rw [if_neg hkey]
    cases value <;> simp only [givenSeverity, if_neg hkey] <;> rfl

theorem value_givenSeverity_of_not_mem {fields : Json.Fields}
    (h : pointsOf "severity" ∉ fields.map Prod.fst) : (givenSeverity fields).value = none := by
  induction fields with
  | nil => rfl
  | cons x rest ih =>
    obtain ⟨key, value⟩ := x
    rw [List.map_cons, List.mem_cons, not_or] at h
    rw [value_givenSeverity_cons, if_neg (Ne.symm h.1)]
    exact ih h.2

/-- Where no key comes twice, the severity that is given is the one that is found. -/
theorem value_givenSeverity {fields : Json.Fields} (h : (fields.map Prod.fst).Nodup) :
    (givenSeverity fields).value = textIn? (fields.lookup (pointsOf "severity")) := by
  induction fields with
  | nil => rfl
  | cons x rest ih =>
    obtain ⟨key, value⟩ := x
    rw [List.map_cons, List.nodup_cons] at h
    rw [value_givenSeverity_cons, Table.lookup_cons_eq]
    by_cases hkey : key = pointsOf "severity"
    · rw [if_pos hkey, if_pos hkey.symm, value_givenSeverity_of_not_mem (hkey ▸ h.1),
        Option.none_or]
    · rw [if_neg hkey, if_neg (Ne.symm hkey)]
      exact ih h.2

/-- Settings from an object without a key twice: what its severity is, if it names one. -/
theorem value_ofJson_object {fields : Json.Fields} (h : (fields.map Prod.fst).Nodup) :
    (ofJson (.object fields)).value =
      match (textIn? (fields.lookup (pointsOf "severity"))).bind fun points =>
        (stringOf? points).filter fun s => (severityNamed? s).isSome with
      | some severity => ⟨severity⟩
      | none => {} := by
  rw [← value_givenSeverity h]
  unfold ofJson
  simp only [bind]
  cases (givenSeverity fields).value with
  | none => rfl
  | some points =>
    simp only [Option.bind_some]
    cases (stringOf? points).filter fun s => (severityNamed? s).isSome <;> rfl

theorem value_ofJson_of_names (hk : v.KeysOnce) (h : Names v severity) :
    (ofJson v).value = ⟨severity⟩ := by
  obtain ⟨hfield, hname⟩ := h
  cases v with
  | object fields =>
    have hlookup : fields.lookup (pointsOf "severity") = some (.string (pointsOf severity)) :=
      hfield
    rw [value_ofJson_object hk, hlookup]
    simp only [textIn?, Option.bind_some, stringOf?_pointsOf, Option.filter,
      severityNamed?_isSome.2 hname, if_pos]
  | _ => cases hfield

theorem value_ofJson_of_not_names (hk : v.KeysOnce) (h : ∀ severity, ¬ Names v severity) :
    (ofJson v).value = {} := by
  cases v with
  | object fields =>
    rw [value_ofJson_object hk]
    split
    · rename_i severity hs
      obtain ⟨points, hpoints, hs⟩ := Option.bind_eq_some_iff.1 hs
      obtain ⟨hs, hname⟩ := Option.filter_eq_some_iff.1 hs
      have hfield : fields.lookup (pointsOf "severity") = some (.string points) := by
        unfold textIn? at hpoints
        split at hpoints
        · rename_i hl
          rw [hl, Option.some.inj hpoints]
        · cases hpoints
      rw [stringOf?_eq_some_iff.1 hs] at hfield
      exact absurd ⟨hfield, severityNamed?_isSome.1 hname⟩ (h severity)
    · rfl
  | _ => rfl

end Fields

section Contents

variable {file : List String} {content : Content} {severity : String}

/-- The settings file is JSON, and names a severity. -/
def Holds (content : Content) (severity : String) : Prop :=
  ∃ text v, content = .stored (Utf8.encode text) ∧
    Json.read (unifyBreaks text.toList) = .ok v ∧ Names v severity

/-- In a text a value goes beyond a limit, at a place where a value may stand. -/
def Overlong (text : String) (e : Json.ReadError) : Prop :=
  ∃ before t rest, Json.tokens (unifyBreaks text.toList) = before ++ t :: rest ∧
    Json.ValueMayFollow before ∧ Json.Exceeds (Json.openAfter before) t e

/-- What reading the text of a settings file comes to. -/
def ofReading : Except Json.ReadError Json → Except LoadError Settings
  | .error .malformed => .ok {}
  | .error (.longNumber digits) => .error (.longNumber digits)
  | .error (.tooDeep inArray) => .error (.tooDeep inArray)
  | .ok v => .ok (ofJson v).value

theorem value_ofContent_encode (text : String) :
    (ofContent file (.stored (Utf8.encode text))).value =
      ofReading (Json.read (unifyBreaks text.toList)) := by
  simp only [ofContent, Utf8.decodeStrict_encode]
  cases Json.read (unifyBreaks text.toList) with
  | ok v => rfl
  | error e => cases e <;> rfl

/-- The three things that a settings file can be: nothing to read, a text, and no text. -/
theorem value_ofContent_cases (file : List String) (content : Content) :
    (∀ bytes, content ≠ .stored bytes) ∧ (ofContent file content).value = .ok {} ∨
    (∃ text, content = .stored (Utf8.encode text) ∧
      (ofContent file content).value = ofReading (Json.read (unifyBreaks text.toList))) ∨
    ∃ bytes, content = .stored bytes ∧ (∀ text, bytes ≠ Utf8.encode text) ∧
      ∃ e, (ofContent file content).value = .error (.encoding e) := by
  cases content with
  | absent => exact .inl ⟨nofun, rfl⟩
  | unreadable reason => exact .inl ⟨nofun, rfl⟩
  | stored bytes =>
    right
    cases hd : Utf8.decodeStrict bytes with
    | ok cs =>
      obtain rfl := Utf8.decodeStrict_eq_ok_iff.1 hd
      exact .inl ⟨String.ofList cs, rfl, value_ofContent_encode _⟩
    | error e =>
      refine .inr ⟨bytes, rfl, ?_, e, by simp only [ofContent, hd, pure]⟩
      rintro text rfl
      rw [Utf8.decodeStrict_encode] at hd
      cases hd

theorem ofReading_ne_encoding (r : Except Json.ReadError Json) (e : Utf8.DecodeError) :
    ofReading r ≠ .error (.encoding e) := by
  intro h
  cases r with
  | ok v => cases h
  | error e' => cases e' <;> cases h

/-- Content is refused for its encoding exactly if it is not the bytes of any text. -/
theorem refused_for_encoding_iff :
    (∃ e, (ofContent file content).value = .error (.encoding e)) ↔
      ∃ bytes, content = .stored bytes ∧ ∀ text, bytes ≠ Utf8.encode text := by
  constructor
  · rintro ⟨e, he⟩
    rcases value_ofContent_cases file content with ⟨-, h⟩ | ⟨text, -, h⟩ | ⟨bytes, hc, hb, -⟩
    · rw [h] at he
      cases he
    · rw [h] at he
      exact absurd he (ofReading_ne_encoding _ e)
    · exact ⟨bytes, hc, hb⟩
  · rintro ⟨bytes, hc, hb⟩
    rcases value_ofContent_cases file content with ⟨h, -⟩ | ⟨text, h, -⟩ | ⟨_, -, -, he⟩
    · exact absurd hc (h bytes)
    · rw [hc] at h
      exact absurd (Content.stored.inj h) (hb text)
    · exact he

/-- Content is refused for a limit exactly if it is a text that goes beyond it. -/
theorem refused_for_limit_iff {e : Json.ReadError} {le : LoadError} (he : e ≠ .malformed)
    (hread : ∀ r, ofReading r = .error le ↔ r = .error e) :
    (ofContent file content).value = .error le ↔
      ∃ text, content = .stored (Utf8.encode text) ∧ Overlong text e := by
  constructor
  · intro h
    rcases value_ofContent_cases file content with ⟨-, hv⟩ | ⟨text, hc, hv⟩ | ⟨_, -, -, e', hv⟩
    · rw [hv] at h
      cases h
    · rw [hv, hread, Json.read_exceeds_iff he] at h
      exact ⟨text, hc, h⟩
    · obtain rfl : LoadError.encoding e' = le := Except.error.inj (hv.symm.trans h)
      exact absurd ((hread (.error e)).2 rfl) (ofReading_ne_encoding _ e')
  · rintro ⟨text, rfl, hover⟩
    rw [value_ofContent_encode, hread, Json.read_exceeds_iff he]
    exact hover

theorem ofReading_eq_longNumber {r : Except Json.ReadError Json} {digits : Nat} :
    ofReading r = .error (.longNumber digits) ↔ r = .error (.longNumber digits) := by
  unfold ofReading
  split <;> simp

theorem ofReading_eq_tooDeep {r : Except Json.ReadError Json} {inArray : Bool} :
    ofReading r = .error (.tooDeep inArray) ↔ r = .error (.tooDeep inArray) := by
  unfold ofReading
  split <;> simp

theorem value_ofContent_of_holds (h : Holds content severity) :
    (ofContent file content).value = .ok ⟨severity⟩ := by
  obtain ⟨text, v, rfl, hread, hnames⟩ := h
  rw [value_ofContent_encode, hread]
  exact congrArg Except.ok (value_ofJson_of_names (Json.keysOnce_of_read hread) hnames)

/-- What is not refused and does not name a severity gives the defaults. -/
theorem value_ofContent_of_not_holds (h : ∀ severity, ¬ Holds content severity)
    (he : ∀ e, (ofContent file content).value ≠ .error e) :
    (ofContent file content).value = .ok {} := by
  rcases value_ofContent_cases file content with ⟨-, hv⟩ | ⟨text, hc, hv⟩ | ⟨_, -, -, e, hv⟩
  · exact hv
  · rw [hv] at he ⊢
    cases hread : Json.read (unifyBreaks text.toList) with
    | ok v =>
      have hnames : ∀ severity, ¬ Names v severity := by
        intro severity hn
        exact h severity ⟨text, v, hc, hread, hn⟩
      exact congrArg Except.ok (value_ofJson_of_not_names (Json.keysOnce_of_read hread) hnames)
    | error e =>
      rw [hread] at he
      cases e with
      | malformed => rfl
      | longNumber digits => exact absurd rfl (he _)
      | tooDeep inArray => exact absurd rfl (he _)
  · exact absurd hv (he _)

end Contents

/-- **Which settings files are refused, and what all others give.** A file is refused exactly if it
is not UTF-8, or if it is a text in which, at a place where a value may stand, a whole number has
too many digits or an array or object is nested too deep. Any other file, and anything else that
stands in its place, gives settings: those that it names if it is an object with a severity, and the
defaults if not. So the settings that are loaded always name a severity. -/
theorem settings_of_any_content (file : List String) (content : Content) :
    let outcome := (ofContent file content).value
    ((∃ e, outcome = .error (.encoding e)) ↔
      ∃ bytes, content = .stored bytes ∧ ∀ text, bytes ≠ Utf8.encode text) ∧
    (∀ digits, outcome = .error (.longNumber digits) ↔
      ∃ text, content = .stored (Utf8.encode text) ∧ Overlong text (.longNumber digits)) ∧
    (∀ inArray, outcome = .error (.tooDeep inArray) ↔
      ∃ text, content = .stored (Utf8.encode text) ∧ Overlong text (.tooDeep inArray)) ∧
    (∀ severity, Holds content severity → outcome = .ok ⟨severity⟩) ∧
    ((∀ severity, ¬ Holds content severity) → (∀ e, outcome ≠ .error e) → outcome = .ok {}) ∧
    (∀ s, outcome = .ok s → upper s.severity ∈ Severity.all.map Severity.name) ∧
    ∀ config root, load config root =
      ofContent (config ++ [fileName]) (Content.find (config ++ [fileName]) root) := by
  intro outcome
  have hnamed : ∀ s, outcome = .ok s → upper s.severity ∈ Severity.all.map Severity.name := by
    intro s hs
    by_cases hholds : ∃ severity, Holds content severity
    · obtain ⟨severity, hh⟩ := hholds
      have hvalue : outcome = .ok ⟨severity⟩ := value_ofContent_of_holds hh
      rw [hs] at hvalue
      obtain rfl := Except.ok.inj hvalue
      obtain ⟨-, v, -, -, hnames⟩ := hh
      exact hnames.2
    · have he : ∀ e, outcome ≠ .error e := by
        intro e h
        rw [hs] at h
        cases h
      have hvalue : outcome = .ok {} := value_ofContent_of_not_holds (not_exists.1 hholds) he
      rw [hs] at hvalue
      obtain rfl := Except.ok.inj hvalue
      decide +kernel
  refine ⟨refused_for_encoding_iff, fun digits => ?_, fun inArray => ?_,
    fun severity => value_ofContent_of_holds, value_ofContent_of_not_holds, hnamed,
    fun config root => rfl⟩
  · exact refused_for_limit_iff (by simp) fun r => ofReading_eq_longNumber
  · exact refused_for_limit_iff (by simp) fun r => ofReading_eq_tooDeep

/-- A settings file of one byte that begins no character is refused: neither settings nor defaults
are loaded. -/
theorem stray_byte_refused :
    (load ["config"] (.dir [("config", .dir [(fileName, .file [0xFF])])])).value =
      .error (.encoding ⟨0, 0xFF, 1, .start⟩) := by
  decide +kernel

end CatalogLint.Settings
