import CatalogLint.Proofs.Files.Operations
import CatalogLint.Proofs.Json.Values
import CatalogLint.Proofs.Settings.Lookups
import CatalogLint.Proofs.Text.Bytes
import CatalogLint.Settings.Storage

/-!
# Stored settings

* `Settings.read_payload`: **the content of a settings file is JSON**, and holds the severity as it
  was given.
* `Settings.get?_of_store`: settings that have been stored are the content of their file.
* `saved_settings_load`: **saved settings load back**, as they were if they name a severity, and as
  the defaults if not.
-/

namespace CatalogLint

open CatalogLint.Text

namespace Settings

section Content

/-- What a settings file says. -/
def toJson (s : Settings) : Json :=
  .object [(pointsOf "severity", .string (pointsOf s.severity))]

theorem plain_toJson (s : Settings) : Json.Plain 1 s.toJson :=
  Json.plain_object 0 [("severity", .string (pointsOf s.severity))] (by simp)
    (by simp [Json.Plain.string])

theorem toList_payload (s : Settings) : s.payload.toList = Json.write .pretty 0 s.toJson := by
  unfold payload Json.pretty
  rw [String.toList_ofList]
  rfl

/-- **The content of a settings file is JSON**: an object with the severity as it was given. -/
theorem read_payload (s : Settings) : Json.read s.payload.toList = .ok s.toJson := by
  have hnothing : ∀ c ∈ ([] : List Char), Json.isSpace c = true := by simp
  have hread := Json.read_write_iff s.plain_toJson (by decide) hnothing
  rw [List.append_nil, ← toList_payload] at hread
  apply hread.2
  intro n hn
  simp [toJson, Json.tokensOf, Json.tokensOfFields] at hn

/-- A settings file has no carriage returns, so its line ends come back as they are. -/
theorem unifyBreaks_payload (s : Settings) : unifyBreaks s.payload.toList = s.payload.toList := by
  apply unifyBreaks_of_not_mem
  intro hmem
  rw [toList_payload] at hmem
  cases List.all_eq_true.1 (Json.ordinary_write s.plain_toJson 0) _ hmem

end Content

section Severities

variable {s : Settings}

theorem severityNamed?_isSome {name : String} :
    (severityNamed? name).isSome ↔ upper name ∈ Severity.all.map Severity.name := by
  unfold severityNamed? Severity.ofName?
  simp

theorem named_of_level {severity : Severity} (h : s.level = .ok severity) :
    upper s.severity ∈ Severity.all.map Severity.name := by
  rw [← severityNamed?_isSome]
  unfold level at h
  cases hn : severityNamed? s.severity with
  | none => rw [hn] at h; cases h
  | some severity => rfl

/-- Settings that were loaded come from some value; the defaults are what nothing gives. -/
theorem eq_ofJson_of_load {config : List String} {root : FileTree}
    (h : (load config root).value = .ok s) : ∃ v, s = (ofJson v).value := by
  have hdefault : (Except.ok {} : Except LoadError Settings) = .ok s →
      ∃ v, s = (ofJson v).value := fun he => ⟨.null, (Except.ok.inj he).symm⟩
  unfold load at h
  cases hc : Content.find (config ++ [fileName]) root with
  | absent => simp only [hc] at h; exact hdefault h
  | unreadable reason => simp only [hc] at h; exact hdefault h
  | stored bytes =>
    simp only [hc, ofContent] at h
    split at h
    · cases h
    · split at h
      · exact hdefault h
      · cases h
      · cases h
      · rename_i v _
        exact ⟨v, (Except.ok.inj h).symm⟩

end Severities

/-- Settings from the content of a settings file: those that were written, if they name a
severity. -/
theorem ofJson_severity (s : Settings) :
    (ofJson (.object [(pointsOf "severity", .string (pointsOf s.severity))])).value =
      if upper s.severity ∈ Severity.all.map Severity.name then s else {} := by
  have hgiven : (givenSeverity [(pointsOf "severity", .string (pointsOf s.severity))]).value =
      some (pointsOf s.severity) := by
    simp only [givenSeverity, if_pos]
    rfl
  simp only [ofJson, bind, hgiven, stringOf?_pointsOf, ← severityNamed?_isSome]
  by_cases hn : (severityNamed? s.severity).isSome = true
  · rw [if_pos hn]
    simp only [Option.filter, hn]
    rfl
  · rw [if_neg hn]
    simp only [Option.filter, hn]
    rfl

section Storing

variable {s : Settings} {config : List String} {name part : String} {root saved : FileTree}

theorem temporary_ne (part : String) : temporary part ≠ fileName := by
  intro h
  have hlist := congrArg String.toList h
  simp [temporary, fileName] at hlist

theorem save_of_ok (h : s.store config (temporary part) root = .ok () saved) :
    s.save config part root = .ok (pure ()) saved :=
  FileM.tryCatch_of_ok (FileM.bind_of_ok h)

theorem save_of_error {r : Refusal} (h : s.store config (temporary part) root = .error r saved) :
    s.save config part root = if r.kind = .nullByte then .error r saved
      else .ok (note .warning ("Failed to save settings: " ++ r.text)) saved := by
  refine (FileM.tryCatch_of_error (FileM.bind_of_error h)).trans ?_
  split_ifs <;> rfl

/-- A temporary file that has taken the place of the settings file has its content there. -/
theorem get?_of_fillAndMove (hname : name ≠ fileName)
    (h : s.fillAndMove config name root = .ok () saved) :
    saved.get? (config ++ [fileName]) = some (.file (Utf8.encode s.payload)) := by
  obtain ⟨_, written, hwrite, hmove⟩ := FileM.exists_of_bind h
  obtain ⟨es, es', -, hop, rfl⟩ := FileTree.exists_of_change hwrite
  obtain ⟨es₁, es₂, hdir, hop', rfl⟩ := FileTree.exists_of_change hmove
  rw [FileTree.get?_put] at hdir
  obtain rfl := FileTree.dir.inj (Option.some.inj hdir)
  -- what is moved is what has just been written
  have hes' : Table.set name (.file (Utf8.encode s.payload)) es = es' := by
    unfold Operation.write at hop
    split at hop
    · cases hop
    · exact Except.ok.inj hop
  have hes₂ : Table.erase name (Table.set fileName (.file (Utf8.encode s.payload)) es') = es₂ := by
    have hwritten : es'.lookup name = some (.file (Utf8.encode s.payload)) := by
      rw [← hes', Table.lookup_set, if_pos rfl]
    unfold Operation.move at hop'
    rw [hwritten] at hop'
    split at hop'
    · cases hop'
    · cases hop'
    · cases hop'
    · rename_i heq _
      obtain rfl := FileTree.file.inj (Option.some.inj heq)
      exact Except.ok.inj hop'
  rw [FileTree.get?_concat (FileTree.get?_put _ _ _), ← hes₂, Table.lookup_erase,
    if_neg hname.symm, Table.lookup_set, if_pos rfl]

/-- **Settings that have been stored are the content of their file.** -/
theorem get?_of_store (hname : name ≠ fileName) (h : s.store config name root = .ok () saved) :
    saved.get? (config ++ [fileName]) = some (.file (Utf8.encode s.payload)) := by
  obtain ⟨_, made, -, h⟩ := FileM.exists_of_bind h
  obtain ⟨_, created, -, h⟩ := FileM.exists_of_bind h
  cases hfill : s.fillAndMove config name created with
  | ok a saved' =>
    obtain ⟨-, rfl⟩ := EStateM.Result.ok.inj ((FileM.tryCatch_of_ok hfill).symm.trans h)
    exact get?_of_fillAndMove hname hfill
  | error r saved' =>
    -- after the temporary file has been taken away, the refusal is raised again
    have hraised := (FileM.tryCatch_of_error hfill).symm.trans h
    obtain ⟨_, removed, -, hthrow⟩ := FileM.exists_of_bind hraised
    cases hthrow

/-- Saving that is not complained of puts the content in its place. -/
theorem get?_save (h : s.save config part root = .ok ⟨(), []⟩ saved) :
    saved.get? (config ++ [fileName]) = some (.file (Utf8.encode s.payload)) := by
  cases hstore : s.store config (temporary part) root with
  | ok a saved' =>
    obtain ⟨-, rfl⟩ := EStateM.Result.ok.inj ((save_of_ok hstore).symm.trans h)
    exact get?_of_store (temporary_ne part) hstore
  | error r saved' =>
    rw [save_of_error hstore] at h
    split_ifs at h
    cases h

end Storing

end Settings

/-- **Saved settings load back.** Once settings have been saved, whatever name the temporary file
had, the file is UTF-8 and JSON, and loading gives the same settings if their severity names one, in
any case, and the defaults otherwise. Settings that were made from any value, or loaded from
anywhere, are always the same. -/
theorem saved_settings_load {s : Settings} {config : List String} {part : String}
    {root saved : FileTree} (hs : s.save config part root = .ok ⟨(), []⟩ saved) :
    (∃ bytes text, saved.get? (config ++ [Settings.fileName]) = some (.file bytes) ∧
      Utf8.decodeStrict bytes = .ok text ∧ Json.read (unifyBreaks text) =
        .ok (.object [(pointsOf "severity", .string (pointsOf s.severity))])) ∧
    (Settings.load config saved).value =
      .ok (if upper s.severity ∈ Severity.all.map Severity.name then s else {}) ∧
    ((∃ v, s = (Settings.ofJson v).value) ∨
        (∃ config' root', (Settings.load config' root').value = .ok s) →
      (Settings.load config saved).value = .ok s) := by
  have hfile : saved.get? (config ++ [Settings.fileName]) = some (.file (Utf8.encode s.payload)) :=
    Settings.get?_save hs
  have hdecode := Utf8.decodeStrict_encode s.payload
  have hread : Json.read (unifyBreaks s.payload.toList) =
      .ok (.object [(pointsOf "severity", .string (pointsOf s.severity))]) := by
    rw [Settings.unifyBreaks_payload, Settings.read_payload]
    rfl
  have hload : (Settings.load config saved).value =
      .ok (if upper s.severity ∈ Severity.all.map Severity.name then s else {}) := by
    unfold Settings.load Settings.Content.find
    simp only [hfile, Settings.ofContent, hdecode, hread, bind]
    exact congrArg Except.ok (Settings.ofJson_severity s)
  refine ⟨⟨_, _, hfile, hdecode, hread⟩, hload, fun horigin => ?_⟩
  obtain ⟨v, rfl⟩ : ∃ v, s = (Settings.ofJson v).value := by
    rcases horigin with hv | ⟨config', root', h⟩
    · exact hv
    · exact Settings.eq_ofJson_of_load h
  obtain ⟨severity, hlevel⟩ := Settings.level_ofJson v
  rw [hload, if_pos (Settings.named_of_level hlevel)]

/-- A severity with a dotless letter is kept as it was given; one that is full of quotes, controls
and backslashes is saved, and dropped when it is loaded. -/
theorem saved_settings_load_dotless :
    (∃ saved, Settings.save ⟨"hınt"⟩ ["config"] "a" (.dir []) = .ok ⟨(), []⟩ saved ∧
      (Settings.load ["config"] saved).value = .ok ⟨"hınt"⟩) ∧
    ∃ saved, Settings.save ⟨"\"\\\x00\x1f\r\n\x7f😀"⟩ ["config"] "a" (.dir []) =
        .ok ⟨(), []⟩ saved ∧
      (Settings.load ["config"] saved).value = .ok {} := by
  have hn : upper "hınt" ∈ Severity.all.map Severity.name := by decide +kernel
  have hn' : upper "\"\\\x00\x1f\r\n\x7f😀" ∉ Severity.all.map Severity.name := by decide +kernel
  obtain ⟨saved, hs⟩ : ∃ saved, Settings.save ⟨"hınt"⟩ ["config"] "a" (.dir []) =
      .ok ⟨(), []⟩ saved := ⟨_, rfl⟩
  obtain ⟨saved', hs'⟩ : ∃ saved, Settings.save ⟨"\"\\\x00\x1f\r\n\x7f😀"⟩ ["config"] "a" (.dir []) =
      .ok ⟨(), []⟩ saved := ⟨_, rfl⟩
  refine ⟨⟨saved, hs, ?_⟩, saved', hs', ?_⟩
  · rw [(saved_settings_load hs).2.1, if_pos hn]
  · rw [(saved_settings_load hs').2.1, if_neg hn']

end CatalogLint
