import CatalogLint.Proofs.Settings.Stored

/-!
# Saving is all or nothing

Settings are saved in several operations: directories are made, a temporary file is created and
written, and it is put in the place of the settings file, or taken away if that cannot be done. The
system may refuse any of these, depending on what stands in the tree.

* `Settings.replaceFile_of_free`, `Settings.replaceFile_of_dir`: **no temporary file is left**,
  whether or not it has taken the place of the settings file.
* `Settings.store_cases`, `Settings.save_cases`: **the settings are stored, or the tree is as it
  was.**
* `Settings.Spells`: what the content of a settings file is.
* `StorageEvent`: what may happen to the settings file.
* `saving_all_or_nothing`: **whatever happens to the settings file, saving stores the settings or
  leaves all as it was.**
-/

namespace CatalogLint

open CatalogLint.Text

namespace Settings

section Operations

variable {s : Settings} {config : List String} {name : String} {root : FileTree}
  {es : List (String × FileTree)}

theorem add_temporary (h : es.lookup name = none) :
    Operation.add name (.file []) es = .ok (Table.set name (.file []) es) := by
  simp [Operation.add, h]

theorem write_temporary (bytes : List UInt8) :
    Operation.write name bytes (Table.set name (.file []) es) =
      .ok (Table.set name (.file bytes) es) := by
  simp [Operation.write, Table.set_set]

theorem remove_temporary (h : es.lookup name = none) (bytes : List UInt8) :
    Operation.remove name (Table.set name (.file bytes) es) = .ok es := by
  simp [Operation.remove, Table.erase_set_of_lookup h]

/-- A temporary file that takes the place of the settings file leaves nothing behind. -/
theorem move_temporary (h : es.lookup name = none) (hname : name ≠ fileName)
    (hspot : ∀ es', es.lookup fileName ≠ some (.dir es')) (bytes : List UInt8) :
    Operation.move name fileName (Table.set name (.file bytes) es) =
      .ok (Table.set fileName (.file bytes) es) := by
  have hmoved : Table.erase name
      (Table.set fileName (.file bytes) (Table.set name (.file bytes) es)) =
        Table.set fileName (.file bytes) es := by
    rw [Table.erase_set_of_ne hname.symm, Table.erase_set_of_lookup h]
  unfold Operation.move
  rw [Table.lookup_set, if_pos rfl, Table.lookup_set, if_neg hname.symm]
  cases hfile : es.lookup fileName with
  | none => exact congrArg Except.ok hmoved
  | some t =>
    cases t with
    | dir es' => exact absurd hfile (hspot es')
    | file bytes' => exact congrArg Except.ok hmoved

theorem move_temporary_onto (hname : name ≠ fileName) {es' : List (String × FileTree)}
    (hdir : es.lookup fileName = some (.dir es')) (bytes : List UInt8) :
    Operation.move name fileName (Table.set name (.file bytes) es) = .error .isDirectory := by
  unfold Operation.move
  rw [Table.lookup_set, if_pos rfl, Table.lookup_set, if_neg hname.symm, hdir]

/-- What is told if the temporary file cannot take the place of a directory. -/
def moveRefusal (config : List String) (name : String) : Refusal :=
  ⟨.isDirectory, PathError.isDirectory.message (pathText (config ++ [name])) ++ " -> " ++
    Text.quoted (pathText (config ++ [fileName]))⟩

theorem fillAndMove_of_dir (hname : name ≠ fileName) {es' : List (String × FileTree)}
    (hspot : es.lookup fileName = some (.dir es')) :
    s.fillAndMove config name (.put (.dir (Table.set name (.file []) es)) config root) =
      .error (moveRefusal config name)
        (.put (.dir (Table.set name (.file (Utf8.encode s.payload)) es)) config root) := by
  refine (FileM.bind_of_ok (FileTree.change_put (write_temporary _))).trans ?_
  exact FileTree.change_of_error (FileTree.get?_put _ _ _) (move_temporary_onto hname hspot _)

/-- By way of a temporary file, the settings file is replaced. -/
theorem replaceFile_of_free (hdir : root.get? config = some (.dir es))
    (hfresh : es.lookup name = none) (hname : name ≠ fileName)
    (hspot : ∀ es', es.lookup fileName ≠ some (.dir es')) :
    s.replaceFile config name root =
      .ok () (.put (.file (Utf8.encode s.payload)) (config ++ [fileName]) root) := by
  rw [FileTree.put_concat hdir]
  refine (FileM.bind_of_ok (FileTree.change_of_ok hdir (add_temporary hfresh))).trans ?_
  apply FileM.tryCatch_of_ok
  refine (FileM.bind_of_ok (FileTree.change_put (write_temporary _))).trans ?_
  exact FileTree.change_put (move_temporary hfresh hname hspot _)

/-- Where the settings file should be there is a directory: the temporary file is taken away again,
and **all is as it was**. -/
theorem replaceFile_of_dir (hdir : root.get? config = some (.dir es))
    (hfresh : es.lookup name = none) (hname : name ≠ fileName) {es' : List (String × FileTree)}
    (hspot : es.lookup fileName = some (.dir es')) :
    s.replaceFile config name root = .error (moveRefusal config name) root := by
  refine (FileM.bind_of_ok (FileTree.change_of_ok hdir (add_temporary hfresh))).trans ?_
  refine (FileM.tryCatch_of_error (fillAndMove_of_dir hname hspot)).trans ?_
  -- without the temporary file the entries are the old ones, and so is the tree
  have hremove : ∀ tell bytes, FileTree.change config tell (.remove name)
      (.put (.dir (Table.set name (.file bytes) es)) config root) = .ok () root := by
    intro tell bytes
    rw [FileTree.change_put (remove_temporary hfresh bytes), FileTree.put_of_get? hdir]
  exact FileM.bind_of_ok (FileM.tryCatch_of_ok (hremove _ _))

end Operations

section Storing

variable {s : Settings} {config : List String} {name part : String} {root : FileTree}
  {es : List (String × FileTree)}

/-- Settings cannot be saved: a file is on the way to their directory, or there is a directory in
the place of their file. -/
def Blocked (config : List String) (root : FileTree) : Prop :=
  (∃ way bytes, way <+: config ∧ root.get? way = some (.file bytes)) ∨
    ∃ es, root.get? (config ++ [fileName]) = some (.dir es)

/-- The name of the temporary file is taken. -/
def Taken (config : List String) (name : String) (root : FileTree) : Prop :=
  ∃ es, root.get? config = some (.dir es) ∧ (es.lookup name).isSome = true

/-- How storing settings ends, and the tree that it leaves. -/
inductive Storing (s : Settings) (config : List String) (name : String) (root : FileTree) :
    EStateM.Result Refusal FileTree Unit → Prop where
  | stored (hfree : ¬ Blocked config root) : Storing s config name root
      (.ok () (.put (.file (Utf8.encode s.payload)) (config ++ [fileName]) root))
  | refused {r : Refusal} (hr : r.kind ≠ .nullByte)
      (hway : Blocked config root ∨ Taken config name root) :
      Storing s config name root (.error r root)

/-- In a directory that is there, the settings file is replaced, unless something is in the way. -/
theorem replaceFile_cases (hname : name ≠ fileName) (hdir : root.get? config = some (.dir es)) :
    Storing s config name root (s.replaceFile config name root) := by
  cases hfresh : es.lookup name with
  | some t =>
    have htaken : (es.lookup name).isSome = true := by rw [hfresh]; rfl
    have hadd : Operation.add name (.file []) es = .error .fileExists := if_pos htaken
    have hrefused : s.replaceFile config name root = .error ⟨.fileExists, _⟩ root :=
      FileM.bind_of_error (FileTree.change_of_error hdir hadd)
    rw [hrefused]
    exact .refused (by simp) (.inr ⟨es, hdir, htaken⟩)
  | none =>
    by_cases hspot : ∃ es', es.lookup fileName = some (.dir es')
    · obtain ⟨es', hspot⟩ := hspot
      rw [replaceFile_of_dir hdir hfresh hname hspot]
      refine .refused (by simp [moveRefusal]) (.inl (.inr ⟨es', ?_⟩))
      exact (FileTree.get?_concat hdir fileName).trans hspot
    · rw [replaceFile_of_free hdir hfresh hname (not_exists.1 hspot)]
      apply Storing.stored
      rintro (⟨way, bytes, hway, hfile⟩ | ⟨es', hspot'⟩)
      · exact FileTree.not_file_of_dir hdir hway bytes hfile
      · exact hspot ⟨es', (FileTree.get?_concat hdir fileName).symm.trans hspot'⟩

/-- **The settings are stored, or the tree is as it was.** -/
theorem store_cases (hroot : root = .dir es) (hname : name ≠ fileName) :
    Storing s config name root (s.store config name root) := by
  have hdir : root.get? [] = some (.dir es) := congrArg some hroot
  have hmaking := FileTree.makeDirectories_cases hdir config
  rw [List.nil_append] at hmaking
  generalize hrun : FileTree.makeDirectories [] config root = making at hmaking
  cases hmaking with
  | blocked hway hfile hr =>
    have hstore : s.store config name root = .error _ root := FileM.bind_of_error hrun
    rw [hstore]
    exact .refused hr (.inl (.inl ⟨_, _, hway, hfile⟩))
  | there hthere =>
    have hstore : s.store config name root = s.replaceFile config name root :=
      FileM.bind_of_ok hrun
    rw [hstore]
    exact replaceFile_cases hname hthere
  | made hnone hway =>
    have hstore : s.store config name root =
        s.replaceFile config name (.put (.dir []) config root) := FileM.bind_of_ok hrun
    -- nothing is in the way in a directory that is new
    rw [hstore, replaceFile_of_free (FileTree.get?_put _ _ _) rfl hname (by simp),
      FileTree.put_below hnone]
    apply Storing.stored
    rintro (⟨way, bytes, hprefix, hfile⟩ | ⟨es', hspot⟩)
    · exact hway way bytes hprefix hfile
    · cases (FileTree.get?_below hnone [fileName]).symm.trans hspot

theorem free_of_not_blocked (h : ¬ Blocked config root) (bytes : List UInt8) :
    FileTree.Free (.file bytes) (config ++ [fileName]) root := by
  constructor
  · intro way bytes' hway hfile
    rcases List.prefix_concat_iff.1 hway with rfl | hway
    · exact ⟨rfl, bytes, rfl⟩
    · exact absurd (.inl ⟨way, bytes', hway, hfile⟩) h
  · intro es hdir
    exact h (.inr ⟨es, hdir⟩)

/-- **Saving raises no error**: the settings are stored, or the tree is as it was and the log says
why. -/
theorem save_cases (s : Settings) (config : List String) (part : String) (hroot : root = .dir es) :
    (¬ Blocked config root ∧ s.save config part root =
      .ok ⟨(), []⟩ (.put (.file (Utf8.encode s.payload)) (config ++ [fileName]) root)) ∨
    ((Blocked config root ∨ Taken config (temporary part) root) ∧
      ∃ reason, s.save config part root =
        .ok (note .warning ("Failed to save settings: " ++ reason)) root) := by
  have hstoring : Storing s config (temporary part) root _ :=
    store_cases hroot (temporary_ne part)
  generalize hrun : s.store config (temporary part) root = result at hstoring
  cases hstoring with
  | stored hfree => exact .inl ⟨hfree, save_of_ok hrun⟩
  | @refused r hr hway =>
    refine .inr ⟨hway, r.text, ?_⟩
    rw [save_of_error hrun, if_neg hr]

end Storing

section Content

/-- The bytes are the settings as JSON: an object with one field on a line of its own, which is read
as the severity that was given. -/
structure Spells (s : Settings) (bytes : List UInt8) (text : List Char) : Prop where
  utf8 : Utf8.decodeStrict bytes = .ok text
  layout : text = "\x7b\n  \"severity\": ".toList ++ Json.writtenText (pointsOf s.severity) ++
    "\n\x7d".toList
  json : Json.read text = .ok (.object [(pointsOf "severity", .string (pointsOf s.severity))])

theorem spells_payload (s : Settings) : s.Spells (Utf8.encode s.payload) s.payload.toList where
  utf8 := Utf8.decodeStrict_encode s.payload
  layout := by
    have hkey : Json.writtenText (pointsOf "severity") = "\"severity\"".toList := by decide +kernel
    rw [toList_payload, toJson, Json.write_object_cons, hkey, Json.write]
    simp [Json.newLine, Json.writeFields]
  json := read_payload s

/-- Either the settings are stored, nothing is logged and all else is kept, or all is as it was, and
a warning says so. -/
inductive AllOrNothing (s : Settings) (config : List String) (root : FileTree) :
    EStateM.Result Refusal FileTree (Logged Unit) → Prop where
  | all {bytes : List UInt8} {text : List Char} (hfree : ¬ Blocked config root)
      (hspells : s.Spells bytes text)
      (hkeeps : FileTree.Keeps (config ++ [fileName]) root
        (.put (.file bytes) (config ++ [fileName]) root)) :
      AllOrNothing s config root (.ok ⟨(), []⟩ (.put (.file bytes) (config ++ [fileName]) root))
  | nothing (hblocked : Blocked config root) (reason : String) :
      AllOrNothing s config root
        (.ok ⟨(), [⟨.settings, .warning, "Failed to save settings: " ++ reason, none⟩]⟩ root)

/-- Saving is all or nothing, if the name of the temporary file is not taken. -/
theorem allOrNothing_save {s : Settings} {config : List String} {part : String} {root : FileTree}
    {es : List (String × FileTree)} (hroot : root = .dir es)
    (hfresh : ¬ Taken config (temporary part) root) :
    s.AllOrNothing config root (s.save config part root) := by
  rcases save_cases s config part hroot with ⟨hfree, hsaved⟩ | ⟨hway, reason, hsaved⟩
  · rw [hsaved]
    exact .all hfree s.spells_payload (FileTree.keeps_put (free_of_not_blocked hfree _))
  · rw [hsaved]
    exact .nothing (hway.resolve_right hfresh) reason

end Content

section Loading

/-- The bytes of a file. -/
def readFile (names : List String) : FileM (List UInt8) := do
  let refuse (e : PathError) : FileM (List UInt8) := throw ⟨e, e.message (pathText names)⟩
  match (← get).get? names with
  | some (.file bytes) => pure bytes
  | some (.dir _) => refuse .isDirectory
  | none => refuse .notFound

/-- Looks whether there is a settings file, and reads it. -/
def readContent (file : List String) : FileM Content := do
  if ((← get).get? file).isSome then
    try pure (.stored (← readFile file)) catch r => pure (.unreadable r.text)
  else pure .absent

/-- Loading, operation by operation. -/
def loadStepwise (config : List String) : FileM (Logged (Except LoadError Settings)) := do
  let content ← readContent (config ++ [fileName])
  return ofContent (config ++ [fileName]) content

theorem readFile_of_file {names : List String} {root : FileTree} {bytes : List UInt8}
    (h : root.get? names = some (.file bytes)) : readFile names root = .ok bytes root := by
  rw [readFile, FileM.get_bind, h]
  rfl

theorem readFile_of_dir {names : List String} {root : FileTree} {es : List (String × FileTree)}
    (h : root.get? names = some (.dir es)) : readFile names root =
      .error ⟨.isDirectory, PathError.isDirectory.message (pathText names)⟩ root := by
  rw [readFile, FileM.get_bind, h]
  rfl

theorem run_readContent (file : List String) (root : FileTree) :
    readContent file root = .ok (Content.find file root) root := by
  rw [readContent, Content.find, FileM.get_bind]
  cases hget : root.get? file with
  | none => rfl
  | some t =>
    cases t with
    | file bytes => exact FileM.tryCatch_of_ok (FileM.bind_of_ok (readFile_of_file hget))
    | dir es => exact FileM.tryCatch_of_error (FileM.bind_of_error (readFile_of_dir hget))

/-- **Loading changes nothing**, operation by operation as at one stroke. -/
theorem run_loadStepwise (config : List String) (root : FileTree) :
    loadStepwise config root = .ok (load config root) root :=
  FileM.bind_of_ok (run_readContent (config ++ [fileName]) root)

end Loading

end Settings

/-- What may happen to the settings file. -/
inductive StorageEvent where
  /-- Somebody writes these bytes to it. -/
  | write (bytes : List UInt8)
  /-- Somebody makes a directory in its place. -/
  | makeDirectory
  /-- Somebody writes an empty file where its directory should be. -/
  | block
  /-- Settings are saved, with this part in the name of the temporary file. -/
  | save (s : Settings) (part : String)
  | load

namespace StorageEvent

/-- The operations of an event. -/
def perform (config : List String) : StorageEvent → FileM Unit
  | write bytes => do
    FileTree.makeDirectories [] config
    FileTree.change config (·.message (pathText (config ++ [Settings.fileName])))
      (.write Settings.fileName bytes)
  | makeDirectory => FileTree.makeDirectories [] (config ++ [Settings.fileName])
  | block => do
    FileTree.makeDirectories [] config.dropLast
    FileTree.change config.dropLast (·.message (pathText config)) (.write (config.getLastD "") [])
  | save s part => do let _ ← s.save config part
  | load => do let _ ← Settings.loadStepwise config

/-- The tree after events, one after the other, whatever of them fails. -/
def run (config : List String) (events : List StorageEvent) (root : FileTree) : FileTree :=
  events.foldl (fun root e => (e.perform config).after root) root

end StorageEvent

/-- In the directory of the settings there is nothing but their file, or what stands in its
place. -/
structure OnlySettings (config : List String) (root : FileTree) : Prop where
  dir : ∃ es, root = .dir es
  entries : ∀ es, root.get? config = some (.dir es) →
    es = [] ∨ ∃ t, es = [(Settings.fileName, t)]

section Events

variable {config : List String} {root : FileTree}

theorem exists_dir_put {t : FileTree} {names : List String} (h : names ≠ []) :
    ∃ es, FileTree.put t names root = .dir es := by
  cases names with
  | nil => exact absurd rfl h
  | cons name rest => exact ⟨_, rfl⟩

theorem OnlySettings.put (h : OnlySettings config root) (t : FileTree) :
    OnlySettings config (.put t (config ++ [Settings.fileName]) root) := by
  refine ⟨exists_dir_put (by simp), fun es hes => .inr ⟨t, ?_⟩⟩
  rw [FileTree.get?_put_concat] at hes
  obtain rfl := FileTree.dir.inj (Option.some.inj hes)
  cases hget : root.get? config with
  | none => rfl
  | some u =>
    cases u with
    | file bytes => rfl
    | dir es =>
      rcases h.entries es hget with rfl | ⟨u, rfl⟩
      · rfl
      · simp [Table.set, FileTree.entries]

theorem OnlySettings.lookup_temporary (h : OnlySettings config root) (part : String)
    {es : List (String × FileTree)} (hdir : root.get? config = some (.dir es)) :
    es.lookup (Settings.temporary part) = none := by
  rcases h.entries es hdir with rfl | ⟨t, rfl⟩
  · rfl
  · rw [Table.lookup_cons_eq, if_neg (Settings.temporary_ne part)]
    rfl

theorem OnlySettings.not_taken (h : OnlySettings config root) (part : String) :
    ¬ Settings.Taken config (Settings.temporary part) root := by
  rintro ⟨es, hdir, htaken⟩
  rw [h.lookup_temporary part hdir] at htaken
  cases htaken

theorem OnlySettings.save (h : OnlySettings config root) (s : Settings) (part : String) :
    OnlySettings config ((s.save config part).after root) := by
  obtain ⟨es, hroot⟩ := h.dir
  have hall : s.AllOrNothing config root (s.save config part root) :=
    Settings.allOrNothing_save hroot (h.not_taken part)
  unfold FileM.after
  generalize s.save config part root = saved at hall
  cases hall with
  | all _ _ _ => exact h.put _
  | nothing _ _ => exact h

/-- Where there is no directory, there is nothing in it. -/
theorem OnlySettings.of_not_dir (hdir : ∃ es, root = .dir es)
    (h : ∀ es, root.get? config ≠ some (.dir es)) : OnlySettings config root :=
  ⟨hdir, fun es hes => absurd hes (h es)⟩

/-- **Every event leaves nothing but the settings file.** -/
theorem OnlySettings.perform (hconfig : config ≠ []) (h : OnlySettings config root)
    (e : StorageEvent) : OnlySettings config ((e.perform config).after root) := by
  obtain ⟨es, hroot⟩ := h.dir
  cases e with
  | write bytes =>
    -- the directory is made empty, or was there
    refine FileM.after_bind ?_ fun _ root' h' => FileTree.after_write h' (h'.put _)
    refine FileTree.after_makeDirectories h hroot config fun _ => ?_
    refine ⟨exists_dir_put hconfig, fun es hdir => .inl ?_⟩
    rw [FileTree.get?_put] at hdir
    exact (FileTree.dir.inj (Option.some.inj hdir)).symm
  | makeDirectory => exact FileTree.after_makeDirectories h hroot _ fun _ => h.put (.dir [])
  | block =>
    obtain ⟨here, name, rfl⟩ : ∃ here name, config = here ++ [name] :=
      ⟨_, _, (List.dropLast_append_getLast hconfig).symm⟩
    simp only [StorageEvent.perform, List.dropLast_concat, List.getLastD_concat]
    -- with a new directory above it, or a file in its place, there is no directory of settings
    refine FileM.after_bind ?_ fun _ root' h' => FileTree.after_write h' ?_
    · refine FileTree.after_makeDirectories h hroot here fun hnone => ?_
      refine .of_not_dir (exists_dir_put ?_) fun es hdir => ?_
      · rintro rfl
        cases hnone
      · rw [FileTree.get?_concat (FileTree.get?_put _ _ _)] at hdir
        cases hdir
    · refine .of_not_dir (exists_dir_put hconfig) fun es hdir => ?_
      rw [FileTree.get?_put] at hdir
      cases hdir
  | save s part => exact FileM.after_bind (h.save s part) fun _ root' h' => h'
  | load =>
    refine FileM.after_bind ?_ fun _ root' h' => h'
    unfold FileM.after
    rw [Settings.run_loadStepwise]
    exact h

/-- **Nothing that happens leaves anything but the settings file.** -/
theorem OnlySettings.run (hconfig : config ≠ []) (h : OnlySettings config root)
    (events : List StorageEvent) : OnlySettings config (StorageEvent.run config events root) := by
  induction events generalizing root with
  | nil => exact h
  | cons e events ih => exact ih (h.perform hconfig e)

theorem StorageEvent.run_concat (events : List StorageEvent) (e : StorageEvent) :
    run config (events ++ [e]) root = (e.perform config).after (run config events root) :=
  List.foldl_concat _ _ _ _

end Events

/-- **Saving is all or nothing.** Whatever has happened to the settings file since its directory was
not there yet, saving raises no error, whatever name the temporary file gets. It stores the
settings, logs nothing and keeps all other files; or, exactly if a file or a directory is in the
way, all is as it was, and one warning is logged. What is stored is JSON, and says the severity.
Loading changes nothing, and in the directory there is never anything but the settings file. -/
theorem saving_all_or_nothing {config : List String} {root : FileTree}
    {es : List (String × FileTree)} (hroot : root = .dir es) (habsent : root.get? config = none)
    (events : List StorageEvent) :
    let tree := StorageEvent.run config events root
    (∀ (s : Settings) part, s.AllOrNothing config tree (s.save config part tree) ∧
      StorageEvent.run config (events ++ [.save s part]) root = (s.save config part).after tree) ∧
    Settings.loadStepwise config tree = .ok (Settings.load config tree) tree ∧
    StorageEvent.run config (events ++ [.load]) root = tree ∧
    ∀ es, tree.get? config = some (.dir es) → es = [] ∨ ∃ t, es = [(Settings.fileName, t)] := by
  intro tree
  have hconfig : config ≠ [] := by
    rintro rfl
    cases habsent
  have hstart : OnlySettings config root := by
    refine .of_not_dir ⟨es, hroot⟩ fun es' hdir => ?_
    rw [habsent] at hdir
    cases hdir
  have honly : OnlySettings config tree := hstart.run hconfig events
  obtain ⟨es', htree⟩ := honly.dir
  refine ⟨?_, Settings.run_loadStepwise config tree, ?_, honly.entries⟩
  · intro s part
    refine ⟨Settings.allOrNothing_save htree (honly.not_taken part), ?_⟩
    rw [StorageEvent.run_concat]
    exact FileM.after_discard (s.save config part) tree
  · rw [StorageEvent.run_concat]
    refine (FileM.after_discard (Settings.loadStepwise config) tree).trans ?_
    unfold FileM.after
    rw [Settings.run_loadStepwise]

/-- First nothing is in the way, and the settings are stored. Then a directory stands in the place
of their file: the temporary file is written, cannot be given its name, and is taken away. -/
theorem saving_all_or_nothing_onto_directory :
    (FileTree.dir []).get? ["config"] = none ∧
    (∃ bytes text, Settings.Spells {} bytes text ∧ Settings.save {} ["config"] "a0" (.dir []) =
      .ok ⟨(), []⟩ (.put (.file bytes) ["config", "settings.json"] (.dir []))) ∧
    let tree := StorageEvent.run ["config"] [.makeDirectory, .save {} "a0", .load] (.dir [])
    ∃ log, Settings.save {} ["config"] "a1" tree = .ok ⟨(), log⟩ tree ∧ log.length = 1 := by
  have habsent : (FileTree.dir []).get? ["config"] = none := rfl
  refine ⟨habsent, ?_, ?_⟩
  · have hall := ((saving_all_or_nothing rfl habsent []).1 {} "a0").1
    generalize hsaved : Settings.save {} ["config"] "a0" _ = saved at hall
    cases hall with
    | all _ hspells _ => exact ⟨_, _, hspells, hsaved⟩
    | nothing hblocked _ =>
      rcases hblocked with ⟨way, bytes, hway, hfile⟩ | ⟨es, hdir⟩
      · rcases List.prefix_cons_iff.1 hway with rfl | ⟨rest, rfl, -⟩ <;> cases hfile
      · cases hdir
  · intro tree
    have hblocked : Settings.Blocked ["config"] tree := .inr ⟨[], rfl⟩
    have hall :=
      ((saving_all_or_nothing rfl habsent [.makeDirectory, .save {} "a0", .load]).1 {} "a1").1
    generalize Settings.save {} ["config"] "a1" _ = saved at hall ⊢
    cases hall with
    | all hfree => exact absurd hblocked hfree
    | nothing _ reason => exact ⟨_, rfl, rfl⟩

end CatalogLint
