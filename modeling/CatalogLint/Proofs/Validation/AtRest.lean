import CatalogLint.Proofs.Validation.InOrder

/-!
# What is published at rest

If every change of a text is followed by a validation of its document, and a change of all
settings by one of all open documents, then what stands published once nothing is under way is
what a fresh analysis would say.

* `Orderly`: the runs in question.
* `orderly_inOrder`: documents are in order throughout them.
* `published_at_rest`: **at rest, what was published last for an open document is the analysis of
  its text under the settings that are kept, and those were asked for since all settings changed.**
-/

namespace CatalogLint.Validator

/-- The documents that are open after an event. -/
def opens (us : List String) : Event → List String
  | .edit u (some _) => u :: us
  | .close u => us.filter (· ≠ u)
  | _ => us

/-- The documents that are open: they were given a text, and not closed since. -/
def openDocuments (es : List Event) : List String := es.foldl opens []

/-- Orderly runs. A document that gets a text is validated at once, and one that loses it is not
open or is closed at once. All open documents are validated when all settings change. Lookups end
in any order, but do not fail. -/
inductive Orderly : List Event → Prop where
  | start : Orderly []
  | change {es : List Event} (h : Orderly es) (task : Nat) (u text : String) :
      Orderly (es ++ [.edit u (some text), .validate task u])
  | validate {es : List Event} (h : Orderly es) (task : Nat) (u : String) :
      Orderly (es ++ [.validate task u])
  | close {es : List Event} (h : Orderly es) (u : String) : Orderly (es ++ [.close u])
  | remove {es : List Event} (h : Orderly es) (u : String) :
      Orderly (es ++ [.edit u none, .close u])
  | absent {es : List Event} (h : Orderly es) (u : String) (hu : u ∉ openDocuments es) :
      Orderly (es ++ [.edit u none])
  | reconfigure {es : List Event} (h : Orderly es) (task : Nat) (us : List String)
      (hu : ∀ u ∈ openDocuments es, u ∈ us) : Orderly (es ++ [.reconfigure task us])
  | complete {es : List Event} (h : Orderly es) (id : LookupId) (j : Json) :
      Orderly (es ++ [.complete id (.ok (Settings.ofJson j).value)])
  | resume {es : List Event} (h : Orderly es) (task : Nat) : Orderly (es ++ [.resume task])

section Runs

variable {us : List String} {v : Validator} {h : List Moment} {es : List Event}

theorem openDocuments_concat (es : List Event) (e : Event) :
    openDocuments (es ++ [e]) = opens (openDocuments es) e := by
  rw [openDocuments, List.foldl_append]
  rfl

/-- A document gets a text and is validated at once. -/
theorem InOrder.change (hi : InOrder us {} v h) (task : Nat) (u text : String) :
    InOrder (u :: us) {} (((v.step (.edit u (some text))).1).step (.validate task u)).1
      (h ++ v.scene (.edit u (some text)) ++
        (v.step (.edit u (some text))).1.scene (.validate task u)) := by
  have htext : (v.step (.edit u (some text))).1.surroundings.documents.lookup u = some text := by
    simp [step]
  have hopened := ((hi.edit u (some text)).todo [u]).cons htext (List.mem_singleton.2 rfl)
  refine (hopened.validate task).mono fun w hw => ?_
  by_cases hwu : w = u
  · simp [hwu]
  · simpa [hwu] using hw

/-- **It holds throughout every orderly run.** -/
theorem orderly_inOrder (hv : InOrder [] {} v []) (hes : Orderly es) :
    InOrder (openDocuments es) {} (v.run es).1 (v.history es) := by
  induction hes with
  | start => exact hv
  | @change es _ task u text ih =>
    rw [List.append_cons, run_concat, run_concat, history_concat, history_concat, run_concat,
      openDocuments_concat, openDocuments_concat]
    exact ih.change task u text
  | @validate es _ task u ih =>
    rw [run_concat, history_concat, openDocuments_concat]
    exact (ih.todo [u]).validate task
  | @close es _ u ih =>
    rw [run_concat, history_concat, openDocuments_concat]
    exact ih.close u
  | @remove es _ u ih =>
    rw [List.append_cons, run_concat, run_concat, history_concat, history_concat, run_concat,
      openDocuments_concat, openDocuments_concat]
    refine ((ih.edit u none).close u).mono fun w hw => ?_
    simpa [opens] using hw
  | @absent es _ u hu ih =>
    rw [run_concat, history_concat, openDocuments_concat]
    refine (ih.edit u none).mono fun w hw => List.mem_filter.2 ⟨hw, ?_⟩
    have hne : w ≠ u := by rintro rfl; exact hu hw
    simpa using hne
  | @reconfigure es _ task us hu ih =>
    rw [run_concat, history_concat, openDocuments_concat]
    exact ih.reconfigure task hu
  | @complete es _ id j ih =>
    rw [run_concat, history_concat, openDocuments_concat]
    obtain ⟨severity, hs⟩ := Settings.level_ofJson j
    exact ih.complete id hs
  | @resume es _ task ih =>
    rw [run_concat, history_concat, openDocuments_concat]
    exact ih.resume task

theorem inOrder_create {checks : Option (List String)} (hv : create checks = .ok v)
    (elsewhere : String → Except Log.Cause String) :
    v.checks = checks ∧ InOrder [] {} { v with surroundings := { elsewhere } } [] := by
  have hfault : ({ elsewhere } : Surroundings).fault = none := rfl
  obtain ⟨rfl, hstart⟩ := undisturbed_create hv hfault
  -- nothing was asked for, nothing is under way and no document is open
  refine ⟨rfl, ⟨hstart, rfl, ?_⟩, ?_, ?_, ?_⟩
  · intro l o hl; cases hl
  · intro u l hl; cases hl
  · intro p hp; cases hp
  · intro u hu; cases hu

/-- **At rest, what is published is current.** After an orderly run of a validator that was just
made, once no task waits: an open document has a text, and if it can be read, settings are kept
for it that were asked for since all settings last changed, and what was published last for it is
the analysis of the text under these settings. -/
theorem published_at_rest {checks : Option (List String)} (hv : create checks = .ok v)
    (elsewhere : String → Except Log.Cause String) (hes : Orderly es)
    (hrest : (run { v with surroundings := { elsewhere } } es).1.waiting = []) :
    let w := (run { v with surroundings := { elsewhere } } es).1
    let h := history { v with surroundings := { elsewhere } } es
    ∀ u ∈ openDocuments es, ∃ text, w.surroundings.read u = .ok text ∧
      ∀ catalog, Catalog.parse text = .ok catalog →
        ∃ l s ds, w.cache.kept? u = some l ∧ AskedSince l h ∧
          w.cache.outcome? l = some (.ok s) ∧ (analyze text u s checks).value = .ok ds ∧
          lastPublished u h = some ds := by
  intro w h u hu
  obtain ⟨hchecks, hstart⟩ := inOrder_create hv elsewhere
  have hi : InOrder (openDocuments es) {} w h := orderly_inOrder hstart hes
  have hc : w.checks = checks := (run_moves _ es).checks_eq.trans hchecks
  obtain ⟨text, ht, hd⟩ := hi.documents u hu
  refine ⟨text, ?_, fun catalog hp => ?_⟩
  · unfold Surroundings.read
    rw [ht]
  -- nothing is under way, so nothing is left to do and the newest pass has ended
  have hways : underWay {} w = [] := by
    unfold underWay
    rw [hrest]
    rfl
  rcases hd with (hd | ⟨t, hw, -⟩) | ⟨l, token, hd⟩
  · cases hd
  · rw [hrest] at hw; cases hw
  · rcases hd.reported with ⟨p, hp, -⟩ | ⟨s, hs, hd'⟩
    · rw [hways] at hp; cases hp
    · obtain ⟨ds, hds, hlast⟩ := hd' catalog hp
      exact ⟨l, s, ds, hd.kept, hi.asked u l hd.kept, hs, hc ▸ hds, hlast⟩

/-- A run in which a pass waits for old settings while all settings change, and ends last. -/
def overtaken : List Event :=
  [.edit "a" (some "msgid \"k\"\nmsgstr \"\"\nmsgid \"k\"\nmsgstr \"\""), .validate 1 "a",
    .reconfigure 2 ["a"],
    .complete ⟨"a", 1⟩ (.ok (Settings.ofJson
      (.object [(Text.pointsOf "severity", .string (Text.pointsOf "hint"))])).value),
    .resume 2, .complete ⟨"a", 0⟩ (.ok (Settings.ofJson .null).value), .resume 1]

/-- The reports that stand are those under the new settings. -/
theorem published_at_rest_overtaken :
    create none = .ok {} ∧ Orderly overtaken ∧ (run {} overtaken).1.waiting = [] ∧
      ∃ l s ds, (run {} overtaken).1.cache.kept? "a" = some l ∧
        AskedSince l (history {} overtaken) ∧
        (run {} overtaken).1.cache.outcome? l = some (.ok s) ∧
        (analyze "msgid \"k\"\nmsgstr \"\"\nmsgid \"k\"\nmsgstr \"\"" "a" s).value = .ok ds ∧
        lastPublished "a" (history {} overtaken) = some ds ∧
        ds.map (·.severity) = [.hint, .hint] := by
  have hv : create none = .ok {} := by
    have hk : knownChecks ((none : Option (List String)).getD []) = .ok () := by decide +kernel
    unfold create
    rw [hk]
    rfl
  have hes : Orderly overtaken :=
    .resume (.complete (.resume (.complete (.reconfigure (.change .start 1 "a" _) 2 ["a"]
      (by decide)) ⟨"a", 1⟩ _) 2) ⟨"a", 0⟩ .null) 1
  have hrest : (run {} overtaken).1.waiting = [] := by decide +kernel
  obtain ⟨text, ht, hd⟩ := published_at_rest hv (fun _ => .error .unknownDocument) hes hrest "a"
    (by decide +kernel)
  have hread : (run {} overtaken).1.surroundings.read "a" =
      .ok "msgid \"k\"\nmsgstr \"\"\nmsgid \"k\"\nmsgstr \"\"" := by decide +kernel
  obtain rfl := Except.ok.inj (ht.symm.trans hread)
  have hlast : (lastPublished "a" (history {} overtaken)).map (·.map (·.severity)) =
      some [.hint, .hint] := by decide +kernel
  obtain ⟨l, s, ds, hk, ha, ho, hds, hp⟩ := hd
    [⟨"k", ⟨⟨1, 7⟩, ⟨1, 10⟩⟩, [""], some ⟨⟨2, 8⟩, ⟨2, 10⟩⟩, none, none⟩,
      ⟨"k", ⟨⟨3, 7⟩, ⟨3, 10⟩⟩, [""], some ⟨⟨4, 8⟩, ⟨4, 10⟩⟩, none, none⟩] (by decide +kernel)
  refine ⟨hv, hes, hrest, l, s, ds, hk, ha, ho, hds, hp, ?_⟩
  have hlast' := hp ▸ hlast
  simpa using hlast'

end Runs

end CatalogLint.Validator
