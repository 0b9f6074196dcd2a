import CatalogLint.Proofs.Settings.Lookups
import CatalogLint.Proofs.Validation.Escapes
import CatalogLint.Proofs.Validation.Newest

/-!
# Documents in order

While nothing goes wrong, each open document is either about to be visited again (`Revisited`), or
its newest pass waits for the lookup that is kept, or has ended with it (`Current`). So no report
of an old text or of old settings can be the last one: a pass that would publish such a report is
not the newest one any more, or the document is still to be visited.

* `InOrder`: what holds of documents, settings and passes.
* `InOrder.shift`: it holds on while nothing is done to the documents that stay open.
* `InOrder.within`: **what an event brings about keeps it.** The lemmas after this one are about the
  events themselves.
-/

namespace CatalogLint.Validator

/-- The lookup was begun, and the settings have not all changed since. -/
def AskedSince (l : LookupId) (h : List Moment) : Prop :=
  ∃ past future, h = past ++ .effect (.asked l) :: future ∧
    ∀ task us, .event (.reconfigure task us) ∉ future

/-- The reports that are published for `u`. -/
def Moment.published? (u : String) : Moment → Option (List Diagnostic)
  | .effect (.published _ uri ds) => if uri = u then some ds else none
  | _ => none

/-- What was published last for `u`. -/
def lastPublished (u : String) (h : List Moment) : Option (List Diagnostic) :=
  (h.filterMap (Moment.published? u)).getLast?

section Histories

variable {h ms : List Moment} {u : String} {l : LookupId}

theorem lastPublished_append (hm : ∀ m ∈ ms, m.published? u = none) :
    lastPublished u (h ++ ms) = lastPublished u h := by
  have hnone : ms.filterMap (Moment.published? u) = [] := List.filterMap_eq_nil_iff.2 hm
  rw [lastPublished, List.filterMap_append, hnone, List.append_nil]
  rfl

theorem lastPublished_concat {m : Moment} {ds : List Diagnostic} (hm : m.published? u = some ds) :
    lastPublished u (h ++ [m]) = some ds := by
  rw [lastPublished, List.filterMap_append]
  simp [hm]

theorem AskedSince.append (hl : AskedSince l h)
    (hm : ∀ task us, .event (.reconfigure task us) ∉ ms) : AskedSince l (h ++ ms) := by
  obtain ⟨past, future, rfl, hf⟩ := hl
  refine ⟨past, future ++ ms, by simp, fun task us hin => ?_⟩
  rcases List.mem_append.1 hin with hin | hin
  · exact hf task us hin
  · exact hm task us hin

end Histories

/-- The document is still to be visited by a task. -/
def Revisited (f : Focus) (v : Validator) (u : String) : Prop :=
  u ∈ f.todo ∨ ∃ t ∈ v.waiting, u ∈ t.rest.getD []

/-- What was published last for the document, if its text can be read, is its analysis under the
settings of a lookup. -/
def Settled (v : Validator) (h : List Moment) (u text : String) (l : LookupId) : Prop :=
  ∃ s, v.cache.outcome? l = some (.ok s) ∧ ∀ catalog, Catalog.parse text = .ok catalog →
    ∃ ds, (analyze text u s v.checks).value = .ok ds ∧ lastPublished u h = some ds

/-- The newest pass over a document waits for the lookup that is kept, or has ended with it. -/
structure Current (f : Focus) (v : Validator) (h : List Moment) (u text : String) (l : LookupId)
    (token : Nat) : Prop where
  kept : v.cache.kept? u = some l
  latest : v.latest.lookup u = some token
  awaits : ∀ p ∈ underWay f v, p.uri = u → p.token = token → p.lookup = l
  reported : (∃ p ∈ underWay f v, p.uri = u ∧ p.token = token) ∨ Settled v h u text l

/-- Nothing stands in the way of reports. -/
structure Calm (v : Validator) : Prop extends Undisturbed v where
  sink : v.surroundings.sinkClosed = false
  outcomes : ∀ l o, v.cache.outcome? l = some o → ∃ s severity, o = .ok s ∧ s.level = .ok severity

/-- **What holds throughout orderly runs**, of which `us` are the open documents. -/
structure InOrder (us : List String) (f : Focus) (v : Validator) (h : List Moment) : Prop where
  calm : Calm v
  asked : ∀ u l, v.cache.kept? u = some l → AskedSince l h
  counted : ∀ p ∈ underWay f v, p.token ≤ v.begun
  documents : ∀ u ∈ us, ∃ text, v.surroundings.documents.lookup u = some text ∧
    (Revisited f v u ∨ ∃ l token, Current f v h u text l token)

section Keeping

variable {us : List String} {f f' : Focus} {v v' : Validator} {h h' : List Moment} {u text : String}
  {l : LookupId} {token : Nat}

/-- What is current stays so while nothing happens to the document. -/
theorem Current.carry (hc : Current f v h u text l token)
    (hk : v'.cache.kept? u = v.cache.kept? u) (hl : v'.latest.lookup u = v.latest.lookup u)
    (hu : ∀ p : Pass, p.uri = u → p.token = token → (p ∈ underWay f' v' ↔ p ∈ underWay f v))
    (ho : ∀ o, v.cache.outcome? l = some o → v'.cache.outcome? l = some o)
    (hch : v'.checks = v.checks) (hp : lastPublished u h' = lastPublished u h) :
    Current f' v' h' u text l token := by
  refine ⟨hk.trans hc.kept, hl.trans hc.latest, ?_, ?_⟩
  · intro p hpu hu' ht
    exact hc.awaits p ((hu p hu' ht).1 hpu) hu' ht
  · rcases hc.reported with ⟨p, hpu, hu', ht⟩ | ⟨s, hs, hd⟩
    · exact .inl ⟨p, (hu p hu' ht).2 hpu, hu', ht⟩
    · exact .inr ⟨s, ho _ hs, by rw [hch, hp]; exact hd⟩

/-- Nothing was done to a document. -/
structure Untouched (f : Focus) (v : Validator) (h : List Moment) (f' : Focus) (v' : Validator)
    (h' : List Moment) (u : String) : Prop where
  text : v'.surroundings.documents.lookup u = v.surroundings.documents.lookup u
  kept : v'.cache.kept? u = v.cache.kept? u
  latest : v'.latest.lookup u = v.latest.lookup u
  published : lastPublished u h' = lastPublished u h
  revisited : Revisited f v u → Revisited f' v' u

/-- What holds goes on to hold if the passes under way stay the same and nothing is done to the
documents that stay open. -/
theorem InOrder.shift {us' : List String} (hi : InOrder us f v h)
    (ho : ∀ l o, v'.cache.outcome? l = some o →
      v.cache.outcome? l = some o ∨ ∃ s severity, o = .ok s ∧ s.level = .ok severity)
    (ho' : ∀ l o, v.cache.outcome? l = some o → v'.cache.outcome? l = some o)
    (hs : v'.checks = v.checks ∧ v'.begun = v.begun ∧
      v'.surroundings.sinkClosed = v.surroundings.sinkClosed ∧
      v'.surroundings.fault = v.surroundings.fault)
    (ha : ∀ u l, v'.cache.kept? u = some l → AskedSince l h')
    (hw : ∀ p, p ∈ underWay f' v' ↔ p ∈ underWay f v)
    (hu : ∀ u ∈ us', u ∈ us ∧ Untouched f v h f' v' h' u) : InOrder us' f' v' h' := by
  obtain ⟨hchecks, hbegun, hsink, hfault⟩ := hs
  have hv' : Undisturbed v' := ⟨hchecks ▸ hi.calm.checks, hfault.trans hi.calm.fault⟩
  refine ⟨⟨hv', hsink.trans hi.calm.sink, ?_⟩, ha, ?_, ?_⟩
  · intro l o hl
    rcases ho l o hl with hl | hl
    · exact hi.calm.outcomes l o hl
    · exact hl
  · intro p hp
    rw [hbegun]
    exact hi.counted p ((hw p).1 hp)
  · intro u hus
    obtain ⟨hus, hun⟩ := hu u hus
    obtain ⟨text, ht, hd⟩ := hi.documents u hus
    refine ⟨text, hun.text.trans ht, ?_⟩
    rcases hd with hd | ⟨l, token, hd⟩
    · exact .inl (hun.revisited hd)
    · exact .inr ⟨l, token, hd.carry hun.kept hun.latest (fun p _ _ => hw p) (ho' l) hchecks
        hun.published⟩

/-- Moments that publish nothing and change no settings make no difference. -/
theorem InOrder.append (hi : InOrder us f v h) {ms : List Moment}
    (hp : ∀ u, ∀ m ∈ ms, m.published? u = none)
    (hr : ∀ task us, .event (.reconfigure task us) ∉ ms) : InOrder us f v (h ++ ms) := by
  refine hi.shift (fun _ _ => .inl) (fun _ _ => id) ⟨rfl, rfl, rfl, rfl⟩ ?_ (fun _ => Iff.rfl) ?_
  · intro u l hl
    exact (hi.asked u l hl).append hr
  · intro u hu
    exact ⟨hu, rfl, rfl, rfl, lastPublished_append (hp u), id⟩

section Begin

theorem published?_begin (v : Validator) (u w : String) :
    ∀ m ∈ (v.begin u).2.2.map Moment.effect, m.published? w = none := by
  rcases v.begin_effects u with h | ⟨l, h⟩
  · rw [h]
    simp [Moment.published?]
  · rw [h]
    simp [Moment.published?]

/-- Settings that are kept when a pass has begun were kept before, or are asked for by it. -/
theorem askedSince_begin (ha : ∀ u l, v.cache.kept? u = some l → AskedSince l h) (u w : String)
    (hl : (v.begin u).1.cache.kept? w = some l) :
    AskedSince l (h ++ (v.begin u).2.2.map Moment.effect) := by
  have hcache : (v.begin u).1.cache = (v.cache.request (ρ := TaskResult) u).2.1 := rfl
  have heffects : (v.begin u).2.2 =
      .began (v.begun + 1) u :: (v.cache.request (ρ := TaskResult) u).2.2 := rfl
  rw [hcache] at hl
  rcases v.cache.request_cases (ρ := TaskResult) u with ⟨l', -, hr⟩ | ⟨-, hr⟩
  · rw [hr] at hl
    exact (ha w l hl).append (by simp)
  · by_cases hwu : w = u
    · subst hwu
      rw [SettingsCache.kept?_request_self, hr, Option.some.injEq] at hl
      subst hl
      rw [heffects, hr]
      exact ⟨h ++ [.effect (.began (v.begun + 1) w)], [], by simp, by simp⟩
    · rw [SettingsCache.kept?_request_ne _ hwu] at hl
      exact (ha w l hl).append (by simp)

/-- The pass that begins is the newest one over its document, and waits for the lookup that is
kept. -/
theorem current_begin (hc : ∀ p ∈ underWay f v, p.token ≤ v.begun) (hf : f.hand = none)
    (rest : List String) :
    Current ⟨some (v.begin u).2.1, rest⟩ (v.begin u).1 h' u text (v.begin u).2.1.lookup
      (v.begun + 1) := by
  have hways : underWay ⟨some (v.begin u).2.1, rest⟩ (v.begin u).1 =
      (v.begin u).2.1 :: underWay f v := by
    unfold underWay
    rw [hf]
    rfl
  refine ⟨v.cache.kept?_request_self u, ?_, ?_, ?_⟩
  · exact (Table.lookup_set u u (v.begun + 1) v.latest).trans (if_pos rfl)
  · intro p hp _ htok
    rw [hways] at hp
    rcases List.mem_cons.1 hp with rfl | hp
    · rfl
    · -- the passes before have other tokens
      have := hc p hp
      omega
  · exact .inl ⟨(v.begin u).2.1, by rw [hways]; exact List.mem_cons_self, rfl, rfl⟩

/-- A pass begins, and the document has been visited. -/
theorem InOrder.begin {rest : List String} (hi : InOrder us ⟨none, u :: rest⟩ v h) :
    InOrder us ⟨some (v.begin u).2.1, rest⟩ (v.begin u).1
      (h ++ (v.begin u).2.2.map Moment.effect) := by
  have hcache : (v.begin u).1.cache = (v.cache.request (ρ := TaskResult) u).2.1 := rfl
  have hways : underWay ⟨some (v.begin u).2.1, rest⟩ (v.begin u).1 =
      (v.begin u).2.1 :: underWay ⟨none, u :: rest⟩ v := rfl
  refine ⟨⟨⟨hi.calm.checks, hi.calm.fault⟩, hi.calm.sink, ?_⟩,
    fun w l hl => askedSince_begin hi.asked u w hl, ?_, ?_⟩
  · intro l o hl
    rw [hcache, SettingsCache.outcome?_request] at hl
    exact hi.calm.outcomes l o hl
  · intro p hp
    rw [hways] at hp
    rcases List.mem_cons.1 hp with rfl | hp
    · exact Nat.le_refl _
    · exact Nat.le_succ_of_le (hi.counted p hp)
  · intro w hw
    obtain ⟨text, ht, hd⟩ := hi.documents w hw
    refine ⟨text, ht, ?_⟩
    -- the document has a new pass, and the others are as before
    by_cases hwu : w = u
    · subst hwu
      exact .inr ⟨_, _, current_begin hi.counted rfl rest⟩
    rcases hd with (hd | hd) | ⟨l, token, hd⟩
    · exact .inl (.inl ((List.mem_cons.1 hd).resolve_left hwu))
    · exact .inl (.inr hd)
    · have hp := lastPublished_append (h := h) (published?_begin v u w)
      refine .inr ⟨l, token, hd.carry ?_ ?_ ?_ ?_ rfl hp⟩
      · rw [hcache, SettingsCache.kept?_request_ne _ hwu]
      · exact (Table.lookup_set u w (v.begun + 1) v.latest).trans (if_neg hwu)
      · intro p hpu _
        rw [hways, List.mem_cons]
        refine ⟨fun hm => hm.resolve_left ?_, .inr⟩
        rintro rfl
        exact hwu hpu.symm
      · intro o hl
        rw [hcache, SettingsCache.outcome?_request]
        exact hl

end Begin

/-- In calm, an analysis fails only if the text cannot be read. -/
theorem Calm.analysis (hc : Calm v) {s : Settings} {severity : Severity}
    (hs : s.level = .ok severity) (u text : String) :
    (∃ e, Catalog.parse text = .error e ∧ (v.analysis u text s).value = .error (.parse e)) ∨
      ∃ catalog ds, Catalog.parse text = .ok catalog ∧ (v.analysis u text s).value = .ok ds ∧
        (analyze text u s v.checks).value = .ok ds := by
  rw [hc.analysis_eq]
  cases hp : Catalog.parse text with
  | error e => exact .inl ⟨e, rfl, analyze_value_error hp hc.checks u s⟩
  | ok catalog =>
    have hv := analyze_value hp hs hc.checks u
    exact .inr ⟨catalog, _, rfl, hv, hv⟩

theorem Silent.published? {effects : List (Effect TaskResult)} (hs : Silent effects) (u : String) :
    ∀ m ∈ effects.map Moment.effect, m.published? u = none := by
  intro m hm
  obtain ⟨e, he, rfl⟩ := List.mem_map.1 hm
  obtain ⟨r, rfl⟩ := hs e he
  rfl

/-- In calm, a pass with settings ends in order: nothing escapes, and if it is the newest one over
its document and the text can be read, its reports are published. -/
theorem Calm.conclude (hc : Calm v) {s : Settings} {severity : Severity}
    (hs : s.level = .ok severity) (p : Pass) (h : List Moment) :
    (∀ e, (v.conclude p (.ok s)).2.2 ≠ .escaped e) ∧
    (∀ u, u ≠ p.uri ∨ v.latest.lookup p.uri ≠ some p.token →
      lastPublished u (h ++ (v.conclude p (.ok s)).2.1.map .effect) = lastPublished u h) ∧
    (v.latest.lookup p.uri = some p.token → ∀ text catalog, v.surroundings.read p.uri = .ok text →
      Catalog.parse text = .ok catalog →
      ∃ ds, (analyze text p.uri s v.checks).value = .ok ds ∧
        lastPublished p.uri (h ++ (v.conclude p (.ok s)).2.1.map .effect) = some ds) := by
  have hlog : ∀ r u, ∀ m ∈ [Effect.logged (ρ := TaskResult) r].map Moment.effect,
      m.published? u = none := by simp [Moment.published?]
  have hcases := conclude_cases v p (.ok s)
  generalize (v.conclude p (.ok s)).2.1 = effects, (v.conclude p (.ok s)).2.2 = result at hcases
  cases hcases with
  | superseded s r hl =>
    refine ⟨by simp, fun u _ => lastPublished_append ?_, fun hl' => absurd hl' hl⟩
    simp [Moment.published?]
  | unreadable s r hl ht =>
    refine ⟨by simp, fun u _ => lastPublished_append (hlog r u), fun _ text catalog ht' => ?_⟩
    rw [ht] at ht'
    cases ht'
  | @skipped s text e log hl ht ha he hsilent =>
    refine ⟨by simp, fun u _ => lastPublished_append (hsilent.published? u), ?_⟩
    intro _ text' catalog ht' hp
    rw [ht] at ht'
    obtain rfl := Except.ok.inj ht'
    rcases hc.analysis hs p.uri text with ⟨e', hp', -⟩ | ⟨catalog', ds, -, ha', -⟩
    · rw [hp] at hp'; cases hp'
    · rw [ha] at ha'; cases ha'
  | @escaped s text e log hl ht ha he hsilent =>
    rcases hc.analysis hs p.uri text with ⟨e', -, ha'⟩ | ⟨catalog', ds, -, ha', -⟩
    · rw [ha] at ha'
      exact absurd (by simpa using ha') (he.1 e')
    · rw [ha] at ha'; cases ha'
  | @published s text ds log r hl ht ha hsink hsilent =>
    have hpast : ∀ u, lastPublished u (h ++ log.map .effect) = lastPublished u h :=
      fun u => lastPublished_append (hsilent.published? u)
    refine ⟨by simp, fun u hu => ?_, fun _ text' catalog ht' hp => ?_⟩
    · have hne : u ≠ p.uri := hu.resolve_right (not_not.2 hl)
      rw [List.map_append, ← List.append_assoc, lastPublished_append, hpast]
      simp [Moment.published?, hne.symm]
    · rw [ht] at ht'
      obtain rfl := Except.ok.inj ht'
      rcases hc.analysis hs p.uri text with ⟨e', hp', -⟩ | ⟨catalog', ds', -, ha', hds⟩
      · rw [hp] at hp'; cases hp'
      · rw [ha] at ha'
        obtain rfl := Except.ok.inj ha'
        refine ⟨ds, hds, ?_⟩
        have hsplit :
            h ++ (log ++ [Effect.published p.token p.uri ds, .logged r]).map Moment.effect =
            h ++ log.map .effect ++ [.effect (.published p.token p.uri ds)] ++
              [Effect.logged r].map .effect := by simp
        rw [hsplit, lastPublished_append (hlog r _), lastPublished_concat]
        simp [Moment.published?]
  | refused s hl ht ha hsink hsilent =>
    rw [hc.sink] at hsink
    cases hsink

/-- The pass in hand ends. -/
theorem InOrder.conclude {p : Pass} {o : Outcome} {rest rest' : List String}
    (hi : InOrder us ⟨some p, rest⟩ v h) (ho : v.cache.outcome? p.lookup = some o)
    (hr : rest' = rest ∨ rest' = [] ∧ ∃ e, (v.conclude p o).2.2 = .escaped e) :
    InOrder us ⟨none, rest'⟩ (v.conclude p o).1 (h ++ (v.conclude p o).2.1.map Moment.effect) := by
  obtain ⟨s, severity, rfl, hs⟩ := hi.calm.outcomes _ _ ho
  obtain ⟨hesc, hother, hnewest⟩ := hi.calm.conclude hs p h
  -- nothing escapes from the pass, so what is left to do is not given up
  obtain rfl : rest' = rest := by
    rcases hr with hr | ⟨-, e, he⟩
    · exact hr
    · exact absurd he (hesc e)
  have hv : (v.conclude p (.ok s)).1 = v := conclude_fst v p (.ok s)
  have hways : underWay ⟨some p, rest'⟩ v = p :: underWay ⟨none, rest'⟩ v := rfl
  rw [hv]
  refine ⟨hi.calm, ?_, ?_, ?_⟩
  · intro u l hl
    exact (hi.asked u l hl).append (by simp)
  · intro q hq
    exact hi.counted q (by rw [hways]; exact List.mem_cons_of_mem _ hq)
  · intro u hu
    obtain ⟨text, ht, hd⟩ := hi.documents u hu
    refine ⟨text, ht, ?_⟩
    rcases hd with hd | ⟨l, token, hd⟩
    · exact .inl hd
    by_cases hp : p.uri = u ∧ p.token = token
    · -- the newest pass over the document ends, with the lookup that is kept
      obtain ⟨rfl, rfl⟩ := hp
      have hl : p.lookup = l := hd.awaits p (by rw [hways]; exact List.mem_cons_self) rfl rfl
      have hread : v.surroundings.read p.uri = .ok text := by
        unfold Surroundings.read
        rw [ht]
      refine .inr ⟨l, p.token, hd.kept, hd.latest, ?_, .inr ⟨s, hl ▸ ho, ?_⟩⟩
      · intro q hq
        exact hd.awaits q (by rw [hways]; exact List.mem_cons_of_mem _ hq)
      · intro catalog hc
        exact hnewest hd.latest text catalog hread hc
    · refine .inr ⟨l, token, hd.carry rfl rfl ?_ (fun _ ho => ho) rfl (hother u ?_)⟩
      · intro q hqu hqt
        rw [hways, List.mem_cons]
        refine ⟨.inr, fun hq => hq.resolve_left ?_⟩
        rintro rfl
        exact hp ⟨hqu, hqt⟩
      · by_cases hpu : u = p.uri
        · subst hpu
          right
          rw [hd.latest]
          intro htok
          exact hp ⟨rfl, (Option.some.inj htok).symm⟩
        · exact .inl hpu

/-- The pass in hand has to wait. -/
theorem InOrder.wait {p : Pass} {rest : Option (List String)} (task : Nat)
    (hi : InOrder us ⟨some p, rest.getD []⟩ v h) :
    InOrder us {} { v with waiting := v.waiting ++ [⟨task, p, rest⟩] } h := by
  refine hi.shift (fun _ _ => .inl) (fun _ _ => id) ⟨rfl, rfl, rfl, rfl⟩ hi.asked ?_ ?_
  · intro q
    simp [underWay, or_comm]
  · intro u hu
    refine ⟨hu, rfl, rfl, rfl, rfl, ?_⟩
    rintro (hd | ⟨t, hw, hd⟩)
    · exact .inr ⟨⟨task, p, rest⟩, by simp, hd⟩
    · exact .inr ⟨t, by simp [hw], hd⟩

/-- **Every move without an event keeps it.** -/
theorem InOrder.move_within {ms : List Moment} (hm : Move f v ms f' v')
    (he : ∀ m ∈ ms, m.event? = none) (hi : InOrder us f v h) : InOrder us f' v' (h ++ ms) := by
  cases hm with
  | begin v u rest => exact hi.begin
  | wait task rest ho =>
    rw [List.append_nil]
    exact hi.wait task
  | conclude rest rest' ho hr => exact hi.conclude ho hr
  | finish v task r => exact hi.append (by simp [Moment.published?]) (by simp)
  | _ => simp [Moment.event?] at he

/-- So what an event brings about keeps it. -/
theorem InOrder.within {effects : List (Effect TaskResult)}
    (hm : Moves f v (effects.map .effect) f' v') (hi : InOrder us f v h) :
    InOrder us f' v' (h ++ effects.map .effect) :=
  hm.keeps_within (Q := InOrder us) (fun _ hm he hi => hi.move_within hm he) (event?_effect effects)
    h hi

theorem InOrder.mono {us' : List String} (hi : InOrder us f v h) (hs : ∀ u ∈ us', u ∈ us) :
    InOrder us' f v h :=
  ⟨hi.calm, hi.asked, hi.counted, fun u hu => hi.documents u (hs u hu)⟩

theorem InOrder.todo (hi : InOrder us {} v h) (todo : List String) :
    InOrder us ⟨none, todo⟩ v h := by
  refine hi.shift (fun _ _ => .inl) (fun _ _ => id) ⟨rfl, rfl, rfl, rfl⟩ hi.asked
    (fun _ => Iff.rfl) ?_
  intro u hu
  refine ⟨hu, rfl, rfl, rfl, rfl, ?_⟩
  rintro (hd | hd)
  · cases hd
  · exact .inr hd

/-- A document with a text may be opened if it is to be visited. -/
theorem InOrder.cons (hi : InOrder us f v h) (ht : v.surroundings.documents.lookup u = some text)
    (hu : u ∈ f.todo) : InOrder (u :: us) f v h := by
  refine ⟨hi.calm, hi.asked, hi.counted, fun w hw => ?_⟩
  rcases List.mem_cons.1 hw with rfl | hw
  · exact ⟨text, ht, .inl (.inl hu)⟩
  · exact hi.documents w hw

/-- A document changes, and is not looked at for the moment. -/
theorem InOrder.edit (hi : InOrder us {} v h) (u : String) (text : Option String) :
    InOrder (us.filter (· ≠ u)) {} (v.step (.edit u text)).1 (h ++ v.scene (.edit u text)) := by
  have hheard : InOrder us {} v (h ++ v.scene (.edit u text)) :=
    hi.append (by simp [scene, step, Moment.published?]) (by simp [scene, step])
  refine hheard.shift (fun _ _ => .inl) (fun _ _ => id) ⟨rfl, rfl, rfl, rfl⟩ hheard.asked
    (fun _ => Iff.rfl) ?_
  intro w hw
  obtain ⟨hw, hne⟩ := by simpa using hw
  refine ⟨hw, ?_, rfl, rfl, rfl, id⟩
  cases text <;> simp [step, hne]

/-- A document is closed. -/
theorem InOrder.close (hi : InOrder us {} v h) (u : String) :
    InOrder (us.filter (· ≠ u)) {} (v.step (.close u)).1 (h ++ v.scene (.close u)) := by
  have hheard : InOrder us {} v (h ++ v.scene (.close u)) :=
    hi.append (by simp [scene, step, Moment.published?]) (by simp [scene, step])
  refine hheard.shift (fun _ _ => .inl) (fun _ _ => id) ⟨rfl, rfl, rfl, rfl⟩ ?_
    (fun _ => Iff.rfl) ?_
  · intro w l hl
    simp only [step, SettingsCache.kept?_evict] at hl
    split at hl
    · cases hl
    · exact hheard.asked w l hl
  · intro w hw
    obtain ⟨hw, hne⟩ := by simpa using hw
    exact ⟨hw, rfl, by simp [step, hne], by simp [step, hne], rfl, id⟩

/-- A document is validated. -/
theorem InOrder.validate (hi : InOrder us ⟨none, [u]⟩ v h) (task : Nat) :
    InOrder us {} (v.step (.validate task u)).1 (h ++ v.scene (.validate task u)) := by
  have hheard : InOrder us ⟨none, [u]⟩ v (h ++ [.event (.validate task u)]) :=
    hi.append (by simp [Moment.published?]) (by simp)
  rw [scene, List.append_cons]
  exact hheard.within (validateOne_moves v task u)

/-- All settings change, and all open documents are validated. -/
theorem InOrder.reconfigure (hi : InOrder us {} v h) (task : Nat) {todo : List String}
    (hu : ∀ u ∈ us, u ∈ todo) :
    InOrder us {} (v.step (.reconfigure task todo)).1 (h ++ v.scene (.reconfigure task todo)) := by
  have hcleared : InOrder us ⟨none, todo⟩ { v with cache := v.cache.clear }
      (h ++ [.event (.reconfigure task todo)]) := by
    -- nothing is kept any more, and all open documents are to be visited
    refine ⟨⟨⟨hi.calm.checks, hi.calm.fault⟩, hi.calm.sink, hi.calm.outcomes⟩, ?_, hi.counted, ?_⟩
    · intro u l hl
      cases hl
    · intro u hus
      obtain ⟨text, ht, -⟩ := hi.documents u hus
      exact ⟨text, ht, .inl (.inl (hu u hus))⟩
  rw [scene, List.append_cons]
  exact hcleared.within (validateAll_moves task todo _)

/-- A lookup ends with settings. -/
theorem InOrder.complete (hi : InOrder us {} v h) (id : LookupId) {s : Settings}
    {severity : Severity} (hs : s.level = .ok severity) :
    InOrder us {} (v.step (.complete id (.ok s))).1 (h ++ v.scene (.complete id (.ok s))) := by
  have hheard : InOrder us {} v (h ++ v.scene (.complete id (.ok s))) :=
    hi.append (by simp [scene, step, Moment.published?]) (by simp [scene, step])
  refine hheard.shift ?_ (fun _ _ => v.cache.outcome?_complete_of_some) ⟨rfl, rfl, rfl, rfl⟩
    hheard.asked (fun _ => Iff.rfl) (fun u hu => ⟨hu, rfl, rfl, rfl, rfl, fun hd => hd⟩)
  intro l o hl
  rcases v.cache.eq_or_of_outcome?_complete hl with rfl | hl
  · exact .inr ⟨s, severity, rfl, hs⟩
  · exact .inl hl

/-- A task that waits is taken up. -/
theorem InOrder.take {l₁ l₂ : List Task} {t : Task} (hi : InOrder us {} v h)
    (hw : v.waiting = l₁ ++ t :: l₂) :
    InOrder us ⟨some t.pass, t.rest.getD []⟩ { v with waiting := l₁ ++ l₂ } h := by
  refine hi.shift (fun _ _ => .inl) (fun _ _ => id) ⟨rfl, rfl, rfl, rfl⟩ hi.asked ?_ ?_
  · intro q
    simp [underWay, hw, or_left_comm]
  · intro u hu
    refine ⟨hu, rfl, rfl, rfl, rfl, ?_⟩
    rintro (hd | ⟨t', hw', hd⟩)
    · cases hd
    · -- what was left to do waited with the task, and is to be done now
      rw [hw, List.mem_append, List.mem_cons] at hw'
      rcases hw' with hw' | rfl | hw'
      · exact .inr ⟨t', List.mem_append_left _ hw', hd⟩
      · exact .inl hd
      · exact .inr ⟨t', List.mem_append_right _ hw', hd⟩

/-- A task that waits goes on, if it can. -/
theorem InOrder.resume (hi : InOrder us {} v h) (task : Nat) :
    InOrder us {} (v.step (.resume task)).1 (h ++ v.scene (.resume task)) := by
  have hheard : InOrder us {} v (h ++ [.event (.resume task)]) :=
    hi.append (by simp [Moment.published?]) (by simp)
  simp only [scene, step]
  cases ht : v.take? task with
  | none => exact hheard
  | some x =>
    obtain ⟨t, v'⟩ := x
    cases ho : v.cache.outcome? t.pass.lookup with
    | none => simpa [ho] using hheard
    | some o =>
      obtain ⟨-, l₁, l₂, hw, rfl⟩ := take?_eq_some ht
      have htaken : InOrder us ⟨some t.pass, t.rest.getD []⟩ { v with waiting := l₁ ++ l₂ }
          (h ++ [.event (.resume task)]) := hheard.take hw
      have hon := htaken.within (goOn_moves { v with waiting := l₁ ++ l₂ } t ho)
      simpa [ho] using hon

end Keeping

end CatalogLint.Validator
