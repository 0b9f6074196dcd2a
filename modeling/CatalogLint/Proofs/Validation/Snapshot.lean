import CatalogLint.Proofs.Validation.Cutoff
import CatalogLint.Proofs.Validation.Founded
import CatalogLint.Proofs.Validation.InOrder

/-!
# Passes take snapshots

A pass has two steps of its own, and anything may happen between them. In the first one it takes a
token and the lookup that it waits for. In the second one it takes the outcome of that lookup and
the text that its document has by then, and it publishes or it does not. What it does not publish
leaves no trace, but for a lookup that failed.

* `Origin`, `Moves.origin`: **every pass under way has begun**, and it waits for the lookup that was
  kept when it did, or for one that it began itself.
* `Conclusion.published_iff`, `Conclusion.nothing_iff`: when a pass publishes, and when it ends with
  nothing.
* `Moves.published`: **all that is published comes from a pass that ends.**
* `snapshot_or_nothing`: **a pass publishes what it finds in the present text, or leaves everything
  in place.**
-/

namespace CatalogLint.Validator

section Beginning

/-- All that the beginning of the pass `p` changes from `v` to `w`: a token is taken and becomes
that of the document, and a lookup is begun for it if none was kept. -/
structure BeginsOnly (v : Validator) (p : Pass) (w : Validator) : Prop where
  token : p.token = v.begun + 1
  lookup : v.cache.kept? p.uri = some p.lookup ∧ w.cache = v.cache ∨
    v.cache.kept? p.uri = none ∧ p.lookup = v.cache.next p.uri ∧ w.cache = v.cache.start p.lookup
  others : w = { v with
    cache := w.cache, begun := p.token, latest := Table.set p.uri p.token v.latest }

/-- Effects after the history `h` that hand nothing to the sink, so that what was published last
for each document stands. -/
structure Unheard (h : List Moment) (effects : List (Effect TaskResult)) : Prop where
  calls : calls (effects.map .effect) = []
  stands : ∀ u, lastPublished u (h ++ effects.map .effect) = lastPublished u h

/-- Where the pass `p` comes from, which is under way in `v` after a run from `v₀` with the history
`h`: it began when the validator was `a`, and moves have led from there to `v`. -/
def Origin (v₀ : Validator) (p : Pass) (h : List Moment) (f : Focus) (v : Validator) : Prop :=
  ∃ past a todo begun b since, Moves {} v₀ past ⟨none, p.uri :: todo⟩ a ∧
    a.begin p.uri = (b, p, begun) ∧ BeginsOnly a p b ∧ Unheard past begun ∧
    Moves ⟨some p, todo⟩ b since f v ∧ h = past ++ begun.map .effect ++ since

variable {f f' : Focus} {v₀ v v' w : Validator} {h ms : List Moment} {p : Pass}

theorem beginsOnly_begin (v : Validator) (uri : String) :
    BeginsOnly v (v.begin uri).2.1 (v.begin uri).1 := by
  refine ⟨rfl, ?_, rfl⟩
  rcases v.cache.request_cases (ρ := TaskResult) uri with ⟨l, hk, hr⟩ | ⟨hk, hr⟩
  · refine .inl ⟨?_, ?_⟩
    · simp only [begin, hr]
      exact hk
    · simp only [begin, hr]
  · refine .inr ⟨hk, ?_, ?_⟩
    · simp only [begin, hr]
    · simp only [begin, hr]

theorem BeginsOnly.uri_lookup (h : BeginsOnly v p w) : p.lookup.uri = p.uri := by
  rcases h.lookup with ⟨hk, -⟩ | ⟨-, hl, -⟩
  · exact v.cache.uri_of_kept? hk
  · rw [hl]
    exact v.cache.uri_next p.uri

/-- A pass that is under way was so before, or has just begun. -/
theorem Move.underWay_cases (hm : Move f v ms f' v') (hp : p ∈ underWay f' v') :
    p ∈ underWay f v ∨ ∃ rest, f = ⟨none, p.uri :: rest⟩ ∧ (v.begin p.uri).2.1 = p ∧
      ms = (v.begin p.uri).2.2.map .effect ∧ f' = ⟨some p, rest⟩ ∧ v' = (v.begin p.uri).1 := by
  cases hm with
  | cancel ht =>
    obtain ⟨-, l₁, l₂, hw, rfl⟩ := take?_eq_some ht
    refine .inl ?_
    grind [underWay]
  | take ht ho =>
    obtain ⟨-, l₁, l₂, hw, rfl⟩ := take?_eq_some ht
    refine .inl ?_
    grind [underWay]
  | begin v uri rest =>
    rcases List.mem_cons.1 hp with rfl | hp
    · exact .inr ⟨rest, rfl, rfl, rfl, rfl, rfl⟩
    · exact .inl hp
  | wait task rest ho =>
    refine .inl ?_
    grind [underWay]
  | conclude rest rest' ho hr =>
    refine .inl ?_
    rw [underWay, waiting_conclude] at hp
    exact List.mem_append_right _ hp
  | _ => exact .inl hp

theorem unheard_begin (h : List Moment) (v : Validator) (uri : String) :
    Unheard h (v.begin uri).2.2 := by
  refine ⟨?_, fun u => lastPublished_append (published?_begin v uri u)⟩
  rcases v.begin_effects uri with he | ⟨l, he⟩
  all_goals rw [he]; rfl

theorem Origin.uri_lookup (hp : Origin v₀ p h f v) : p.lookup.uri = p.uri := by
  obtain ⟨past, a, todo, begun, b, since, -, -, honly, -⟩ := hp
  exact honly.uri_lookup

theorem Origin.move (hp : Origin v₀ p h f v) (hm : Move f v ms f' v') :
    Origin v₀ p (h ++ ms) f' v' := by
  obtain ⟨past, a, todo, begun, b, since, hpast, hb, honly, hun, hsince, rfl⟩ := hp
  refine ⟨past, a, todo, begun, b, since ++ ms, hpast, hb, honly, hun, hsince.trans hm.moves, ?_⟩
  simp only [List.append_assoc]

theorem origin_begin {rest : List String} (h₀ : Moves {} v₀ h ⟨none, p.uri :: rest⟩ v)
    (hp : (v.begin p.uri).2.1 = p) :
    Origin v₀ p (h ++ (v.begin p.uri).2.2.map .effect) ⟨some p, rest⟩ (v.begin p.uri).1 := by
  have honly := beginsOnly_begin v p.uri
  rw [hp] at honly
  have hbegin : v.begin p.uri = ((v.begin p.uri).1, p, (v.begin p.uri).2.2) :=
    Prod.ext rfl (Prod.ext hp rfl)
  exact ⟨h, v, rest, _, _, [], h₀, hbegin, honly, unheard_begin h v p.uri, .refl _ _,
    (List.append_nil _).symm⟩

/-- **Every pass under way has begun**, if none was under way at first. -/
theorem Moves.origin (hv₀ : v₀.waiting = []) (hm : Moves {} v₀ h f v) (hp : p ∈ underWay f v) :
    Origin v₀ p h f v := by
  -- a pass that has just begun needs the moves up to its beginning, so these are kept along
  have hkeeps := hm.keeps
    (Q := fun f v h => Moves {} v₀ h f v ∧ ∀ p ∈ underWay f v, Origin v₀ p h f v)
    (fun h hm hq => ?_) [] ⟨.refl _ _, by simp [underWay, hv₀]⟩
  · exact hkeeps.2 p hp
  · refine ⟨hq.1.trans hm.moves, fun p hp => ?_⟩
    rcases hm.underWay_cases hp with hp | ⟨rest, rfl, hbegun, rfl, rfl, rfl⟩
    · exact (hq.2 p hp).move hm
    · exact origin_begin hq.1 hbegun

end Beginning

section Ending

/-- When the pass `p` publishes `ds` in `v` with the outcome `o` of its lookup: it is the newest one
over its document, and `ds` is found in the text that the document has, under the settings that the
lookup gave. -/
structure Publishes (v : Validator) (p : Pass) (o : Outcome) (ds : List Diagnostic) : Prop where
  newest : v.latest.lookup p.uri = some p.token
  analysed : ∃ settings text, o = .ok settings ∧ v.surroundings.read p.uri = .ok text ∧
    v.surroundings.fault = none ∧ (analyze text p.uri settings v.checks).value = .ok ds
  taken : v.surroundings.sinkClosed = false

/-- When the pass `p` ends with nothing in `v`, with an outcome of its lookup. -/
inductive Withheld (v : Validator) (p : Pass) : Outcome → Prop where
  | failed (e : LookupError) : Withheld v p (.error e)
  | superseded (s : Settings) (hl : v.latest.lookup p.uri ≠ some p.token) : Withheld v p (.ok s)
  | unreadable (s : Settings) {cause : Log.Cause} (hl : v.latest.lookup p.uri = some p.token)
      (ht : v.surroundings.read p.uri = .error cause) : Withheld v p (.ok s)
  /-- The text is no catalog. -/
  | malformed (s : Settings) {text : String} {e : Catalog.ParseError}
      (hl : v.latest.lookup p.uri = some p.token) (ht : v.surroundings.read p.uri = .ok text)
      (ha : (v.analysis p.uri text s).value = .error (.parse e)) : Withheld v p (.ok s)
  /-- A location in the text makes no sense. -/
  | misplaced (s : Settings) {text : String} {e : InvalidLocation}
      (hl : v.latest.lookup p.uri = some p.token) (ht : v.surroundings.read p.uri = .ok text)
      (ha : (v.analysis p.uri text s).value = .error (.group (.location e))) : Withheld v p (.ok s)

/-- What the end of the pass `p` does in `v` after the history `h`, with the outcome `o` of its
lookup. -/
structure EndsRight (h : List Moment) (v : Validator) (p : Pass) (o : Outcome) : Prop where
  published : ∀ ds, (v.conclude p o).2.2 = .published ds ↔ Publishes v p o ds
  nothing : (v.conclude p o).2.2 = .nothing ↔ Withheld v p o
  /-- What the pass returns is what it hands to the sink, once. -/
  handed : ∀ ds, (v.conclude p o).2.2 = .published ds → (v.conclude p o).1 = v ∧
    ∃ log r, Silent log ∧
      (v.conclude p o).2.1 = log ++ [.published p.token p.uri ds, .logged r]
  /-- A pass that ends with nothing is not heard of. -/
  unheard : (v.conclude p o).2.2 = .nothing → Unheard h (v.conclude p o).2.1
  /-- It leaves all as it is, but for a failed lookup that is still kept. -/
  inPlace : (v.conclude p o).2.2 = .nothing → (∀ s, o = .ok s → (v.conclude p o).1 = v) ∧
    ∀ e, o = .error e → (v.conclude p o).1 =
      if v.cache.kept? p.uri = some p.lookup then { v with cache := v.cache.evict p.uri } else v

variable {h : List Moment} {v : Validator} {p : Pass} {o : Outcome} {ds : List Diagnostic}
  {effects : List (Effect TaskResult)} {r : PassResult}

theorem analysis_eq_ok_iff {uri text : String} {s : Settings} :
    (v.analysis uri text s).value = .ok ds ↔
      v.surroundings.fault = none ∧ (analyze text uri s v.checks).value = .ok ds := by
  unfold analysis
  cases v.surroundings.fault with
  | none => simp
  | some e => simp [pure]

theorem Conclusion.published_iff (hc : Conclusion v p o effects r) :
    r = .published ds ↔ Publishes v p o ds := by
  constructor
  · rintro rfl
    cases hc with
    | published s r hl ht ha hsink hlog =>
      obtain ⟨hfault, ha⟩ := analysis_eq_ok_iff.1 ha
      exact ⟨hl, ⟨s, _, rfl, ht, hfault, ha⟩, hsink⟩
  · rintro ⟨hnewest, ⟨s', text', hs, hread, hfault, hvalue⟩, htaken⟩
    have hvalue := analysis_eq_ok_iff.2 ⟨hfault, hvalue⟩
    cases hc with
    | failed e r => cases hs
    | superseded s r hl => exact absurd hnewest hl
    | unreadable s r hl ht => cases ht.symm.trans hread
    | skipped s hl ht ha he hlog =>
      cases hs
      cases ht.symm.trans hread
      cases ha.symm.trans hvalue
    | escaped s hl ht ha he hlog =>
      cases hs
      cases ht.symm.trans hread
      cases ha.symm.trans hvalue
    | published s r hl ht ha hsink hlog =>
      cases hs
      cases ht.symm.trans hread
      rw [Except.ok.inj (ha.symm.trans hvalue)]
    | refused s hl ht ha hsink hlog => cases hsink.symm.trans htaken

/-- The newest pass, with its settings and a text, ends with nothing only if the text has no
reports. -/
theorem Withheld.analysis_eq {s : Settings} {text : String} (hw : Withheld v p (.ok s))
    (hl : v.latest.lookup p.uri = some p.token) (ht : v.surroundings.read p.uri = .ok text) :
    ∃ e, (v.analysis p.uri text s).value = .error e ∧
      ((∃ e', e = .parse e') ∨ ∃ l, e = .group (.location l)) := by
  cases hw with
  | superseded s hl' => exact absurd hl hl'
  | unreadable s hl ht' => cases ht.symm.trans ht'
  | malformed s hl ht' ha =>
    cases ht.symm.trans ht'
    exact ⟨_, ha, .inl ⟨_, rfl⟩⟩
  | misplaced s hl ht' ha =>
    cases ht.symm.trans ht'
    exact ⟨_, ha, .inr ⟨_, rfl⟩⟩

theorem Conclusion.nothing_iff (hc : Conclusion v p o effects r) :
    r = .nothing ↔ Withheld v p o := by
  constructor
  · rintro rfl
    cases hc with
    | failed e r => exact .failed e
    | superseded s r hl => exact .superseded s hl
    | unreadable s r hl ht => exact .unreadable s hl ht
    | skipped s hl ht ha he hlog =>
      rcases he with ⟨e, rfl⟩ | ⟨l, rfl⟩
      · exact .malformed s hl ht ha
      · exact .misplaced s hl ht ha
  · intro hw
    cases hc with
    | failed | superseded | unreadable | skipped => rfl
    | escaped s hl ht ha he hlog =>
      obtain ⟨e, ha', ⟨e', rfl⟩ | ⟨l, rfl⟩⟩ := hw.analysis_eq hl ht
      · exact absurd (Except.error.inj (ha.symm.trans ha')) (he.1 e')
      · exact absurd (Except.error.inj (ha.symm.trans ha')) (he.2 l)
    | published s r hl ht ha hsink hlog =>
      obtain ⟨e, ha', -⟩ := hw.analysis_eq hl ht
      cases ha.symm.trans ha'
    | refused s hl ht ha hsink hlog =>
      obtain ⟨e, ha', -⟩ := hw.analysis_eq hl ht
      cases ha.symm.trans ha'

theorem Silent.unheard (hs : Silent effects) (h : List Moment) : Unheard h effects := by
  refine ⟨?_, fun u => lastPublished_append (hs.published? u)⟩
  rw [calls, List.filterMap_map]
  exact hs.filterMap fun r => rfl

theorem Conclusion.unheard (hc : Conclusion v p o effects .nothing) (h : List Moment) :
    Unheard h effects := by
  cases hc with
  | failed e r => exact Silent.unheard (by simp [Silent]) h
  | superseded s r hl => exact ⟨rfl, fun u => lastPublished_append (by simp [Moment.published?])⟩
  | unreadable s r hl ht => exact Silent.unheard (by simp [Silent]) h
  | skipped s hl ht ha he hlog => exact hlog.unheard h

theorem split_append {α : Type} {l l' past future : List α} {x : α}
    (he : l ++ l' = past ++ x :: future) :
    (∃ future', l = past ++ x :: future') ∨
      ∃ past', past = l ++ past' ∧ l' = past' ++ x :: future := by
  rcases List.append_eq_append_iff.1 he with ⟨c, hp, hl⟩ | ⟨c, hl, hf⟩
  · exact .inr ⟨c, hp, hl⟩
  · cases c with
    | nil => exact .inr ⟨[], by simpa using hl.symm, hf.symm⟩
    | cons y c =>
      obtain ⟨rfl, -⟩ := List.cons.inj hf
      exact .inl ⟨c, hl⟩

/-- The place of a publication among the effects of a pass that ends. -/
theorem Conclusion.split (hc : Conclusion v p o effects r) {t : Nat} {u : String}
    {l₁ l₂ : List (Effect TaskResult)} (he : effects = l₁ ++ .published t u ds :: l₂) :
    Silent l₁ ∧ t = p.token ∧ u = p.uri ∧ r = .published ds := by
  have hmem : .published t u ds ∈ effects := he ▸ List.mem_append_right _ List.mem_cons_self
  cases hc with
  | failed e r => simp at hmem
  | superseded s r hl => simp at hmem
  | unreadable s r hl ht => simp at hmem
  | skipped s hl ht ha he hlog => exact absurd hmem (not_published_silent hlog)
  | escaped s hl ht ha he hlog => exact absurd hmem (not_published_silent hlog)
  | published s r hl ht ha hsink hlog =>
    rcases split_append he with ⟨l, rfl⟩ | ⟨l, rfl, hl⟩
    · have hmem := List.mem_append_right l₁ (List.mem_cons_self (a := .published t u ds) (l := l))
      exact absurd hmem (not_published_silent hlog)
    · cases l with
      | nil =>
        obtain ⟨rfl, rfl, rfl⟩ := by simpa using (List.cons.inj hl).1
        exact ⟨by simpa using hlog, rfl, rfl, rfl⟩
      | cons x l =>
        have hmem : .published t u ds ∈ [Effect.logged (ρ := TaskResult) r] := by
          rw [(List.cons.inj hl).2]
          simp
        simp at hmem
  | refused s hl ht ha hsink hlog =>
    rcases List.mem_append.1 hmem with hmem | hmem
    · exact absurd hmem (not_published_silent hlog)
    · simp at hmem

theorem inPlace_conclude (hu : p.lookup.uri = p.uri) :
    (∀ s, o = .ok s → (v.conclude p o).1 = v) ∧ ∀ e, o = .error e → (v.conclude p o).1 =
      if v.cache.kept? p.uri = some p.lookup then { v with cache := v.cache.evict p.uri }
      else v := by
  rw [conclude_fst]
  constructor
  · rintro s rfl
    rfl
  · rintro e rfl
    simp only [SettingsCache.receive, SettingsCache.forget, SettingsCache.evict, hu]
    split <;> rfl

theorem endsRight_conclude (h : List Moment) (hu : p.lookup.uri = p.uri) : EndsRight h v p o := by
  have hc := conclude_cases v p o
  refine ⟨fun ds => hc.published_iff, hc.nothing_iff, ?_, fun hr => ?_, fun _ => ?_⟩
  · intro ds hr
    rw [hr] at hc
    generalize he : (v.conclude p o).2.1 = effects at hc ⊢
    cases hc with
    | published s r hl ht ha hsink hlog =>
      exact ⟨(inPlace_conclude hu).1 s rfl, _, r, hlog, rfl⟩
  · rw [hr] at hc
    exact hc.unheard h
  · exact inPlace_conclude hu

end Ending

section Runs

variable {f f' : Focus} {v₀ v v' : Validator} {h ms : List Moment} {p : Pass} {t : Nat} {u : String}
  {ds : List Diagnostic}

/-- Where a publication comes from that follows upon `past` in a run from `v₀`: a pass over the
document was in hand in the validator `c`, and but for records nothing has happened since. -/
def Published (v₀ : Validator) (past : List Moment) (t : Nat) (u : String) (ds : List Diagnostic) :
    Prop :=
  ∃ h log p rest c o, past = h ++ log.map .effect ∧ Silent log ∧ Moves {} v₀ h ⟨some p, rest⟩ c ∧
    p.token = t ∧ p.uri = u ∧ c.cache.outcome? p.lookup = some o ∧ Publishes c p o ds

/-- A move that publishes is the end of a pass. -/
theorem Move.of_published (hm : Move f v ms f' v') (hp : .effect (.published t u ds) ∈ ms) :
    ∃ p rest o, f = ⟨some p, rest⟩ ∧ v.cache.outcome? p.lookup = some o ∧
      ms = (v.conclude p o).2.1.map .effect := by
  cases hm with
  | conclude rest rest' ho hr => exact ⟨_, rest, _, rfl, ho, rfl⟩
  | begin v uri rest => cases (published?_begin v uri u _ hp).symm.trans (if_pos rfl)
  | _ => simp at hp

theorem published_conclude {rest : List String} {o : Outcome} {past future : List Moment}
    (h₀ : Moves {} v₀ h ⟨some p, rest⟩ v) (ho : v.cache.outcome? p.lookup = some o)
    (he : (v.conclude p o).2.1.map .effect = past ++ .effect (.published t u ds) :: future) :
    Published v₀ (h ++ past) t u ds := by
  obtain ⟨log, l₂, hl, rfl, hl₂⟩ := List.map_eq_append_iff.1 he
  obtain ⟨x, l₂, rfl, hx, -⟩ := List.map_eq_cons_iff.1 hl₂
  cases hx
  have hc := conclude_cases v p o
  obtain ⟨hlog, rfl, rfl, hr⟩ := hc.split hl
  exact ⟨h, log, p, rest, v, o, rfl, hlog, h₀, rfl, rfl, ho, hc.published_iff.1 hr⟩

/-- **All that is published comes from a pass that ends.** -/
theorem Moves.published (hm : Moves {} v₀ h f v) :
    ∀ past t u ds future, h = past ++ .effect (.published t u ds) :: future →
      Published v₀ past t u ds := by
  have hkeeps := hm.keeps
    (Q := fun f v h => Moves {} v₀ h f v ∧ ∀ past t u ds future,
      h = past ++ .effect (.published t u ds) :: future → Published v₀ past t u ds)
    (fun h hm hq => ?_) [] ⟨.refl _ _, by simp⟩
  · exact hkeeps.2
  · refine ⟨hq.1.trans hm.moves, fun past t u ds future he => ?_⟩
    -- it was published before, or by this move
    rcases split_append he with ⟨future', rfl⟩ | ⟨past', rfl, rfl⟩
    · exact hq.2 past t u ds future' rfl
    · obtain ⟨p, rest, o, rfl, ho, he⟩ :=
        hm.of_published (List.mem_append_right past' List.mem_cons_self)
      exact published_conclude hq.1 ho he.symm

/-- After a run from `v₀` with the history `h`, the passes of the tasks in `v` end in moves, and a
task of a single pass ends with the result of that pass. -/
structure ReturnsResult (v₀ : Validator) (h : List Moment) (v : Validator) : Prop where
  /-- A pass that has waited. -/
  resumed : ∀ task t v' o, v.take? task = some (t, v') → v.cache.outcome? t.pass.lookup = some o →
    Moves {} v₀ (h ++ [.event (.resume task)]) ⟨some t.pass, t.rest.getD []⟩ v' ∧
      (t.rest = none →
        endings (v.step (.resume task)).2 = [(task, .pass (v'.conclude t.pass o).2.2)])
  /-- A pass that does not have to wait. -/
  validated : ∀ task uri v' p begun o, v.begin uri = (v', p, begun) →
    v'.cache.outcome? p.lookup = some o →
    Moves {} v₀ (h ++ .event (.validate task uri) :: begun.map .effect) ⟨some p, []⟩ v' ∧
      endings (v.step (.validate task uri)).2 = [(task, .pass (v'.conclude p o).2.2)]

theorem Moves.returnsResult (hm : Moves {} v₀ h {} v) : ReturnsResult v₀ h v := by
  refine ⟨?_, ?_⟩
  · intro task t v' o ht ho
    refine ⟨hm.trans (Move.take ht ho).moves, fun hrest => ?_⟩
    rw [step_resume ht ho, goOn_single hrest, (take?_eq_some ht).1]
    exact endings_concat_finished endings_conclude
  · intro task uri v' p begun o hb ho
    have hbegin := Move.begin v uri []
    have hendings : endings (v.begin uri).2.2 = [] := endings_begin
    rw [hb] at hbegin hendings
    refine ⟨hm.trans (.head (.call v task uri) hbegin.moves), ?_⟩
    simp only [Validator.step, validateOne, hb, ho]
    exact endings_concat_finished (by simp [hendings])

end Runs

/-- **A pass publishes what it finds in the present text, or leaves everything in place.** Whatever
is published in a run comes from a pass in hand, and is found in the text that its document has at
that moment, under the settings of the lookup that was kept for the document when the pass began, or
that the pass began itself. A pass ends with nothing exactly if its lookup failed, if it is
superseded, or if its text cannot be read, is no catalog or has an invalid location. Then it has
handed nothing to the sink at its beginning or at its end, and it has changed nothing but the token
and the lookup of its document. -/
theorem snapshot_or_nothing (checks : Option (List String)) (cache : SettingsCache)
    (surroundings : Surroundings) :
    let v₀ : Validator := { checks, cache, surroundings }
    (∀ es past t u ds future, v₀.history es = past ++ .effect (.published t u ds) :: future →
      Published v₀ past t u ds) ∧
    (∀ h p rest v o, Moves {} v₀ h ⟨some p, rest⟩ v → v.cache.outcome? p.lookup = some o →
      v.checks = checks ∧ Origin v₀ p h ⟨some p, rest⟩ v ∧ EndsRight h v p o) ∧
    ∀ es, ReturnsResult v₀ (v₀.history es) (v₀.run es).1 := by
  intro v₀
  refine ⟨?_, ?_, ?_⟩
  · intro es
    exact (run_moves v₀ es).published
  · intro h p rest v o hm _
    have horigin : Origin v₀ p h ⟨some p, rest⟩ v := hm.origin rfl (by simp [underWay])
    exact ⟨hm.checks_eq, horigin, endsRight_conclude h horigin.uri_lookup⟩
  · intro es
    exact (run_moves v₀ es).returnsResult

/-- The text is mended while the pass waits, and the settings that it waits for come from before all
settings have changed. -/
example :
    let h := history {} [.edit "a" (some "msgid"), .validate 1 "a", .reconfigure 2 [],
      .edit "a" (some ""), .complete ⟨"a", 0⟩ (.ok {}), .resume 1]
    (lastPublished "a" h).map List.length = some 0 ∧ calls h = [(1, "a")] := by
  decide +kernel

end CatalogLint.Validator
