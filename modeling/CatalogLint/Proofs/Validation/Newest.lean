import CatalogLint.Proofs.Validation.History
import Mathlib.Data.List.Induction
import Mathlib.Data.List.Sort

/-!
# Only the newest pass publishes

A pass stands from its beginning until another pass over its document begins or the document is
closed. The table of latest tokens says exactly which passes stand (`PassesOK.latest`), whatever
was closed and opened again in between.

* `only_newest_publishes`: **a pass hands its reports to the sink only while it stands, and is
  dropped as superseded only when it stands no more**; so the passes over a document that publish
  do so once each, in the order in which they began.
-/

namespace CatalogLint.Validator

/-- What ends the standing of the passes over a document. -/
inductive Displaces (uri : String) : Moment → Prop where
  /-- Another pass over it begins. -/
  | began (token : Nat) : Displaces uri (.effect (.began token uri))
  /-- It is closed. -/
  | closed : Displaces uri (.event (.close uri))

/-- The pass over `uri` with this token has begun, and nothing has displaced it since. -/
def Standing (token : Nat) (uri : String) (h : List Moment) : Prop :=
  ∃ before after, h = before ++ .effect (.began token uri) :: after ∧
    ∀ m ∈ after, ¬ Displaces uri m

/-- The pass over `uri` with this token has begun, and something has displaced it since. -/
def Displaced (token : Nat) (uri : String) (h : List Moment) : Prop :=
  ∃ before after, h = before ++ .effect (.began token uri) :: after ∧ ∃ m ∈ after, Displaces uri m

/-- The token and the document of the pass that begins. -/
def Moment.start? : Moment → Option (Nat × String)
  | .effect (.began token uri) => some (token, uri)
  | _ => none

/-- The token and the document of the pass that hands its reports to the sink, taken or not. -/
def Moment.call? : Moment → Option (Nat × String)
  | .effect (.published token uri _) | .effect (.refused token uri _) => some (token, uri)
  | _ => none

/-- The passes that have begun, in order. -/
def starts (h : List Moment) : List (Nat × String) := h.filterMap Moment.start?

/-- The passes that have handed their reports to the sink, in order. -/
def calls (h : List Moment) : List (Nat × String) := h.filterMap Moment.call?

/-- A moment of no consequence for passes. -/
def Neutral (m : Moment) : Prop :=
  m.start? = none ∧ m.call? = none ∧ (∀ t u, m ≠ .effect (.superseded t u)) ∧
    ∀ u, m ≠ .event (.close u)

/-- What a moment requires of the past: that a pass which publishes stands, and that one which is
dropped does not. -/
def Justified (past : List Moment) (m : Moment) : Prop :=
  (∀ t u, m.call? = some (t, u) → Standing t u past) ∧
    ∀ t u, m = .effect (.superseded t u) → Displaced t u past

/-- The passes under way: the one in hand and those that wait. -/
def underWay (f : Focus) (v : Validator) : List Pass := f.hand.toList ++ v.waiting.map (·.pass)

section Standing

variable {h ns : List Moment} {m : Moment} {t : Nat} {u : String}

theorem split_concat {past future : List Moment} {x : Moment}
    (he : h ++ [m] = past ++ x :: future) :
    (past = h ∧ x = m ∧ future = []) ∨ ∃ future', future = future' ++ [m] ∧
      h = past ++ x :: future' := by
  induction future using List.reverseRecOn with
  | nil =>
    have hs := List.append_inj' he rfl
    exact .inl ⟨hs.1.symm, by simpa using hs.2.symm, rfl⟩
  | append_singleton future' y _ =>
    have he' : h ++ [m] = (past ++ x :: future') ++ [y] := by simpa using he
    have hs := List.append_inj' he' rfl
    exact .inr ⟨future', by rw [hs.2], hs.1⟩

theorem split_unique {b₁ a₁ b₂ a₂ : List Moment} (h₁ : m ∉ a₁) (h₂ : m ∉ a₂)
    (he : b₁ ++ m :: a₁ = b₂ ++ m :: a₂) : a₁ = a₂ := by
  rcases List.append_eq_append_iff.1 he with ⟨c, -, hc⟩ | ⟨c, -, hc⟩
  · cases c with
    | nil => simpa using hc
    | cons x c =>
      obtain ⟨-, rfl⟩ := List.cons.inj hc
      exact absurd (by simp) h₁
  · cases c with
    | nil => simpa using hc.symm
    | cons x c =>
      obtain ⟨-, rfl⟩ := List.cons.inj hc
      exact absurd (by simp) h₂

theorem standing_concat : Standing t u (h ++ [m]) ↔
    m = .effect (.began t u) ∨ Standing t u h ∧ ¬ Displaces u m := by
  constructor
  · rintro ⟨before, after, he, ha⟩
    rcases split_concat he with ⟨-, hm, -⟩ | ⟨after', rfl, hh⟩
    · exact .inl hm.symm
    · exact .inr ⟨⟨before, after', hh, fun x hx => ha x (by simp [hx])⟩, ha m (by simp)⟩
  · rintro (rfl | ⟨⟨before, after, rfl, ha⟩, hm⟩)
    · exact ⟨h, [], rfl, by simp⟩
    · refine ⟨before, after ++ [m], by simp, ?_⟩
      intro x hx
      rcases List.mem_append.1 hx with hx | hx
      · exact ha x hx
      · rw [List.mem_singleton.1 hx]; exact hm

/-- A pass that has begun and does not stand has been displaced. -/
theorem displaced_of_not_standing (hb : .effect (.began t u) ∈ h) (hs : ¬ Standing t u h) :
    Displaced t u h := by
  obtain ⟨before, after, rfl⟩ := List.append_of_mem hb
  refine ⟨before, after, rfl, ?_⟩
  by_contra hc
  exact hs ⟨before, after, rfl, fun m hm hd => hc ⟨m, hm, hd⟩⟩

theorem Neutral.not_displaces (hm : Neutral m) : ¬ Displaces u m := by
  rintro (_ | _)
  · simp [Neutral, Moment.start?] at hm
  · exact hm.2.2.2 u rfl

theorem Neutral.justified (hm : Neutral m) (past : List Moment) : Justified past m :=
  ⟨fun t u hc => by simp [hm.2.1] at hc, fun t u hc => absurd hc (hm.2.2.1 t u)⟩

theorem Silent.neutral {effects : List (Effect TaskResult)} (hs : Silent effects) :
    ∀ m ∈ effects.map Moment.effect, Neutral m := by
  intro m hm
  obtain ⟨e, he, rfl⟩ := List.mem_map.1 hm
  obtain ⟨r, rfl⟩ := hs e he
  simp [Neutral, Moment.start?, Moment.call?]

end Standing

/-- **What holds of passes throughout**: the table of latest tokens says which passes stand, tokens
count the passes in the order of their beginning, a pass under way has begun and has not
published, and every moment so far was justified. -/
structure PassesOK (f : Focus) (v : Validator) (h : List Moment) : Prop where
  latest : ∀ u t, v.latest.lookup u = some t ↔ Standing t u h
  tokens : (starts h).Pairwise (·.1 < ·.1)
  counted : ∀ s ∈ starts h, s.1 ≤ v.begun
  started : ∀ p ∈ underWay f v, .effect (.began p.token p.uri) ∈ h
  distinct : (underWay f v).Pairwise (·.token ≠ ·.token)
  unpublished : ∀ p ∈ underWay f v, ∀ u, (p.token, u) ∉ calls h
  called : ∀ u, ((calls h).filter (·.2 = u)).Pairwise (·.1 < ·.1)
  justified : ∀ past m future, h = past ++ m :: future → Justified past m

section Keeping

variable {f f' : Focus} {v v' : Validator} {h ns : List Moment} {m : Moment} {p : Pass}

theorem starts_concat (hm : m.start? = none) : starts (h ++ [m]) = starts h := by
  simp [starts, List.filterMap_append, hm]

theorem calls_concat (hm : m.call? = none) : calls (h ++ [m]) = calls h := by
  simp [calls, List.filterMap_append, hm]

theorem mem_starts {t : Nat} {u : String} (hm : .effect (.began t u) ∈ h) : (t, u) ∈ starts h :=
  List.mem_filterMap.2 ⟨_, hm, rfl⟩

/-- A pass that has published has begun. -/
theorem PassesOK.began_of_call (hk : PassesOK f v h) {t : Nat} {u : String}
    (hc : (t, u) ∈ calls h) : .effect (.began t u) ∈ h := by
  obtain ⟨m, hm, hmc⟩ := List.mem_filterMap.1 hc
  obtain ⟨past, future, rfl⟩ := List.append_of_mem hm
  obtain ⟨before, after, rfl, -⟩ := (hk.justified past m future rfl).1 t u hmc
  simp

/-- What is required of every moment, for one moment more. -/
theorem justified_concat (hj : ∀ past m future, h = past ++ m :: future → Justified past m)
    (hm : Justified h m) : ∀ past x future, h ++ [m] = past ++ x :: future → Justified past x := by
  intro past x future he
  rcases split_concat he with ⟨rfl, rfl, -⟩ | ⟨future', -, hh⟩
  · exact hm
  · exact hj past x future' hh

theorem PassesOK.neutral_concat (hk : PassesOK f v h) (hm : Neutral m) :
    PassesOK f v (h ++ [m]) := by
  have hstarts : starts (h ++ [m]) = starts h := starts_concat hm.1
  have hcalls : calls (h ++ [m]) = calls h := calls_concat hm.2.1
  refine ⟨?_, hstarts ▸ hk.tokens, hstarts ▸ hk.counted, ?_, hk.distinct, hcalls ▸ hk.unpublished,
    hcalls ▸ hk.called, justified_concat hk.justified (hm.justified h)⟩
  · intro u t
    rw [hk.latest, standing_concat]
    constructor
    · intro hs; exact .inr ⟨hs, hm.not_displaces⟩
    · rintro (rfl | ⟨hs, -⟩)
      · simp [Neutral, Moment.start?] at hm
      · exact hs
  · intro p hp; exact List.mem_append_left _ (hk.started p hp)

/-- Moments of no consequence keep it. -/
theorem PassesOK.neutral (hk : PassesOK f v h) (hn : ∀ m ∈ ns, Neutral m) :
    PassesOK f v (h ++ ns) := by
  induction ns generalizing h with
  | nil => rwa [List.append_nil]
  | cons m ns ih =>
    rw [List.append_cons]
    exact ih (hk.neutral_concat (hn m (by simp))) fun x hx => hn x (by simp [hx])

/-- It depends only on the table, the counter and the passes under way. -/
theorem PassesOK.shift (hk : PassesOK f v h) (hl : v'.latest = v.latest) (hb : v'.begun = v.begun)
    (hu : (underWay f' v').Subperm (underWay f v)) : PassesOK f' v' h := by
  refine ⟨hl ▸ hk.latest, hk.tokens, hb ▸ hk.counted, fun p hp => hk.started p (hu.subset hp), ?_,
    fun p hp => hk.unpublished p (hu.subset hp), hk.called, hk.justified⟩
  obtain ⟨l, hp, hs⟩ := hu
  exact (hp.pairwise_iff fun h => h.symm).1 (hk.distinct.sublist hs)

/-- A pass begins. -/
theorem PassesOK.begun (hk : PassesOK f v h) (hh : f.hand = none) {rest : List String}
    (ht : p.token = v.begun + 1) (hl : v'.latest = Table.set p.uri p.token v.latest)
    (hb : v'.begun = v.begun + 1) (hw : v'.waiting = v.waiting) :
    PassesOK ⟨some p, rest⟩ v' (h ++ [.effect (.began p.token p.uri)]) := by
  have hstarts : starts (h ++ [.effect (.began p.token p.uri)]) =
      starts h ++ [(p.token, p.uri)] := by
    simp [starts, List.filterMap_append, Moment.start?]
  have hcalls : calls (h ++ [.effect (.began p.token p.uri)]) = calls h := calls_concat rfl
  have hu : underWay f v = v.waiting.map (·.pass) := by simp [underWay, hh]
  have hu' : underWay ⟨some p, rest⟩ v' = p :: underWay f v := by simp [underWay, hh, hw]
  -- all passes so far have smaller tokens
  have hold : ∀ q ∈ underWay f v, q.token ≤ v.begun := fun q hq =>
    hk.counted _ (mem_starts (hk.started q hq))
  refine ⟨?_, ?_, ?_, ?_, ?_, ?_, hcalls ▸ hk.called, ?_⟩
  · intro u t
    rw [hl, Table.lookup_set, standing_concat]
    by_cases huv : u = p.uri
    · subst huv
      simp [Displaces.began]
    · have hd : ¬ Displaces u (.effect (.began p.token p.uri)) := by
        rintro (_ | _); exact huv rfl
      rw [if_neg huv, hk.latest]
      simp [hd, Ne.symm huv]
  · rw [hstarts, List.pairwise_append]
    refine ⟨hk.tokens, List.pairwise_singleton _ _, ?_⟩
    intro s hs x hx
    rw [List.mem_singleton.1 hx, ht]
    have := hk.counted s hs; simp only; omega
  · intro s hs
    rw [hstarts, List.mem_append, List.mem_singleton] at hs
    rcases hs with hs | rfl
    · have := hk.counted s hs; omega
    · simp only; omega
  · intro q hq
    rw [hu', List.mem_cons] at hq
    rcases hq with rfl | hq
    · simp
    · exact List.mem_append_left _ (hk.started q hq)
  · rw [hu', List.pairwise_cons]
    refine ⟨?_, hk.distinct⟩
    intro q hq he
    have := hold q hq; omega
  · intro q hq u hc
    rw [hcalls] at hc
    have hcount := hk.counted _ (mem_starts (hk.began_of_call hc))
    rw [hu', List.mem_cons] at hq
    rcases hq with rfl | hq
    · simp only at hcount; omega
    · exact hk.unpublished q hq u hc
  · refine justified_concat hk.justified ⟨?_, ?_⟩ <;> simp [Moment.call?]

/-- A document is closed. -/
theorem PassesOK.closed (hk : PassesOK f v h) {uri : String}
    (hl : v'.latest = Table.erase uri v.latest) (hb : v'.begun = v.begun)
    (hw : v'.waiting = v.waiting) : PassesOK f v' (h ++ [.event (.close uri)]) := by
  have hstarts : starts (h ++ [.event (.close uri)]) = starts h := starts_concat rfl
  have hcalls : calls (h ++ [.event (.close uri)]) = calls h := calls_concat rfl
  have hu : underWay f v' = underWay f v := by simp [underWay, hw]
  refine ⟨?_, hstarts ▸ hk.tokens, hstarts ▸ hb ▸ hk.counted, ?_, hu ▸ hk.distinct,
    hcalls ▸ hu ▸ hk.unpublished, hcalls ▸ hk.called, ?_⟩
  · intro u t
    rw [hl, Table.lookup_erase, standing_concat]
    by_cases huv : u = uri
    · subst huv
      simp [Displaces.closed]
    · have hd : ¬ Displaces u (.event (.close uri)) := by
        rintro (_ | _); exact huv rfl
      rw [if_neg huv, hk.latest]
      simp [hd]
  · intro q hq; exact List.mem_append_left _ (hk.started q (hu ▸ hq))
  · refine justified_concat hk.justified ⟨?_, ?_⟩ <;> simp [Moment.call?]

/-- The pass in hand is dropped. -/
theorem PassesOK.superseded {rest : List String} (hk : PassesOK ⟨some p, rest⟩ v h)
    (rest' : List String) (hl : v.latest.lookup p.uri ≠ some p.token) :
    PassesOK ⟨none, rest'⟩ v (h ++ [.effect (.superseded p.token p.uri)]) := by
  have hstarts : starts (h ++ [.effect (.superseded p.token p.uri)]) = starts h := starts_concat rfl
  have hcalls : calls (h ++ [.effect (.superseded p.token p.uri)]) = calls h := calls_concat rfl
  have hd : ∀ u, ¬ Displaces u (.effect (.superseded p.token p.uri)) := by rintro u (_ | _)
  have hp : p ∈ underWay ⟨some p, rest⟩ v := by simp [underWay]
  have hs : PassesOK ⟨none, rest'⟩ v h :=
    hk.shift rfl rfl (by simpa [underWay] using List.Subperm.cons_self)
  refine ⟨?_, hstarts ▸ hs.tokens, hstarts ▸ hs.counted, ?_, hs.distinct, hcalls ▸ hs.unpublished,
    hcalls ▸ hs.called, ?_⟩
  · intro u t
    rw [hk.latest, standing_concat]
    simp [hd u]
  · intro q hq; exact List.mem_append_left _ (hs.started q hq)
  · refine justified_concat hk.justified ⟨by simp [Moment.call?], ?_⟩
    rintro t u ⟨⟩
    exact displaced_of_not_standing (hk.started p hp) fun hst => hl ((hk.latest _ _).2 hst)

theorem call?_eq_some {t : Nat} {u : String} (hm : m.call? = some (t, u)) :
    m.start? = none ∧ (∀ w, ¬ Displaces w m) ∧ ∀ t' w, m ≠ .effect (.superseded t' w) := by
  cases m with
  | event e => simp [Moment.call?] at hm
  | effect e =>
    cases e with
    | published t' u' ds => exact ⟨rfl, by rintro w (_ | _), by simp⟩
    | refused t' u' ds => exact ⟨rfl, by rintro w (_ | _), by simp⟩
    | _ => simp [Moment.call?] at hm

/-- The passes that published before began before. -/
theorem PassesOK.call_lt {rest : List String} (hk : PassesOK ⟨some p, rest⟩ v h)
    (hl : v.latest.lookup p.uri = some p.token) {t : Nat} (hc : (t, p.uri) ∈ calls h) :
    t < p.token := by
  obtain ⟨before, after, hh, ha⟩ := (hk.latest _ _).1 hl
  have hb := hk.began_of_call hc
  have hne : t ≠ p.token := by
    rintro rfl
    exact hk.unpublished p (by simp [underWay]) p.uri hc
  -- the other pass began before this one, or it would have displaced it
  rw [hh, List.mem_append, List.mem_cons] at hb
  rcases hb with hb | hb | hb
  · have htok := hk.tokens
    rw [hh, starts, List.filterMap_append, List.pairwise_append] at htok
    exact htok.2.2 _ (mem_starts hb) (p.token, p.uri) (by simp [Moment.start?])
  · simp at hb; exact absurd hb hne
  · exact absurd (.began t) (ha _ hb)

/-- The pass in hand hands its reports to the sink. -/
theorem PassesOK.handed {rest : List String} (hk : PassesOK ⟨some p, rest⟩ v h)
    (rest' : List String) (hl : v.latest.lookup p.uri = some p.token)
    (hm : m.call? = some (p.token, p.uri)) :
    PassesOK ⟨none, rest'⟩ v (h ++ [m]) := by
  obtain ⟨hms, hd, hmn⟩ := call?_eq_some hm
  have hstarts : starts (h ++ [m]) = starts h := starts_concat hms
  have hcalls : calls (h ++ [m]) = calls h ++ [(p.token, p.uri)] := by
    simp [calls, List.filterMap_append, hm]
  have hst := (hk.latest _ _).1 hl
  have hs : PassesOK ⟨none, rest'⟩ v h :=
    hk.shift rfl rfl (by simpa [underWay] using List.Subperm.cons_self)
  refine ⟨?_, hstarts ▸ hs.tokens, hstarts ▸ hs.counted, ?_, hs.distinct, ?_, ?_, ?_⟩
  · intro u t
    rw [hk.latest, standing_concat]
    have hb : m ≠ .effect (.began t u) := by rintro rfl; simp [Moment.start?] at hms
    simp [hd u, hb]
  · intro q hq; exact List.mem_append_left _ (hs.started q hq)
  · intro q hq u hc
    rw [hcalls, List.mem_append, List.mem_singleton] at hc
    rcases hc with hc | hc
    · exact hs.unpublished q hq u hc
    · -- another pass under way has another token
      have hdis := hk.distinct
      simp only [underWay, Option.toList_some, List.singleton_append, List.pairwise_cons] at hdis
      exact hdis.1 q (by simpa [underWay] using hq) (Prod.mk.inj hc).1.symm
  · intro u
    rw [hcalls, List.filter_append, List.pairwise_append]
    refine ⟨hk.called u, (List.pairwise_singleton _ _).sublist List.filter_sublist, ?_⟩
    intro s hs x hx
    obtain ⟨hxm, hxu⟩ := List.mem_filter.1 hx
    obtain ⟨hsm, hsu⟩ := List.mem_filter.1 hs
    rw [List.mem_singleton.1 hxm] at hxu ⊢
    simp only [decide_eq_true_eq] at hxu hsu
    subst hxu
    exact hk.call_lt hl (t := s.1) (by rw [← hsu]; exact hsm)
  · refine justified_concat hk.justified ⟨?_, fun t u he => absurd he (hmn t u)⟩
    intro t u hc
    rw [hm] at hc
    obtain ⟨rfl, rfl⟩ := by simpa using hc
    exact hst

/-- The pass in hand ends. -/
theorem PassesOK.conclude {rest rest' : List String} (hk : PassesOK ⟨some p, rest⟩ v h)
    (o : Outcome) :
    PassesOK ⟨none, rest'⟩ (v.conclude p o).1 (h ++ (v.conclude p o).2.1.map .effect) := by
  -- the cache does not matter here, so `v` itself will do
  suffices hv : PassesOK ⟨none, rest'⟩ v (h ++ (v.conclude p o).2.1.map .effect) by
    rw [conclude_fst]
    exact hv.shift rfl rfl (List.Subperm.refl _)
  have hs : PassesOK ⟨none, rest'⟩ v h :=
    hk.shift rfl rfl (by simpa [underWay] using List.Subperm.cons_self)
  have hr : ∀ r, Silent [.logged r] := by intro r e he; exact ⟨r, List.mem_singleton.1 he⟩
  have hc := conclude_cases v p o
  generalize (v.conclude p o).2.1 = effects, (v.conclude p o).2.2 = result at hc
  cases hc with
  | failed e r => exact hs.neutral (hr r).neutral
  | superseded s r hl =>
    have hd := (hk.superseded rest' hl).neutral (hr r).neutral
    rwa [List.append_assoc] at hd
  | unreadable s r hl ht => exact hs.neutral (hr r).neutral
  | skipped s hl ht ha he hlog => exact hs.neutral hlog.neutral
  | escaped s hl ht ha he hlog => exact hs.neutral hlog.neutral
  | @published s text ds log r hl ht ha hc hlog =>
    have hd := (hk.neutral hlog.neutral).handed rest' hl
      (m := .effect (.published p.token p.uri ds)) rfl
    have hd' := hd.neutral (hr r).neutral
    rw [List.map_append]
    simpa using hd'
  | @refused s text ds log hl ht ha hc hlog =>
    have hd := (hk.neutral hlog.neutral).handed rest' hl
      (m := .effect (.refused p.token p.uri ds)) rfl
    rw [List.map_append]
    simpa using hd

/-- An event other than a closing is heard. -/
theorem PassesOK.heard (hk : PassesOK f v h) {e : Event} (he : ∀ uri, e ≠ .close uri)
    (hl : v'.latest = v.latest) (hb : v'.begun = v.begun)
    (hu : (underWay f' v').Subperm (underWay f v)) : PassesOK f' v' (h ++ [.event e]) :=
  (hk.shift hl hb hu).neutral_concat ⟨rfl, rfl, by simp, fun u hu => he u (by simpa using hu)⟩

/-- **Every move keeps it.** -/
theorem PassesOK.move (hm : Move f v ns f' v') (hk : PassesOK f v h) :
    PassesOK f' v' (h ++ ns) := by
  cases hm with
  | call v task uri => exact hk.heard (by simp) rfl rfl (List.Subperm.refl _)
  | reconfigure v task uris => exact hk.heard (by simp) rfl rfl (List.Subperm.refl _)
  | close v uri => exact hk.closed rfl rfl rfl
  | edit v uri text => exact hk.heard (by simp) rfl rfl (List.Subperm.refl _)
  | closeSink v closed => exact hk.heard (by simp) rfl rfl (List.Subperm.refl _)
  | disturb v fault => exact hk.heard (by simp) rfl rfl (List.Subperm.refl _)
  | complete v id o => exact hk.heard (by simp) rfl rfl (List.Subperm.refl _)
  | cancel ht =>
    obtain ⟨-, l₁, l₂, hw, rfl⟩ := take?_eq_some ht
    refine hk.heard (by simp) rfl rfl ?_
    simpa [underWay, hw] using (List.Sublist.append_left (List.sublist_cons_self _ _) _).subperm
  | ignore v e he =>
    obtain ⟨task, rfl | rfl⟩ := he
    · exact hk.heard (by simp) rfl rfl (List.Subperm.refl _)
    · exact hk.heard (by simp) rfl rfl (List.Subperm.refl _)
  | take ht ho =>
    obtain ⟨-, l₁, l₂, hw, rfl⟩ := take?_eq_some ht
    refine hk.heard (by simp) rfl rfl ?_
    simpa [underWay, hw] using List.perm_middle.symm.subperm
  | begin v uri rest =>
    have hb : PassesOK ⟨some (v.begin uri).2.1, rest⟩ (v.begin uri).1
        (h ++ [.effect (.began (v.begun + 1) uri)]) := hk.begun rfl rfl rfl rfl rfl
    have hn : ∀ m ∈ (v.cache.request uri).2.2.map Moment.effect, Neutral m := by
      unfold SettingsCache.request
      split <;> simp [Neutral, Moment.start?, Moment.call?]
    have hd := hb.neutral hn
    rwa [List.append_assoc] at hd
  | wait task rest ho =>
    rw [List.append_nil]
    refine hk.shift rfl rfl ?_
    simpa [underWay] using (List.perm_append_singleton _ _).subperm
  | conclude rest rest' ho hr => exact hk.conclude _
  | finish v task r =>
    exact hk.neutral_concat (by simp [Neutral, Moment.start?, Moment.call?])

/-- A pass that has begun has been displaced exactly if the table does not name it. -/
theorem PassesOK.displaced_iff (hk : PassesOK f v h) {t : Nat} {u : String}
    (hb : .effect (.began t u) ∈ h) : Displaced t u h ↔ v.latest.lookup u ≠ some t := by
  constructor
  · rintro ⟨b₁, a₁, h₁, m, hm, hd⟩ hl
    obtain ⟨b₂, a₂, h₂, ha₂⟩ := (hk.latest u t).1 hl
    -- the pass has begun only once, so both splits are the same
    have honce : ∀ b a, h = b ++ .effect (.began t u) :: a → .effect (.began t u) ∉ a := by
      intro b a he hin
      have htok := hk.tokens
      rw [he, starts, List.filterMap_append, List.pairwise_append] at htok
      simp only [List.filterMap_cons, Moment.start?, List.pairwise_cons] at htok
      exact lt_irrefl t (htok.2.1.1 _ (mem_starts hin))
    rw [split_unique (honce b₁ a₁ h₁) (honce b₂ a₂ h₂) (h₁.symm.trans h₂)] at hm
    exact ha₂ m hm hd
  · intro hl
    exact displaced_of_not_standing hb fun hs => hl ((hk.latest u t).2 hs)

/-- **It holds throughout every run** of a validator that has not begun any pass. -/
theorem run_passesOK (checks : Option (List String)) (cache : SettingsCache)
    (surroundings : Surroundings) (es : List Event) :
    PassesOK {} (run { checks, cache, surroundings } es).1
      (history { checks, cache, surroundings } es) := by
  have h0 : PassesOK {} { checks, cache, surroundings } [] := by
    refine ⟨?_, ?_, ?_, ?_, ?_, ?_, ?_, ?_⟩
    all_goals simp [Standing, starts, calls, underWay]
  exact (run_moves _ es).keeps (fun _ hm hk => hk.move hm) [] h0

end Keeping

/-- A pass that goes on with its settings is dropped exactly if the table does not name it. -/
theorem superseded_mem_conclude (v : Validator) (p : Pass) (s : Settings) :
    .superseded p.token p.uri ∈ (v.conclude p (.ok s)).2.1 ↔
      v.latest.lookup p.uri ≠ some p.token := by
  have hc := conclude_cases v p (.ok s)
  have hsilent : ∀ {log}, Silent log → .superseded p.token p.uri ∉ log := by
    intro log hlog hm
    obtain ⟨r, hr⟩ := hlog _ hm
    cases hr
  generalize (v.conclude p (.ok s)).2.1 = effects, (v.conclude p (.ok s)).2.2 = result at hc
  cases hc with
  | superseded s r hl => simp [hl]
  | unreadable s r hl ht => simp [hl]
  | skipped s hl ht ha he hlog => simp [hl, hsilent hlog]
  | escaped s hl ht ha he hlog => simp [hl, hsilent hlog]
  | published s r hl ht ha hc hlog => simp [hl, hsilent hlog]
  | refused s hl ht ha hc hlog => simp [hl, hsilent hlog]

/-- **Only the newest pass publishes.** In the history of every run, a pass hands its reports to
the sink only while it stands, and is dropped as superseded only after it was displaced; a pass
that goes on with its settings is dropped exactly if it was displaced. Each pass has a token of
its own, and the passes over a document that hand their reports to the sink do so once each, in
the order in which they began. -/
theorem only_newest_publishes (checks : Option (List String)) (cache : SettingsCache)
    (surroundings : Surroundings) (es : List Event) :
    let v := (run { checks, cache, surroundings } es).1
    let h := history { checks, cache, surroundings } es
    (∀ past m future t u, h = past ++ m :: future → m.call? = some (t, u) → Standing t u past) ∧
    (∀ past future t u, h = past ++ .effect (.superseded t u) :: future → Displaced t u past) ∧
    (∀ task t v' s, v.take? task = some (t, v') →
      v.cache.outcome? t.pass.lookup = some (.ok s) →
      (.superseded t.pass.token t.pass.uri ∈ (v'.conclude t.pass (.ok s)).2.1 ↔
        Displaced t.pass.token t.pass.uri h)) ∧
    ((starts h).map (·.1)).Nodup ∧
    ∀ u, ((calls h).filter (·.2 = u)).Sublist (starts h) := by
  intro v h
  have hk : PassesOK {} v h := run_passesOK checks cache surroundings es
  refine ⟨?_, ?_, ?_, ?_, ?_⟩
  · intro past m future t u he hm
    exact (hk.justified past m future he).1 t u hm
  · intro past future t u he
    exact (hk.justified past _ future he).2 t u rfl
  · intro task t v' s ht ho
    obtain ⟨-, l₁, l₂, hw, rfl⟩ := take?_eq_some ht
    have hb := hk.started t.pass (by simp [underWay, hw])
    rw [superseded_mem_conclude, hk.displaced_iff hb]
  · exact List.pairwise_map.2 (hk.tokens.imp fun h => h.ne)
  · intro u
    have : Std.Antisymm fun a b : Nat × String => a.1 < b.1 :=
      ⟨fun a b hab hba => absurd hab (lt_asymm hba)⟩
    refine List.sublist_of_subperm_of_pairwise (List.subperm_of_subset ?_ ?_) (hk.called u)
      hk.tokens
    · exact (hk.called u).imp fun h he => by rw [he] at h; exact lt_irrefl _ h
    · intro x hx
      exact mem_starts (hk.began_of_call (List.mem_of_mem_filter hx))

/-- A document is closed and validated again while its first pass waits: that pass is dropped, and
only the second one publishes. -/
example :
    calls (history {} [.edit "a" (some ""), .validate 1 "a", .close "a", .validate 2 "a",
      .complete ⟨"a", 0⟩ (.ok {}), .complete ⟨"a", 1⟩ (.ok {}), .resume 1, .resume 2]) =
        [(2, "a")] := by
  decide +kernel

end CatalogLint.Validator
