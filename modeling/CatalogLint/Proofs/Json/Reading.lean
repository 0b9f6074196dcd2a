import CatalogLint.Json.Reader

/-!
# How reading JSON ends

Tokens that have been read can always be gone on with to a value, so reading stops at the first
token that cannot be used. That token may be beyond a limit, and then it stands where a value might.

* `Reading.run_completion`: **whatever has been read can be finished.**
* `read_exceeds_iff`: **reading fails for a limit exactly if a value that exceeds it stands where a
  value may.**
* `keysOnce_of_read`: **an object that is read has each key once.**
-/

namespace CatalogLint.Json

open CatalogLint.Text

/-- The value that tokens are. -/
def valueOf (ts : List Token) : Except ReadError Json := do (← Reading.start.run ts).finish

theorem read_eq_valueOf (cs : List Char) : read cs = valueOf (tokens cs) := by
  unfold read valueOf
  cases Reading.start.run (tokens cs) <;> rfl

/-- A value may stand after these tokens: a text begins with them and goes on with one. -/
def ValueMayFollow (ts : List Token) : Prop :=
  ∃ more v, valueOf (ts ++ .scalar .null :: more) = .ok v

def Token.opens : Token → Bool
  | .openBracket | .openBrace => true
  | _ => false

def Token.closes : Token → Bool
  | .closeBracket | .closeBrace => true
  | _ => false

/-- How many arrays and objects are open after tokens. -/
def openAfter (ts : List Token) : Nat := ts.countP Token.opens - ts.countP Token.closes

/-- A token with which a value begins that cannot be read inside so many arrays and objects. -/
inductive Exceeds (depth : Nat) : Token → ReadError → Prop where
  | number {digits : Nat} : digitLimit < digits →
    Exceeds depth (.longNumber digits) (.longNumber digits)
  | array : depthLimit ≤ depth → Exceeds depth .openBracket (.tooDeep true)
  | object : depthLimit ≤ depth → Exceeds depth .openBrace (.tooDeep false)

section Tokens

variable {t : Token} {cs : List Char}

/-- What cutting a text gives: a scalar is no object, and a long number is over the limit. -/
def Token.Proper : Token → Prop
  | .scalar v => ∀ fields, v ≠ .object fields
  | .longNumber digits => digitLimit < digits
  | _ => True

theorem proper_number? {negative : Bool} {width : Nat}
    (h : number? negative cs = some (t, width)) : t.Proper := by
  unfold number? at h
  simp only at h
  split at h
  · cases h
  · split at h
    · cases h
      intro fields hf
      cases hf
    · split at h
      · cases h
        unfold wholeNumber
        split
        · assumption
        · intro fields hf
          cases hf
      · cases h
        intro fields hf
        cases hf

theorem proper_scalar? {width : Nat} (h : scalar? cs = some (t, width)) : t.Proper := by
  have hnames : ∀ x ∈ scalarNames, ∀ fields, x.2 ≠ .object fields := by
    simp [scalarNames]
  unfold scalar? at h
  split at h
  · rename_i name v hfind
    cases h
    exact hnames _ (List.mem_of_find?_eq_some hfind)
  · split at h
    · obtain ⟨⟨t', n⟩, hnumber, heq⟩ := Option.map_eq_some_iff.1 h
      cases heq
      exact proper_number? hnumber
    · exact proper_number? h

theorem proper_tokenAt (c : Char) (rest : List Char) : (tokenAt c rest).1.Proper := by
  unfold tokenAt
  repeat (split; · exact trivial)
  split
  · split <;> exact trivial
  · cases h : scalar? (c :: rest) with
    | none => exact trivial
    | some x => exact proper_scalar? h

theorem proper_of_mem_tokensFrom {skip : Nat} (h : t ∈ tokensFrom skip cs) : t.Proper := by
  induction cs generalizing skip with
  | nil => cases skip <;> cases h
  | cons c rest ih =>
    cases skip with
    | succ skip => exact ih h
    | zero =>
      rw [tokensFrom] at h
      split at h
      · exact ih h
      · have hc := proper_tokenAt c rest
        split at h
        · rw [List.mem_singleton.1 h]
          exact trivial
        · rename_i t' width _ heq
          rw [heq] at hc
          rcases List.mem_cons.1 h with rfl | h
          · exact hc
          · exact ih h

end Tokens

section Runs

variable {r r' : Reading} {t : Token}

theorem Reading.run_cons_ok {ts : List Token} (h : r.run (t :: ts) = .ok r') :
    ∃ q, r.step t = .ok q ∧ q.run ts = .ok r' := by
  rw [Reading.run] at h
  cases hs : r.step t with
  | error e =>
    rw [hs] at h
    cases h
  | ok q =>
    rw [hs] at h
    exact ⟨q, rfl, h⟩

theorem Reading.run_append (r : Reading) (ts ts' : List Token) :
    r.run (ts ++ ts') = r.run ts >>= fun q => q.run ts' := by
  induction ts generalizing r with
  | nil => rfl
  | cons t ts ih =>
    rw [List.cons_append, Reading.run, Reading.run]
    cases r.step t with
    | error e => rfl
    | ok q => exact ih q

/-- A run fails at a token before which it did not. -/
theorem Reading.run_error {ts : List Token} {e : ReadError} (h : r.run ts = .error e) :
    ∃ before t rest q, ts = before ++ t :: rest ∧ r.run before = .ok q ∧ q.step t = .error e := by
  induction ts generalizing r with
  | nil => cases h
  | cons t ts ih =>
    rw [Reading.run] at h
    cases hs : r.step t with
    | error e' =>
      rw [hs] at h
      obtain rfl := Except.error.inj h
      exact ⟨[], t, ts, r, rfl, rfl, hs⟩
    | ok q =>
      rw [hs] at h
      obtain ⟨before, t', rest, q', rfl, hrun, hstep⟩ := ih h
      refine ⟨t :: before, t', rest, q', rfl, ?_, hstep⟩
      rw [Reading.run, hs]
      exact hrun

theorem Reading.finish_error {e : ReadError} (h : r.finish = .error e) : e = .malformed := by
  unfold Reading.finish at h
  split at h <;> cases h
  rfl

end Runs

section Completion

variable {r r' : Reading} {ts : List Token}

/-- What can be read to its end. -/
def Reading.Completes (r : Reading) : Prop := ∃ ts q v, r.run ts = .ok q ∧ q.finish = .ok v

theorem Reading.Completes.of_step {t : Token} (hs : r.step t = .ok r') (h : r'.Completes) :
    r.Completes := by
  obtain ⟨ts, q, v, hrun, hfinish⟩ := h
  refine ⟨t :: ts, q, v, ?_, hfinish⟩
  rw [Reading.run, hs]
  exact hrun

/-- Open arrays and objects can be closed after a value. -/
theorem Reading.completes_after (v : Json) (frames : List Frame) :
    Reading.Completes ⟨.after v, frames⟩ := by
  induction frames generalizing v with
  | nil => exact ⟨[], _, v, rfl, rfl⟩
  | cons f frames ih =>
    cases f with
    | array items => exact .of_step (show Reading.step _ .closeBracket = _ from rfl) (ih _)
    | object fields key => exact .of_step (show Reading.step _ .closeBrace = _ from rfl) (ih _)

theorem Reading.completes_value (frames : List Frame) : Reading.Completes ⟨.value, frames⟩ :=
  .of_step (show Reading.step _ (.scalar .null) = _ from rfl) (completes_after .null frames)

/-- **Whatever has been read can be finished.** -/
theorem Reading.run_completion (r : Reading) : r.Completes := by
  obtain ⟨mode, frames⟩ := r
  have hcolon : ∀ fields key, Reading.Completes ⟨.colon fields key, frames⟩ := by
    intro fields key
    exact .of_step (show Reading.step _ .colon = _ from rfl) (completes_value _)
  cases mode with
  | value => exact completes_value frames
  | firstItem =>
    exact .of_step (show Reading.step _ .closeBracket = _ from rfl) (completes_after _ frames)
  | firstKey =>
    exact .of_step (show Reading.step _ .closeBrace = _ from rfl) (completes_after _ frames)
  | key fields => exact .of_step (show Reading.step _ (.text []) = _ from rfl) (hcolon _ _)
  | colon fields key => exact hcolon fields key
  | after v => exact completes_after v frames

end Completion

section Depth

variable {r r' : Reading} {t : Token} {e : ReadError}

/-- How many arrays and objects are open. -/
def Reading.depth (r : Reading) : Nat :=
  match r.mode with
  | .value | .after _ => r.frames.length
  | .firstItem | .firstKey | .key _ | .colon .. => r.frames.length + 1

/-- Where a value must follow, or may. -/
def Reading.AwaitsValue (r : Reading) : Prop := r.mode = .value ∨ r.mode = .firstItem

theorem depth_valueStart {frames : List Frame} (h : valueStart frames t = .ok r') :
    r'.depth + t.closes.toNat = frames.length + t.opens.toNat := by
  unfold valueStart at h
  split at h
  · cases h; rfl
  · cases h; rfl
  · split at h
    · cases h; rfl
    · cases h
  · split at h
    · cases h; rfl
    · cases h
  · cases h
  · cases h

theorem depth_valueEnd {v : Json} {frames : List Frame} (h : valueEnd v frames t = .ok r') :
    r'.depth + t.closes.toNat = frames.length + t.opens.toNat := by
  unfold valueEnd at h
  split at h <;> cases h <;> rfl

theorem Reading.step_firstItem {frames : List Frame} (ht : t ≠ .closeBracket) :
    Reading.step ⟨.firstItem, frames⟩ t = valueStart (.array [] :: frames) t := by
  cases t with
  | closeBracket => exact absurd rfl ht
  | _ => rfl

/-- A token opens or closes one array or object, or none. -/
theorem Reading.depth_step (h : r.step t = .ok r') :
    r'.depth + t.closes.toNat = r.depth + t.opens.toNat := by
  obtain ⟨mode, frames⟩ := r
  cases mode with
  | value => exact depth_valueStart h
  | firstItem =>
    by_cases ht : t = .closeBracket
    · subst ht
      cases h
      rfl
    · rw [step_firstItem ht] at h
      exact depth_valueStart h
  | firstKey => cases t <;> cases h <;> rfl
  | key fields =>
    cases t <;> cases h
    rfl
  | colon fields key =>
    cases t <;> cases h
    rfl
  | after v => exact depth_valueEnd h

theorem Reading.depth_run {ts : List Token} (h : r.run ts = .ok r') :
    r'.depth + ts.countP Token.closes = r.depth + ts.countP Token.opens := by
  induction ts generalizing r with
  | nil =>
    obtain rfl := Except.ok.inj h
    rfl
  | cons t ts ih =>
    obtain ⟨q, hs, h⟩ := run_cons_ok h
    have hstep := depth_step hs
    have hrun := ih h
    have htoNat : ∀ b : Bool, b.toNat = if b = true then 1 else 0 := by decide
    rw [List.countP_cons, List.countP_cons, ← htoNat, ← htoNat]
    omega

theorem depth_of_run {ts : List Token} (h : Reading.start.run ts = .ok r) :
    r.depth = openAfter ts := by
  have hdepth := Reading.depth_run h
  have hstart : Reading.start.depth = 0 := rfl
  unfold openAfter
  omega

theorem exceeds_of_valueStart {frames : List Frame} (ht : t.Proper)
    (h : valueStart frames t = .error e) (he : e ≠ .malformed) : Exceeds frames.length t e := by
  unfold valueStart at h
  split at h
  · cases h
  · cases h
  · split at h
    · cases h
    · cases h
      exact .array (by omega)
  · split at h
    · cases h
    · cases h
      exact .object (by omega)
  · cases h
    exact .number ht
  · exact absurd (Except.error.inj h).symm he

theorem valueStart_of_exceeds {frames : List Frame} (h : Exceeds frames.length t e) :
    valueStart frames t = .error e := by
  cases h with
  | number hd => rfl
  | array hd => exact if_neg (by omega)
  | object hd => exact if_neg (by omega)

/-- A token is refused for a limit only where a value is awaited. -/
theorem Reading.step_error (ht : t.Proper) (h : r.step t = .error e) (he : e ≠ .malformed) :
    r.AwaitsValue ∧ Exceeds r.depth t e := by
  obtain ⟨mode, frames⟩ := r
  cases mode with
  | value => exact ⟨.inl rfl, exceeds_of_valueStart ht h he⟩
  | firstItem =>
    refine ⟨.inr rfl, ?_⟩
    have hclose : t ≠ .closeBracket := by
      rintro rfl
      cases h
    rw [step_firstItem hclose] at h
    exact exceeds_of_valueStart ht h he
  | firstKey => cases t <;> cases h <;> exact absurd rfl he
  | key fields => cases t <;> cases h <;> exact absurd rfl he
  | colon fields key => cases t <;> cases h <;> exact absurd rfl he
  | after v =>
    -- after a value only the grammar is asked
    exfalso
    simp only [Reading.step, valueEnd] at h
    split at h <;> cases h
    exact he rfl

/-- Where a value is awaited, one that exceeds a limit is refused for it. -/
theorem Reading.step_of_exceeds (hr : r.AwaitsValue) (h : Exceeds r.depth t e) :
    r.step t = .error e := by
  obtain ⟨mode, frames⟩ := r
  rcases hr with hm | hm <;> subst hm
  · exact valueStart_of_exceeds h
  · have ht : t ≠ .closeBracket := by
      rintro rfl
      cases h
    rw [step_firstItem ht]
    exact valueStart_of_exceeds h

theorem Reading.step_null (hr : r.AwaitsValue) : ∃ q, r.step (.scalar .null) = .ok q := by
  obtain ⟨mode, frames⟩ := r
  rcases hr with hm | hm <;> subst hm <;> exact ⟨_, rfl⟩

theorem Reading.awaitsValue_of_step {v : Json} (h : r.step (.scalar v) = .ok r') :
    r.AwaitsValue := by
  obtain ⟨mode, frames⟩ := r
  cases mode with
  | value => exact .inl rfl
  | firstItem => exact .inr rfl
  | firstKey => cases h
  | key fields => cases h
  | colon fields key => cases h
  | after u =>
    exfalso
    rcases frames with _ | ⟨_ | _, frames⟩ <;> cases h

/-- Tokens after which a value may stand have been read up to a place where one is awaited. -/
theorem valueMayFollow_iff {ts : List Token} :
    ValueMayFollow ts ↔ ∃ r, Reading.start.run ts = .ok r ∧ r.AwaitsValue := by
  unfold ValueMayFollow valueOf
  constructor
  · rintro ⟨more, v, h⟩
    rw [Reading.run_append] at h
    cases hr : Reading.start.run ts with
    | error e =>
      rw [hr] at h
      cases h
    | ok r =>
      refine ⟨r, rfl, ?_⟩
      rw [hr] at h
      cases hs : r.step (.scalar .null) with
      | error e => simp [Reading.run, hs, bind, Except.bind] at h
      | ok q => exact Reading.awaitsValue_of_step hs
  · rintro ⟨r, hr, hawait⟩
    obtain ⟨q, hs⟩ := Reading.step_null hawait
    -- whatever has been read can be finished, so the null is part of some value
    obtain ⟨more, q', v, hrun, hfinish⟩ := q.run_completion
    refine ⟨more, v, ?_⟩
    rw [Reading.run_append, hr]
    show (r.run (.scalar .null :: more) >>= Reading.finish) = _
    rw [Reading.run, hs]
    show (q.run more >>= Reading.finish) = _
    rw [hrun]
    exact hfinish

end Depth

/-- **Reading fails for a limit exactly if a value that exceeds it stands where a value may.** -/
theorem read_exceeds_iff {cs : List Char} {e : ReadError} (he : e ≠ .malformed) :
    read cs = .error e ↔ ∃ before t rest, tokens cs = before ++ t :: rest ∧
      ValueMayFollow before ∧ Exceeds (openAfter before) t e := by
  rw [read_eq_valueOf]
  unfold valueOf
  constructor
  · intro h
    cases hr : Reading.start.run (tokens cs) with
    | ok r =>
      rw [hr] at h
      exact absurd (Reading.finish_error h) he
    | error e' =>
      rw [hr] at h
      obtain rfl : e' = e := Except.error.inj h
      obtain ⟨before, t, rest, r, hts, hrun, hstep⟩ := Reading.run_error hr
      have ht : t ∈ tokens cs := by simp [hts]
      obtain ⟨hawait, hexceeds⟩ := Reading.step_error (proper_of_mem_tokensFrom ht) hstep he
      rw [depth_of_run hrun] at hexceeds
      exact ⟨before, t, rest, hts, valueMayFollow_iff.2 ⟨r, hrun, hawait⟩, hexceeds⟩
  · rintro ⟨before, t, rest, hts, hfollow, hexceeds⟩
    obtain ⟨r, hrun, hawait⟩ := valueMayFollow_iff.1 hfollow
    rw [← depth_of_run hrun] at hexceeds
    rw [hts, Reading.run_append, hrun]
    show (r.run (t :: rest) >>= Reading.finish) = _
    rw [Reading.run, Reading.step_of_exceeds hawait hexceeds]
    rfl

section KeysOnce

variable {r r' : Reading} {t : Token} {v : Json} {frames : List Frame}

/-- If this is an object, it has each key once. -/
def KeysOnce : Json → Prop
  | .object fields => (fields.map Prod.fst).Nodup
  | _ => True

def Mode.KeysOnce : Mode → Prop
  | .key fields | .colon fields _ => (fields.map Prod.fst).Nodup
  | .after v => v.KeysOnce
  | .value | .firstItem | .firstKey => True

def Frame.KeysOnce : Frame → Prop
  | .array _ => True
  | .object fields _ => (fields.map Prod.fst).Nodup

/-- The objects at hand have each key once. -/
structure Reading.KeysOnce (r : Reading) : Prop where
  mode : r.mode.KeysOnce
  frames : ∀ f ∈ r.frames, f.KeysOnce

theorem keysOnce_valueStart (ht : t.Proper) (hf : ∀ f ∈ frames, f.KeysOnce)
    (h : valueStart frames t = .ok r) : r.KeysOnce := by
  unfold valueStart at h
  split at h
  · rename_i v
    cases h
    refine ⟨?_, hf⟩
    cases v with
    | object fields => exact absurd rfl (ht fields)
    | _ => exact trivial
  · cases h
    exact ⟨trivial, hf⟩
  · split at h <;> cases h
    exact ⟨trivial, hf⟩
  · split at h <;> cases h
    exact ⟨trivial, hf⟩
  · cases h
  · cases h

theorem keysOnce_valueEnd (hf : ∀ f ∈ frames, f.KeysOnce) (h : valueEnd v frames t = .ok r) :
    r.KeysOnce := by
  unfold valueEnd at h
  split at h
  · cases h
    rw [List.forall_mem_cons] at hf
    exact ⟨trivial, List.forall_mem_cons.2 ⟨trivial, hf.2⟩⟩
  · cases h
    exact ⟨trivial, (List.forall_mem_cons.1 hf).2⟩
  · cases h
    rw [List.forall_mem_cons] at hf
    exact ⟨Table.nodup_names_set hf.1 _ _, hf.2⟩
  · cases h
    rw [List.forall_mem_cons] at hf
    exact ⟨Table.nodup_names_set hf.1 _ _, hf.2⟩
  · cases h

theorem Reading.KeysOnce.step (hr : r.KeysOnce) (ht : t.Proper) (h : r.step t = .ok r') :
    r'.KeysOnce := by
  obtain ⟨mode, frames⟩ := r
  obtain ⟨hm, hf⟩ := hr
  cases mode with
  | value => exact keysOnce_valueStart ht hf h
  | firstItem =>
    by_cases hclose : t = .closeBracket
    · subst hclose
      cases h
      exact ⟨trivial, hf⟩
    · rw [step_firstItem hclose] at h
      have hf' : ∀ f ∈ Frame.array [] :: frames, f.KeysOnce :=
        List.forall_mem_cons.2 ⟨trivial, hf⟩
      exact keysOnce_valueStart ht hf' h
  | firstKey => cases t <;> cases h <;> exact ⟨List.nodup_nil, hf⟩
  | key fields =>
    cases t <;> cases h
    exact ⟨hm, hf⟩
  | colon fields key =>
    cases t <;> cases h
    exact ⟨trivial, List.forall_mem_cons.2 ⟨hm, hf⟩⟩
  | after v => exact keysOnce_valueEnd hf h

theorem Reading.KeysOnce.run {ts : List Token} (hr : r.KeysOnce) (ht : ∀ t ∈ ts, t.Proper)
    (h : r.run ts = .ok r') : r'.KeysOnce := by
  induction ts generalizing r with
  | nil =>
    obtain rfl := Except.ok.inj h
    exact hr
  | cons t ts ih =>
    obtain ⟨q, hs, h⟩ := run_cons_ok h
    rw [List.forall_mem_cons] at ht
    exact ih (hr.step ht.1 hs) ht.2 h

/-- **An object that is read has each key once.** -/
theorem keysOnce_of_read {cs : List Char} (h : read cs = .ok v) : v.KeysOnce := by
  unfold read at h
  cases hr : Reading.start.run (tokens cs) with
  | error e =>
    rw [hr] at h
    cases h
  | ok r =>
    have hstart : Reading.start.KeysOnce := ⟨trivial, by intro f hf; cases hf⟩
    have hkeys := hstart.run (fun t ht => proper_of_mem_tokensFrom ht) hr
    rw [hr] at h
    obtain ⟨mode, frames⟩ := r
    simp only [Reading.finish] at h
    split at h
    · cases h
      exact hkeys.mode
    · cases h

end KeysOnce

end CatalogLint.Json
