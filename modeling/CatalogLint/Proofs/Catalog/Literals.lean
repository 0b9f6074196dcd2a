import CatalogLint.Catalog.Literal
import CatalogLint.Proofs.Catalog.Grammar

/-!
# Literals are read by the grammar

* `escape?_sound`, `escape?_complete`: an escape is recognised exactly if the grammar has it.
* `scan_eq_ok_iff`: up to the closing quote, the text read is the one that the grammar gives.
* `Literal.read_eq_ok_iff`: **a literal is accepted exactly if the grammar has it**, and then its
  columns are those of its quotes.
-/

namespace CatalogLint.Catalog

open CatalogLint.Text

section Digits

variable {value? : Char → Option Nat}

theorem digitRun_spec (value? : Char → Option Nat) (limit : Nat) (cs : List Char) :
    ∃ run rest, cs = run ++ rest ∧ run.map value? = (digitRun value? limit cs).map some ∧
      run.length ≤ limit ∧ (run.length = limit ∨ ∀ c ∈ rest.head?, value? c = none) := by
  fun_induction digitRun value? limit cs with
  | case1 cs => exact ⟨[], cs, rfl, rfl, Nat.le_refl _, .inl rfl⟩
  | case2 limit hl => exact ⟨[], [], rfl, rfl, Nat.zero_le _, .inr (by simp)⟩
  | case3 limit c cs d hd ih =>
    obtain ⟨run, rest, rfl, hrun, hlen, hlong⟩ := ih
    refine ⟨c :: run, rest, rfl, by simp [hd, hrun], by simpa using hlen, ?_⟩
    rcases hlong with h | h
    · exact .inl (by simp [h])
    · exact .inr h
  | case4 limit c cs hc => exact ⟨[], c :: cs, rfl, rfl, Nat.zero_le _, .inr (by simpa using hc)⟩

theorem digitRun_append {run rest : List Char} {ns : List Nat} {limit : Nat}
    (hrun : run.map value? = ns.map some) (hlen : run.length ≤ limit)
    (hlong : run.length = limit ∨ ∀ c ∈ rest.head?, value? c = none) :
    digitRun value? limit (run ++ rest) = ns := by
  induction run generalizing ns limit with
  | nil =>
    obtain rfl : ns = [] := by simpa using hrun.symm
    cases limit with
    | zero => simp [digitRun]
    | succ limit =>
      cases rest with
      | nil => simp [digitRun]
      | cons c rest =>
        have hc : value? c = none := by simpa using hlong
        simp [digitRun, hc]
  | cons c run ih =>
    cases ns with
    | nil => simp at hrun
    | cons n ns =>
      obtain ⟨hc, hrun⟩ := by simpa using hrun
      cases limit with
      | zero => simp at hlen
      | succ limit =>
        have h := ih hrun (by simpa using hlen) (by simpa using hlong)
        simp [digitRun, hc, h]

theorem charOfDigits_eq (base : Nat) (ns : List Nat) :
    charOfDigits base ns = Char.ofNat (Nat.ofDigits base ns.reverse) := by
  unfold charOfDigits
  congr 1
  rw [Nat.ofDigits_eq_foldr, List.foldr_reverse]
  simp only [Nat.cast_id]
  congr 1
  funext n d
  ring

end Digits

theorem simpleEscape?_eq_some_iff {c d : Char} :
    simpleEscape? c = some d ↔ (c, d) ∈ simpleEscapes := by
  constructor
  · intro h
    unfold simpleEscape? at h
    split at h <;> cases h <;> decide
  · intro h
    have hall : ∀ x ∈ simpleEscapes, simpleEscape? x.1 = some x.2 := by decide
    exact hall _ h

/-- An octal digit is no simple escape. -/
theorem simpleEscape?_of_octal {c : Char} {n : Nat} (h : digitValue? 8 c = some n) :
    simpleEscape? c = none := by
  have hall : ∀ x ∈ simpleEscapes, digitValue? 8 x.1 = none := by decide
  cases hc : simpleEscape? c with
  | none => rfl
  | some d => rw [hall _ (simpleEscape?_eq_some_iff.1 hc)] at h; cases h

/-- The digits found where at least one is are a run of the grammar. -/
theorem digitRun_eq_cons {value? : Char → Option Nat} {limit n : Nat} {ns : List Nat}
    {cs : List Char} (h : digitRun value? limit cs = n :: ns) :
    ∃ run rest, cs = run ++ rest ∧ run.length = ns.length + 1 ∧
      DigitRun value? limit run (n :: ns) rest := by
  obtain ⟨run, rest, hcs, hrun, hlen, hlong⟩ := digitRun_spec value? limit cs
  rw [h] at hrun
  have hl : run.length = ns.length + 1 := by simpa using congrArg List.length hrun
  refine ⟨run, rest, hcs, hl, hrun, ?_, hlen, hlong⟩
  rintro rfl
  simp at hl

theorem escape?_sound {cs : List Char} {d : Char} {w : Nat} (h : escape? cs = some (d, w)) :
    ∃ esc rest, cs = esc ++ rest ∧ esc.length = w ∧ Escape esc d rest := by
  cases cs with
  | nil => simp [escape?] at h
  | cons c rest =>
    simp only [escape?] at h
    cases hs : simpleEscape? c with
    | some d' =>
      obtain ⟨rfl, rfl⟩ : d' = d ∧ 1 = w := by simpa [hs] using h
      exact ⟨[c], rest, rfl, rfl, .simple (simpleEscape?_eq_some_iff.1 hs)⟩
    | none =>
      cases ho : digitRun (digitValue? 8) 3 (c :: rest) with
      | cons n ns =>
        obtain ⟨rfl, rfl⟩ : charOfDigits 8 (n :: ns) = d ∧ ns.length + 1 = w := by
          simpa [hs, ho] using h
        obtain ⟨run, rest', hcs, hl, hrun⟩ := digitRun_eq_cons ho
        exact ⟨run, rest', hcs, hl, charOfDigits_eq 8 _ ▸ .octal hrun⟩
      | nil =>
        rw [hs, ho] at h
        by_cases hx : c = 'x'
        · subst hx
          cases hd : digitRun hexValue? 2 rest with
          | nil => simp [hd] at h
          | cons n ns =>
            obtain ⟨rfl, rfl⟩ : charOfDigits 16 (n :: ns) = d ∧ ns.length + 2 = w := by
              simpa [hd] using h
            obtain ⟨run, rest', rfl, hl, hrun⟩ := digitRun_eq_cons hd
            exact ⟨'x' :: run, rest', rfl, by simp [hl], charOfDigits_eq 16 _ ▸ .hex hrun⟩
        · simp [hx] at h

theorem escape?_complete {esc rest : List Char} {d : Char} (h : Escape esc d rest) :
    escape? (esc ++ rest) = some (d, esc.length) := by
  cases h with
  | simple hs => simp [escape?, simpleEscape?_eq_some_iff.2 hs]
  | @octal _ _ ns hrun =>
    have hd := digitRun_append hrun.digits hrun.short hrun.longest
    have hl : esc.length = ns.length := by simpa using congrArg List.length hrun.digits
    cases esc with
    | nil => exact absurd rfl hrun.nonempty
    | cons c esc =>
      cases ns with
      | nil => simp at hl
      | cons n ns =>
        have hc : digitValue? 8 c = some n := by
          have := hrun.digits
          simp only [List.map_cons, List.cons.injEq] at this
          exact this.1
        rw [List.cons_append] at hd ⊢
        simp only [escape?, simpleEscape?_of_octal hc, hd]
        simp only [charOfDigits_eq, List.length_cons] at hl ⊢
        rw [hl]
  | @hex run rest ns hrun =>
    have hd := digitRun_append hrun.digits hrun.short hrun.longest
    have hl : run.length = ns.length := by simpa using congrArg List.length hrun.digits
    -- the letter is neither a simple escape nor an octal digit
    have hx : ∀ cs, digitRun (digitValue? 8) 3 ('x' :: cs) = [] := fun cs => rfl
    cases ns with
    | nil => exact absurd (List.length_eq_zero_iff.1 hl) hrun.nonempty
    | cons n ns =>
      rw [List.cons_append]
      simp only [escape?, hx, show simpleEscape? 'x' = none from rfl, if_true, hd]
      simp [charOfDigits_eq, hl]

/-- An escape does not see past a character that is no digit. -/
theorem Escape.before_stop {esc cs rest : List Char} {c d : Char} (ho : digitValue? 8 c = none)
    (hx : hexValue? c = none) : Escape esc d (cs ++ c :: rest) ↔ Escape esc d cs := by
  have key : ∀ {value? : Char → Option Nat}, value? c = none → ∀ {limit run ns},
      DigitRun value? limit run ns (cs ++ c :: rest) ↔ DigitRun value? limit run ns cs := by
    intro value? hc limit run ns
    have hhead : (∀ x ∈ (cs ++ c :: rest).head?, value? x = none) ↔
        ∀ x ∈ cs.head?, value? x = none := by
      cases cs with
      | nil => simp [hc]
      | cons x cs => simp
    constructor
    · rintro ⟨h1, h2, h3, h4⟩; exact ⟨h1, h2, h3, by rwa [hhead] at h4⟩
    · rintro ⟨h1, h2, h3, h4⟩; exact ⟨h1, h2, h3, by rwa [hhead]⟩
  constructor
  · rintro (h | h | h)
    · exact .simple h
    · exact .octal ((key ho).1 h)
    · exact .hex ((key hx).1 h)
  · rintro (h | h | h)
    · exact .simple h
    · exact .octal ((key ho).2 h)
    · exact .hex ((key hx).2 h)

theorem Escape.before_quote {esc cs rest : List Char} {d : Char} :
    Escape esc d (cs ++ '"' :: rest) ↔ Escape esc d cs :=
  Escape.before_stop rfl rfl

theorem Escape.before_backslash {esc cs rest : List Char} {d : Char} :
    Escape esc d (cs ++ '\\' :: rest) ↔ Escape esc d cs :=
  Escape.before_stop rfl rfl

section Scan

variable (start column : Nat) (done : List Char)

theorem scan_plain {c : Char} (hq : c ≠ '"') (hb : c ≠ '\\') (cs : List Char) :
    scan start done column 0 (c :: cs) = scan start (c :: done) (column + 1) 0 cs := by
  rw [scan.eq_def]; simp only [if_neg hq, if_neg hb]

theorem scan_escape {cs : List Char} {d : Char} {w : Nat} (he : escape? cs = some (d, w)) :
    scan start done column 0 ('\\' :: cs) = scan start (d :: done) (column + 1) w cs := by
  rw [scan.eq_def]; simp [he]

theorem scan_badEscape {cs : List Char} (he : escape? cs = none) :
    scan start done column 0 ('\\' :: cs) = .error (match cs with
      | [] => ⟨start, .unterminated⟩
      | e :: _ => ⟨column, .badEscape e⟩) := by
  rw [scan.eq_def]; cases cs <;> simp [he]

end Scan

/-- Characters that are decoded already are passed over. -/
theorem scan_skip (start : Nat) (done : List Char) (column : Nat) (esc cs : List Char) :
    scan start done column esc.length (esc ++ cs) =
      scan start done (column + esc.length) 0 cs := by
  induction esc generalizing column with
  | nil => rfl
  | cons c esc ih =>
    rw [List.length_cons, List.cons_append, scan, ih]
    congr 1
    omega

theorem scan_complete (start : Nat) {body ds : List Char} (h : Spells body ds) (rest : List Char) :
    ∀ done column, scan start done column 0 (body ++ '"' :: rest) =
      .ok (done.reverse ++ ds, column + body.length + 1, rest) := by
  induction h with
  | nil => intro done column; simp [scan]
  | plain hq hb _ ih =>
    intro done column
    rw [List.cons_append, scan_plain _ _ _ hq hb, ih]
    simp only [List.reverse_cons, List.append_assoc, List.singleton_append, List.length_cons]
    congr 3
    omega
  | @escape esc cs ds d he _ ih =>
    intro done column
    have hesc : escape? (esc ++ cs ++ '"' :: rest) = some (d, esc.length) := by
      rw [List.append_assoc]
      exact escape?_complete (Escape.before_quote.2 he)
    rw [List.cons_append, scan_escape _ _ _ hesc, List.append_assoc, scan_skip, ih]
    simp only [List.reverse_cons, List.append_assoc, List.singleton_append, List.length_cons,
      List.length_append]
    congr 3
    omega

theorem scan_sound (start : Nat) {value rest : List Char} {stop : Nat} (n : Nat) :
    ∀ cs done column, cs.length = n → scan start done column 0 cs = .ok (value, stop, rest) →
      ∃ body ds, cs = body ++ '"' :: rest ∧ Spells body ds ∧ value = done.reverse ++ ds ∧
        stop = column + body.length + 1 := by
  -- an escape takes several characters at once, so the induction is on their number
  induction n using Nat.strong_induction_on with
  | _ n ih =>
    intro cs done column hn h
    cases cs with
    | nil => simp [scan] at h
    | cons c cs =>
      by_cases hq : c = '"'
      · subst hq
        obtain ⟨rfl, rfl, rfl⟩ := by simpa [scan] using h
        exact ⟨[], [], rfl, .nil, by simp, rfl⟩
      by_cases hb : c = '\\'
      · subst hb
        cases he : escape? cs with
        | none => rw [scan_badEscape _ _ _ he] at h; cases h
        | some x =>
          obtain ⟨d, w⟩ := x
          obtain ⟨esc, cs', rfl, rfl, hesc⟩ := escape?_sound he
          rw [scan_escape _ _ _ he, scan_skip] at h
          have hlt : cs'.length < n := by
            simp only [List.length_cons, List.length_append] at hn; omega
          obtain ⟨body, ds, rfl, hs, hv, hst⟩ := ih _ hlt cs' _ _ rfl h
          refine ⟨'\\' :: (esc ++ body), d :: ds, by simp, ?_, by simp [hv], ?_⟩
          · exact .escape (Escape.before_quote.1 hesc) hs
          · simp only [List.length_cons, List.length_append]; omega
      · rw [scan_plain _ _ _ hq hb] at h
        have hlt : cs.length < n := by simp only [List.length_cons] at hn; omega
        obtain ⟨body, ds, rfl, hs, hv, hst⟩ := ih _ hlt cs _ _ rfl h
        refine ⟨c :: body, c :: ds, rfl, .plain hq hb hs, by simp [hv], ?_⟩
        simp only [List.length_cons]; omega

/-- **Up to the closing quote, the text read is the one that the grammar gives.** -/
theorem scan_eq_ok_iff {start column stop : Nat} {cs value rest : List Char} :
    scan start [] column 0 cs = .ok (value, stop, rest) ↔
      ∃ body, cs = body ++ '"' :: rest ∧ Spells body value ∧ stop = column + body.length + 1 := by
  constructor
  · intro h
    obtain ⟨body, ds, hcs, hs, rfl, hst⟩ := scan_sound start cs.length cs _ _ rfl h
    exact ⟨body, hcs, hs, hst⟩
  · rintro ⟨body, rfl, hs, rfl⟩
    exact scan_complete start hs rest [] column

/-- **A literal is accepted exactly if the grammar has it.** -/
theorem Literal.read_eq_ok_iff {start : Nat} {cs : List Char} {l : Literal} :
    Literal.read start cs = .ok l ↔
      ∃ body ds trail, cs = body ++ '"' :: trail ∧ Spells body ds ∧ Blanks trail ∧
        l = ⟨String.ofList ds, start, start + body.length + 2⟩ := by
  unfold Literal.read
  cases hs : scan start [] (start + 1) 0 cs with
  | error f =>
    refine ⟨fun h => by simp [bind, Except.bind] at h, ?_⟩
    rintro ⟨body, ds, trail, hcs, hsp, -, -⟩
    rw [scan_eq_ok_iff.2 ⟨body, hcs, hsp, rfl⟩] at hs
    cases hs
  | ok x =>
    obtain ⟨value, stop, rest⟩ := x
    obtain ⟨body, hcs, hsp, hst⟩ := scan_eq_ok_iff.1 hs
    simp only [bind, Except.bind]
    constructor
    · intro h
      by_cases hr : rest.all isBlank = true
      · rw [if_pos hr] at h
        obtain rfl := by simpa [pure, Except.pure] using h
        refine ⟨body, value, rest, hcs, hsp, List.all_eq_true.1 hr, ?_⟩
        rw [hst, show start + 1 + body.length + 1 = start + body.length + 2 by omega]
      · rw [if_neg hr] at h
        simp [throw, throwThe, MonadExceptOf.throw] at h
    · rintro ⟨body', ds, trail, hcs', hsp', ht, rfl⟩
      rw [scan_eq_ok_iff.2 ⟨body', hcs', hsp', rfl⟩] at hs
      obtain ⟨rfl, rfl, rfl⟩ := by simpa using hs
      rw [if_pos (List.all_eq_true.2 ht)]
      have hstop : start + 1 + body'.length + 1 = start + body'.length + 2 := by omega
      simp only [pure, Except.pure, hstop]

end CatalogLint.Catalog
