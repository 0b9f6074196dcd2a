import CatalogLint.Proofs.Catalog.Lines
import CatalogLint.Text.Utf8

/-!
# Texts and their bytes

The bytes of a text lead back to it, whichever of the two readers takes them, and a text has the
same lines after its line ends have been unified.

* `piece_encode`: the bytes of a character are one piece, whatever follows them.
* `piece_char`: a piece that is a character has the bytes of it.
* `decodeReplacingFrom_of_strict`: what is read strictly is read alike with replacements.
* `decodeReplacing_encode`, `decodeStrict_encode`: **decoding undoes encoding.**
* `decodeStrict_eq_ok_iff`: **bytes can be read strictly exactly if they are those of a text.**
* `lines_unifyBreaks`: **unified line ends leave the lines as they are.**
-/

namespace CatalogLint.Text.Utf8

section Pieces

variable {least greatest bits width k : Nat} {rest : List UInt8}

/-- A character with no byte to follow is complete. -/
theorem continued_zero :
    continued 0 least greatest bits width rest = (.char (Char.ofNat bits), width) := by
  cases rest <;> simp [continued]

/-- A byte in its bounds is taken up. -/
theorem continued_succ {b : UInt8} {n : Nat} (hb : b.toNat = n) (hleast : least ≤ n)
    (hgreatest : n ≤ greatest) :
    continued (k + 1) least greatest bits width (b :: rest) =
      continued k 0x80 0xBF (bits * 64 + (n - 0x80)) (width + 1) rest := by
  subst hb
  simp [continued, hleast, hgreatest]

theorem piece_of_lead {b : UInt8} {n : Nat} {l : Lead} (hb : b.toNat = n) (hn : 0x80 ≤ n)
    (hl : lead? n = some l) :
    piece b rest = continued l.following l.least l.greatest l.bits 1 rest := by
  unfold piece
  rw [hb, if_neg (by omega), hl]

/-- A leading byte says how many bytes follow and which bits it adds, and the byte after it lies in
the bounds that it sets. -/
structure Lead.Opens (l : Lead) (following bits next : Nat) : Prop where
  following : l.following = following
  bits : l.bits = bits
  least : l.least ≤ next
  greatest : next ≤ l.greatest

theorem lead?_two {n : Nat} (hlow : 0x80 ≤ n) (hhigh : n ≤ 0x7FF) :
    ∃ l, lead? (n / 64 % 32 + 192) = some l ∧ l.Opens 1 (n / 64) (n % 64 + 128) := by
  unfold lead?
  simp only [Bool.and_eq_true, decide_eq_true_eq]
  rw [if_pos (by omega)]
  exact ⟨_, rfl, rfl, by simp only; omega, by simp only; omega, by simp only; omega⟩

/-- Of three bytes the first one rules out what two could say, and the halves of surrogate pairs. -/
theorem lead?_three {n : Nat} (hlow : 0x800 ≤ n) (hhigh : n ≤ 0xFFFF)
    (hhalf : n < 0xD800 ∨ 0xDFFF < n) :
    ∃ l, lead? (n / 4096 % 16 + 224) = some l ∧
      l.Opens 2 (n / 4096) (n / 64 % 64 + 128) := by
  unfold lead?
  simp only [Bool.and_eq_true, decide_eq_true_eq, beq_iff_eq]
  rw [if_neg (by omega)]
  split_ifs
  any_goals omega
  all_goals exact ⟨_, rfl, rfl, by simp only; omega, by simp only; omega, by simp only; omega⟩

/-- Of four bytes the first one rules out what three could say, and what no character has. -/
theorem lead?_four {n : Nat} (hlow : 0x10000 ≤ n) (hhigh : n < 0x110000) :
    ∃ l, lead? (n / 262144 % 8 + 240) = some l ∧
      l.Opens 3 (n / 262144) (n / 4096 % 64 + 128) := by
  unfold lead?
  simp only [Bool.and_eq_true, decide_eq_true_eq, beq_iff_eq]
  rw [if_neg (by omega), if_neg (by omega), if_neg (by omega), if_neg (by omega)]
  split_ifs
  any_goals omega
  all_goals exact ⟨_, rfl, rfl, by simp only; omega, by simp only; omega, by simp only; omega⟩

theorem toNat_ofNat {n : Nat} (h : n < 256) : (UInt8.ofNat n).toNat = n :=
  UInt8.toNat_ofNat_of_lt' h

/-- **The bytes of a character are one piece**, whatever follows them. -/
theorem piece_encode (c : Char) (rest : List UInt8) :
    ∃ b bs, String.utf8EncodeChar c = b :: bs ∧
      piece b (bs ++ rest) = (.char c, bs.length + 1) := by
  have hvalid : c.val.toNat < 0xD800 ∨ 0xDFFF < c.val.toNat ∧ c.val.toNat < 0x110000 := c.valid
  have hback : ∀ {n : Nat}, n = c.val.toNat → Char.ofNat n = c := by
    rintro n rfl
    exact Char.ofNat_toNat c
  unfold String.utf8EncodeChar
  -- one case for each number of bytes, with the bounds that the number sets
  by_cases h₁ : c.val.toNat ≤ 0x7F
  · refine ⟨_, [], if_pos h₁, ?_⟩
    have hb : (UInt8.ofNat c.val.toNat).toNat = c.val.toNat := toNat_ofNat (by omega)
    show piece (UInt8.ofNat c.val.toNat) rest = _
    unfold piece
    rw [hb, if_pos (by omega), hback rfl]
    rfl
  by_cases h₂ : c.val.toNat ≤ 0x7FF
  · obtain ⟨l, hl, ho⟩ := lead?_two (by omega) h₂
    refine ⟨_, _, (if_neg h₁).trans (if_pos h₂), ?_⟩
    rw [piece_of_lead (toNat_ofNat (by omega)) (by omega) hl, ho.following, List.cons_append,
      continued_succ (toNat_ofNat (by omega)) ho.least ho.greatest, continued_zero, ho.bits,
      hback (by omega)]
    rfl
  by_cases h₃ : c.val.toNat ≤ 0xFFFF
  · obtain ⟨l, hl, ho⟩ := lead?_three (by omega) h₃ (by omega)
    refine ⟨_, _, (if_neg h₁).trans ((if_neg h₂).trans (if_pos h₃)), ?_⟩
    rw [piece_of_lead (toNat_ofNat (by omega)) (by omega) hl, ho.following, List.cons_append,
      continued_succ (toNat_ofNat (by omega)) ho.least ho.greatest, List.cons_append,
      continued_succ (toNat_ofNat (by omega)) (by omega) (by omega), continued_zero, ho.bits,
      hback (by omega)]
    rfl
  · obtain ⟨l, hl, ho⟩ := lead?_four (n := c.val.toNat) (by omega) (by omega)
    refine ⟨_, _, (if_neg h₁).trans ((if_neg h₂).trans (if_neg h₃)), ?_⟩
    rw [piece_of_lead (toNat_ofNat (by omega)) (by omega) hl, ho.following, List.cons_append,
      continued_succ (toNat_ofNat (by omega)) ho.least ho.greatest, List.cons_append,
      continued_succ (toNat_ofNat (by omega)) (by omega) (by omega), List.cons_append,
      continued_succ (toNat_ofNat (by omega)) (by omega) (by omega), continued_zero, ho.bits,
      hback (by omega)]
    rfl

end Pieces

section Sound

variable {least greatest bits width k w : Nat} {rest : List UInt8} {c : Char}

/-- A character that wants another byte is found with one in its bounds. -/
theorem continued_char (h : continued (k + 1) least greatest bits width rest = (.char c, w)) :
    ∃ b after, rest = b :: after ∧ least ≤ b.toNat ∧ b.toNat ≤ greatest ∧
      continued k 0x80 0xBF (bits * 64 + (b.toNat - 0x80)) (width + 1) after = (.char c, w) := by
  cases rest with
  | nil => simp [continued] at h
  | cons b after =>
    rw [continued] at h
    split at h
    · rename_i hb
      simp only [Bool.and_eq_true, decide_eq_true_eq] at hb
      exact ⟨b, after, rfl, hb.1, hb.2, h⟩
    · cases h

theorem continued_done (h : continued 0 least greatest bits width rest = (.char c, w)) :
    c = Char.ofNat bits ∧ w = width := by
  rw [continued_zero] at h
  cases h
  exact ⟨rfl, rfl⟩

/-- What a leading byte sets: how many bytes follow it, the bits that it adds, and the bounds of the
next byte, which keep out what fewer bytes can say, surrogates, and what no character has. -/
theorem lead?_cases {b : Nat} {l : Lead} (h : lead? b = some l) :
    0x80 ≤ l.least ∧ l.greatest ≤ 0xBF ∧
    (l.following = 1 ∧ 0xC2 ≤ b ∧ b ≤ 0xDF ∧ l.bits = b - 0xC0 ∨
      l.following = 2 ∧ 0xE0 ≤ b ∧ b ≤ 0xEF ∧ l.bits = b - 0xE0 ∧ (b ≠ 0xE0 ∨ 0xA0 ≤ l.least) ∧
        (b ≠ 0xED ∨ l.greatest ≤ 0x9F) ∨
      l.following = 3 ∧ 0xF0 ≤ b ∧ b ≤ 0xF4 ∧ l.bits = b - 0xF0 ∧ (b ≠ 0xF0 ∨ 0x90 ≤ l.least) ∧
        (b ≠ 0xF4 ∨ l.greatest ≤ 0x8F)) := by
  unfold lead? at h
  simp only [Bool.and_eq_true, decide_eq_true_eq, beq_iff_eq] at h
  split_ifs at h <;> obtain rfl := Option.some.inj h <;>
    simp only [true_and, and_true] <;> omega

theorem eq_ofNat {b : UInt8} {n : Nat} (h : b.toNat = n) : UInt8.ofNat n = b := by
  rw [← h, UInt8.ofNat_toNat]

/-- **A piece that is a character has the bytes of it.** -/
theorem piece_char {b : UInt8} (h : piece b rest = (.char c, w)) :
    ∃ bs after, rest = bs ++ after ∧ w = bs.length + 1 ∧ String.utf8EncodeChar c = b :: bs := by
  have hval : ∀ {n : Nat}, n < 0xD800 ∨ 0xDFFF < n ∧ n < 0x110000 →
      (Char.ofNat n).val.toNat = n := by
    intro n hn
    rw [Char.ofNat, dif_pos hn]
    rfl
  unfold piece at h
  split at h
  · rename_i hb
    cases h
    refine ⟨[], rest, rfl, rfl, ?_⟩
    unfold String.utf8EncodeChar
    rw [hval (by omega), if_pos (by omega), eq_ofNat rfl]
  · split at h
    · rename_i l hl
      obtain ⟨hleast, hgreatest, hcases⟩ := lead?_cases hl
      rcases hcases with ⟨hf, hlow, hhigh, hbits⟩ | ⟨hf, hlow, hhigh, hbits, hover, hhalf⟩ |
        ⟨hf, hlow, hhigh, hbits, hover, hlast⟩
      · rw [hf] at h
        obtain ⟨b₁, after, rfl, hl₁, hg₁, h⟩ := continued_char h
        obtain ⟨hc, hw⟩ := continued_done h
        refine ⟨[b₁], after, rfl, hw, ?_⟩
        unfold String.utf8EncodeChar
        rw [hc, hval (by omega), if_neg (by omega), if_pos (by omega), eq_ofNat (b := b) (by omega),
          eq_ofNat (b := b₁) (by omega)]
      · rw [hf] at h
        obtain ⟨b₁, after, rfl, hl₁, hg₁, h⟩ := continued_char h
        obtain ⟨b₂, after, rfl, hl₂, hg₂, h⟩ := continued_char h
        obtain ⟨hc, hw⟩ := continued_done h
        refine ⟨[b₁, b₂], after, rfl, hw, ?_⟩
        unfold String.utf8EncodeChar
        rw [hc, hval (by omega), if_neg (by omega), if_neg (by omega), if_pos (by omega),
          eq_ofNat (b := b) (by omega), eq_ofNat (b := b₁) (by omega),
          eq_ofNat (b := b₂) (by omega)]
      · rw [hf] at h
        obtain ⟨b₁, after, rfl, hl₁, hg₁, h⟩ := continued_char h
        obtain ⟨b₂, after, rfl, hl₂, hg₂, h⟩ := continued_char h
        obtain ⟨b₃, after, rfl, hl₃, hg₃, h⟩ := continued_char h
        obtain ⟨hc, hw⟩ := continued_done h
        refine ⟨[b₁, b₂, b₃], after, rfl, hw, ?_⟩
        unfold String.utf8EncodeChar
        rw [hc, hval (by omega), if_neg (by omega), if_neg (by omega), if_neg (by omega),
          eq_ofNat (b := b) (by omega), eq_ofNat (b := b₁) (by omega),
          eq_ofNat (b := b₂) (by omega), eq_ofNat (b := b₃) (by omega)]
    · cases h

end Sound

section Decoding

variable (done : List Char) (rest : List UInt8)

theorem decodeStrictFrom_skip (position : Nat) (bs : List UInt8) :
    decodeStrictFrom done position bs.length (bs ++ rest) =
      decodeStrictFrom done (position + bs.length) 0 rest := by
  induction bs generalizing position with
  | nil => rfl
  | cons b bs ih =>
    rw [List.length_cons, List.cons_append, decodeStrictFrom, ih, Nat.add_right_comm,
      Nat.add_assoc]

/-- The bytes of a character are read as it. -/
theorem decodeStrictFrom_char (position : Nat) (c : Char) :
    ∃ position', decodeStrictFrom done position 0 (String.utf8EncodeChar c ++ rest) =
      decodeStrictFrom (c :: done) position' 0 rest := by
  obtain ⟨b, bs, he, hp⟩ := piece_encode c rest
  refine ⟨position + 1 + bs.length, ?_⟩
  rw [he, List.cons_append, decodeStrictFrom, hp]
  exact decodeStrictFrom_skip (c :: done) rest (position + 1) bs

theorem decodeStrictFrom_encode (position : Nat) (cs : List Char) :
    decodeStrictFrom done position 0 (cs.flatMap String.utf8EncodeChar) =
      .ok (done.reverse ++ cs) := by
  induction cs generalizing done position with
  | nil => simp [decodeStrictFrom]
  | cons c cs ih =>
    obtain ⟨position', h⟩ :=
      decodeStrictFrom_char done (cs.flatMap String.utf8EncodeChar) position c
    rw [List.flatMap_cons, h, ih]
    simp

end Decoding

/-- **Decoding undoes encoding**, and never fails. -/
theorem decodeStrict_encode (s : String) : decodeStrict (encode s) = .ok s.toList := by
  unfold decodeStrict encode
  rw [decodeStrictFrom_encode, List.reverse_nil, List.nil_append]

/-- **The two readers agree on well-formed bytes.** -/
theorem decodeReplacingFrom_of_strict {bytes : List UInt8} {done cs : List Char}
    {position skip : Nat} (h : decodeStrictFrom done position skip bytes = .ok cs) :
    decodeReplacingFrom done skip bytes = cs := by
  induction bytes generalizing done position skip with
  | nil =>
    cases skip with
    | zero => exact Except.ok.inj h
    | succ skip => exact Except.ok.inj h
  | cons b rest ih =>
    cases skip with
    | succ skip => exact ih h
    | zero =>
      rw [decodeStrictFrom] at h
      rw [decodeReplacingFrom]
      -- both readers look at the same piece, and the strict one went on
      generalize piece b rest = found at h ⊢
      obtain ⟨p, width⟩ := found
      cases p with
      | char c => exact ih h
      | bad fault => cases h

/-- **Decoding undoes encoding**, and replaces nothing. -/
theorem decodeReplacing_encode (s : String) : decodeReplacing (encode s) = s.toList :=
  decodeReplacingFrom_of_strict (decodeStrict_encode s)

/-- Bytes that are read strictly are those of what was read. -/
theorem decodeStrictFrom_sound (n : Nat) : ∀ bytes done position cs, bytes.length = n →
    decodeStrictFrom done position 0 bytes = .ok cs →
      ∃ more, cs = done.reverse ++ more ∧ bytes = more.flatMap String.utf8EncodeChar := by
  -- a character takes several bytes at once, so the induction is on their number
  induction n using Nat.strong_induction_on with
  | _ n ih =>
    intro bytes done position cs hn h
    cases bytes with
    | nil =>
      rw [decodeStrictFrom] at h
      obtain rfl := Except.ok.inj h
      exact ⟨[], by simp, rfl⟩
    | cons b rest =>
      rw [decodeStrictFrom] at h
      split at h
      · rename_i c w hp
        obtain ⟨bs, after, rfl, rfl, hc⟩ := piece_char hp
        rw [Nat.add_sub_cancel, decodeStrictFrom_skip] at h
        have hlt : after.length < n := by
          simp only [List.length_cons, List.length_append] at hn
          omega
        obtain ⟨more, rfl, rfl⟩ := ih _ hlt after _ _ cs rfl h
        exact ⟨c :: more, by simp, by simp [hc]⟩
      · cases h

/-- **Bytes can be read strictly exactly if they are those of a text**, and then they are read as
that text. -/
theorem decodeStrict_eq_ok_iff {bytes : List UInt8} {cs : List Char} :
    decodeStrict bytes = .ok cs ↔ bytes = encode (String.ofList cs) := by
  constructor
  · intro h
    obtain ⟨more, rfl, rfl⟩ := decodeStrictFrom_sound bytes.length bytes [] 0 cs rfl h
    simp [encode]
  · rintro rfl
    rw [decodeStrict_encode, String.toList_ofList]

end CatalogLint.Text.Utf8

namespace CatalogLint.Text

theorem unifyBreaksFrom_append (done more cs : List Char) :
    unifyBreaksFrom (more ++ done) cs = done.reverse ++ unifyBreaksFrom more cs := by
  fun_induction unifyBreaksFrom more cs with
  | case1 more => rw [unifyBreaksFrom, List.reverse_append]
  | case2 more rest ih => rw [unifyBreaksFrom, ← ih, List.cons_append]
  | case3 more c rest h ih =>
    rw [unifyBreaksFrom, ← ih, List.cons_append]
    exact h

section Breaks

variable {l rest : List Char}

theorem unifyBreaks_pair : unifyBreaks ('\r' :: '\n' :: rest) = '\n' :: unifyBreaks rest :=
  unifyBreaksFrom_append ['\n'] [] rest

theorem unifyBreaks_carriage (h : rest.head? ≠ some '\n') :
    unifyBreaks ('\r' :: rest) = '\n' :: unifyBreaks rest := by
  unfold unifyBreaks
  rw [unifyBreaksFrom, if_pos rfl]
  · exact unifyBreaksFrom_append ['\n'] [] rest
  · rintro rest' - rfl
    exact h rfl

theorem unifyBreaks_cons {c : Char} (hc : c ≠ '\r') :
    unifyBreaks (c :: rest) = c :: unifyBreaks rest := by
  unfold unifyBreaks
  rw [unifyBreaksFrom, if_neg hc]
  · exact unifyBreaksFrom_append [c] [] rest
  · intro rest' h
    exact absurd h hc

theorem unifyBreaks_append (hl : '\r' ∉ l) : unifyBreaks (l ++ rest) = l ++ unifyBreaks rest := by
  induction l with
  | nil => rfl
  | cons c l ih =>
    rw [List.mem_cons, not_or] at hl
    rw [List.cons_append, unifyBreaks_cons (Ne.symm hl.1), ih hl.2, List.cons_append]

theorem unifyBreaks_of_not_mem (hl : '\r' ∉ l) : unifyBreaks l = l := by
  have h : unifyBreaks (l ++ []) = l ++ [] := unifyBreaks_append hl
  rwa [List.append_nil] at h

/-- A text falls into the same lines after its line ends have been unified. -/
theorem fallsInto_unifyBreaks {cs : List Char} {ls : List (List Char)}
    (h : Catalog.FallsInto cs ls) : Catalog.FallsInto (unifyBreaks cs) ls := by
  induction h with
  | last hr hn =>
    rw [unifyBreaks_of_not_mem hr]
    exact .last hr hn
  | feed hr hn _ ih =>
    rw [unifyBreaks_append hr, unifyBreaks_cons (by decide)]
    exact .feed hr hn ih
  | pair hr hn _ ih =>
    rw [unifyBreaks_append hr, unifyBreaks_pair]
    exact .feed hr hn ih
  | carriage hr hn hh _ ih =>
    rw [unifyBreaks_append hr, unifyBreaks_carriage hh]
    exact .feed hr hn ih

/-- **Unified line ends leave the lines as they are.** -/
theorem lines_unifyBreaks (cs : List Char) : lines (unifyBreaks cs) = lines cs := by
  have h : Catalog.FallsInto cs (lines cs) := Catalog.lines_eq_iff.1 rfl
  exact Catalog.lines_eq_iff.2 (fallsInto_unifyBreaks h)

/-- A byte order mark is no line end, so it does not matter which of the two is looked at first. -/
theorem dropMark_unifyBreaks (cs : List Char) :
    dropMark (unifyBreaks cs) = unifyBreaks (dropMark cs) := by
  have hother : ∀ c rest, c ≠ '\ufeff' → dropMark (c :: rest) = c :: rest := by
    intro c rest hc
    unfold dropMark
    split
    · rename_i h
      exact absurd (List.cons.inj h).1 hc
    · rfl
  cases cs with
  | nil => rfl
  | cons c rest =>
    by_cases hm : c = '\ufeff'
    · subst hm
      rw [unifyBreaks_cons (by decide)]
      rfl
    rw [hother c rest hm]
    by_cases hc : c = '\r'
    · subst hc
      by_cases hh : rest.head? = some '\n'
      · obtain ⟨rest', rfl⟩ := List.head?_eq_some_iff.1 hh
        rw [unifyBreaks_pair]
        exact hother _ _ (by decide)
      · rw [unifyBreaks_carriage hh]
        exact hother _ _ (by decide)
    · rw [unifyBreaks_cons hc]
      exact hother _ _ hm

end Breaks

end CatalogLint.Text
