import CatalogLint.Proofs.Json.Numbers
import CatalogLint.Proofs.Json.Reading
import CatalogLint.Proofs.Json.Texts
import Mathlib.Data.List.Nodup

/-!
# Written values are read back

Values of texts, whole numbers, arrays and objects. Writing one and cutting what is written gives
the tokens of the value, and reading these gives the value. Only the limit on digits stands in the
way: it is the cutting that heeds it, so a second way of cutting, without the limit, tells written
values apart however great their numbers are.

* `tokensOf`: the tokens of a value.
* `Plain`: the values that this is about.
* `cutBy_write`: **what is written is cut into the tokens of the value**, with a limit or without.
* `run_tokensOf`: **the tokens of a value are read as the value.**
* `read_write_iff`: **a written value is read back exactly if none of its numbers is too long.**
* `write_injective`: **no two values are written alike.**
-/

namespace CatalogLint.Json

open CatalogLint.Text

mutual

/-- The tokens of a value. -/
def tokensOf : Json → List Token
  | .string points => [.text points]
  | .array [] => [.openBracket, .closeBracket]
  | .array (v :: vs) => .openBracket :: (tokensOf v ++ (tokensOfItems vs ++ [.closeBracket]))
  | .object [] => [.openBrace, .closeBrace]
  | .object ((k, v) :: fields) =>
    .openBrace :: .text k :: .colon :: (tokensOf v ++ (tokensOfFields fields ++ [.closeBrace]))
  | v => [.scalar v]

/-- The tokens of further items of an array. -/
def tokensOfItems : List Json → List Token
  | [] => []
  | v :: vs => .comma :: (tokensOf v ++ tokensOfItems vs)

/-- The tokens of further fields of an object. -/
def tokensOfFields : Fields → List Token
  | [] => []
  | (k, v) :: fields => .comma :: .text k :: .colon :: (tokensOf v ++ tokensOfFields fields)

end

/-- A value of texts, whole numbers, arrays and objects that is at most `room` deep. Its texts are
of characters, and its objects have each key once. -/
inductive Plain : Nat → Json → Prop where
  | int {room : Nat} (n : Int) : Plain room (.int n)
  | string {room : Nat} (s : String) : Plain room (.string (pointsOf s))
  | array {room : Nat} {items : List Json} : (∀ v ∈ items, Plain room v) →
      Plain (room + 1) (.array items)
  | object {room : Nat} {fields : Fields} : (fields.map Prod.fst).Nodup →
      (∀ x ∈ fields, ∃ s, x.1 = pointsOf s) → (∀ x ∈ fields, Plain room x.2) →
      Plain (room + 1) (.object fields)

/-- An object whose keys are texts. -/
theorem plain_object (room : Nat) (fields : List (String × Json))
    (hkeys : (fields.map Prod.fst).Nodup) (h : ∀ x ∈ fields, Plain room x.2) :
    Plain (room + 1) (.object (fields.map fun x => (pointsOf x.1, x.2))) := by
  refine .object ?_ ?_ ?_
  · have hnodup := List.Nodup.map pointsOf_injective hkeys
    rw [List.map_map] at hnodup ⊢
    exact hnodup
  · intro x hx
    obtain ⟨y, -, rfl⟩ := List.mem_map.1 hx
    exact ⟨y.1, rfl⟩
  · intro x hx
    obtain ⟨y, hy, rfl⟩ := List.mem_map.1 hx
    exact h y hy

section Layout

variable (depth : Nat) (k : List Point) (v : Json)

theorem write_array_cons (vs : List Json) : write .pretty depth (.array (v :: vs)) =
    ['['] ++ (newLine (depth + 1) ++ (write .pretty (depth + 1) v ++
      (writeItems .pretty depth vs ++ (newLine depth ++ [']'])))) := by
  simp [write, Layout.pretty]

theorem writeItems_cons (vs : List Json) : writeItems .pretty depth (v :: vs) =
    [','] ++ (newLine (depth + 1) ++ (write .pretty (depth + 1) v ++
      writeItems .pretty depth vs)) := by
  simp [writeItems, Layout.pretty]

theorem write_object_cons (fields : Fields) : write .pretty depth (.object ((k, v) :: fields)) =
    ['\x7b'] ++ (newLine (depth + 1) ++ (writtenText k ++ ([':'] ++ ([' '] ++
      (write .pretty (depth + 1) v ++
        (writeFields .pretty depth fields ++ (newLine depth ++ ['\x7d']))))))) := by
  simp [write, Layout.pretty]

theorem writeFields_cons (fields : Fields) : writeFields .pretty depth ((k, v) :: fields) =
    [','] ++ (newLine (depth + 1) ++ (writtenText k ++ ([':'] ++ ([' '] ++
      (write .pretty (depth + 1) v ++ writeFields .pretty depth fields))))) := by
  simp [writeFields, Layout.pretty]

end Layout

section Cutting

/-- How a token is written. -/
inductive Lexeme : Token → List Char → Prop where
  | openBracket : Lexeme .openBracket ['[']
  | closeBracket : Lexeme .closeBracket [']']
  | openBrace : Lexeme .openBrace ['\x7b']
  | closeBrace : Lexeme .closeBrace ['\x7d']
  | comma : Lexeme .comma [',']
  | colon : Lexeme .colon [':']
  | text (s : String) : Lexeme (.text (pointsOf s)) (writtenText (pointsOf s))
  | int (n : Int) : Lexeme (.scalar (.int n)) (toString n).toList

/-- A number must end where its characters do. -/
def Token.EndsBefore (rest : List Char) : Token → Prop
  | .scalar _ => NumberEnds rest
  | _ => True

/-- What a token is read as: numbers may be too long. -/
def Token.limited : Token → Token
  | .scalar (.int n) => intToken n
  | t => t

/-- The token at the front of a text, however long it is. -/
def exactAt (c : Char) (rest : List Char) : Token × Nat :=
  match tokenAt c rest with
  | (.longNumber _, width) => (.scalar (.int (intOf ((c :: rest).take width))), width)
  | found => found

/-- The tokens after `skip` more characters, if `front` finds the one at the front. -/
def cutBy (front : Char → List Char → Token × Nat) : Nat → List Char → List Token
  | _, [] => []
  | skip + 1, _ :: rest => cutBy front skip rest
  | 0, c :: rest =>
    if isSpace c then cutBy front 0 rest
    else
      match front c rest with
      | (.junk, _) => [.junk]
      | (t, width) => t :: cutBy front (width - 1) rest

theorem tokens_eq_cutBy (cs : List Char) : tokens cs = cutBy tokenAt 0 cs := by
  have hfrom : ∀ skip, tokensFrom skip cs = cutBy tokenAt skip cs := by
    induction cs with
    | nil => intro skip; cases skip <;> rfl
    | cons c rest ih =>
      intro skip
      cases skip with
      | zero =>
        rw [tokensFrom, cutBy]
        split_ifs
        · exact ih 0
        · obtain ⟨t, width⟩ := tokenAt c rest
          cases t with
          | junk => rfl
          | _ => exact congrArg (List.cons _) (ih (width - 1))
      | succ skip => exact ih skip
  exact hfrom 0

/-- A way of finding tokens that finds each written token as `seen` has it. -/
structure Finds (front : Char → List Char → Token × Nat) (seen : Token → Token) : Prop where
  front : ∀ {t : Token} {c : Char} {cs rest : List Char}, Lexeme t (c :: cs) →
    t.EndsBefore rest → front c (cs ++ rest) = (seen t, cs.length + 1)
  seen_ne : ∀ {t : Token} {cs : List Char}, Lexeme t cs → seen t ≠ .junk

theorem Lexeme.exists_cons {t : Token} {cs : List Char} (h : Lexeme t cs) :
    ∃ c rest, cs = c :: rest ∧ isSpace c = false := by
  cases h with
  | text s => exact ⟨'"', _, rfl, rfl⟩
  | int n =>
    obtain ⟨c, cs, hcs, hc⟩ := exists_toString_int n
    refine ⟨c, cs, hcs, ?_⟩
    simp only [isSpace, Bool.or_eq_false_iff, beq_eq_false_iff_ne]
    refine ⟨⟨⟨?_, ?_⟩, ?_⟩, ?_⟩ <;> rintro rfl <;> revert hc <;> decide
  | _ => exact ⟨_, _, rfl, rfl⟩

/-- Written tokens are found one by one, up to the limit on digits. -/
theorem finds_tokenAt : Finds tokenAt Token.limited where
  front := by
    intro t c cs rest hl hends
    generalize hcs : c :: cs = written at hl
    cases hl with
    | text s =>
      rw [writtenText_pointsOf] at hcs
      obtain ⟨rfl, rfl⟩ := List.cons.inj hcs
      rw [List.append_assoc, List.singleton_append, tokenAt_writtenText, List.length_append]
      rfl
    | int n => exact tokenAt_int hcs.symm hends
    | _ =>
      obtain ⟨rfl, rfl⟩ := List.cons.inj hcs
      rfl
  seen_ne := by
    intro t cs hl
    cases hl with
    | int n =>
      show intToken n ≠ .junk
      unfold intToken
      split <;> exact Token.noConfusion
    | _ => exact Token.noConfusion

/-- Without the limit they are found as they are. -/
theorem finds_exactAt : Finds exactAt id where
  front := by
    intro t c cs rest hl hends
    have hfront := finds_tokenAt.front hl hends
    unfold exactAt
    rw [hfront]
    generalize hcs : c :: cs = written at hl
    cases hl with
    | int n =>
      -- a number that is too long is found with its width, so its characters are at hand
      have hwidth : (c :: (cs ++ rest)).take (cs.length + 1) = c :: cs := by simp
      by_cases hlong : digitLimit < (Nat.toDigits 10 n.natAbs).length
      · simp only [Token.limited, intToken, if_pos hlong, hwidth, hcs, intOf_toString, id]
      · simp only [Token.limited, intToken, if_neg hlong, id]
    | _ => rfl
  seen_ne := by
    intro t cs hl
    cases hl <;> exact Token.noConfusion

section Written

variable {front : Char → List Char → Token × Nat} {seen : Token → Token}

theorem cutBy_skip (cs rest : List Char) :
    cutBy front cs.length (cs ++ rest) = cutBy front 0 rest := by
  induction cs with
  | nil => rfl
  | cons c cs ih => exact ih

theorem cutBy_spaces {cs : List Char} (h : ∀ c ∈ cs, isSpace c = true) (rest : List Char) :
    cutBy front 0 (cs ++ rest) = cutBy front 0 rest := by
  induction cs with
  | nil => rfl
  | cons c cs ih =>
    rw [List.forall_mem_cons] at h
    rw [List.cons_append, cutBy, if_pos h.1]
    exact ih h.2

/-- A written token is cut off. -/
theorem Finds.cut_lexeme (hf : Finds front seen) {t : Token} {cs rest : List Char}
    (hl : Lexeme t cs) (he : t.EndsBefore rest) :
    cutBy front 0 (cs ++ rest) = seen t :: cutBy front 0 rest := by
  obtain ⟨c, cs, rfl, hspace⟩ := hl.exists_cons
  rw [List.cons_append, cutBy, if_neg (by simp [hspace]), hf.front hl he]
  have hskip : cutBy front (cs.length + 1 - 1) (cs ++ rest) = cutBy front 0 rest :=
    cutBy_skip cs rest
  split
  · rename_i heq
    exact absurd (Prod.mk.inj heq).1 (hf.seen_ne hl)
  · rename_i heq
    obtain ⟨rfl, rfl⟩ := Prod.mk.inj heq
    rw [hskip]

theorem numberEnds_newLine (depth : Nat) (rest : List Char) :
    NumberEnds (newLine depth ++ rest) := numberEnds_cons _ (by decide)

theorem numberEnds_writeItems (depth : Nat) (vs : List Json) {rest : List Char}
    (h : NumberEnds rest) : NumberEnds (writeItems .pretty depth vs ++ rest) := by
  cases vs with
  | nil => exact h
  | cons v vs => exact numberEnds_cons _ (by decide)

theorem numberEnds_writeFields (depth : Nat) (fields : Fields) {rest : List Char}
    (h : NumberEnds rest) : NumberEnds (writeFields .pretty depth fields ++ rest) := by
  cases fields with
  | nil => exact h
  | cons x fields => exact numberEnds_cons _ (by decide)

/-- What is written of `v` is cut into its tokens. -/
def CutsInto (front : Char → List Char → Token × Nat) (seen : Token → Token) (v : Json) : Prop :=
  ∀ depth rest, NumberEnds rest →
    cutBy front 0 (write .pretty depth v ++ rest) = (tokensOf v).map seen ++ cutBy front 0 rest

theorem cutBy_newLine (depth : Nat) (rest : List Char) :
    cutBy front 0 (newLine depth ++ rest) = cutBy front 0 rest :=
  cutBy_spaces isSpace_of_mem_newLine rest

theorem Finds.cut_items (hf : Finds front seen) {vs : List Json}
    (h : ∀ v ∈ vs, CutsInto front seen v) (depth : Nat) {rest : List Char} (hr : NumberEnds rest) :
    cutBy front 0 (writeItems .pretty depth vs ++ rest) =
      (tokensOfItems vs).map seen ++ cutBy front 0 rest := by
  induction vs with
  | nil => rfl
  | cons v vs ih =>
    rw [List.forall_mem_cons] at h
    simp only [writeItems_cons, List.append_assoc]
    rw [hf.cut_lexeme .comma trivial, cutBy_newLine,
      h.1 _ _ (numberEnds_writeItems depth vs hr), ih h.2]
    simp [tokensOfItems]

theorem Finds.cut_key (hf : Finds front seen) (s : String) (rest : List Char) :
    cutBy front 0 (writtenText (pointsOf s) ++ ([':'] ++ ([' '] ++ rest))) =
      seen (.text (pointsOf s)) :: seen .colon :: cutBy front 0 rest := by
  have hblank : ∀ c ∈ [' '], isSpace c = true := by
    intro c hc
    rw [List.mem_singleton.1 hc]
    rfl
  rw [hf.cut_lexeme (.text s) trivial, hf.cut_lexeme .colon trivial, cutBy_spaces hblank]

theorem Finds.cut_fields (hf : Finds front seen) {fields : Fields}
    (hkeys : ∀ x ∈ fields, ∃ s, x.1 = pointsOf s) (h : ∀ x ∈ fields, CutsInto front seen x.2)
    (depth : Nat) {rest : List Char} (hr : NumberEnds rest) :
    cutBy front 0 (writeFields .pretty depth fields ++ rest) =
      (tokensOfFields fields).map seen ++ cutBy front 0 rest := by
  induction fields with
  | nil => rfl
  | cons x fields ih =>
    obtain ⟨k, v⟩ := x
    rw [List.forall_mem_cons] at hkeys h
    obtain ⟨⟨s, rfl⟩, hkeys⟩ := hkeys
    simp only [writeFields_cons, List.append_assoc]
    rw [hf.cut_lexeme .comma trivial, cutBy_newLine, hf.cut_key,
      h.1 _ _ (numberEnds_writeFields depth fields hr), ih hkeys h.2]
    simp [tokensOfFields]

/-- **What is written is cut into the tokens of the value.** -/
theorem cutBy_write (hf : Finds front seen) {room : Nat} {v : Json} (hv : Plain room v) :
    CutsInto front seen v := by
  -- a comma, a new line or the end comes after each value, so no number goes on
  induction hv with
  | int n =>
    intro depth rest hr
    rw [write, hf.cut_lexeme (.int n) hr]
    rfl
  | string s =>
    intro depth rest hr
    rw [write, hf.cut_lexeme (.text s) trivial]
    rfl
  | @array room items _ ih =>
    intro depth rest hr
    cases items with
    | nil =>
      have htext : write .pretty depth (.array []) ++ rest = ['['] ++ ([']'] ++ rest) := rfl
      rw [htext, hf.cut_lexeme .openBracket trivial, hf.cut_lexeme .closeBracket trivial]
      rfl
    | cons v vs =>
      rw [List.forall_mem_cons] at ih
      have hend : NumberEnds (newLine depth ++ ([']'] ++ rest)) := numberEnds_newLine _ _
      simp only [write_array_cons, List.append_assoc]
      rw [hf.cut_lexeme .openBracket trivial, cutBy_newLine,
        ih.1 _ _ (numberEnds_writeItems depth vs hend), hf.cut_items ih.2 depth hend,
        cutBy_newLine, hf.cut_lexeme .closeBracket trivial]
      simp [tokensOf]
  | @object room fields hnodup hkeys _ ih =>
    intro depth rest hr
    cases fields with
    | nil =>
      have htext : write .pretty depth (.object []) ++ rest = ['\x7b'] ++ (['\x7d'] ++ rest) := rfl
      rw [htext, hf.cut_lexeme .openBrace trivial, hf.cut_lexeme .closeBrace trivial]
      rfl
    | cons x fields =>
      obtain ⟨k, v⟩ := x
      rw [List.forall_mem_cons] at ih hkeys
      obtain ⟨⟨s, rfl⟩, hkeys⟩ := hkeys
      have hend : NumberEnds (newLine depth ++ (['\x7d'] ++ rest)) := numberEnds_newLine _ _
      simp only [write_object_cons, List.append_assoc]
      rw [hf.cut_lexeme .openBrace trivial, cutBy_newLine, hf.cut_key,
        ih.1 _ _ (numberEnds_writeFields depth fields hend), hf.cut_fields hkeys ih.2 depth hend,
        cutBy_newLine, hf.cut_lexeme .closeBrace trivial]
      simp [tokensOf]

end Written

end Cutting

section Characters

/-- A line feed, or no control character. -/
def isOrdinary (c : Char) : Bool := c == '\n' || 0x20 ≤ c.toNat

theorem ordinary_newLine (depth : Nat) : (newLine depth).all isOrdinary = true := by
  have hspace : isOrdinary ' ' = true := rfl
  have hfeed : isOrdinary '\n' = true := rfl
  rw [newLine, List.all_cons, hfeed, List.all_replicate]
  simp [hspace]

theorem ordinary_toString (n : Int) : (toString n).toList.all isOrdinary = true := by
  have hdigits : ∀ c ∈ Nat.toDigits 10 n.natAbs, isOrdinary c = true := by
    intro c hc
    have hdigit := Char.isDigit_iff_toNat.1 (isDigit_of_mem_toDigits c hc)
    have hle : 0x20 ≤ c.toNat := le_trans (by decide) hdigit.1
    simp [isOrdinary, hle]
  rw [toList_toString_int, List.all_append, List.all_eq_true.2 hdigits, Bool.and_true]
  split <;> rfl

theorem ordinary_writtenText (s : String) : (writtenText (pointsOf s)).all isOrdinary = true := by
  apply List.all_eq_true.2
  intro c hc
  have hle : 0x20 ≤ c.toNat := le_toNat_of_mem_writtenText hc
  simp [isOrdinary, hle]

theorem ordinary_writeItems {vs : List Json} {depth : Nat}
    (h : ∀ v ∈ vs, (write .pretty (depth + 1) v).all isOrdinary = true) :
    (writeItems .pretty depth vs).all isOrdinary = true := by
  induction vs with
  | nil => rfl
  | cons v vs ih =>
    rw [List.forall_mem_cons] at h
    have hcomma : [','].all isOrdinary = true := rfl
    simp only [writeItems_cons, List.all_append, hcomma, ordinary_newLine, h.1, ih h.2,
      Bool.and_true]

theorem ordinary_writeFields {fields : Fields} {depth : Nat}
    (hkeys : ∀ x ∈ fields, ∃ s, x.1 = pointsOf s)
    (h : ∀ x ∈ fields, (write .pretty (depth + 1) x.2).all isOrdinary = true) :
    (writeFields .pretty depth fields).all isOrdinary = true := by
  induction fields with
  | nil => rfl
  | cons x fields ih =>
    obtain ⟨k, v⟩ := x
    rw [List.forall_mem_cons] at h hkeys
    obtain ⟨⟨s, rfl⟩, hkeys⟩ := hkeys
    have hcomma : [','].all isOrdinary = true := rfl
    have hcolon : [':'].all isOrdinary = true := rfl
    have hblank : [' '].all isOrdinary = true := rfl
    simp only [writeFields_cons, List.all_append, hcomma, hcolon, hblank, ordinary_newLine,
      ordinary_writtenText, h.1, ih hkeys h.2, Bool.and_true]

/-- A written value has no control characters but line feeds. -/
theorem ordinary_write {room : Nat} {v : Json} (hv : Plain room v) (depth : Nat) :
    (write .pretty depth v).all isOrdinary = true := by
  induction hv generalizing depth with
  | int n => exact ordinary_toString n
  | string s => exact ordinary_writtenText s
  | @array room items _ ih =>
    cases items with
    | nil => rfl
    | cons v vs =>
      rw [List.forall_mem_cons] at ih
      have hitems := ordinary_writeItems fun v hv => ih.2 v hv (depth + 1)
      have hopen : ['['].all isOrdinary = true := rfl
      have hclose : [']'].all isOrdinary = true := rfl
      simp only [write_array_cons, List.all_append, hopen, hclose, ordinary_newLine, ih.1, hitems,
        Bool.and_true]
  | @object room fields _ hkeys _ ih =>
    rcases fields with _ | ⟨⟨k, v⟩, fields⟩
    · rfl
    · rw [List.forall_mem_cons] at ih hkeys
      obtain ⟨⟨s, rfl⟩, hkeys⟩ := hkeys
      have hfields := ordinary_writeFields hkeys fun x hx => ih.2 x hx (depth + 1)
      have hopen : ['\x7b'].all isOrdinary = true := rfl
      have hclose : ['\x7d'].all isOrdinary = true := rfl
      have hcolon : [':'].all isOrdinary = true := rfl
      have hblank : [' '].all isOrdinary = true := rfl
      simp only [write_object_cons, List.all_append, hopen, hclose, hcolon, hblank,
        ordinary_newLine, ordinary_writtenText, ih.1, hfields, Bool.and_true]

end Characters

section Reading

theorem Reading.run_of_step {r q : Reading} {t : Token} (h : r.step t = .ok q) (ts : List Token) :
    r.run (t :: ts) = q.run ts := by
  rw [Reading.run, h]

/-- The tokens of `v` are read as `v`, inside as many arrays and objects as leave `room`. -/
def ReadsBack (room : Nat) (v : Json) : Prop :=
  ∀ frames ts, frames.length + room ≤ depthLimit →
    Reading.run ⟨.value, frames⟩ (tokensOf v ++ ts) = Reading.run ⟨.after v, frames⟩ ts

variable {room : Nat} {frames : List Frame}

theorem run_items {vs : List Json} (h : ∀ v ∈ vs, ReadsBack room v)
    (hroom : frames.length + 1 + room ≤ depthLimit) (v : Json) (items : List Json)
    (ts : List Token) :
    Reading.run ⟨.after v, .array items :: frames⟩ (tokensOfItems vs ++ .closeBracket :: ts) =
      Reading.run ⟨.after (.array ((v :: items).reverse ++ vs)), frames⟩ ts := by
  induction vs generalizing v items with
  | nil =>
    rw [List.append_nil]
    exact Reading.run_of_step rfl ts
  | cons w vs ih =>
    rw [List.forall_mem_cons] at h
    have hcomma : Reading.step ⟨.after v, .array items :: frames⟩ .comma =
        .ok ⟨.value, .array (v :: items) :: frames⟩ := rfl
    rw [tokensOfItems, List.cons_append, Reading.run_of_step hcomma, List.append_assoc,
      h.1 (.array (v :: items) :: frames) _ hroom, ih h.2, List.reverse_cons, List.append_assoc]
    rfl

/-- A key that has not come yet is put at the end. -/
theorem set_of_nodup {key : List Point} {v : Json} {before fields : Fields}
    (h : ((before ++ (key, v) :: fields).map Prod.fst).Nodup) :
    Table.set key v before = before ++ [(key, v)] := by
  have hnew : ∀ x ∈ before, x.1 ≠ key := by
    intro x hx
    rw [List.map_append, List.map_cons] at h
    exact (List.nodup_append.1 h).2.2 x.1 (List.mem_map_of_mem hx) key List.mem_cons_self
  -- `h` is about all of the fields; the induction needs only that the key is new
  clear h
  induction before with
  | nil => rfl
  | cons x before ih =>
    rw [List.forall_mem_cons] at hnew
    rw [Table.set, if_neg hnew.1, ih hnew.2, List.cons_append]

theorem run_fields {fields : Fields} (h : ∀ x ∈ fields, ReadsBack room x.2)
    (hroom : frames.length + 1 + room ≤ depthLimit) {key : List Point} {v : Json}
    {before : Fields} (hnodup : ((before ++ (key, v) :: fields).map Prod.fst).Nodup)
    (ts : List Token) :
    Reading.run ⟨.after v, .object before key :: frames⟩
        (tokensOfFields fields ++ .closeBrace :: ts) =
      Reading.run ⟨.after (.object (before ++ (key, v) :: fields)), frames⟩ ts := by
  have hset := set_of_nodup hnodup
  induction fields generalizing key v before with
  | nil =>
    have hclose : Reading.step ⟨.after v, .object before key :: frames⟩ .closeBrace =
        .ok ⟨.after (.object (Table.set key v before)), frames⟩ := rfl
    rw [tokensOfFields, List.nil_append, Reading.run_of_step hclose, hset]
  | cons x fields ih =>
    obtain ⟨k, w⟩ := x
    rw [List.forall_mem_cons] at h
    have hcomma : Reading.step ⟨.after v, .object before key :: frames⟩ .comma =
        .ok ⟨.key (before ++ [(key, v)]), frames⟩ := by
      rw [← hset]
      rfl
    have hkey : Reading.step ⟨.key (before ++ [(key, v)]), frames⟩ (.text k) =
        .ok ⟨.colon (before ++ [(key, v)]) k, frames⟩ := rfl
    have hcolon : Reading.step ⟨.colon (before ++ [(key, v)]) k, frames⟩ .colon =
        .ok ⟨.value, .object (before ++ [(key, v)]) k :: frames⟩ := rfl
    have hshift : before ++ (key, v) :: (k, w) :: fields =
        before ++ [(key, v)] ++ (k, w) :: fields := List.append_cons ..
    rw [hshift] at hnodup ⊢
    rw [tokensOfFields, List.cons_append, List.cons_append, List.cons_append,
      Reading.run_of_step hcomma, Reading.run_of_step hkey, Reading.run_of_step hcolon,
      List.append_assoc, h.1 (.object (before ++ [(key, v)]) k :: frames) _ hroom,
      ih h.2 hnodup (set_of_nodup hnodup)]

/-- No value begins with a closing bracket. -/
theorem exists_tokensOf (v : Json) : ∃ t ts, tokensOf v = t :: ts ∧ t ≠ .closeBracket := by
  cases v with
  | array items => cases items <;> exact ⟨_, _, rfl, Token.noConfusion⟩
  | object fields =>
    rcases fields with _ | ⟨⟨k, v⟩, fields⟩ <;> exact ⟨_, _, rfl, Token.noConfusion⟩
  | _ => exact ⟨_, _, rfl, Token.noConfusion⟩

theorem run_firstItem (v : Json) (ts : List Token) :
    Reading.run ⟨.firstItem, frames⟩ (tokensOf v ++ ts) =
      Reading.run ⟨.value, .array [] :: frames⟩ (tokensOf v ++ ts) := by
  obtain ⟨t, ts', hts, hne⟩ := exists_tokensOf v
  rw [hts, List.cons_append, Reading.run, Reading.run, Reading.step_firstItem hne]
  rfl

/-- **The tokens of a value are read as the value.** -/
theorem run_tokensOf {v : Json} (hv : Plain room v) : ReadsBack room v := by
  -- each bracket and brace takes one level of the room that is left
  induction hv with
  | int n =>
    intro frames ts hroom
    exact Reading.run_of_step rfl ts
  | string s =>
    intro frames ts hroom
    exact Reading.run_of_step rfl ts
  | @array room items _ ih =>
    intro frames ts hroom
    have hlt : frames.length < depthLimit := by omega
    have hopen : Reading.step ⟨.value, frames⟩ .openBracket = .ok ⟨.firstItem, frames⟩ :=
      if_pos hlt
    cases items with
    | nil =>
      have hclose : Reading.step ⟨.firstItem, frames⟩ .closeBracket =
          .ok ⟨.after (.array []), frames⟩ := rfl
      rw [tokensOf, List.cons_append, List.cons_append, Reading.run_of_step hopen,
        Reading.run_of_step hclose, List.nil_append]
    | cons v vs =>
      rw [List.forall_mem_cons] at ih
      have hinside : frames.length + 1 + room ≤ depthLimit := by omega
      rw [tokensOf, List.cons_append, Reading.run_of_step hopen, List.append_assoc, run_firstItem,
        ih.1 (.array [] :: frames) _ hinside, List.append_assoc, List.singleton_append,
        run_items ih.2 hinside]
      rfl
  | @object room fields hnodup _ _ ih =>
    intro frames ts hroom
    have hlt : frames.length < depthLimit := by omega
    have hopen : Reading.step ⟨.value, frames⟩ .openBrace = .ok ⟨.firstKey, frames⟩ := if_pos hlt
    rcases fields with _ | ⟨⟨k, v⟩, fields⟩
    · have hclose : Reading.step ⟨.firstKey, frames⟩ .closeBrace =
          .ok ⟨.after (.object []), frames⟩ := rfl
      rw [tokensOf, List.cons_append, List.cons_append, Reading.run_of_step hopen,
        Reading.run_of_step hclose, List.nil_append]
    · rw [List.forall_mem_cons] at ih
      have hinside : frames.length + 1 + room ≤ depthLimit := by omega
      have hkey : Reading.step ⟨.firstKey, frames⟩ (.text k) = .ok ⟨.colon [] k, frames⟩ := rfl
      have hcolon : Reading.step ⟨.colon [] k, frames⟩ .colon =
          .ok ⟨.value, .object [] k :: frames⟩ := rfl
      have hnodup : ((([] : Fields) ++ (k, v) :: fields).map Prod.fst).Nodup := hnodup
      rw [tokensOf, List.cons_append, List.cons_append, List.cons_append,
        Reading.run_of_step hopen, Reading.run_of_step hkey, Reading.run_of_step hcolon,
        List.append_assoc, ih.1 (.object [] k :: frames) _ hinside, List.append_assoc,
        List.singleton_append, run_fields ih.2 hinside hnodup]
      rfl

end Reading

section Limit

variable {room : Nat} {v : Json} {rest : List Char}

/-- A token is read as it is, unless it is a number that is too long. -/
theorem Token.limited_cases (t : Token) : t.limited = t ∨
    ∃ n digits, t = .scalar (.int n) ∧ digitLimit < digits ∧ t.limited = .longNumber digits := by
  unfold Token.limited
  split
  · rename_i n
    unfold intToken
    split
    · rename_i hlong
      exact .inr ⟨n, _, rfl, hlong, rfl⟩
    · exact .inl rfl
  · exact .inl rfl

theorem limited_int_iff (n : Int) : (Token.scalar (.int n)).limited = .scalar (.int n) ↔
    (Nat.toDigits 10 n.natAbs).length ≤ digitLimit := by
  show intToken n = _ ↔ _
  unfold intToken
  split
  · rename_i hlong
    exact iff_of_false Token.noConfusion (by omega)
  · rename_i hshort
    exact iff_of_true rfl (by omega)

/-- The first number that is too long ends the reading. -/
theorem run_limited_error {r r' : Reading} {ts : List Token} (h : r.run ts = .ok r') {t : Token}
    (ht : t ∈ ts) (hlong : t.limited ≠ t) :
    ∃ digits, r.run (ts.map Token.limited) = .error (.longNumber digits) := by
  induction ts generalizing r with
  | nil => cases ht
  | cons s ts ih =>
    obtain ⟨q, hs, hq⟩ := Reading.run_cons_ok h
    rw [List.map_cons]
    rcases s.limited_cases with hsame | ⟨n, digits, rfl, hdigits, heq⟩
    · have ht' : t ∈ ts := by
        rcases List.mem_cons.1 ht with rfl | ht
        · exact absurd hsame hlong
        · exact ht
      rw [hsame, Reading.run_of_step hs]
      exact ih hq ht'
    · -- a number stands here, so a value is awaited, and the limit is heeded
      have hrefused := Reading.step_of_exceeds (Reading.awaitsValue_of_step hs) (.number hdigits)
      refine ⟨digits, ?_⟩
      rw [heq, Reading.run, hrefused]

theorem numberEnds_of_spaces (h : ∀ c ∈ rest, isSpace c = true) : NumberEnds rest := by
  intro c hc
  have hspace := h c (List.mem_of_mem_head? hc)
  refine ⟨?_, ?_, ?_, ?_⟩
  · cases hdigit : c.isDigit with
    | false => rfl
    | true =>
      exfalso
      simp only [isSpace, Bool.or_eq_true, beq_iff_eq] at hspace
      rcases hspace with ((rfl | rfl) | rfl) | rfl <;> cases hdigit
  all_goals
    rintro rfl
    cases hspace

theorem cutBy_document {front : Char → List Char → Token × Nat} {seen : Token → Token}
    (hf : Finds front seen) (hv : Plain room v) (hr : ∀ c ∈ rest, isSpace c = true) :
    cutBy front 0 (write .pretty 0 v ++ rest) = (tokensOf v).map seen := by
  have hnone : cutBy front 0 rest = [] := by
    have hspaces : cutBy front 0 (rest ++ []) = [] := cutBy_spaces hr []
    rwa [List.append_nil] at hspaces
  rw [cutBy_write hf hv 0 rest (numberEnds_of_spaces hr), hnone, List.append_nil]

theorem run_start (hv : Plain room v) (hroom : room ≤ depthLimit) :
    Reading.start.run (tokensOf v) = .ok ⟨.after v, []⟩ := by
  have hrun := run_tokensOf hv [] [] (by simpa using hroom)
  rwa [List.append_nil] at hrun

/-- **A written value is read back exactly if none of its numbers is too long.** -/
theorem read_write_iff (hv : Plain room v) (hroom : room ≤ depthLimit)
    (hr : ∀ c ∈ rest, isSpace c = true) :
    read (write .pretty 0 v ++ rest) = .ok v ↔
      ∀ n, .scalar (.int n) ∈ tokensOf v → (Nat.toDigits 10 n.natAbs).length ≤ digitLimit := by
  have hrun := run_start hv hroom
  unfold read
  rw [tokens_eq_cutBy, cutBy_document finds_tokenAt hv hr]
  constructor
  · intro h n hn
    by_contra hlong
    obtain ⟨digits, herror⟩ := run_limited_error hrun hn (mt (limited_int_iff n).1 hlong)
    rw [herror] at h
    cases h
  · intro hshort
    have hsame : ∀ t ∈ tokensOf v, t.limited = id t := by
      intro t ht
      rcases t.limited_cases with heq | ⟨n, digits, rfl, -, -⟩
      · exact heq
      · exact (limited_int_iff n).2 (hshort n ht)
    rw [List.map_congr_left hsame, List.map_id, hrun]
    rfl

/-- **No two values are written alike.** -/
theorem write_injective {room' : Nat} {v' : Json} {rest' : List Char} (hv : Plain room v)
    (hv' : Plain room' v') (hroom : room ≤ depthLimit) (hroom' : room' ≤ depthLimit)
    (hr : ∀ c ∈ rest, isSpace c = true) (hr' : ∀ c ∈ rest', isSpace c = true)
    (h : write .pretty 0 v ++ rest = write .pretty 0 v' ++ rest') : v = v' := by
  -- cut without the limit, as reading would not get past a number that is too long
  have htokens : tokensOf v = tokensOf v' := by
    have hcut := cutBy_document finds_exactAt hv hr
    have hcut' := cutBy_document finds_exactAt hv' hr'
    rw [h, hcut', List.map_id, List.map_id] at hcut
    exact hcut.symm
  have hrun := run_start hv hroom
  rw [htokens, run_start hv' hroom', Except.ok.injEq, Reading.mk.injEq, Mode.after.injEq] at hrun
  exact hrun.1.symm

end Limit

end CatalogLint.Json
