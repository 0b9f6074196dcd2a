/-!
# Resemblance of words

Two words are alike as far as they are made of common parts: the longest common part, and
then, on either side of it, the longest common parts of what is left. A word that is mistyped
is compared with those that could be meant.

* `commonLength`: the length of all common parts.
* `closeMatches`: the words that are alike enough.
-/

namespace CatalogLint.Text

/-- The length of the common beginning. -/
def commonStart : List Char → List Char → Nat
  | a :: as, b :: bs => if a = b then commonStart as bs + 1 else 0
  | _, _ => 0

/-- A common part: where it begins in either word, and its length. -/
structure CommonPart where
  left : Nat
  right : Nat
  size : Nat

/-- All places of the two words, with the length of what is common from there on. -/
def commonParts (as bs : List Char) : List CommonPart :=
  (List.range as.length).flatMap fun i =>
    (List.range bs.length).map fun j => ⟨i, j, commonStart (as.drop i) (bs.drop j)⟩

/-- The longest common part, and of several the first in `as`, then in `bs`. -/
def longestPart (as bs : List Char) : CommonPart :=
  (commonParts as bs).foldl (fun best p => if best.size < p.size then p else best) ⟨0, 0, 0⟩

/-- The length of all common parts, cut out at most `limit` deep. -/
def commonLengthWithin : Nat → List Char → List Char → Nat
  | 0, _, _ => 0
  | limit + 1, as, bs =>
    let p := longestPart as bs
    if p.size = 0 then 0
    else
      commonLengthWithin limit (as.take p.left) (bs.take p.right) + p.size +
        commonLengthWithin limit (as.drop (p.left + p.size)) (bs.drop (p.right + p.size))

/-- The length of all common parts. -/
def commonLength (as bs : List Char) : Nat := commonLengthWithin as.length as bs

/-- A word that could be meant, with the length of its common parts and of both words. -/
structure Candidate where
  word : String
  common : Nat
  total : Nat

/-- At least three fifths of both words are common parts. -/
def Candidate.isClose (c : Candidate) : Bool := 3 * c.total ≤ 10 * c.common

/-- The candidate that comes first: the more alike one, or else the later word. -/
def Candidate.isBefore (a b : Candidate) : Bool :=
  b.common * a.total < a.common * b.total ||
    (b.common * a.total == a.common * b.total && decide (b.word ≤ a.word))

/-- The words among `known` that are most like `word`, three at most, in alphabetical order. -/
def closeMatches (word : String) (known : List String) : List String :=
  let candidates := known.map fun k =>
    (⟨k, commonLength k.toList word.toList, k.length + word.length⟩ : Candidate)
  let close := (candidates.filter (·.isClose)).mergeSort Candidate.isBefore
  ((close.take 3).map (·.word)).mergeSort

end CatalogLint.Text
