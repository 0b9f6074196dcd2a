/-!
# Terminal styles

Styles are sequences of an escape character, a bracket, parameters, intermediate characters
and one final character. On a stream that is no terminal they are left out, whether the
program or its data put them there.

* `styled`: a text in a style.
* `stripStyles`: a text without its style sequences.
-/

namespace CatalogLint.Text

/-- The text between style sequences that switch styles on and all of them off. -/
def styled (codes : List Nat) (s : String) : String :=
  String.join (codes.map fun code => s!"\x1b[{code}m") ++ s ++ "\x1b[0m"

/-- Whether the code point of `c` lies between two bounds. -/
def inBounds (least greatest : Nat) (c : Char) : Bool := least ≤ c.toNat && c.toNat ≤ greatest

/-- The length of the sequence that `cs` goes on with after an escape character. -/
def sequenceLength? : List Char → Option Nat
  | '[' :: rest =>
    let parameters := rest.takeWhile (inBounds 0x30 0x3F)
    let afterParameters := rest.dropWhile (inBounds 0x30 0x3F)
    let intermediates := afterParameters.takeWhile (inBounds 0x20 0x2F)
    match afterParameters.dropWhile (inBounds 0x20 0x2F) with
    | c :: _ =>
      if inBounds 0x40 0x7E c then some (parameters.length + intermediates.length + 2) else none
    | [] => none
  | _ => none

/-- The rest of a text after `skip` characters of a sequence, behind the characters `done`,
newest first. -/
def stripStylesFrom (done : List Char) : Nat → List Char → List Char
  | _, [] => done.reverse
  | skip + 1, _ :: rest => stripStylesFrom done skip rest
  | 0, c :: rest =>
    if c = '\x1b' then
      match sequenceLength? rest with
      | some width => stripStylesFrom done width rest
      | none => stripStylesFrom (c :: done) 0 rest
    else stripStylesFrom (c :: done) 0 rest

/-- The text without style sequences. -/
def stripStyles (s : String) : String := String.ofList (stripStylesFrom [] 0 s.toList)

end CatalogLint.Text
