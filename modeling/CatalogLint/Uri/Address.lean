import CatalogLint.Text.Digit

/-!
# Internet addresses

The written forms of numeric addresses: four decimal octets with dots, or eight hexadecimal
groups with colons, of which a run of zeros may be left out once and the last two may be
written as octets.

* `isIpv4`, `isIpv6`: the two forms.
* `isFutureAddress`: the form that is set aside for later versions.
-/

namespace CatalogLint.Uri

open CatalogLint.Text

/-- The parts of a text between separators. -/
def splitAtEach (separator : Char) : List Char → List (List Char)
  | [] => [[]]
  | c :: rest =>
    if c = separator then [] :: splitAtEach separator rest
    else
      match splitAtEach separator rest with
      | first :: others => (c :: first) :: others
      | [] => [[c]]

/-- A number up to 255 in at most three digits, without needless zeros. -/
def isOctet (cs : List Char) : Bool :=
  !cs.isEmpty && cs.length ≤ 3 && cs.all (·.isDigit) && (cs == ['0'] || cs.head? != some '0') &&
    cs.foldl (fun n c => 10 * n + (c.toNat - 0x30)) 0 ≤ 255

/-- Four octets with dots. -/
def isIpv4 (cs : List Char) : Bool :=
  let octets := splitAtEach '.' cs
  octets.length == 4 && octets.all isOctet

/-- Up to four hexadecimal digits. -/
def isGroup (cs : List Char) : Bool :=
  !cs.isEmpty && cs.length ≤ 4 && cs.all fun c => (hexValue? c).isSome

/-- The groups of an address, with two zeros for octets at its end, if these are well formed. -/
def groups? (cs : List Char) : Option (List (List Char)) :=
  let parts := splitAtEach ':' cs
  match parts.getLast? with
  | some last =>
    if last.contains '.' then
      if isIpv4 last then some (parts.dropLast ++ [['0'], ['0']]) else none
    else some parts
  | none => none

/-- Groups on one side of a gap. The empty part stands for none at all. -/
def outer (groups : List (List Char)) : List (List Char) := if groups == [[]] then [] else groups

/-- Eight groups, or fewer with one gap. -/
def areGroups (groups : List (List Char)) : Bool :=
  let inner := (groups.drop 1).dropLast
  match inner.countP (·.isEmpty) with
  | 0 => groups.length == 8 && groups.all isGroup
  | 1 =>
    let gap := inner.findIdx (·.isEmpty) + 1
    let high := outer (groups.take gap)
    let low := outer (groups.drop (gap + 1))
    high.length + low.length ≤ 7 && high.all isGroup && low.all isGroup
  | _ => false

/-- Groups with colons, and perhaps a zone after a percent sign. -/
def isIpv6 (cs : List Char) : Bool :=
  let address := cs.takeWhile (· != '%')
  let zoneFits := match cs.dropWhile (· != '%') with
    | [] => true
    | _ :: zone => !zone.isEmpty && !zone.contains '%'
  let parts := splitAtEach ':' address
  zoneFits && 3 ≤ parts.length && (groups? address).any areGroups

/-- The letter `v`, a hexadecimal version, a dot and something more. -/
def isFutureAddress : List Char → Bool
  | 'v' :: rest =>
    let isHex (c : Char) : Bool := (hexValue? c).isSome
    !(rest.takeWhile isHex).isEmpty &&
      match rest.dropWhile isHex with
      | '.' :: _ :: _ => true
      | _ => false
  | _ => false

end CatalogLint.Uri
