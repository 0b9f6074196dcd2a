import CatalogLint.Text.Quoted
import CatalogLint.Uri.Address

/-!
# The parts of a URI

A URI is a scheme and a colon, two slashes and an authority, a path, and a query and a
fragment; all of them may be missing. Leading blanks, and tabs and line ends anywhere, do not
count. Only an authority can be wrong.

* `Parts.read`: the scheme, the authority and the path of a URI.
* `UriError`: all that can be wrong.
-/

namespace CatalogLint

/-- All that can be wrong with a URI. -/
inductive UriError where
  /-- A bracket has no partner, or stands in the wrong place. -/
  | brackets
  | futureAddress
  /-- What stands in brackets is no address. -/
  | address (host : String)
  /-- Four octets stand in brackets. -/
  | bracketedIpv4
  /-- A character of the authority could be taken for a separator. -/
  | lookalike (authority : String)
  deriving DecidableEq, Repr

def UriError.message : UriError → String
  | brackets => "Invalid IPv6 URL"
  | futureAddress => "IPvFuture address is invalid"
  | address host => Text.quoted host ++ " does not appear to be an IPv4 or IPv6 address"
  | bracketedIpv4 => "An IPv4 address cannot be in brackets"
  | lookalike authority =>
    "netloc '" ++ authority ++ "' contains invalid characters under NFKC normalization"

namespace Uri

/-- The scheme, the authority and the path of a URI, with their percent signs. -/
structure Parts where
  scheme : String := ""
  authority : List Char := []
  path : List Char
  deriving DecidableEq, Repr

/-- The characters of a URI that count. -/
def significant (uri : String) : List Char :=
  (uri.toList.dropWhile (·.toNat ≤ 0x20)).filter fun c => c != '\t' && c != '\r' && c != '\n'

/-- A character that may stand in a scheme. -/
def isSchemeChar (c : Char) : Bool := c.isAlphanum || c == '+' || c == '-' || c == '.'

/-- The scheme, in lower case, and what follows it. -/
def splitScheme (cs : List Char) : String × List Char :=
  match cs.takeWhile (· != ':'), cs.dropWhile (· != ':') with
  | c :: name, _ :: rest =>
    if c.isAlpha && name.all isSchemeChar then
      (String.ofList ((c :: name).map (·.toLower)), rest)
    else ("", cs)
  | _, _ => ("", cs)

/-- A character that ends an authority. -/
def endsAuthority (c : Char) : Bool := c == '/' || c == '?' || c == '#'

/-- The authority and what follows it. -/
def splitAuthority : List Char → List Char × List Char
  | '/' :: '/' :: rest =>
    (rest.takeWhile (!endsAuthority ·), rest.dropWhile (!endsAuthority ·))
  | cs => ([], cs)

/-- Refuses what cannot stand in brackets. -/
def checkAddress (host : List Char) : Except UriError Unit :=
  if host.head? = some 'v' then
    if isFutureAddress host then .ok () else .error .futureAddress
  else if isIpv4 host then .error .bracketedIpv4
  else if isIpv6 host then .ok ()
  else .error (.address (String.ofList host))

/-- What follows the last at sign: the host, and perhaps a colon and a number. -/
def hostPart (authority : List Char) : List Char :=
  (authority.reverse.takeWhile (· != '@')).reverse

/-- The host of an authority. Where it is in brackets, nothing may stand before them, and after
them nothing but what a colon begins. -/
def host (authority : List Char) : Except UriError (List Char) :=
  let place := hostPart authority
  match place.contains '[', place with
  | false, _ => .ok (place.takeWhile (· != ':'))
  | true, '[' :: inside =>
    match (inside.dropWhile (· != ']')).drop 1 with
    | [] | ':' :: _ => .ok (inside.takeWhile (· != ']'))
    | _ => .error .brackets
  | true, _ => .error .brackets

/-- Refuses an authority with wrong brackets. With brackets anywhere the host must be such as
stands in them. -/
def checkBrackets (authority : List Char) : Except UriError Unit :=
  match authority.contains '[', authority.contains ']' with
  | false, false => .ok ()
  | true, true => do checkAddress (← host authority)
  | _, _ => .error .brackets

/-- The characters beyond ASCII whose compatibility forms have a separator in them. -/
def lookalikes : List Nat := [
    0x2047, 0x2048, 0x2049, 0x2100, 0x2101, 0x2105, 0x2106, 0x2A74, 0xFE13, 0xFE16, 0xFE55,
    0xFE56, 0xFE5F, 0xFE6B, 0xFF03, 0xFF0F, 0xFF1A, 0xFF1F, 0xFF20]

/-- Refuses an authority with a character that could be taken for a separator. -/
def checkLookalikes (authority : List Char) : Except UriError Unit :=
  if authority.any (lookalikes.contains ·.toNat) then
    .error (.lookalike (String.ofList authority))
  else .ok ()

/-- The schemes in which a semicolon ends the last step of a path. -/
def parameterSchemes : List String :=
  ["", "ftp", "hdl", "prospero", "http", "imap", "https", "shttp", "rtsp", "rtspu", "sip", "sips",
    "mms", "sftp", "tel"]

/-- A path without the parameters of its last step. -/
def withoutParameters (path : List Char) : List Char :=
  let last := (path.reverse.takeWhile (· != '/')).reverse
  path.take (path.length - last.length) ++ last.takeWhile (· != ';')

/-- The parts of a URI that is not wrong. -/
def Parts.read (uri : String) : Except UriError Parts := do
  let (scheme, rest) := splitScheme (significant uri)
  let (authority, rest) := splitAuthority rest
  checkBrackets authority
  checkLookalikes authority
  let path := rest.takeWhile fun c => c != '#' && c != '?'
  return { scheme, authority
           path := if parameterSchemes.contains scheme then withoutParameters path else path }

end Uri

end CatalogLint
