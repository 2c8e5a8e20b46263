import FreshNames.Text.UpperCase
import FreshNames.Url.Address

/-!
# Telling URLs from paths

A text is taken for a URL if it begins with one of four schemes and a colon.  Controls and blanks in
front do not count, nor do tabs and line ends anywhere.  A text whose authority is ill-formed is
neither URL nor path.

* `Url.schemes` - the schemes; `Url.splitScheme` - the scheme of a text and what follows it;
* `Url.isUrl` - the question, with `MalformedUrl` for texts that have no answer.
-/

set_option autoImplicit false

namespace FreshNames

/-- What is wrong with the authority of a URL. -/
inductive MalformedUrl
  /-- Square brackets that do not enclose the host. -/
  | brackets
  /-- The brackets hold a version and something that is no address of it. -/
  | futureAddress
  /-- The brackets hold an address of version 4. -/
  | plainAddress
  /-- The brackets hold no address. -/
  | noAddress (host : Text)
  /-- A character has a compatible form that ends the authority. -/
  | delimiters (authority : Text)
  deriving DecidableEq, Repr

/-- The wording of the error. -/
def MalformedUrl.message : MalformedUrl → Text
  | brackets => "Invalid IPv6 URL".toList
  | futureAddress => "IPvFuture address is invalid".toList
  | plainAddress => "An IPv4 address cannot be in brackets".toList
  | noAddress host =>
    Text.quoted host ++ " does not appear to be an IPv4 or IPv6 address".toList
  | delimiters authority =>
    "netloc '".toList ++ authority
      ++ "' contains invalid characters under NFKC normalization".toList

namespace Url

open Text

/-! ## Scheme and authority -/

/-- The text without controls and blanks in front, and without tabs and line ends. -/
def cleaned (t : Text) : Text :=
  (t.dropWhile (·.toNat ≤ 0x20)).filter fun c => !(c == '\t' || c == '\n' || c == '\r')

/-- May the character stand in a scheme? -/
def isSchemeChar (c : Char) : Bool := c.isAlphanum || c == '+' || c == '-' || c == '.'

/-- A scheme begins with a letter. -/
def isScheme (t : Text) : Bool := t.head?.any Char.isAlpha && t.all isSchemeChar

/-- The scheme in lower case, empty if there is none, and what follows it. -/
def splitScheme (t : Text) : Text × Text :=
  match cut ':' t with
  | some (scheme, rest) => if isScheme scheme then (lowerAscii scheme, rest) else ([], t)
  | none => ([], t)

/-- Does the character end the authority? -/
def endsAuthority (c : Char) : Bool := c == '/' || c == '?' || c == '#'

/-- The authority, which stands behind two slashes. -/
def authority : Text → Text
  | '/' :: '/' :: rest => rest.takeWhile (!endsAuthority ·)
  | _ => []

/-! ## Ill-formed authorities -/

/-- The characters with a compatible form that holds one of the characters `/ ? # @ :`. -/
def hiddenDelimiters : List Nat := [
  8263, 8264, 8265, 8448, 8449, 8453, 8454, 10868, 65043, 65046, 65109, 65110, 65119, 65131, 65283,
  65295, 65306, 65311, 65312]

/-- Is this a version and something behind it, as an address of a later version begins? -/
def isFutureAddress (t : Text) : Bool :=
  match cut '.' t with
  | some ('v' :: version, rest) =>
    !version.isEmpty && version.all (hexValue? · |>.isSome) && !rest.isEmpty
  | _ => false

/-- What is wrong with a host that stands in brackets. -/
def hostProblem? (host : Text) : Option MalformedUrl :=
  if host.head? = some 'v' then if isFutureAddress host then none else some .futureAddress
  else if isAddress4 host then some .plainAddress
  else if isAddress6 host then none
  else some (.noAddress host)

/-- What is wrong with the brackets of an authority.  They enclose the host, which stands behind
    the user; only a colon and what belongs to it may follow. -/
def bracketProblem? (authority : Text) : Option MalformedUrl :=
  if authority.contains '[' != authority.contains ']' then some .brackets
  else if !authority.contains '[' then none
  else
    let place := ((cutLast '@' authority).map (·.2)).getD authority
    match cut '[' place with
    | some (before, inside) =>
      let (host, behind) := (cut ']' inside).getD (inside, [])
      if !before.isEmpty || (!behind.isEmpty && behind.head? != some ':') then some .brackets
      else hostProblem? host
    | none => hostProblem? (((cut ':' place).map (·.1)).getD place)

/-- What is wrong with an authority. -/
def problem? (authority : Text) : Option MalformedUrl :=
  match bracketProblem? authority with
  | some e => some e
  | none =>
    if authority.any (hiddenDelimiters.contains ·.toNat) then some (.delimiters authority) else none

/-! ## The question -/

/-- The schemes of sources. -/
def schemes : List Text := ["http".toList, "https".toList, "ftp".toList, "file".toList]

/-- Is the text a URL of a source? -/
def isUrl (t : Text) : Except MalformedUrl Bool :=
  let (scheme, rest) := splitScheme (cleaned t)
  match problem? (authority rest) with
  | some e => .error e
  | none => .ok (schemes.contains scheme)

theorem isUrl_of_authority_nil {t : Text} (h : authority (splitScheme (cleaned t)).2 = []) :
    isUrl t = .ok (schemes.contains (splitScheme (cleaned t)).1) := by
  simp only [isUrl, h]
  rfl

end Url

end FreshNames
