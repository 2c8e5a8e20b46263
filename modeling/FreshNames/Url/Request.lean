import FreshNames.Text.Blank
import FreshNames.Url

/-!
# Requests

A request is a URL taken apart for fetching: its kind, the host that it names, and the place on that
host.  Blanks around the URL, angle brackets and the word `URL:` before it are taken off, and what
follows the last number sign does not belong to the place.

* `Request.ofText` - the request that a text makes;
* `Request.key` - the text under which the answer is found.
-/

set_option autoImplicit false

namespace FreshNames

/-- A URL taken apart. -/
structure Request where
  /-- The scheme in lower case. -/
  kind : Text
  /-- The host without escapes; empty if none is named. -/
  host : Text
  /-- The place on the host, escapes and all. -/
  place : Text
  /-- The whole URL. -/
  key : Text
  deriving DecidableEq

namespace Request

open Text

/-- The text without what may be wrapped around a URL. -/
def unwrapped (t : Text) : Text :=
  let t := strip t
  let t :=
    match t with
    | '<' :: _ => if t.getLast? = some '>' then strip (t.drop 1).dropLast else t
    | _ => t
  match t with
  | 'U' :: 'R' :: 'L' :: ':' :: rest => strip rest
  | _ => t

/-- The URL without its fragment, and the whole URL, in which an empty fragment does not show. -/
def splitFragment (t : Text) : Text × Text :=
  match cutLast '#' t with
  | some (url, fragment) => (url, if fragment.isEmpty then url else t)
  | none => (t, t)

/-- The kind of a URL and what follows it.  A text without a kind is of its own kind. -/
def splitKind (t : Text) : Text × Text :=
  match cut ':' t with
  | some (kind, rest) => (lowerAscii kind, rest)
  | none => (t, [])

/-- The host, escapes and all, and the place on it, which begins with a slash unless it is empty.
    Without two slashes in front there is no host. -/
def splitHost : Text → Text × Text
  | '/' :: '/' :: rest =>
    let host := rest.takeWhile (!Url.endsAuthority ·)
    let place := rest.drop host.length
    (host, if place.isEmpty || place.head? == some '/' then place else '/' :: place)
  | rest => ([], rest)

/-- The request that a text makes. -/
def ofText (t : Text) : Request :=
  let (url, key) := splitFragment (unwrapped t)
  let (kind, rest) := splitKind url
  let (host, place) := splitHost rest
  ⟨kind, percentDecoded host, place, key⟩

/-- The name of a host without a number behind a colon, and whether there is a number.  A colon with
    nothing behind it goes too. -/
def splitNumber (host : Text) : Text × Bool :=
  match cutLast ':' host with
  | some (name, number) =>
    if number.all Char.isDigit then (name, !number.isEmpty) else (host, false)
  | none => (host, false)

end Request

end FreshNames
