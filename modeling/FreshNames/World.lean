import FreshNames.Failure
import FreshNames.Url.Request

/-!
# The world around the program

What a source can be fetched from: files, and the net.  What the net answers, how names of hosts are
resolved, which dates of files can be written, and what codecs there are beside the character sets, is
not described here; the world tells it.

* `Resolver` - the addresses of hosts;
* `World.fetch` - the bytes that a URL gives, or why it gives none.
-/

set_option autoImplicit false

namespace FreshNames

/-- How names of hosts are resolved: the address of a name, if it has one, and the addresses of this
    host. -/
structure Resolver where
  address : Text → Except Trouble (Option Text)
  own : Except Trouble (List Text)

/-- Files, and why the date of what stands at a path cannot be written, if so; the bytes that the net
    gives for a request, the names of hosts, and the codecs.  Whatever goes wrong outside is told by a
    trouble, of any class. -/
structure World where
  files : Files
  undated : Text → Option Trouble
  net : Request → Except Trouble Bytes
  resolver : Resolver
  codecs : Codecs

namespace World

/-- A world of files, with nothing beyond them. -/
def ofFiles (files : Files) : World where
  files := files
  undated _ := none
  net _ := .error (.cause (.request (.other "no host given".toList)))
  resolver := ⟨fun _ => .ok none, .ok []⟩
  codecs _ := none

/-- A file error, told by a request. -/
def requestTrouble : FileError → Trouble
  | .refused p path => .cause (.request (.refused p path))
  | .nullInPath => .mishap .nullInPath

/-- An error of the system, told by a request; any other trouble as it is. -/
def requested : Trouble → Trouble
  | .cause c => .cause (.request (.other c.message))
  | .mishap m => .mishap m

/-- Is the named host this one? -/
def resolvesHere (w : World) (name : Text) : Except Trouble Bool :=
  match w.resolver.address name with
  | .error t => .error t
  | .ok address =>
    match w.resolver.own with
    | .error t => .error t
    | .ok own => .ok (address.any own.contains)

/-- May a file be read for this host?  No name at all will do, and a name of this host without a
    number behind it. -/
def isThisHost (w : World) (host : Text) : Except Trouble Bool :=
  let (name, hasNumber) := Request.splitNumber host
  if name.isEmpty then .ok true
  else if hasNumber then .ok false
  else w.resolvesHere name

/-- The bytes of a local file.  The path is looked up first.  The answer begins with the date of the
    file, and with its sort, for which the place is taken apart like a URL.  Then the host is asked
    about. -/
def fetchLocal (w : World) (r : Request) : Except Trouble Bytes :=
  let path := Text.percentDecoded r.place
  match w.files.stat path with
  | .error e => .error (requestTrouble e)
  | .ok () =>
    match w.undated path with
    | some t => .error (requested t)
    | none =>
      match Url.isUrl r.place with
      | .error e => .error (.mishap (.malformedUrl e))
      | .ok _ =>
        match w.isThisHost r.host with
        | .error t => .error (requested t)
        | .ok false => .error (.cause (.request .notLocal))
        | .ok true =>
          match w.files.read path with
          | .error e => .error (requestTrouble e)
          | .ok bytes => .ok bytes

/-- The name of this host. -/
def localName : Text := "localhost".toList

/-- Does the place on the host begin with two slashes only? -/
def beginsLikeHost : Text → Bool
  | '/' :: '/' :: rest => rest.head? != some '/'
  | _ => false

/-- The bytes of a file.  A place that begins like a host goes with the name of this host or none: it
    is refused for another host, and nobody is in charge of it for an address of this host. -/
def fetchFile (w : World) (r : Request) : Except Trouble Bytes :=
  if beginsLikeHost r.place && !r.host.isEmpty && r.host != localName then
    match w.resolver.own with
    | .error t => .error t
    | .ok own =>
      if own.contains r.host then .error (.cause (.request (.unknownKind r.kind)))
      else .error (.cause (.request .onlyLocal))
  else w.fetchLocal r

/-- The kinds of requests that the net answers. -/
def netKinds : List Text := ["http".toList, "https".toList, "ftp".toList]

/-- The bytes that a URL gives. -/
def fetch (w : World) (url : Text) : Except Trouble Bytes :=
  let r := Request.ofText url
  if r.kind ∈ netKinds then w.net r
  else if r.kind = "file".toList then w.fetchFile r
  else .error (.cause (.request (.unknownKind r.kind)))

end World

end FreshNames
