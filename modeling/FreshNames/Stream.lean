import FreshNames.Charset.Named

/-!
# Open streams

A stream that somebody else has opened holds text, or bytes that are there as a whole, or raw bytes
that come in pieces.  Whoever takes a stream over reads it through a reader and closes it.

* `Stream.reader` - the reader of a stream, or why there is none;
* `Stream.isTakenOver` - whether the stream is read and closed, or left as it is.
-/

set_option autoImplicit false

namespace FreshNames

/-- What is left to read of a stream.  Bytes may refuse to be decoded at all, when it is asked whether
    they can be read. -/
inductive StreamContent
  /-- Text, which may run out of patience. -/
  | text (rest : Text) (patience : Option Patience)
  /-- Bytes that are there as a whole. -/
  | bytes (rest : Bytes) (refusal : Option Trouble)
  /-- Bytes that come in pieces. -/
  | raw (feed : Feed) (refusal : Option Trouble)

/-- How the stream refuses to be decoded, if it does. -/
def StreamContent.refusal : StreamContent → Option Trouble
  | text .. => none
  | bytes _ refusal => refusal
  | raw _ refusal => refusal

/-- A stream, open or closed. -/
structure Stream where
  content : StreamContent
  isClosed : Bool

namespace Stream

/-- The text of the stream in messages. -/
def display (s : Stream) : Text :=
  match s.content with
  | .text .. => "<text stream>".toList
  | .bytes .. => "<byte stream>".toList
  | .raw .. => "<raw stream>".toList

/-- The stream after it has been closed. -/
def close (s : Stream) : Stream := { s with isClosed := true }

/-- The reader of bytes in a coding that is given by its name. -/
def decoding (codecs : Codecs) (feed : Feed) (charset : Text) : Except Mishap Reader :=
  match Charset.decoderNamed codecs charset with
  | .error m => .error m
  | .ok d => .ok (.decoded (.ofFeed d feed))

/-- The reader of what is left in a stream. -/
def contentReader (codecs : Codecs) (charset : Text) : StreamContent → Except Mishap Reader
  | .text rest patience => .ok (.plain rest patience)
  | .bytes rest _ => decoding codecs (.ofBytes rest) charset
  | .raw feed _ => decoding codecs feed charset

/-- The reader of a stream.  That there is no such coding is found out before a closed stream, and this
    before the stream can refuse. -/
def reader (codecs : Codecs) (s : Stream) (charset : Text) : Except Trouble Reader :=
  match contentReader codecs charset s.content with
  | .error m => .error (.mishap m)
  | .ok r =>
    if s.isClosed then .error (.mishap .closed)
    else
      match s.content.refusal with
      | some t => .error t
      | none => .ok r

/-- Is the stream taken over by whoever reads it?  Not if it has to be decoded and there is no such
    coding, or if it refuses. -/
def isTakenOver (codecs : Codecs) (s : Stream) (charset : Text) : Bool :=
  match s.content with
  | .text .. => true
  | content =>
    match Charset.decoderNamed codecs charset with
    | .ok _ => content.refusal.isNone
    | .error _ => false

/-- The stream after somebody has tried to read all of it. -/
def afterReading (codecs : Codecs) (s : Stream) (charset : Text) : Stream :=
  if s.isTakenOver codecs charset then s.close else s

end Stream

end FreshNames
