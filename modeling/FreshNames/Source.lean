import FreshNames.Extraction
import FreshNames.Stream
import FreshNames.World

/-!
# Sources of dictionaries

A dictionary is read from a URL or a path, told apart by their text, from a path that is known to be
one, or from a stream that is open.

* `Source.opening` - the reader of a source, and what is logged on the way;
* `Source.readParts` - the text of a source, in parts of given lengths;
* `Source.extract` - the alphabet of a source;
* `Stream.extract` - the alphabet of a stream that is read as it is.
-/

set_option autoImplicit false

namespace FreshNames

/-- Where a dictionary is. -/
inductive Source
  /-- The text of a URL or of a path. -/
  | location (t : Text)
  /-- A path, whatever it looks like. -/
  | path (t : Text)
  /-- A stream that is open. -/
  | stream (s : Stream)

namespace Source

/-- The text of the source in messages. -/
def display : Source → Text
  | location t => t
  | path t => Path.normal t
  | stream s => s.display

/-- The logger of sources. -/
def logger : String := "namefactory.source"

/-! ## Opening -/

/-- What comes of opening a source. -/
structure Opening where
  records : List Record
  result : Except SourceError Reader

/-- The reader of the file at a path.  Whether the name of the character set can be one is asked
    first, and whether there is such a character set last. -/
def openFile (w : World) (charset path : Text) : Except Trouble Reader :=
  if Charset.holdsNull charset then .error (.mishap .nullInCharset)
  else
    match w.files.read path with
    | .error e => .error e.trouble
    | .ok bytes =>
      match Stream.decoding w.codecs (.ofBytes bytes) charset with
      | .error m => .error (.mishap m)
      | .ok r => .ok r

/-- The reader of what a URL gives, which is decoded as a whole and keeps its line ends. -/
def openUrl (w : World) (charset url : Text) : Except Trouble Reader :=
  match w.fetch url with
  | .error e => .error e
  | .ok bytes =>
    match Charset.decodeNamed w.codecs charset bytes with
    | .error e => .error e
    | .ok t => .ok (.plain t none)

/-- A result whose trouble is put down to a source. -/
def blamed {α : Type} (source : Text) : Except Trouble α → Except SourceError α
  | .error e => .error (e.blame source)
  | .ok r => .ok r

/-- Opens a file, and logs that. -/
def fileOpening (w : World) (charset path : Text) : Opening :=
  ⟨[.debug logger ("Opening dictionary file ".toList ++ path)], blamed path (openFile w charset path)⟩

/-- Opens a URL, and logs that. -/
def urlOpening (w : World) (charset url : Text) : Opening :=
  ⟨[.debug logger ("Opening dictionary URL ".toList ++ url)], blamed url (openUrl w charset url)⟩

/-- Opens a source.  Its text decides whether it is a URL or a path, and a text that is neither is
    refused.  What goes wrong with an open stream is not put down to the source. -/
def opening (w : World) (charset : Text) : Source → Opening
  | location t =>
    match Url.isUrl t with
    | .error e => ⟨[], .error (.bare (.mishap (.malformedUrl e)))⟩
    | .ok true => urlOpening w charset t
    | .ok false => fileOpening w charset t
  | path t => fileOpening w charset (Path.normal t)
  | stream s =>
    match s.reader w.codecs charset with
    | .error t => ⟨[], .error (.bare t)⟩
    | .ok r => ⟨[], .ok r⟩

/-! ## Reading -/

/-- The text of a source in parts: each as long as asked for, and a last one with all that is left.
    What goes wrong once the source is open is passed on as it is. -/
def readParts (w : World) (charset : Text) (s : Source) (lengths : List Int) :
    Except SourceError (List Text) :=
  match (s.opening w charset).result with
  | .error e => .error e
  | .ok r =>
    match r.readParts lengths with
    | .error e => .error (.bare e.trouble)
    | .ok ts => .ok ts

/-- What comes of extracting an alphabet from a source. -/
structure Reading where
  records : List Record
  result : Except SourceError Extraction

/-- The alphabet of a source.  Any cause of failure of reading is put down to the source. -/
def extract (w : World) (charset : Text) (welcome : Welcome) (shuffler : Shuffler) (s : Source) :
    Reading :=
  let opening := s.opening w charset
  match opening.result with
  | .error e => ⟨opening.records, .error e⟩
  | .ok r =>
    match r.drain with
    | .error e => ⟨opening.records, .error (e.trouble.blame s.display)⟩
    | .ok t =>
      let extraction := FreshNames.extract welcome t shuffler
      ⟨opening.records ++ [extraction.record], .ok extraction⟩

end Source

/-! ## Streams as they are -/

namespace Stream

/-- The text that is read from a stream without decoding.  A stream of bytes has none, unless it is
    at its end: its first byte is already no text. -/
def plainText (s : Stream) : Except Trouble Text :=
  if s.isClosed then .error (.mishap .closed)
  else
    match s.content with
    | .text rest patience =>
      match (Reader.plain rest patience).drain with
      | .error e => .error e.trouble
      | .ok t => .ok t
    | .bytes rest _ => if rest.isEmpty then .ok [] else .error (.mishap .bytesForText)
    | .raw feed _ =>
      match feed.next 1 with
      | .error f => .error f.trouble
      | .ok (bytes, _) => if bytes.isEmpty then .ok [] else .error (.mishap .bytesForText)

/-- The alphabet of a stream that is read as it is, and the stream afterwards, which is closed
    whatever comes of it. -/
def extract (welcome : Welcome) (shuffler : Shuffler) (s : Stream) :
    Except Trouble Extraction × Stream :=
  (match s.plainText with
    | .error e => .error e
    | .ok t => .ok (FreshNames.extract welcome t shuffler), s.close)

end Stream

end FreshNames
