import FreshNames.Charset.Decoder

/-!
# Codecs

Text may also be coded in ways that are not described here.  Of such a codec it is known what it makes
of bytes: of whole data, and of data that comes in pieces, where it may keep in mind all the pieces
that there were before.

* `StreamCodec` - a codec for pieces, with the one law that is needed;
* `Codec` - a codec for whole data, and perhaps for pieces; `Codecs` - the codecs by their names;
* `PieceDecoder.feed` - the text of one more piece, in a character set or by a codec.
-/

set_option autoImplicit false

namespace FreshNames

/-- The pieces of data that there were, each with whether the data has ended there. -/
abbrev Pieces := List (Bool × Bytes)

/-- A codec for data that comes in pieces.  Once it has been told that the data ends, it holds nothing
    back: at the next end nothing more comes. -/
structure StreamCodec where
  next : (earlier : Pieces) → (final : Bool) → Bytes → Except CodecError Text
  flushes : ∀ (earlier : Pieces) (piece : Bytes) (t : Text), next earlier true piece = .ok t →
    next (earlier ++ [(true, piece)]) true [] = .ok []

/-- A codec.  Not every one is made for streams. -/
structure Codec where
  whole : Bytes → Except CodecError Text
  stream : Except OtherError StreamCodec

/-- The codecs that are not described here, by their names. -/
abbrev Codecs := Text → Option Codec

/-- A way in which text is coded. -/
inductive Coding
  | charset (c : Charset)
  | codec (c : Codec)

/-- A decoder of pieces: that of a character set, or a codec and the pieces that it has been handed. -/
inductive PieceDecoder
  | charset (d : Decoder)
  | codec (c : StreamCodec) (earlier : Pieces)

namespace PieceDecoder

/-- The decoder of a character set before the first piece. -/
def ofCharset (c : Charset) : PieceDecoder := charset (.ofCharset c)

/-- The text of the next piece; with `final` the data ends here. -/
def feed (d : PieceDecoder) (final : Bool) (bytes : Bytes) :
    Except DecodeError (Text × PieceDecoder) :=
  match d with
  | charset d =>
    match d.feed final bytes with
    | .error e => .error e
    | .ok (t, d) => .ok (t, charset d)
  | codec c earlier =>
    match c.next earlier final bytes with
    | .error e => .error (.codec e)
    | .ok t => .ok (t, codec c (earlier ++ [(final, bytes)]))

end PieceDecoder

/-- The text of whole data, in a character set or by a codec. -/
def Coding.decode (c : Coding) (bytes : Bytes) : Except DecodeError Text :=
  match c with
  | charset c =>
    match c.decode bytes with
    | .error f => .error (.fault f)
    | .ok t => .ok t
  | codec c =>
    match c.whole bytes with
    | .error e => .error (.codec e)
    | .ok t => .ok t

end FreshNames
