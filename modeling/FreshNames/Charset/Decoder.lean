import FreshNames.Charset

/-!
# Decoding piece by piece

A decoder is handed bytes in pieces and gives the text of as many whole characters as have arrived.
It keeps the bytes that are left over and puts them in front of the next piece; places in messages
count from there.  A character set whose mark has not arrived yet stays open until it has, and is
settled from then on.

* `Decoder.feed` - the text of one more piece, and the decoder for the next one;
* `CodecError` - what a codec says that is not described here;
* `DecodeError` - bytes that are no text, or a mark that is missing.
-/

set_option autoImplicit false

namespace FreshNames

/-- An error that is not described here, by its class and its wording. -/
structure OtherError where
  kind : Text
  message : Text
  deriving DecidableEq, Repr

/-- Why a codec gives no text. -/
inductive CodecError
  /-- Some bytes are no character. -/
  | undecodable (message : Text)
  /-- Anything else. -/
  | other (e : OtherError)
  deriving DecidableEq, Repr

/-- Why a piece of data gives no text. -/
inductive DecodeError
  /-- Some bytes are no character. -/
  | fault (f : Charset.Fault)
  /-- The data begins with a character, where a mark of a unit of so many bits has to stand. -/
  | markMissing (bits : Nat)
  /-- A codec says so. -/
  | codec (e : CodecError)
  deriving DecidableEq, Repr

/-- What is said of a missing mark. -/
def markMissingMessage (bits : Nat) : String := s!"UTF-{bits} stream does not start with BOM"

/-- The character set as far as it is known, and the bytes that are left over from earlier pieces. -/
structure Decoder where
  charset : Charset
  leftOver : Bytes
  deriving DecidableEq

namespace Decoder

open Charset

/-- The decoder before the first piece. -/
def ofCharset (charset : Charset) : Decoder := ⟨charset, []⟩

/-- Decodes a piece in a layout that is known; its first byte has the place `start`. -/
def feedFixed (l : Layout) (start : Nat) (final : Bool) (piece : Bytes) :
    Except DecodeError (Text × Decoder) :=
  match l.decode final start piece with
  | .error f => .error (.fault f)
  | .ok (t, left) => .ok (t, ⟨.fixed l, left⟩)

/-- Decodes a piece of data in which a mark has to come first.  As long as there is no whole
    character the mark may still come. -/
def feedMarked (charset : Charset) (bits : Nat) (mark : ByteOrder → Bytes)
    (layout : ByteOrder → Layout) (final : Bool) (piece : Bytes) :
    Except DecodeError (Text × Decoder) :=
  match markedOrder? mark piece with
  | some order => feedFixed (layout order) (bits / 8) final (piece.drop (bits / 8))
  | none =>
    match (layout .little).decode final 0 piece with
    | .error f => .error (.fault f)
    | .ok (t, left) => if t.isEmpty then .ok ([], ⟨charset, left⟩) else .error (.markMissing bits)

/-- The text of the next piece.  With `final` the data ends here: only what may be the beginning of
    a UTF-8 mark is then still left over. -/
def feed (d : Decoder) (final : Bool) (bytes : Bytes) : Except DecodeError (Text × Decoder) :=
  let piece := d.leftOver ++ bytes
  match d.charset with
  | .fixed l => feedFixed l 0 final piece
  | .utf8Marked =>
    if mark8.isPrefixOf piece then feedFixed .utf8 0 final (piece.drop 3)
    else if piece.isPrefixOf mark8 then .ok ([], ⟨.utf8Marked, piece⟩)
    else feedFixed .utf8 0 final piece
  | .utf16Marked => feedMarked .utf16Marked 16 mark16 .utf16 final piece
  | .utf32Marked => feedMarked .utf32Marked 32 mark32 .utf32 final piece

theorem feedFixed_nil (l : Layout) (start : Nat) (final : Bool) :
    feedFixed l start final [] = .ok ([], ⟨.fixed l, []⟩) := by
  simp [feedFixed, Layout.decode_nil]

end Decoder

end FreshNames
