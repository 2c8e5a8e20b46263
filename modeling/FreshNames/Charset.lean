import FreshNames.Charset.Layout
import FreshNames.Text.UpperCase

/-!
# Character sets

A character set is a byte layout, or a family of layouts whose data begins with a mark that tells
the order of bytes (or merely that it is there).

* `Charset.named?` - the character set of a name; case, and what stands between letters and digits,
  do not matter;
* `Charset.decode` - the text of bytes that are there as a whole;
* `Charset.encode` - the bytes of a text, or the characters that have none.
-/

set_option autoImplicit false

namespace FreshNames

/-- How bytes are read as text. -/
inductive Charset
  /-- Bytes in a fixed layout. -/
  | fixed (l : Charset.Layout)
  /-- UTF-8 that may begin with a mark. -/
  | utf8Marked
  /-- UTF-16 whose mark tells the order of bytes. -/
  | utf16Marked
  /-- UTF-32 whose mark tells the order of bytes. -/
  | utf32Marked
  deriving DecidableEq, Repr

namespace Charset

/-! ## Names -/

/-- Is the character kept in a normalised name? -/
def isNameChar (c : Char) : Bool := c.isAlphanum || c == '.'

/-- A name in lower case, its letters, digits and dots kept and each stretch of other characters
    between them turned into one low line. -/
def normalName : (pending : Bool) → Text → Text
  | _, [] => []
  | pending, c :: rest =>
    if isNameChar c then
      if pending then '_' :: c.toLower :: normalName false rest
      else c.toLower :: normalName false rest
    else normalName true rest

/-- The normalised name, without a low line in front. -/
def normalise (t : Text) : Text := normalName false (t.dropWhile (!isNameChar ·))

/-- The proper names of the character sets. -/
def properNames : List (String × Charset) := [
  ("utf_8", fixed .utf8), ("utf_8_sig", utf8Marked), ("ascii", fixed .ascii),
  ("latin_1", fixed .latin1), ("utf_16", utf16Marked), ("utf_16_be", fixed (.utf16 .big)),
  ("utf_16_le", fixed (.utf16 .little)), ("utf_32", utf32Marked),
  ("utf_32_be", fixed (.utf32 .big)), ("utf_32_le", fixed (.utf32 .little))]

/-- Other names that they go by. -/
def otherNames : List (String × Charset) := [
  ("u8", fixed .utf8), ("utf", fixed .utf8), ("utf8", fixed .utf8), ("utf8_ucs2", fixed .utf8),
  ("utf8_ucs4", fixed .utf8), ("cp65001", fixed .utf8),
  ("646", fixed .ascii), ("ansi_x3.4_1968", fixed .ascii), ("ansi_x3_4_1968", fixed .ascii),
  ("ansi_x3.4_1986", fixed .ascii), ("cp367", fixed .ascii), ("csascii", fixed .ascii),
  ("ibm367", fixed .ascii), ("iso646_us", fixed .ascii), ("iso_646.irv_1991", fixed .ascii),
  ("iso_ir_6", fixed .ascii), ("us", fixed .ascii), ("us_ascii", fixed .ascii),
  ("8859", fixed .latin1), ("cp819", fixed .latin1), ("csisolatin1", fixed .latin1),
  ("ibm819", fixed .latin1), ("iso8859", fixed .latin1), ("iso8859_1", fixed .latin1),
  ("iso_8859_1", fixed .latin1), ("iso_8859_1_1987", fixed .latin1), ("iso_ir_100", fixed .latin1),
  ("l1", fixed .latin1), ("latin", fixed .latin1), ("latin1", fixed .latin1),
  ("u16", utf16Marked), ("utf16", utf16Marked),
  ("unicodebigunmarked", fixed (.utf16 .big)), ("utf_16be", fixed (.utf16 .big)),
  ("unicodelittleunmarked", fixed (.utf16 .little)), ("utf_16le", fixed (.utf16 .little)),
  ("u32", utf32Marked), ("utf32", utf32Marked),
  ("utf_32be", fixed (.utf32 .big)), ("utf_32le", fixed (.utf32 .little))]

/-- The character set that a table gives for a name. -/
def lookUp? (table : List (String × Charset)) (name : Text) : Option Charset :=
  (table.find? fun entry => entry.1.toList == name).map (·.2)

/-- A name with low lines in the place of dots. -/
def undotted (name : Text) : Text := name.map fun c => if c = '.' then '_' else c

/-- The character set of a name.  Dots may stand for low lines in all names but the proper ones. -/
def named? (name : Text) : Option Charset :=
  let name := normalise name
  (lookUp? otherNames name).or ((lookUp? otherNames (undotted name)).or (lookUp? properNames name))

/-! ## Marks -/

/-- The mark of UTF-8. -/
def mark8 : Bytes := [0xEF, 0xBB, 0xBF]

/-- The mark of UTF-16 in a byte order. -/
def mark16 : ByteOrder → Bytes
  | .little => [0xFF, 0xFE]
  | .big => [0xFE, 0xFF]

/-- The mark of UTF-32 in a byte order. -/
def mark32 : ByteOrder → Bytes
  | .little => [0xFF, 0xFE, 0, 0]
  | .big => [0, 0, 0xFE, 0xFF]

/-- The byte order that the mark in front tells, if there is one. -/
def markedOrder? (mark : ByteOrder → Bytes) (bytes : Bytes) : Option ByteOrder :=
  if (mark .little).isPrefixOf bytes then some .little
  else if (mark .big).isPrefixOf bytes then some .big
  else none

/-! ## Decoding and encoding as a whole -/

/-- The text of whole data in a fixed layout. -/
def decodeFixed (l : Layout) (start : Nat) (bytes : Bytes) : Except Fault Text :=
  match l.decode true start bytes with
  | .error f => .error f
  | .ok (t, _) => .ok t

/-- The text of whole data.  A mark in front is dropped; without one the least significant byte
    comes first.  Places count from the front, but behind a mark of UTF-8. -/
def decode (charset : Charset) (bytes : Bytes) : Except Fault Text :=
  match charset with
  | fixed l => decodeFixed l 0 bytes
  | utf8Marked =>
    if mark8.isPrefixOf bytes then decodeFixed .utf8 0 (bytes.drop 3) else decodeFixed .utf8 0 bytes
  | utf16Marked =>
    match markedOrder? mark16 bytes with
    | some order => decodeFixed (.utf16 order) 2 (bytes.drop 2)
    | none => decodeFixed (.utf16 .little) 0 bytes
  | utf32Marked =>
    match markedOrder? mark32 bytes with
    | some order => decodeFixed (.utf32 order) 4 (bytes.drop 4)
    | none => decodeFixed (.utf32 .little) 0 bytes

/-- The layout in which text is written. -/
def layout : Charset → Layout
  | fixed l => l
  | utf8Marked => .utf8
  | utf16Marked => .utf16 .little
  | utf32Marked => .utf32 .little

/-- The mark that is written before the first text. -/
def mark : Charset → Bytes
  | fixed _ => []
  | utf8Marked => mark8
  | utf16Marked => mark16 .little
  | utf32Marked => mark32 .little

/-- Characters that have no bytes in a layout: the first one, its place, and how many stand there
    in a row. -/
structure Unencodable where
  layout : Layout
  char : Char
  start : Nat
  width : Nat
  deriving DecidableEq, Repr

/-- The wording: a single character is shown by its code point, several are given by places. -/
def Unencodable.message (u : Unencodable) : String :=
  let what :=
    if u.width = 1 then
      s!"character '{String.ofList (Text.escapedCode u.char)}' in position {u.start}"
    else s!"characters in position {u.start}-{u.start + u.width - 1}"
  let limit := if u.layout = .ascii then 128 else 256
  s!"'{u.layout.name}' codec can't encode {what}: ordinal not in range({limit})"

/-- The first characters of a text that have no bytes. -/
def firstUnencodable? (l : Layout) : (start : Nat) → Text → Option Unencodable
  | _, [] => none
  | start, c :: rest =>
    if (l.encodeChar c).isSome then firstUnencodable? l (start + 1) rest
    else some ⟨l, c, start, ((c :: rest).takeWhile fun d => (l.encodeChar d).isNone).length⟩

/-- The bytes of a text, without a mark. -/
def encode (charset : Charset) (t : Text) : Except Unencodable Bytes :=
  match firstUnencodable? charset.layout 0 t with
  | some u => .error u
  | none => .ok (t.flatMap fun c => (charset.layout.encodeChar c).getD [])

end Charset

end FreshNames
