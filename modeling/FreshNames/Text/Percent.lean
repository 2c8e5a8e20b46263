import FreshNames.Charset.Layout

/-!
# Percent escapes

A byte may be written as a percent sign and two hexadecimal digits.  A text with such escapes is
read stretch by stretch: the bytes of each stretch of ASCII characters are UTF-8, and bytes that are
no character give the replacement character.

* `hexValue?` - the value of a hexadecimal digit;
* `unescapedBytes` - the bytes of a stretch; `decodeLossy` - their text;
* `percentDecoded` - the whole text.
-/

set_option autoImplicit false

namespace FreshNames.Text

/-- The value of a hexadecimal digit in either case. -/
def hexValue? (c : Char) : Option Nat :=
  if '0' ≤ c ∧ c ≤ '9' then some (c.toNat - 48)
  else if 'a' ≤ c ∧ c ≤ 'f' then some (c.toNat - 87)
  else if 'A' ≤ c ∧ c ≤ 'F' then some (c.toNat - 55)
  else none

/-- Is the character in ASCII? -/
def isAscii (c : Char) : Bool := c.toNat < 128

/-- The byte that an escape at the head of a text writes. -/
def escapedByte? : Text → Option UInt8
  | '%' :: c :: d :: _ =>
    match hexValue? c, hexValue? d with
    | some m, some n => some (UInt8.ofNat (16 * m + n))
    | _, _ => none
  | _ => none

/-- The bytes of a stretch of ASCII characters: an escape is one byte, any other character its own
    code. -/
def unescapedBytes : Text → Bytes
  | [] => []
  | c :: rest =>
    match escapedByte? (c :: rest) with
    | some b => b :: unescapedBytes (rest.drop 2)
    | none => UInt8.ofNat c.toNat :: unescapedBytes rest
termination_by t => t.length
decreasing_by
  · simp only [List.length_drop, List.length_cons]; omega
  · simp

/-- What stands for bytes that are no character. -/
def replacement : Char := '\uFFFD'

/-- The text of bytes in UTF-8, with a replacement for every stretch of bytes that are no
    character. -/
def decodeLossy : Bytes → Text
  | [] => []
  | b :: rest =>
    match Charset.scanUtf8 b rest with
    | .char c extra => c :: decodeLossy (rest.drop extra)
    | .short _ width => replacement :: decodeLossy (rest.drop (width - 1))
    | .bad _ width => replacement :: decodeLossy (rest.drop (width - 1))
termination_by bytes => bytes.length
decreasing_by all_goals simp only [List.length_drop, List.length_cons]; omega

/-- The text without escapes. -/
def percentDecoded (t : Text) : Text :=
  (t.splitBy fun c d => isAscii c == isAscii d).flatMap fun stretch =>
    if stretch.all isAscii then decodeLossy (unescapedBytes stretch) else stretch

end FreshNames.Text
