import FreshNames.Text.Quoted

/-!
# Byte layouts

A layout says how characters stand as bytes.  Everything about it is in one function, `Layout.scan`,
which looks at the bytes in front: they are a character, or they end in the middle of one, or they
are no character.  `Layout.decode` repeats it, either to the end of the data or as far as whole
characters go, and `Layout.encode` is the way back.

* `Layout.scan`, `Layout.decode`, `Layout.encode`;
* `Fault` - where and why bytes are no text, and its wording;
* `decode_nil`, `decode_cons` - decoding goes one character at a time.
-/

set_option autoImplicit false

namespace FreshNames

/-- A sequence of bytes. -/
abbrev Bytes := List UInt8

namespace Charset

/-! ## Layouts and faults -/

/-- Which byte of a unit of several comes first. -/
inductive ByteOrder
  /-- The least significant byte comes first. -/
  | little
  /-- The most significant byte comes first. -/
  | big
  deriving DecidableEq, Repr

/-- How characters stand as bytes. -/
inductive Layout
  | utf8
  | ascii
  | latin1
  | utf16 (order : ByteOrder)
  | utf32 (order : ByteOrder)
  deriving DecidableEq, Repr

/-- The name of a layout in messages. -/
def Layout.name : Layout → String
  | utf8 => "utf-8"
  | ascii => "ascii"
  | latin1 => "latin-1"
  | utf16 .little => "utf-16-le"
  | utf16 .big => "utf-16-be"
  | utf32 .little => "utf-32-le"
  | utf32 .big => "utf-32-be"

/-- Why bytes are no character. -/
inductive Reason
  | invalidStart
  | invalidContinuation
  | unexpectedEnd
  | truncated
  | loneLowSurrogate
  | loneHighSurrogate
  | surrogate
  | beyondUnicode
  | beyondAscii
  deriving DecidableEq, Repr

/-- The wording of a reason. -/
def Reason.message : Reason → String
  | invalidStart => "invalid start byte"
  | invalidContinuation => "invalid continuation byte"
  | unexpectedEnd => "unexpected end of data"
  | truncated => "truncated data"
  | loneLowSurrogate => "illegal encoding"
  | loneHighSurrogate => "illegal UTF-16 surrogate"
  | surrogate => "code point in surrogate code point range(0xd800, 0xe000)"
  | beyondUnicode => "code point not in range(0x110000)"
  | beyondAscii => "ordinal not in range(128)"

/-- Bytes that are no text: the first offending byte, its place, and how many bytes offend. -/
structure Fault where
  layout : Layout
  reason : Reason
  byte : UInt8
  start : Nat
  width : Nat
  deriving DecidableEq, Repr

/-- The wording of a fault: a single byte is shown, several are given by their places. -/
def Fault.message (f : Fault) : String :=
  let what :=
    if f.width = 1 then
      s!"byte 0x{String.ofList (Text.hexDigits 2 f.byte.toNat)} in position {f.start}"
    else s!"bytes in position {f.start}-{f.start + f.width - 1}"
  s!"'{f.layout.name}' codec can't decode {what}: {f.reason.message}"

/-! ## One character -/

/-- What the bytes in front of a sequence are. -/
inductive Scan
  /-- A character of one byte and `extra` more. -/
  | char (c : Char) (extra : Nat)
  /-- The beginning of a character; if nothing follows, the reason holds for `width` bytes. -/
  | short (reason : Reason) (width : Nat)
  /-- No character, whatever follows; the reason holds for `width` bytes. -/
  | bad (reason : Reason) (width : Nat)
  deriving DecidableEq

/-- Is this a byte that continues a character in UTF-8? -/
def isContinuation (b : UInt8) : Bool := 0x80 ≤ b && b ≤ 0xBF

/-- May the second byte follow the first one in UTF-8?  Forms that are longer than need be,
    surrogates and numbers beyond Unicode are shut out here. -/
def maySecond (first second : UInt8) : Bool :=
  isContinuation second
    && !(first == 0xE0 && second < 0xA0) && !(first == 0xED && 0xA0 ≤ second)
    && !(first == 0xF0 && second < 0x90) && !(first == 0xF4 && 0x90 ≤ second)

/-- The six bits that a continuation byte carries. -/
def lowBits (b : UInt8) : Nat := b.toNat % 0x40

/-- The characters of UTF-8.  The first two bytes of a surrogate count as the beginning of a
    character as long as they stand last. -/
def scanUtf8 (b : UInt8) (rest : Bytes) : Scan :=
  if b < 0x80 then .char (Char.ofNat b.toNat) 0
  else if b < 0xC2 then .bad .invalidStart 1
  else if b < 0xE0 then
    match rest with
    | [] => .short .unexpectedEnd 1
    | b1 :: _ =>
      if isContinuation b1 then .char (Char.ofNat (b.toNat % 0x20 * 0x40 + lowBits b1)) 1
      else .bad .invalidContinuation 1
  else if b < 0xF0 then
    match rest with
    | [] => .short .unexpectedEnd 1
    | [b1] =>
      if maySecond b b1 then .short .unexpectedEnd 2
      else if b == 0xED && isContinuation b1 then .short .invalidContinuation 1
      else .bad .invalidContinuation 1
    | b1 :: b2 :: _ =>
      if !maySecond b b1 then .bad .invalidContinuation 1
      else if !isContinuation b2 then .bad .invalidContinuation 2
      else .char (Char.ofNat ((b.toNat % 0x10 * 0x40 + lowBits b1) * 0x40 + lowBits b2)) 2
  else if b < 0xF5 then
    match rest with
    | [] => .short .unexpectedEnd 1
    | [b1] => if maySecond b b1 then .short .unexpectedEnd 2 else .bad .invalidContinuation 1
    | [b1, b2] =>
      if !maySecond b b1 then .bad .invalidContinuation 1
      else if isContinuation b2 then .short .unexpectedEnd 3
      else .bad .invalidContinuation 2
    | b1 :: b2 :: b3 :: _ =>
      if !maySecond b b1 then .bad .invalidContinuation 1
      else if !isContinuation b2 then .bad .invalidContinuation 2
      else if !isContinuation b3 then .bad .invalidContinuation 3
      else .char (Char.ofNat
        (((b.toNat % 8 * 0x40 + lowBits b1) * 0x40 + lowBits b2) * 0x40 + lowBits b3)) 3
  else .bad .invalidStart 1

/-- The number that two bytes write. -/
def unit16 (order : ByteOrder) (b0 b1 : UInt8) : Nat :=
  match order with
  | .little => b0.toNat + b1.toNat * 0x100
  | .big => b0.toNat * 0x100 + b1.toNat

/-- Is the unit the first half of a pair? -/
def isHighSurrogate (u : Nat) : Bool := 0xD800 ≤ u && u < 0xDC00

/-- Is the unit the second half of a pair? -/
def isLowSurrogate (u : Nat) : Bool := 0xDC00 ≤ u && u < 0xE000

/-- The characters of UTF-16. -/
def scanUtf16 (order : ByteOrder) (b0 : UInt8) (rest : Bytes) : Scan :=
  match rest with
  | [] => .short .truncated 1
  | b1 :: rest =>
    let u := unit16 order b0 b1
    if isLowSurrogate u then .bad .loneLowSurrogate 2
    else if isHighSurrogate u then
      match rest with
      | b2 :: b3 :: _ =>
        let v := unit16 order b2 b3
        if isLowSurrogate v then
          .char (Char.ofNat (0x10000 + (u - 0xD800) * 0x400 + (v - 0xDC00))) 3
        else .bad .loneHighSurrogate 2
      | rest => .short .unexpectedEnd (2 + rest.length)
    else .char (Char.ofNat u) 1

/-- The characters of UTF-32. -/
def scanUtf32 (order : ByteOrder) (b0 : UInt8) (rest : Bytes) : Scan :=
  match rest with
  | b1 :: b2 :: b3 :: _ =>
    let u :=
      match order with
      | .little => unit16 order b0 b1 + unit16 order b2 b3 * 0x10000
      | .big => unit16 order b0 b1 * 0x10000 + unit16 order b2 b3
    if 0xD800 ≤ u && u < 0xE000 then .bad .surrogate 4
    else if 0x110000 ≤ u then .bad .beyondUnicode 4
    else .char (Char.ofNat u) 3
  | rest => .short .truncated (1 + rest.length)

/-- What the bytes in front are, in a given layout. -/
def Layout.scan : Layout → UInt8 → Bytes → Scan
  | utf8, b, rest => scanUtf8 b rest
  | ascii, b, _ => if b < 0x80 then .char (Char.ofNat b.toNat) 0 else .bad .beyondAscii 1
  | latin1, b, _ => .char (Char.ofNat b.toNat) 0
  | utf16 order, b, rest => scanUtf16 order b rest
  | utf32 order, b, rest => scanUtf32 order b rest

/-! ## Decoding -/

/-- The text of a sequence of bytes whose first byte has the place `start`, and the bytes that are
    left over.  With `final` the data ends there and nothing may be left over. -/
def Layout.decode (l : Layout) (final : Bool) (start : Nat) : Bytes → Except Fault (Text × Bytes)
  | [] => .ok ([], [])
  | b :: rest =>
    match l.scan b rest with
    | .char c extra =>
      match l.decode final (start + 1 + extra) (rest.drop extra) with
      | .error f => .error f
      | .ok (t, left) => .ok (c :: t, left)
    | .short reason width =>
      if final then .error ⟨l, reason, b, start, width⟩ else .ok ([], b :: rest)
    | .bad reason width => .error ⟨l, reason, b, start, width⟩
termination_by bytes => bytes.length
decreasing_by simp only [List.length_drop, List.length_cons]; omega

theorem Layout.decode_nil (l : Layout) (final : Bool) (start : Nat) :
    l.decode final start [] = .ok ([], []) := by
  rw [Layout.decode]

theorem Layout.decode_cons_char {l : Layout} {b : UInt8} {rest : Bytes} {c : Char} {extra : Nat}
    (h : l.scan b rest = .char c extra) (final : Bool) (start : Nat) :
    l.decode final start (b :: rest) =
      (match l.decode final (start + 1 + extra) (rest.drop extra) with
        | .error f => .error f
        | .ok (t, left) => .ok (c :: t, left)) := by
  rw [Layout.decode, h]

/-! ## Encoding -/

/-- The two bytes of a unit. -/
def bytes16 (order : ByteOrder) (u : Nat) : Bytes :=
  match order with
  | .little => [UInt8.ofNat (u % 0x100), UInt8.ofNat (u / 0x100)]
  | .big => [UInt8.ofNat (u / 0x100), UInt8.ofNat (u % 0x100)]

/-- The byte that carries the six low bits of a number. -/
def continuation (n : Nat) : UInt8 := UInt8.ofNat (0x80 + n % 0x40)

/-- A character in UTF-8. -/
def encodeUtf8 (n : Nat) : Bytes :=
  if n < 0x80 then [UInt8.ofNat n]
  else if n < 0x800 then [UInt8.ofNat (0xC0 + n / 0x40), continuation n]
  else if n < 0x10000 then
    [UInt8.ofNat (0xE0 + n / 0x1000), continuation (n / 0x40), continuation n]
  else
    [UInt8.ofNat (0xF0 + n / 0x40000), continuation (n / 0x1000), continuation (n / 0x40),
      continuation n]

/-- A character in UTF-16. -/
def encodeUtf16 (order : ByteOrder) (n : Nat) : Bytes :=
  if n < 0x10000 then bytes16 order n
  else
    bytes16 order (0xD800 + (n - 0x10000) / 0x400) ++ bytes16 order (0xDC00 + (n - 0x10000) % 0x400)

/-- A character in UTF-32. -/
def encodeUtf32 (order : ByteOrder) (n : Nat) : Bytes :=
  match order with
  | .little => bytes16 order (n % 0x10000) ++ bytes16 order (n / 0x10000)
  | .big => bytes16 order (n / 0x10000) ++ bytes16 order (n % 0x10000)

/-- The bytes of a character; `none` if the layout has none for it. -/
def Layout.encodeChar : Layout → Char → Option Bytes
  | utf8, c => some (encodeUtf8 c.toNat)
  | ascii, c => if c.toNat < 0x80 then some [UInt8.ofNat c.toNat] else none
  | latin1, c => if c.toNat < 0x100 then some [UInt8.ofNat c.toNat] else none
  | utf16 order, c => some (encodeUtf16 order c.toNat)
  | utf32 order, c => some (encodeUtf32 order c.toNat)

/-- The bytes of a text; `none` if some character has none. -/
def Layout.encode? (l : Layout) : Text → Option Bytes
  | [] => some []
  | c :: rest =>
    match l.encodeChar c, l.encode? rest with
    | some bs, some more => some (bs ++ more)
    | _, _ => none

/-- The bytes of a text in UTF-8, which has bytes for every character. -/
def utf8Bytes (t : Text) : Bytes := t.flatMap fun c => encodeUtf8 c.toNat

theorem encode?_utf8 (t : Text) : Layout.utf8.encode? t = some (utf8Bytes t) := by
  induction t with
  | nil => rfl
  | cons c rest ih => simp [Layout.encode?, Layout.encodeChar, ih, utf8Bytes]

end Charset

end FreshNames
