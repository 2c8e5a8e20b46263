import FreshNames.Failure

/-!
# Codings by name

Whoever reads text gives the name of its coding: that of a character set, or of a codec.  A stream may
also be read in the character set of the system.

* `Charset.named` - the coding of a name, or why there is none;
* `Charset.IsNamed` - the names of the character sets that are described here;
* `Charset.decoderNamed` - the decoder of a stream;
* `Charset.decodeNamed` - the text of whole data, where no data is no text under any name.
-/

set_option autoImplicit false

namespace FreshNames.Charset

/-- Does the name hold the character that ends names? -/
def holdsNull (name : Text) : Bool := name.contains '\x00'

/-- The coding of a name.  The character sets that are described here go before the codecs. -/
def named (codecs : Codecs) (name : Text) : Except Mishap Coding :=
  if holdsNull name then .error .nullInCharset
  else
    match named? name with
    | some c => .ok (.charset c)
    | none =>
      match codecs name with
      | some c => .ok (.codec c)
      | none => .error (.unknownCharset name)

/-- A name of a character set, whatever codecs there are. -/
structure IsNamed (c : Charset) (name : Text) : Prop where
  noNull : holdsNull name = false
  named? : Charset.named? name = some c

instance (c : Charset) (name : Text) : Decidable (c.IsNamed name) :=
  decidable_of_iff (holdsNull name = false ∧ Charset.named? name = some c)
    ⟨fun ⟨hnull, hname⟩ => ⟨hnull, hname⟩, fun h => ⟨h.noNull, h.named?⟩⟩

theorem IsNamed.named_eq {c : Charset} {name : Text} (h : c.IsNamed name) (codecs : Codecs) :
    named codecs name = .ok (.charset c) := by
  simp [named, h.noNull, h.named?]

/-- The name of the character set of the system. -/
def systemName : Text := "locale".toList

/-- The character set of the system. -/
def system : Charset := fixed .utf8

/-- The decoder of a stream.  A codec may not be made for streams. -/
def decoderNamed (codecs : Codecs) (name : Text) : Except Mishap PieceDecoder :=
  if name = systemName then .ok (.ofCharset system)
  else
    match named codecs name with
    | .error m => .error m
    | .ok (.charset c) => .ok (.ofCharset c)
    | .ok (.codec c) =>
      match c.stream with
      | .error e => .error (.other e)
      | .ok c => .ok (.codec c [])

/-- The text of whole data.  Where there is no data, it is not asked whether there is such a coding,
    as long as its name can be one. -/
def decodeNamed (codecs : Codecs) (name : Text) (bytes : Bytes) : Except Trouble Text :=
  if holdsNull name then .error (.mishap .nullInCharset)
  else if bytes.isEmpty then .ok []
  else
    match named codecs name with
    | .error m => .error (.mishap m)
    | .ok c =>
      match c.decode bytes with
      | .error e => .error e.trouble
      | .ok t => .ok t

/-- The decoder of a character set is found under its names. -/
theorem IsNamed.decoderNamed_eq {c : Charset} {name : Text} (h : c.IsNamed name) (codecs : Codecs) :
    decoderNamed codecs name = .ok (.ofCharset c) := by
  have hsystem : Charset.named? systemName = none := by decide
  have hne : name ≠ systemName := by
    rintro rfl
    have hname := h.named?
    rw [hsystem] at hname
    cases hname
  rw [decoderNamed, if_neg hne, h.named_eq]

end FreshNames.Charset
