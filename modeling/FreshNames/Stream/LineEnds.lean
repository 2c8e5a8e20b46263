import FreshNames.Charset.Codec

/-!
# Line ends

Text is read with one kind of line end: a carriage return, alone or with a line feed behind it,
becomes a line feed.  As text arrives in pieces, a carriage return at the end of a piece is held
back until it is known what follows.

* `unifyLineEnds` - the rule for whole text;
* `LineDecoder.feed` - a decoder of pieces that also follows this rule.
-/

set_option autoImplicit false

namespace FreshNames

/-- The text with every line end as a line feed. -/
def unifyLineEnds : Text → Text
  | [] => []
  | '\r' :: '\n' :: rest => '\n' :: unifyLineEnds rest
  | '\r' :: rest => '\n' :: unifyLineEnds rest
  | c :: rest => c :: unifyLineEnds rest

/-- A decoder, and whether a carriage return is held back. -/
structure LineDecoder where
  decoder : PieceDecoder
  holdsReturn : Bool

namespace LineDecoder

/-- The decoder before the first piece. -/
def start (decoder : PieceDecoder) : LineDecoder := ⟨decoder, false⟩

/-- The text with the carriage return before it that was held back. -/
def withHeld (holds : Bool) (t : Text) : Text := if holds then '\r' :: t else t

/-- What is passed on of a piece of text, and whether a carriage return is held back afterwards. -/
def release (holds final : Bool) (t : Text) : Text × Bool :=
  if final then (unifyLineEnds (withHeld holds t), false)
  else if t.isEmpty then ([], holds)
  else if t.getLast? = some '\r' then (unifyLineEnds (withHeld holds t.dropLast), true)
  else (unifyLineEnds (withHeld holds t), false)

/-- The text of the next piece; with `final` the data ends here. -/
def feed (d : LineDecoder) (final : Bool) (bytes : Bytes) :
    Except DecodeError (Text × LineDecoder) :=
  match d.decoder.feed final bytes with
  | .error e => .error e
  | .ok (t, decoder) =>
    let (t, holds) := release d.holdsReturn final t
    .ok (t, ⟨decoder, holds⟩)

end LineDecoder

theorem unifyLineEnds_of_not_mem {t : Text} (h : '\r' ∉ t) : unifyLineEnds t = t := by
  induction t with
  | nil => rfl
  | cons c rest ih =>
    have hc : c ≠ '\r' := fun e => h (by simp [e])
    have hr : '\r' ∉ rest := fun e => h (by simp [e])
    rw [unifyLineEnds.eq_4 c rest (fun _ e => absurd e hc) hc, ih hr]

end FreshNames
