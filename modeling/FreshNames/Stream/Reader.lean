import FreshNames.NumberLimit
import FreshNames.Stream.Feed
import FreshNames.Stream.LineEnds

/-!
# Reading text

Text is read from a reader a number of characters at a time, or all at once.  A reader holds plain
text, or it decodes a feed of bytes: it then takes in the feed piece by piece, as long as characters
are missing, and unifies the line ends.

* `Reader.read` - a number of characters, or all that is left;
* `Reader.drain` - what reading character by character gives, until nothing more comes;
* `ReadError` - a failure of the stream, bytes that are no text, or a number beyond all measure.
-/

set_option autoImplicit false

namespace FreshNames

/-- Why nothing can be read. -/
inductive ReadError
  /-- The stream fails. -/
  | stream (f : StreamFailure)
  /-- What it gives is no text. -/
  | decode (e : DecodeError)
  /-- The number of characters that is asked for does not fit into a word. -/
  | beyondWord
  deriving DecidableEq, Repr

/-! ## Decoded bytes -/

/-- A feed that is being decoded: the characters that wait to be read, and how many bytes and
    characters the last piece had. -/
structure Transcript where
  feed : Feed
  decoder : LineDecoder
  ready : Text
  lastBytes : Nat
  lastChars : Nat

namespace Transcript

/-- The decoded text of a feed. -/
def ofFeed (decoder : PieceDecoder) (feed : Feed) : Transcript := ⟨feed, .start decoder, [], 0, 0⟩

/-- The number of bytes that one reading asks for at least. -/
def slab : Nat := 8192

theorem slab_pos : 0 < slab := by decide

/-- The number of bytes to ask for when so many characters are missing: as many as these had in the
    last piece. -/
def wish (t : Transcript) (missing : Nat) : Nat :=
  if t.lastChars < t.lastBytes ∧ 0 < t.lastChars then max slab (missing * t.lastBytes / t.lastChars)
  else max slab missing

/-- Takes in the next piece; the answer tells whether anything came.  An empty piece ends the data,
    but what was held back until then still comes. -/
def refill (t : Transcript) (missing : Nat) : Except ReadError (Bool × Transcript) :=
  match t.feed.next (t.wish missing) with
  | .error f => .error (.stream f)
  | .ok (piece, feed) =>
    match t.decoder.feed piece.isEmpty piece with
    | .error e => .error (.decode e)
    | .ok (text, decoder) =>
      .ok (!piece.isEmpty || !text.isEmpty, ⟨feed, decoder, text, piece.length, text.length⟩)

/-- Takes in pieces until no more characters are missing or nothing comes. -/
def gather : (rounds missing : Nat) → Transcript → Except ReadError (Text × Transcript)
  | 0, _, t => .ok ([], t)
  | rounds + 1, missing, t =>
    if missing = 0 then .ok ([], t)
    else
      match t.refill missing with
      | .error e => .error e
      | .ok (false, t) => .ok ([], t)
      | .ok (true, t) =>
        let got := t.ready.take missing
        match gather rounds (missing - got.length) { t with ready := t.ready.drop missing } with
        | .error e => .error e
        | .ok (more, t) => .ok (got ++ more, t)

/-- The next `n` characters, fewer only at the end.  Each round but the last ones uses up a part of
    the feed: the very last finds it empty, and the one before may bring what was held back. -/
def take (t : Transcript) (n : Nat) : Except ReadError (Text × Transcript) :=
  let got := t.ready.take n
  let left := { t with ready := t.ready.drop n }
  if n ≤ got.length then .ok (got, left)
  else
    match gather (t.feed.size + 2) (n - got.length) left with
    | .error e => .error e
    | .ok (more, t) => .ok (got ++ more, t)

/-- All that is left.  The bytes that have not been taken in are decoded as one last piece. -/
def all (t : Transcript) : Except ReadError (Text × Transcript) :=
  match t.feed.rest with
  | .error f => .error (.stream f)
  | .ok (bytes, feed) =>
    match t.decoder.feed true bytes with
    | .error e => .error (.decode e)
    | .ok (text, decoder) => .ok (t.ready ++ text, { t with feed, decoder, ready := [] })

/-- The text that pieces of a feed give one after the other, up to an empty one that brings nothing
    more, or to the end of the feed. -/
def drainPieces (failure : Option StreamFailure) : List Bytes → LineDecoder → Except ReadError Text
  | [], d =>
    match failure with
    | some f => .error (.stream f)
    | none =>
      match d.feed true [] with
      | .error e => .error (.decode e)
      | .ok (text, _) => .ok text
  | p :: rest, d =>
    match d.feed p.isEmpty p with
    | .error e => .error (.decode e)
    | .ok (text, d) =>
      if p.isEmpty && text.isEmpty then .ok []
      else
        match drainPieces failure rest d with
        | .error e => .error e
        | .ok more => .ok (text ++ more)

/-- What reading character by character gives.  No reading then asks for more than a slab, as a
    character has few bytes. -/
def drain (t : Transcript) : Except ReadError Text :=
  match drainPieces t.feed.failure (t.feed.slabs slab slab_pos) t.decoder with
  | .error e => .error e
  | .ok text => .ok (t.ready ++ text)

end Transcript

/-! ## Readers -/

/-- How many more readings a stream allows, and how it fails after these. -/
structure Patience where
  readings : Nat
  failure : StreamFailure
  deriving DecidableEq, Repr

/-- Text that is being read. -/
inductive Reader
  /-- Text that is there as it is; it may run out of patience. -/
  | plain (rest : Text) (patience : Option Patience)
  /-- Text that is decoded from bytes. -/
  | decoded (t : Transcript)

namespace Reader

/-- One reading less. -/
def spend : Option Patience → Except ReadError (Option Patience)
  | none => .ok none
  | some ⟨0, failure⟩ => .error (.stream failure)
  | some ⟨readings + 1, failure⟩ => .ok (some ⟨readings, failure⟩)

/-- What a number asks for: so many characters, or all that is left if it is negative. -/
def amount (n : Int) : Except ReadError (Option Nat) :=
  if !fitsWord n then .error .beyondWord else .ok (if n < 0 then none else some n.toNat)

/-- The next `n` characters, or all that is left. -/
def takeOrAll : Reader → Option Nat → Except ReadError (Text × Reader)
  | plain rest patience, some n => .ok (rest.take n, plain (rest.drop n) patience)
  | plain rest patience, none => .ok (rest, plain [] patience)
  | decoded t, n =>
    match (match n with | some n => t.take n | none => t.all) with
    | .error e => .error e
    | .ok (text, t) => .ok (text, decoded t)

/-- The reader after a reading has been begun, which plain text may refuse. -/
def begin : Reader → Except ReadError Reader
  | plain rest patience =>
    match spend patience with
    | .error e => .error e
    | .ok patience => .ok (plain rest patience)
  | decoded t => .ok (decoded t)

/-- The next `n` characters, or all that is left if `n` is negative.  A stream that has lost its
    patience says so before it looks at the number. -/
def read (r : Reader) (n : Int) : Except ReadError (Text × Reader) :=
  match r.begin with
  | .error e => .error e
  | .ok r =>
    match amount n with
    | .error e => .error e
    | .ok n? => r.takeOrAll n?

/-- What reading character by character gives, until nothing more comes.  That takes one reading
    more than there are characters. -/
def drain : Reader → Except ReadError Text
  | plain rest none => .ok rest
  | plain rest (some p) => if rest.length < p.readings then .ok rest else .error (.stream p.failure)
  | decoded t => t.drain

/-- The texts of several readings and of a last one that takes all that is left. -/
def readParts (r : Reader) : List Int → Except ReadError (List Text)
  | [] =>
    match r.read (-1) with
    | .error e => .error e
    | .ok (text, _) => .ok [text]
  | n :: rest =>
    match r.read n with
    | .error e => .error e
    | .ok (text, r) =>
      match readParts r rest with
      | .error e => .error e
      | .ok texts => .ok (text :: texts)

end Reader

end FreshNames
