import FreshNames.Proofs.SameAlphabet
import FreshNames.Proofs.Troubles

/-!
# Mishaps of decoding

Bytes that are no text are a cause of failure.  But decoding knows mishaps, too: there may be no
decoder, the data may lack the mark that its character set needs, and a codec may say anything.

* `PieceDecoder.Keeps` - what holds of a decoder before each piece, and of its errors;
* `Charset.LacksMark` - data without its mark; `drain_eq_markMissing_iff` - reading finds that out;
* `DecodingSlips` - the mishaps of decoding; `decodingSlips_iff` - reading piece by piece meets these;
* `decodeNamed_eq_mishap_iff` - the mishaps of data that is decoded as a whole.
-/

set_option autoImplicit false

namespace FreshNames

open Charset

/-! ## Decoders -/

namespace PieceDecoder

variable {d : Decoder} {final : Bool} {bytes : Bytes}

theorem feed_of_error {e : DecodeError} (h : d.feed final bytes = .error e) :
    (charset d).feed final bytes = .error e := by
  simp only [feed, h]

theorem feed_of_ok {t : Text} {d' : Decoder} (h : d.feed final bytes = .ok (t, d')) :
    (charset d).feed final bytes = .ok (t, charset d') := by
  simp only [feed, h]

end PieceDecoder

namespace LineDecoder

variable {d : LineDecoder} {final : Bool} {bytes : Bytes}

theorem feed_of_error {e : DecodeError} (h : d.decoder.feed final bytes = .error e) :
    d.feed final bytes = .error e := by
  rw [feed, h]

theorem feed_of_ok {t : Text} {decoder : PieceDecoder}
    (h : d.decoder.feed final bytes = .ok (t, decoder)) :
    d.feed final bytes = .ok ((release d.holdsReturn final t).1,
      ⟨decoder, (release d.holdsReturn final t).2⟩) := by
  rw [feed, h]

end LineDecoder

/-- What holds of a decoder before each piece, and of each error that it meets. -/
structure PieceDecoder.Keeps (P : PieceDecoder → Prop) (E : DecodeError → Prop) : Prop where
  error : ∀ {d : PieceDecoder} {final : Bool} {bytes : Bytes} {e : DecodeError},
    P d → d.feed final bytes = .error e → E e
  ok : ∀ {d d' : PieceDecoder} {final : Bool} {bytes : Bytes} {t : Text},
    P d → d.feed final bytes = .ok (t, d') → P d'

/-- What holds of the errors of each piece holds of the error of all. -/
theorem PieceDecoder.Keeps.drainPieces {P : PieceDecoder → Prop} {E : DecodeError → Prop}
    (hk : Keeps P E) {failure : Option StreamFailure} {pieces : List Bytes} {d : LineDecoder}
    (hd : P d.decoder) {e : DecodeError}
    (h : Transcript.drainPieces failure pieces d = .error (.decode e)) : E e := by
  induction pieces generalizing d with
  | nil =>
    cases failure with
    | some f => simp [Transcript.drainPieces] at h
    | none =>
      cases hfeed : d.decoder.feed true [] with
      | error e' =>
        simp only [Transcript.drainPieces, LineDecoder.feed_of_error hfeed] at h
        cases h
        exact hk.error hd hfeed
      | ok q => simp [Transcript.drainPieces, LineDecoder.feed_of_ok hfeed] at h
  | cons p pieces ih =>
    cases hfeed : d.decoder.feed p.isEmpty p with
    | error e' =>
      simp only [Transcript.drainPieces, LineDecoder.feed_of_error hfeed] at h
      cases h
      exact hk.error hd hfeed
    | ok q =>
      simp only [Transcript.drainPieces, LineDecoder.feed_of_ok hfeed] at h
      split_ifs at h
      split at h
      · rename_i hrest
        cases h
        exact ih (hk.ok hd hfeed) hrest
      · cases h

/-! ## Missing marks -/

namespace Decoder

/-- The order of bytes depends on no mark that is still to come. -/
def IsSettled (d : Decoder) : Prop := d.charset ≠ utf16Marked ∧ d.charset ≠ utf32Marked

theorem isSettled_fixed (l : Layout) (left : Bytes) : IsSettled ⟨.fixed l, left⟩ :=
  ⟨by simp, by simp⟩

theorem isSettled_utf8Marked (left : Bytes) : IsSettled ⟨.utf8Marked, left⟩ := ⟨by simp, by simp⟩

/-- What comes of a piece once the order of bytes is known: no mark is missing. -/
inductive Settled : Except DecodeError (Text × Decoder) → Prop
  | fault (f : Fault) : Settled (.error (.fault f))
  | text (t : Text) {d : Decoder} (hd : d.IsSettled) : Settled (.ok (t, d))

theorem feedFixed_settled (l : Layout) (start : Nat) (final : Bool) (piece : Bytes) :
    Settled (feedFixed l start final piece) := by
  unfold feedFixed
  cases l.decode final start piece with
  | error f => exact .fault f
  | ok p => exact .text p.1 (isSettled_fixed l p.2)

theorem IsSettled.feed {d : Decoder} (hd : d.IsSettled) (final : Bool) (bytes : Bytes) :
    Settled (d.feed final bytes) := by
  obtain ⟨charset, left⟩ := d
  obtain ⟨h16, h32⟩ := hd
  cases charset with
  | fixed l => exact feedFixed_settled ..
  | utf8Marked =>
    simp only [Decoder.feed]
    split_ifs
    · exact feedFixed_settled ..
    · exact .text [] (isSettled_utf8Marked _)
    · exact feedFixed_settled ..
  | utf16Marked => exact absurd rfl h16
  | utf32Marked => exact absurd rfl h32

theorem feedFixed_ne_codec (l : Layout) (start : Nat) (final : Bool) (piece : Bytes)
    (e : CodecError) : feedFixed l start final piece ≠ .error (.codec e) := by
  unfold feedFixed
  cases l.decode final start piece <;> simp

theorem feedMarked_ne_codec (charset : Charset) (bits : Nat) (mark : ByteOrder → Bytes)
    (layout : ByteOrder → Layout) (final : Bool) (piece : Bytes) (e : CodecError) :
    feedMarked charset bits mark layout final piece ≠ .error (.codec e) := by
  unfold feedMarked
  cases markedOrder? mark piece with
  | some order => exact feedFixed_ne_codec _ _ _ _ e
  | none =>
    cases (layout .little).decode final 0 piece with
    | error f => simp
    | ok q =>
      dsimp only
      split_ifs <;> simp

/-- The errors of a character set are faults and missing marks. -/
theorem feed_ne_codec (d : Decoder) (final : Bool) (bytes : Bytes) (e : CodecError) :
    d.feed final bytes ≠ .error (.codec e) := by
  obtain ⟨charset, left⟩ := d
  cases charset with
  | fixed l => exact feedFixed_ne_codec _ _ _ _ e
  | utf8Marked =>
    simp only [Decoder.feed]
    split_ifs
    · exact feedFixed_ne_codec _ _ _ _ e
    · simp
    · exact feedFixed_ne_codec _ _ _ _ e
  | utf16Marked => exact feedMarked_ne_codec _ _ _ _ _ _ e
  | utf32Marked => exact feedMarked_ne_codec _ _ _ _ _ _ e

end Decoder

namespace PieceDecoder

/-- The decoder of a character set whose order of bytes is known. -/
def IsSettled (d : PieceDecoder) : Prop := ∃ c : Decoder, d = .charset c ∧ c.IsSettled

theorem keeps_settled : Keeps IsSettled fun e => ∃ f, e = .fault f where
  error := by
    rintro _ final bytes e ⟨c, rfl, hc⟩ h
    have hfeed := hc.feed final bytes
    cases hx : c.feed final bytes with
    | error e' =>
      rw [feed_of_error hx] at h
      cases h
      rw [hx] at hfeed
      cases hfeed
      exact ⟨_, rfl⟩
    | ok q => simp [feed_of_ok hx] at h
  ok := by
    rintro _ d' final bytes t ⟨c, rfl, hc⟩ h
    have hfeed := hc.feed final bytes
    cases hx : c.feed final bytes with
    | error e' => simp [feed_of_error hx] at h
    | ok q =>
      rw [feed_of_ok hx] at h
      cases h
      rw [hx] at hfeed
      cases hfeed with
      | text t hd => exact ⟨_, rfl, hd⟩

theorem keeps_charset :
    Keeps (fun d => ∃ c, d = .charset c) fun e => ∀ e', e ≠ .codec e' where
  error := by
    rintro _ final bytes e ⟨c, rfl⟩ h e' rfl
    cases hx : c.feed final bytes with
    | error e'' =>
      rw [feed_of_error hx] at h
      cases h
      exact c.feed_ne_codec final bytes e' hx
    | ok q => simp [feed_of_ok hx] at h
  ok := by
    rintro _ d' final bytes t ⟨c, rfl⟩ h
    cases hx : c.feed final bytes with
    | error e' => simp [feed_of_error hx] at h
    | ok q =>
      rw [feed_of_ok hx] at h
      cases h
      exact ⟨_, rfl⟩

theorem keeps_codec :
    Keeps (fun d => ∃ c earlier, d = .codec c earlier) fun e => ∃ e', e = .codec e' where
  error := by
    rintro _ final bytes e ⟨c, earlier, rfl⟩ h
    cases hx : c.next earlier final bytes with
    | error e' =>
      simp only [feed, hx] at h
      cases h
      exact ⟨_, rfl⟩
    | ok t => simp [feed, hx] at h
  ok := by
    rintro _ d' final bytes t ⟨c, earlier, rfl⟩ h
    cases hx : c.next earlier final bytes with
    | error e' => simp [feed, hx] at h
    | ok t =>
      simp only [feed, hx] at h
      cases h
      exact ⟨_, _, rfl⟩

end PieceDecoder

namespace Transcript

variable {failure : Option StreamFailure} {pieces : List Bytes} {bits : Nat}

/-- Once the order of bytes is known, no mark is missing. -/
theorem drainPieces_settled {d : LineDecoder} (hd : d.decoder.IsSettled) :
    drainPieces failure pieces d ≠ .error (.decode (.markMissing bits)) := by
  intro h
  obtain ⟨f, hf⟩ := PieceDecoder.keeps_settled.drainPieces hd h
  cases hf

theorem drainPieces_cons_settled {p : Bytes} {d : Decoder} {holds : Bool}
    (hd : Decoder.Settled (d.feed p.isEmpty p)) :
    drainPieces failure (p :: pieces) ⟨.charset d, holds⟩ ≠ .error (.decode (.markMissing bits)) := by
  rw [drainPieces]
  generalize hfeed : d.feed p.isEmpty p = x at hd
  cases hd with
  | fault f =>
    have hline : LineDecoder.feed ⟨.charset d, holds⟩ p.isEmpty p = .error (.fault f) :=
      LineDecoder.feed_of_error (PieceDecoder.feed_of_error hfeed)
    simp [hline]
  | @text t decoder hdecoder =>
    have hline : LineDecoder.feed ⟨.charset d, holds⟩ p.isEmpty p = .ok (_, _) :=
      LineDecoder.feed_of_ok (PieceDecoder.feed_of_ok hfeed)
    rw [hline]
    dsimp only
    split_ifs
    · simp
    · generalize hrest : drainPieces failure pieces _ = y
      cases y with
      | error e =>
        rintro ⟨⟩
        exact drainPieces_settled ⟨decoder, rfl, hdecoder⟩ hrest
      | ok more => simp

/-- A feed that does not fail gives text, or something that is no text. -/
theorem exists_of_drainPieces_eq_error {pieces : List Bytes} {d : LineDecoder} {e : ReadError}
    (h : drainPieces none pieces d = .error e) : ∃ e', e = .decode e' := by
  induction pieces generalizing d with
  | nil =>
    simp only [drainPieces] at h
    split at h <;> cases h
    exact ⟨_, rfl⟩
  | cons p pieces ih =>
    simp only [drainPieces] at h
    split at h
    · cases h
      exact ⟨_, rfl⟩
    · split_ifs at h
      split at h <;> cases h
      exact ih ‹_›

end Transcript

namespace Charset

/-- The first slab of the data begins with a character, where a mark has to stand. -/
def BeginsUnmarked (mark : ByteOrder → Bytes) (layout : ByteOrder → Layout) (bytes : Bytes) : Prop :=
  markedOrder? mark (bytes.take Transcript.slab) = none ∧
    ∃ t left, (layout .little).decode false 0 (bytes.take Transcript.slab) = .ok (t, left) ∧ t ≠ []

/-- The data lacks the mark that the character set needs, of a unit of so many bits. -/
def LacksMark (bits : Nat) (bytes : Bytes) : Charset → Prop
  | utf16Marked => bits = 16 ∧ BeginsUnmarked mark16 .utf16 bytes
  | utf32Marked => bits = 32 ∧ BeginsUnmarked mark32 .utf32 bytes
  | _ => False

theorem short_of_decode_nil {l : Layout} {start : Nat} {b : UInt8} {rest left : Bytes}
    (h : l.decode false start (b :: rest) = .ok ([], left)) :
    left = b :: rest ∧ ∃ reason width, l.scan b rest = .short reason width := by
  rw [Layout.decode] at h
  split at h
  · split at h <;> cases h
  · rename_i reason width hs
    cases h
    exact ⟨rfl, reason, width, hs⟩
  · cases h

theorem decode_end_of_short {l : Layout} {b : UInt8} {rest : Bytes} {reason : Reason} {width : Nat}
    (h : l.scan b rest = .short reason width) (start : Nat) :
    l.decode true start (b :: rest) = .error ⟨l, reason, b, start, width⟩ := by
  rw [Layout.decode, h]
  rfl

/-- The beginning of a character has at most three bytes. -/
theorem length_lt_of_short {l : Layout} {b : UInt8} {rest : Bytes} {reason : Reason} {width : Nat}
    (h : l.scan b rest = .short reason width) : rest.length < 3 := by
  rcases rest with _ | ⟨b1, _ | ⟨b2, _ | ⟨b3, rest⟩⟩⟩
  case cons.cons.cons =>
    cases l with
    | utf8 => simp only [Layout.scan, scanUtf8] at h; grind
    | ascii => simp only [Layout.scan] at h; grind
    | latin1 => cases h
    | utf16 order => simp only [Layout.scan, scanUtf16] at h; grind
    | utf32 order => simp only [Layout.scan, scanUtf32] at h; grind
  all_goals simp

end Charset

namespace Feed

open Transcript

/-- The first slab of bytes that are there as a whole; it is the only one unless it is full. -/
theorem slabs_ofBytes (bytes : Bytes) :
    ∃ pieces, (ofBytes bytes).slabs slab slab_pos = bytes.take slab :: pieces ∧
      ((bytes.take slab).length < slab → pieces = []) := by
  have hslabs : (ofBytes bytes).slabs slab slab_pos = cut slab slab_pos bytes := by
    simp [slabs, ofBytes]
  rw [hslabs, cut]
  split_ifs with h
  · exact ⟨[], by rw [List.take_of_length_le h], fun _ => rfl⟩
  · refine ⟨_, rfl, fun hlt => ?_⟩
    rw [List.length_take] at hlt
    omega

section Marked

variable {charset : Charset} {bits : Nat} {mark : ByteOrder → Bytes} {layout : ByteOrder → Layout}

/-- The decoder of a character set with a mark says that the mark is missing when the first slab is
    taken in, or never. -/
theorem drainPieces_marked
    (hfeed : ∀ left final bytes, Decoder.feed ⟨charset, left⟩ final bytes =
      Decoder.feedMarked charset bits mark layout final (left ++ bytes)) (n : Nat) (bytes : Bytes) :
    drainPieces none ((ofBytes bytes).slabs slab slab_pos) (.start (.ofCharset charset)) =
        .error (.decode (.markMissing n)) ↔
      n = bits ∧ BeginsUnmarked mark layout bytes := by
  obtain ⟨pieces, hslabs, hlast⟩ := slabs_ofBytes bytes
  rw [hslabs, BeginsUnmarked]
  generalize bytes.take slab = first at hlast ⊢
  cases first with
  | nil => simp [drainPieces, feed_nil, Layout.decode_nil]
  | cons b rest =>
    have hd : (Decoder.ofCharset charset).feed false (b :: rest) = _ := hfeed [] false (b :: rest)
    rw [List.nil_append, Decoder.feedMarked] at hd
    cases hmark : markedOrder? mark (b :: rest) with
    | some order =>
      rw [hmark] at hd
      refine iff_of_false (drainPieces_cons_settled ?_) (by simp)
      exact hd ▸ Decoder.feedFixed_settled ..
    | none =>
      simp only [hmark] at hd
      have herror {e : DecodeError} (h : (Decoder.ofCharset charset).feed false (b :: rest) =
          .error e) : (LineDecoder.start (.ofCharset charset)).feed false (b :: rest) = .error e :=
        LineDecoder.feed_of_error (PieceDecoder.feed_of_error h)
      cases hdecode : (layout .little).decode false 0 (b :: rest) with
      | error f =>
        simp only [hdecode] at hd
        simp [drainPieces, herror hd]
      | ok q =>
        obtain ⟨t, left⟩ := q
        simp only [hdecode] at hd
        cases t with
        | cons c t => simp [drainPieces, herror hd, eq_comm]
        | nil =>
          -- the beginning of a character is all there is, and the end of the data comes too soon
          obtain ⟨rfl, reason, width, hscan⟩ := short_of_decode_nil hdecode
          have hlength := length_lt_of_short hscan
          have hslab : 4 ≤ slab := by decide
          rw [hlast (by rw [List.length_cons]; omega)]
          have hend := hfeed (b :: rest) true []
          simp only [List.append_nil, Decoder.feedMarked, hmark, decode_end_of_short hscan] at hend
          have hnext : (LineDecoder.start (.ofCharset charset)).feed false (b :: rest) =
              .ok ([], ⟨.charset ⟨charset, b :: rest⟩, false⟩) :=
            LineDecoder.feed_of_ok (d := .start (.ofCharset charset)) (PieceDecoder.feed_of_ok hd)
          have hover : LineDecoder.feed ⟨.charset ⟨charset, b :: rest⟩, false⟩ true [] = .error _ :=
            LineDecoder.feed_of_error (PieceDecoder.feed_of_error hend)
          simp [drainPieces, hnext, hover]

end Marked

end Feed

namespace Reader

theorem isSettled_ofCharset {c : Charset} (h : (Decoder.ofCharset c).IsSettled) :
    (LineDecoder.start (.ofCharset c)).decoder.IsSettled :=
  ⟨_, rfl, h⟩

/-- **A mark is missing** if reading the bytes finds it out. -/
theorem drain_eq_markMissing_iff (c : Charset) (bits : Nat) (bytes : Bytes) :
    (decoded (.ofFeed (.ofCharset c) (.ofBytes bytes))).drain = .error (.decode (.markMissing bits)) ↔
      c.LacksMark bits bytes := by
  rw [Feed.drain_ofFeed]
  cases c with
  | fixed l =>
    have hsettled := isSettled_ofCharset (Decoder.isSettled_fixed l [])
    exact iff_of_false (Transcript.drainPieces_settled hsettled) id
  | utf8Marked =>
    have hsettled := isSettled_ofCharset (Decoder.isSettled_utf8Marked [])
    exact iff_of_false (Transcript.drainPieces_settled hsettled) id
  | utf16Marked => exact Feed.drainPieces_marked (fun _ _ _ => rfl) bits bytes
  | utf32Marked => exact Feed.drainPieces_marked (fun _ _ _ => rfl) bits bytes

end Reader

/-! ## Mishaps of decoding -/

theorem Charset.holdsNull_of_named {codecs : Codecs} {name : Text} {coding : Coding}
    (h : named codecs name = .ok coding) : holdsNull name = false := by
  rw [Bool.eq_false_iff]
  intro hnull
  rw [named, if_pos hnull] at h
  cases h

theorem Charset.decoderNamed_cases {codecs : Codecs} {name : Text} {d : PieceDecoder}
    (h : decoderNamed codecs name = .ok d) :
    (∃ c, d = .ofCharset c) ∨ ∃ c, d = .codec c [] := by
  unfold decoderNamed at h
  split_ifs at h
  · exact .inl ⟨_, (Except.ok.inj h).symm⟩
  · split at h
    · cases h
    · exact .inl ⟨_, (Except.ok.inj h).symm⟩
    · split at h
      · cases h
      · exact .inr ⟨_, (Except.ok.inj h).symm⟩

/-- The mishaps of decoding the bytes of a file. -/
inductive DecodingSlips (codecs : Codecs) (name : Text) (bytes : Bytes) : Mishap → Prop
  /-- There is no decoder. -/
  | unknown {m : Mishap} (h : decoderNamed codecs name = .error m) :
      DecodingSlips codecs name bytes m
  /-- The data lacks its mark. -/
  | markMissing {c : Charset} {bits : Nat} (hd : decoderNamed codecs name = .ok (.ofCharset c))
      (hmark : c.LacksMark bits bytes) : DecodingSlips codecs name bytes (.markMissing bits)
  /-- The codec says something else than that the bytes are no text. -/
  | codec {c : StreamCodec} {e : OtherError} (hd : decoderNamed codecs name = .ok (.codec c []))
      (hreads : (Reader.decoded (.ofFeed (.codec c []) (.ofBytes bytes))).ReadsEach
        (.error (.decode (.codec (.other e))))) : DecodingSlips codecs name bytes (.other e)

/-- These are the mishaps that draining meets. -/
theorem decodingSlips_iff {codecs : Codecs} {name : Text} {bytes : Bytes} {m : Mishap} :
    DecodingSlips codecs name bytes m ↔ decoderNamed codecs name = .error m ∨
      ∃ d e, decoderNamed codecs name = .ok d ∧
        (Reader.decoded (.ofFeed d (.ofBytes bytes))).drain = .error (.decode e) ∧
        e.trouble = .mishap m := by
  have hmodest (d : PieceDecoder) : (Reader.decoded (.ofFeed d (.ofBytes bytes))).IsModest :=
    Nat.zero_le _
  constructor
  · intro h
    cases h with
    | unknown h => exact .inl h
    | markMissing hd hmark =>
      exact .inr ⟨_, _, hd, (Reader.drain_eq_markMissing_iff ..).2 hmark, rfl⟩
    | codec hd hreads => exact .inr ⟨_, _, hd, ((Reader.readsEach_iff (hmodest _)).1 hreads).symm, rfl⟩
  · rintro (h | ⟨d, e, hd, hdrain, he⟩)
    · exact .unknown h
    · have hpieces := hdrain
      rw [Feed.drain_ofFeed] at hpieces
      rcases decoderNamed_cases hd with ⟨c, rfl⟩ | ⟨c, rfl⟩
      · have hne : ∀ e', e ≠ .codec e' := PieceDecoder.keeps_charset.drainPieces ⟨_, rfl⟩ hpieces
        cases e with
        | fault f => cases he
        | codec e' => exact absurd rfl (hne e')
        | markMissing bits =>
          cases he
          exact .markMissing hd ((Reader.drain_eq_markMissing_iff c bits bytes).1 hdrain)
      · obtain ⟨e', rfl⟩ : ∃ e', e = .codec e' :=
          PieceDecoder.keeps_codec.drainPieces ⟨_, _, rfl⟩ hpieces
        cases e' with
        | undecodable message => cases he
        | other e =>
          cases he
          exact .codec hd ((Reader.readsEach_iff (hmodest _)).2 hdrain.symm)

/-- Data that is decoded as a whole has no other mishap than what its codec says. -/
theorem decodeNamed_eq_mishap_iff {codecs : Codecs} {name : Text} {coding : Coding}
    (hname : named codecs name = .ok coding) {bytes : Bytes} {m : Mishap} :
    decodeNamed codecs name bytes = .error (.mishap m) ↔ bytes ≠ [] ∧
      ∃ c e, named codecs name = .ok (.codec c) ∧ c.whole bytes = .error (.other e) ∧
        m = .other e := by
  rw [decodeNamed, if_neg (by simp [holdsNull_of_named hname]), hname]
  cases bytes with
  | nil => simp
  | cons b rest =>
    simp only [List.isEmpty_cons, Bool.false_eq_true, if_false]
    cases coding with
    | charset c => cases hdecode : c.decode (b :: rest) <;> simp [Coding.decode, hdecode, DecodeError.trouble]
    | codec c =>
      simp only [Coding.decode]
      rcases hwhole : c.whole (b :: rest) with (message | e) | t <;>
        simp [hwhole, DecodeError.trouble, eq_comm]

end FreshNames
