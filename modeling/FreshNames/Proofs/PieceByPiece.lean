import FreshNames.Charset.Decoder
import Mathlib.Data.List.Basic
import Mathlib.Tactic.SplitIfs

/-!
# Decoding piece by piece is decoding at once

A character that is complete, and bytes that are no character, stay what they are whatever follows;
only the beginning of a character is open.  So a decoder that keeps what is open gives, piece by
piece, the text of the whole, and finds a fault if and only if the whole is no text.

* `Layout.scan_append` - what follows matters to the beginning of a character only;
* `Layout.text?` - the text of whole data; `text?_append_of_ok`, `text?_append_of_error` - what
  decoding a part of the data says about it;
* `Decoder.Reads` - which bytes, in which layout, a decoder makes of what is still to come;
* `Decoder.feed_advances`, `Decoder.feed_ends` - one more piece, and the end of the data;
* `Decoder.feed_end_again` - behind the end nothing comes any more.
-/

set_option autoImplicit false

namespace FreshNames.Charset

/-! ## One character -/

/-- Is this the beginning of a character, so that it depends on what follows? -/
def Scan.isOpen : Scan → Bool
  | .short _ _ => true
  | _ => false

theorem scanUtf8_append {b : UInt8} {rest : Bytes} (h : (scanUtf8 b rest).isOpen = false)
    (more : Bytes) : scanUtf8 b (rest ++ more) = scanUtf8 b rest := by
  -- only the last place of what is there can see what comes behind it
  unfold scanUtf8 at h ⊢
  rcases rest with _ | ⟨b1, _ | ⟨b2, _ | ⟨b3, rest⟩⟩⟩
  · grind [Scan.isOpen]
  · rcases more with _ | ⟨b2, _ | ⟨b3, more⟩⟩ <;> grind [Scan.isOpen]
  · rcases more with _ | ⟨b3, more⟩ <;> grind [Scan.isOpen]
  · rfl

theorem scanUtf16_append {order : ByteOrder} {b : UInt8} {rest : Bytes}
    (h : (scanUtf16 order b rest).isOpen = false) (more : Bytes) :
    scanUtf16 order b (rest ++ more) = scanUtf16 order b rest := by
  rcases rest with _ | ⟨b1, rest⟩
  · simp [scanUtf16, Scan.isOpen] at h
  · simp only [scanUtf16, List.cons_append] at h ⊢
    split_ifs at h ⊢
    · rfl
    · rcases rest with _ | ⟨b2, _ | ⟨b3, rest⟩⟩
      case cons.cons => rfl
      all_goals simp [Scan.isOpen] at h
    · rfl

theorem scanUtf32_append {order : ByteOrder} {b : UInt8} {rest : Bytes}
    (h : (scanUtf32 order b rest).isOpen = false) (more : Bytes) :
    scanUtf32 order b (rest ++ more) = scanUtf32 order b rest := by
  rcases rest with _ | ⟨b1, _ | ⟨b2, _ | ⟨b3, rest⟩⟩⟩
  case cons.cons.cons => rfl
  all_goals simp [scanUtf32, Scan.isOpen] at h

/-- What has been made out in front does not depend on what follows, unless it is open. -/
theorem Layout.scan_append {l : Layout} {b : UInt8} {rest : Bytes} {s : Scan}
    (h : l.scan b rest = s) (hs : s.isOpen = false) (more : Bytes) :
    l.scan b (rest ++ more) = s := by
  subst h
  cases l with
  | utf8 => exact scanUtf8_append hs more
  | ascii => rfl
  | latin1 => rfl
  | utf16 order => exact scanUtf16_append hs more
  | utf32 order => exact scanUtf32_append hs more

theorem Layout.extra_le {l : Layout} {b : UInt8} {rest : Bytes} {c : Char} {extra : Nat}
    (h : l.scan b rest = .char c extra) : extra ≤ rest.length := by
  cases l with
  | utf8 => simp only [Layout.scan, scanUtf8] at h; grind
  | ascii => simp only [Layout.scan] at h; grind
  | latin1 => simp only [Layout.scan] at h; grind
  | utf16 order => simp only [Layout.scan, scanUtf16] at h; grind
  | utf32 order => simp only [Layout.scan, scanUtf32] at h; grind

/-! ## Decoding in parts -/

/-- The text of whole data in a layout, if it is text. -/
def Layout.text? (l : Layout) (bytes : Bytes) : Option Text :=
  (l.decode true 0 bytes).toOption.map (·.1)

theorem Layout.decode_toOption (l : Layout) (final : Bool) (start other : Nat) (bytes : Bytes) :
    (l.decode final start bytes).toOption = (l.decode final other bytes).toOption := by
  fun_induction l.decode final start bytes generalizing other with
  | case1 => rw [decode_nil]
  | case2 start b rest c extra hs f hf ih =>
    have ih := ih (other + 1 + extra)
    rw [hf] at ih
    rw [decode_cons_char hs]
    cases h : l.decode final (other + 1 + extra) (rest.drop extra) with
    | error g => rfl
    | ok p => simp [h, Except.toOption] at ih
  | case3 start b rest c extra hs t left hok ih =>
    have ih := ih (other + 1 + extra)
    rw [hok] at ih
    rw [decode_cons_char hs]
    cases h : l.decode final (other + 1 + extra) (rest.drop extra) with
    | error g => simp [h, Except.toOption] at ih
    | ok p =>
      simp only [h, Except.toOption, Option.some.injEq] at ih
      subst ih
      rfl
  | case4 start b rest reason width hs hf => rw [decode, hs]; simp [hf, Except.toOption]
  | case5 start b rest reason width hs hf => rw [decode, hs]; simp [hf, Except.toOption]
  | case6 start b rest reason width hs => rw [decode, hs]; rfl

theorem Layout.text?_eq (l : Layout) (start : Nat) (bytes : Bytes) :
    l.text? bytes = (l.decode true start bytes).toOption.map (·.1) := by
  rw [text?, decode_toOption l true 0 start]

theorem Layout.text?_of_char {l : Layout} {b : UInt8} {rest : Bytes} {c : Char} {extra : Nat}
    (h : l.scan b rest = .char c extra) :
    l.text? (b :: rest) = (l.text? (rest.drop extra)).map (c :: ·) := by
  rw [text?, decode_cons_char h, l.text?_eq (0 + 1 + extra)]
  cases l.decode true (0 + 1 + extra) (rest.drop extra) <;> rfl

theorem Layout.text?_of_bad {l : Layout} {b : UInt8} {rest : Bytes} {reason : Reason} {width : Nat}
    (h : l.scan b rest = .bad reason width) : l.text? (b :: rest) = none := by
  rw [text?, decode, h]
  rfl

/-- **Reading on.** What a part of the data gives stays as it is whatever follows, and the bytes
    that are left over are read together with what follows. -/
theorem Layout.text?_append_of_ok {l : Layout} {start : Nat} {bytes left : Bytes} {t : Text}
    (h : l.decode false start bytes = .ok (t, left)) (more : Bytes) :
    l.text? (bytes ++ more) = (l.text? (left ++ more)).map (t ++ ·) := by
  fun_induction l.decode false start bytes generalizing t left with
  | case1 => simp_all
  | case2 => cases h
  | case3 start b rest c extra hs t' left' hok ih =>
    cases h
    have hscan := scan_append hs rfl more
    rw [List.cons_append, text?_of_char hscan, List.drop_append_of_le_length (extra_le hs), ih hok,
      Option.map_map]
    rfl
  | case4 start b rest reason width hs hf => cases hf
  | case5 start b rest reason width hs hf =>
    cases h
    simp
  | case6 => cases h

theorem Layout.text?_append_of_error {l : Layout} {start : Nat} {bytes : Bytes} {f : Fault}
    (h : l.decode false start bytes = .error f) (more : Bytes) : l.text? (bytes ++ more) = none := by
  fun_induction l.decode false start bytes generalizing f with
  | case1 => cases h
  | case2 start b rest c extra hs f' hf ih =>
    have hscan := scan_append hs rfl more
    rw [List.cons_append, text?_of_char hscan, List.drop_append_of_le_length (extra_le hs), ih hf]
    rfl
  | case3 => cases h
  | case4 start b rest reason width hs hf => cases hf
  | case5 => cases h
  | case6 start b rest reason width hs =>
    rw [List.cons_append, text?_of_bad (scan_append hs rfl more)]

theorem Layout.decode_of_short {l : Layout} {b : UInt8} {rest : Bytes} {reason : Reason}
    {width : Nat} (h : l.scan b rest = .short reason width) (start : Nat) :
    l.decode false start (b :: rest) = .ok ([], b :: rest) := by
  rw [decode, h]
  rfl

/-- With the end of the data nothing is left over. -/
theorem Layout.left_of_decode {l : Layout} {start : Nat} {bytes left : Bytes} {t : Text}
    (h : l.decode true start bytes = .ok (t, left)) : left = [] := by
  fun_induction l.decode true start bytes generalizing t left with
  | case1 =>
    cases h
    rfl
  | case2 => cases h
  | case3 start b rest c extra hs t' left' hok ih =>
    cases h
    exact ih hok
  | case4 => cases h
  | case5 start b rest reason width hs hf => exact absurd rfl hf
  | case6 => cases h

end FreshNames.Charset

namespace FreshNames

open Charset

/-! ## Decoders -/

namespace Decoder

/-- What a decoder makes of the bytes to come, `more`: together with those that it has kept, and
    without a mark, they are `bytes` in a layout. -/
inductive Reads (more : Bytes) : Decoder → Layout → Bytes → Prop
  | fixed (l : Layout) (left : Bytes) : Reads more ⟨.fixed l, left⟩ l (left ++ more)
  | marked8 {left bytes : Bytes} (h : left ++ more = mark8 ++ bytes) :
      Reads more ⟨.utf8Marked, left⟩ .utf8 bytes
  | unmarked8 {left : Bytes} (hm : ¬ mark8 <+: left ++ more) (hp : ¬ left ++ more <+: mark8) :
      Reads more ⟨.utf8Marked, left⟩ .utf8 (left ++ more)
  | marked16 (order : ByteOrder) {left bytes : Bytes} (h : left ++ more = mark16 order ++ bytes) :
      Reads more ⟨.utf16Marked, left⟩ (.utf16 order) bytes
  | marked32 (order : ByteOrder) {left bytes : Bytes} (h : left ++ more = mark32 order ++ bytes) :
      Reads more ⟨.utf32Marked, left⟩ (.utf32 order) bytes

/-- What comes of feeding a piece, when `more` is to follow: the text of the piece, and a decoder
    that reads the rest; or a fault, because the bytes are no text.  A mark is never missing. -/
inductive Advances (more : Bytes) (l : Layout) (bytes : Bytes) :
    Except DecodeError (Text × Decoder) → Prop
  | text {t : Text} {d : Decoder} {rest : Bytes} (hd : d.Reads more l rest)
      (ht : l.text? bytes = (l.text? rest).map (t ++ ·)) : Advances more l bytes (.ok (t, d))
  | fault (f : Fault) (h : l.text? bytes = none) : Advances more l bytes (.error (.fault f))

/-- What comes of the end of the data: all of the text, or a fault. -/
inductive Ends (l : Layout) (bytes : Bytes) : Except DecodeError (Text × Decoder) → Prop
  | text {t : Text} (d : Decoder) (h : l.text? bytes = some t) : Ends l bytes (.ok (t, d))
  | fault (f : Fault) (h : l.text? bytes = none) : Ends l bytes (.error (.fault f))

/-- A piece that is kept as a whole. -/
theorem Reads.advances {more bytes : Bytes} {d : Decoder} {l : Layout} (h : d.Reads more l bytes) :
    Advances more l bytes (.ok ([], d)) :=
  .text h (by simp)

theorem feedFixed_advances (l : Layout) (start : Nat) (piece more : Bytes) :
    Advances more l (piece ++ more) (feedFixed l start false piece) := by
  unfold feedFixed
  cases h : l.decode false start piece with
  | error f => exact .fault f (Layout.text?_append_of_error h more)
  | ok p => exact .text (.fixed l p.2) (Layout.text?_append_of_ok h more)

theorem feedFixed_ends (l : Layout) (start : Nat) (bytes : Bytes) :
    Ends l bytes (feedFixed l start true bytes) := by
  have htext := l.text?_eq start bytes
  unfold feedFixed
  cases h : l.decode true start bytes with
  | error f =>
    rw [h] at htext
    exact .fault f htext
  | ok p =>
    rw [h] at htext
    exact .text _ htext

/-- The marks of a family of layouts, all of one length: a mark tells its own order of bytes, and
    fewer bytes than a mark has are no character yet. -/
structure AreMarks (mark : ByteOrder → Bytes) (layout : ByteOrder → Layout) (bits : Nat) : Prop where
  length_eq : ∀ order, (mark order).length = bits / 8
  order_eq : ∀ order bytes, markedOrder? mark (mark order ++ bytes) = some order
  short : ∀ b rest, rest.length + 1 < bits / 8 →
    ∃ reason width, (layout .little).scan b rest = .short reason width

theorem areMarks16 : AreMarks mark16 .utf16 16 where
  length_eq := by intro order; cases order <;> rfl
  order_eq := by intro order bytes; cases order <;> simp [markedOrder?, mark16]
  short := by
    intro b rest hlt
    rcases rest with _ | ⟨b1, rest⟩
    · exact ⟨_, _, rfl⟩
    · simp only [List.length_cons] at hlt
      omega

theorem areMarks32 : AreMarks mark32 .utf32 32 where
  length_eq := by intro order; cases order <;> rfl
  order_eq := by intro order bytes; cases order <;> simp [markedOrder?, mark32]
  short := by
    intro b rest hlt
    rcases rest with _ | ⟨b1, _ | ⟨b2, _ | ⟨b3, rest⟩⟩⟩
    case cons.cons.cons =>
      simp only [List.length_cons] at hlt
      omega
    all_goals exact ⟨_, _, rfl⟩

section Marked

variable {charset : Charset} {bits : Nat} {mark : ByteOrder → Bytes} {layout : ByteOrder → Layout}

theorem AreMarks.feedMarked_mark (hm : AreMarks mark layout bits) (order : ByteOrder) (final : Bool)
    (bytes : Bytes) :
    feedMarked charset bits mark layout final (mark order ++ bytes) =
      feedFixed (layout order) (bits / 8) final bytes := by
  rw [feedMarked, hm.order_eq]
  simp only
  rw [← hm.length_eq order, List.drop_left]

/-- As long as the mark is not complete, all bytes are kept. -/
theorem AreMarks.feedMarked_of_lt (hm : AreMarks mark layout bits) {bytes : Bytes}
    (hlt : bytes.length < bits / 8) :
    feedMarked charset bits mark layout false bytes = .ok ([], ⟨charset, bytes⟩) := by
  have hnot (order : ByteOrder) : (mark order).isPrefixOf bytes = false := by
    rw [Bool.eq_false_iff, Ne, List.isPrefixOf_iff_prefix]
    intro hp
    have := hp.length_le
    rw [hm.length_eq] at this
    omega
  have hnone : markedOrder? mark bytes = none := by simp [markedOrder?, hnot]
  rw [feedMarked, hnone]
  cases bytes with
  | nil => simp [Layout.decode_nil]
  | cons b rest =>
    obtain ⟨reason, width, hs⟩ := hm.short b rest hlt
    simp [Layout.decode_of_short hs]

/-- Bytes behind which a whole mark is completed are shorter than the mark, or begin with it. -/
theorem AreMarks.advances (hm : AreMarks mark layout bits) {order : ByteOrder}
    {arrived more bytes : Bytes} (h : arrived ++ more = mark order ++ bytes)
    (hreads : Reads more ⟨charset, arrived⟩ (layout order) bytes) :
    Advances more (layout order) bytes (feedMarked charset bits mark layout false arrived) := by
  rcases Nat.lt_or_ge arrived.length (bits / 8) with hlt | hge
  · rw [hm.feedMarked_of_lt hlt]
    exact hreads.advances
  · have hp : mark order <+: arrived := by
      refine List.prefix_of_prefix_length_le (List.prefix_append (mark order) bytes) ?_ ?_
      · exact h ▸ List.prefix_append arrived more
      · rw [hm.length_eq]
        exact hge
    obtain ⟨tail, rfl⟩ := hp
    rw [List.append_assoc] at h
    rw [← List.append_cancel_left h, hm.feedMarked_mark]
    exact feedFixed_advances _ _ tail more

end Marked

/-- **One piece.** The text of a piece is the beginning of the text of all bytes to come, and the
    decoder afterwards reads the rest; or a fault is found, and then the bytes are no text. -/
theorem feed_advances {d : Decoder} {piece more bytes : Bytes} {l : Layout}
    (h : d.Reads (piece ++ more) l bytes) : Advances more l bytes (d.feed false piece) := by
  cases h with
  | fixed l left =>
    rw [← List.append_assoc]
    exact feedFixed_advances l 0 (left ++ piece) more
  | @marked8 left bytes h =>
    rw [← List.append_assoc] at h
    simp only [feed, List.isPrefixOf_iff_prefix]
    split_ifs with hm hp
    · obtain ⟨tail, htail⟩ := hm
      rw [← htail, List.append_assoc] at h
      rw [← htail, ← List.append_cancel_left h]
      exact feedFixed_advances _ _ tail more
    · exact (Reads.marked8 h).advances
    · -- two beginnings of the same bytes, one of which begins the other
      rcases List.prefix_or_prefix_of_prefix (h ▸ List.prefix_append _ more)
        (List.prefix_append mark8 bytes) with hle | hle
      · exact absurd hle hp
      · exact absurd hle hm
  | @unmarked8 left hm hp =>
    rw [← List.append_assoc] at hm hp ⊢
    simp only [feed, List.isPrefixOf_iff_prefix]
    split_ifs with hm' hp'
    · exact absurd (hm'.trans (List.prefix_append _ more)) hm
    · exact (Reads.unmarked8 hm hp).advances
    · exact feedFixed_advances _ _ _ more
  | marked16 order h =>
    rw [← List.append_assoc] at h
    exact areMarks16.advances h (.marked16 order h)
  | marked32 order h =>
    rw [← List.append_assoc] at h
    exact areMarks32.advances h (.marked32 order h)

/-- The end of the data. -/
theorem feed_ends {d : Decoder} {l : Layout} {bytes : Bytes} (h : d.Reads [] l bytes) :
    Ends l bytes (d.feed true []) := by
  cases h with
  | fixed l left => exact feedFixed_ends l 0 (left ++ [])
  | @marked8 left bytes h =>
    simp only [feed, h]
    exact feedFixed_ends .utf8 0 bytes
  | @unmarked8 left hm hp =>
    simp only [feed, List.isPrefixOf_iff_prefix, hm, hp, if_false]
    exact feedFixed_ends .utf8 0 _
  | marked16 order h =>
    simp only [feed, h, areMarks16.feedMarked_mark]
    exact feedFixed_ends _ _ bytes
  | marked32 order h =>
    simp only [feed, h, areMarks32.feedMarked_mark]
    exact feedFixed_ends _ _ bytes

/-! ## Behind the end -/

/-- A decoder that has kept nothing gives nothing at the end. -/
theorem feed_nil (c : Charset) : (ofCharset c).feed true [] = .ok ([], ofCharset c) := by
  cases c <;>
    simp [feed, ofCharset, feedMarked, feedFixed_nil, Layout.decode_nil, markedOrder?, mark8, mark16,
      mark32]

theorem eq_of_feedFixed_end {l : Layout} {start : Nat} {bytes : Bytes} {t : Text} {d : Decoder}
    (h : feedFixed l start true bytes = .ok (t, d)) : d = ofCharset (.fixed l) := by
  unfold feedFixed at h
  cases hd : l.decode true start bytes with
  | error f =>
    rw [hd] at h
    cases h
  | ok p =>
    rw [hd] at h
    cases h
    rw [Layout.left_of_decode hd]
    rfl

theorem exists_of_feedMarked_end {charset : Charset} {bits : Nat} {mark : ByteOrder → Bytes}
    {layout : ByteOrder → Layout} {bytes : Bytes} {t : Text} {d : Decoder}
    (h : feedMarked charset bits mark layout true bytes = .ok (t, d)) : ∃ c, d = ofCharset c := by
  unfold feedMarked at h
  cases hm : markedOrder? mark bytes with
  | some order =>
    rw [hm] at h
    exact ⟨_, eq_of_feedFixed_end h⟩
  | none =>
    simp only [hm] at h
    cases hd : (layout .little).decode true 0 bytes with
    | error f =>
      rw [hd] at h
      cases h
    | ok p =>
      simp only [hd] at h
      split_ifs at h
      cases h
      rw [Layout.left_of_decode hd]
      exact ⟨charset, rfl⟩

/-- After its end a decoder gives nothing more, however often it is told. -/
theorem feed_end_again {d d' : Decoder} {piece : Bytes} {t : Text}
    (h : d.feed true piece = .ok (t, d')) : d'.feed true [] = .ok ([], d') := by
  obtain ⟨charset, left⟩ := d
  cases charset with
  | fixed l => rw [eq_of_feedFixed_end h, feed_nil]
  | utf8Marked =>
    simp only [feed] at h
    split_ifs at h with hm hp
    · rw [eq_of_feedFixed_end h, feed_nil]
    · cases h
      simp only [feed, List.append_nil, hm, hp, if_true, if_false, Bool.false_eq_true]
    · rw [eq_of_feedFixed_end h, feed_nil]
  | utf16Marked =>
    obtain ⟨c, rfl⟩ := exists_of_feedMarked_end h
    exact feed_nil c
  | utf32Marked =>
    obtain ⟨c, rfl⟩ := exists_of_feedMarked_end h
    exact feed_nil c

end Decoder

end FreshNames
