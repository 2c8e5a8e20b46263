import FreshNames.Proofs.SameAlphabet

/-!
# Texts that are written as bytes and read again

The bytes of a character are never the beginning of another one, and a layout makes the character of
them whatever follows.  So decoding undoes encoding, in every layout and behind every mark, and a text
gives the same alphabet when it is read as it is and when it comes as bytes, from wherever that may be.

* `Layout.Shows` - bytes that a layout takes for a character; `Layout.encodeChar_shows` - the bytes of
  a character are such bytes;
* `Layout.text?_encoded`, `decode_utf8Bytes` - the text of encoded text;
* `decode_encode` - the same for character sets, with their marks;
* `Source.encoded_text_survives` - a text and its bytes give the same alphabet.
-/

set_option autoImplicit false

namespace FreshNames

namespace Charset

/-! ## Bytes of UTF-8 -/

theorem toNat_byte {n : Nat} (h : n < 0x100) : (UInt8.ofNat n).toNat = n :=
  UInt8.toNat_ofNat_of_lt' h

theorem toNat_continuation (n : Nat) : (continuation n).toNat = 0x80 + n % 0x40 :=
  toNat_byte (by omega)

theorem isContinuation_continuation (n : Nat) : isContinuation (continuation n) = true := by
  have h := toNat_continuation n
  simp only [isContinuation, UInt8.le_iff_toNat_le, h, Bool.and_eq_true, decide_eq_true_eq]
  exact ⟨by simp, by simp; omega⟩

theorem lowBits_continuation (n : Nat) : lowBits (continuation n) = n % 0x40 := by
  rw [lowBits, toNat_continuation]
  omega

section Scan

variable {b b1 b2 b3 : UInt8}

/-- Which bytes may stand second is only restricted behind four first ones. -/
theorem maySecond_continuation {n : Nat} (hE0 : b.toNat = 0xE0 → 0x20 ≤ n % 0x40)
    (hED : b.toNat = 0xED → n % 0x40 < 0x20) (hF0 : b.toNat = 0xF0 → 0x10 ≤ n % 0x40)
    (hF4 : b.toNat = 0xF4 → n % 0x40 < 0x10) : maySecond b (continuation n) = true := by
  have h := toNat_continuation n
  simp only [maySecond, isContinuation_continuation, UInt8.lt_iff_toNat_lt, UInt8.le_iff_toNat_le, h,
    Bool.true_and, Bool.and_eq_true, Bool.not_eq_true', Bool.and_eq_false_imp, beq_iff_eq,
    decide_eq_false_iff_not]
  refine ⟨⟨⟨fun e => ?_, fun e => ?_⟩, fun e => ?_⟩, fun e => ?_⟩
  · have := hE0 (congrArg UInt8.toNat e)
    simp
    omega
  · have := hED (congrArg UInt8.toNat e)
    simp
    omega
  · have := hF0 (congrArg UInt8.toNat e)
    simp
    omega
  · have := hF4 (congrArg UInt8.toNat e)
    simp
    omega

theorem scanUtf8_one (h : b.toNat < 0x80) (more : Bytes) :
    scanUtf8 b more = .char (Char.ofNat b.toNat) 0 := by
  have hlt : b < 0x80 := UInt8.lt_iff_toNat_lt.2 h
  unfold scanUtf8
  rw [if_pos hlt]

theorem scanUtf8_two (hlo : 0xC2 ≤ b.toNat) (hhi : b.toNat < 0xE0) (h1 : isContinuation b1 = true)
    (more : Bytes) :
    scanUtf8 b (b1 :: more) = .char (Char.ofNat (b.toNat % 0x20 * 0x40 + lowBits b1)) 1 := by
  simp only [scanUtf8, UInt8.lt_iff_toNat_lt, h1]
  grind

theorem scanUtf8_three (hlo : 0xE0 ≤ b.toNat) (hhi : b.toNat < 0xF0) (h1 : maySecond b b1 = true)
    (h2 : isContinuation b2 = true) (more : Bytes) :
    scanUtf8 b (b1 :: b2 :: more) =
      .char (Char.ofNat ((b.toNat % 0x10 * 0x40 + lowBits b1) * 0x40 + lowBits b2)) 2 := by
  simp only [scanUtf8, UInt8.lt_iff_toNat_lt, h1, h2]
  grind

theorem scanUtf8_four (hlo : 0xF0 ≤ b.toNat) (hhi : b.toNat < 0xF5) (h1 : maySecond b b1 = true)
    (h2 : isContinuation b2 = true) (h3 : isContinuation b3 = true) (more : Bytes) :
    scanUtf8 b (b1 :: b2 :: b3 :: more) =
      .char (Char.ofNat
        (((b.toNat % 8 * 0x40 + lowBits b1) * 0x40 + lowBits b2) * 0x40 + lowBits b3)) 3 := by
  simp only [scanUtf8, UInt8.lt_iff_toNat_lt, h1, h2, h3]
  grind

end Scan

/-! ## One character -/

/-- The layout takes the bytes for the character, whatever follows them. -/
def Layout.Shows (l : Layout) (bs : Bytes) (c : Char) : Prop :=
  ∃ b rest, bs = b :: rest ∧ ∀ more, l.scan b (rest ++ more) = .char c rest.length

/-- No character has the number of a surrogate. -/
theorem isScalar (c : Char) : c.toNat < 0xD800 ∨ 0xDFFF < c.toNat ∧ c.toNat < 0x110000 := c.valid

theorem encodeUtf8_shows (c : Char) : Layout.utf8.Shows (encodeUtf8 c.toNat) c := by
  have hscalar := isScalar c
  have hc := Char.ofNat_toNat c
  generalize c.toNat = n at hscalar hc
  have hcont := isContinuation_continuation
  unfold encodeUtf8
  split_ifs with h1 h2 h3
  · have hb := toNat_byte (n := n) (by omega)
    refine ⟨_, [], rfl, fun more => ?_⟩
    rw [Layout.scan, List.nil_append, scanUtf8_one (by omega), hb, hc, List.length_nil]
  · have hb := toNat_byte (n := 0xC0 + n / 0x40) (by omega)
    have hn : (0xC0 + n / 0x40) % 0x20 * 0x40 + n % 0x40 = n := by omega
    refine ⟨_, _, rfl, fun more => ?_⟩
    rw [Layout.scan, List.cons_append, List.nil_append,
      scanUtf8_two (by omega) (by omega) (hcont n), hb, lowBits_continuation, hn, hc,
      List.length_singleton]
  · have hb := toNat_byte (n := 0xE0 + n / 0x1000) (by omega)
    -- short forms and surrogates do not come up, as the number is neither
    have hm : maySecond (UInt8.ofNat (0xE0 + n / 0x1000)) (continuation (n / 0x40)) = true := by
      refine maySecond_continuation ?_ ?_ ?_ ?_ <;> omega
    have hn : ((0xE0 + n / 0x1000) % 0x10 * 0x40 + n / 0x40 % 0x40) * 0x40 + n % 0x40 = n := by
      omega
    refine ⟨_, _, rfl, fun more => ?_⟩
    rw [Layout.scan, List.cons_append, List.cons_append, List.nil_append,
      scanUtf8_three (by omega) (by omega) hm (hcont n), hb, lowBits_continuation,
      lowBits_continuation, hn, hc]
    rfl
  · have hb := toNat_byte (n := 0xF0 + n / 0x40000) (by omega)
    have hm : maySecond (UInt8.ofNat (0xF0 + n / 0x40000)) (continuation (n / 0x1000)) = true := by
      refine maySecond_continuation ?_ ?_ ?_ ?_ <;> omega
    have hn : (((0xF0 + n / 0x40000) % 8 * 0x40 + n / 0x1000 % 0x40) * 0x40 + n / 0x40 % 0x40) * 0x40
        + n % 0x40 = n := by
      omega
    refine ⟨_, _, rfl, fun more => ?_⟩
    rw [Layout.scan, List.cons_append, List.cons_append, List.cons_append, List.nil_append,
      scanUtf8_four (by omega) (by omega) hm (hcont _) (hcont n), hb, lowBits_continuation,
      lowBits_continuation, lowBits_continuation, hn, hc]
    rfl

/-- The two bytes of a unit, and the unit that they write. -/
theorem exists_bytes16 (order : ByteOrder) {u : Nat} (h : u < 0x10000) :
    ∃ b0 b1, bytes16 order u = [b0, b1] ∧ unit16 order b0 b1 = u := by
  have hlow := toNat_byte (n := u % 0x100) (by omega)
  have hhigh := toNat_byte (n := u / 0x100) (by omega)
  cases order with
  | little => exact ⟨_, _, rfl, by rw [unit16, hlow, hhigh]; omega⟩
  | big => exact ⟨_, _, rfl, by rw [unit16, hlow, hhigh]; omega⟩

theorem encodeUtf16_shows (order : ByteOrder) (c : Char) :
    (Layout.utf16 order).Shows (encodeUtf16 order c.toNat) c := by
  have hscalar := isScalar c
  have hc := Char.ofNat_toNat c
  generalize c.toNat = n at hscalar hc
  unfold encodeUtf16
  split_ifs with h
  · obtain ⟨b0, b1, hbytes, hunit⟩ := exists_bytes16 order h
    refine ⟨b0, [b1], hbytes, fun more => ?_⟩
    have hlow : isLowSurrogate n = false := by simp [isLowSurrogate]; omega
    have hhigh : isHighSurrogate n = false := by simp [isHighSurrogate]; omega
    simp [Layout.scan, scanUtf16, hunit, hlow, hhigh, hc]
  · obtain ⟨b0, b1, hb, hu⟩ := exists_bytes16 order (u := 0xD800 + (n - 0x10000) / 0x400) (by omega)
    obtain ⟨b2, b3, hb', hv⟩ := exists_bytes16 order (u := 0xDC00 + (n - 0x10000) % 0x400) (by omega)
    refine ⟨b0, [b1, b2, b3], by rw [hb, hb']; rfl, fun more => ?_⟩
    have hlow : isLowSurrogate (0xD800 + (n - 0x10000) / 0x400) = false := by
      simp [isLowSurrogate]; omega
    have hhigh : isHighSurrogate (0xD800 + (n - 0x10000) / 0x400) = true := by
      simp [isHighSurrogate]; omega
    have hlow' : isLowSurrogate (0xDC00 + (n - 0x10000) % 0x400) = true := by
      simp [isLowSurrogate]; omega
    have hn : 0x10000 + (0xD800 + (n - 0x10000) / 0x400 - 0xD800) * 0x400
        + (0xDC00 + (n - 0x10000) % 0x400 - 0xDC00) = n := by omega
    simp only [Layout.scan, scanUtf16, List.cons_append, List.nil_append, hu, hv, hlow, hhigh, hlow',
      Bool.false_eq_true, if_false, if_true, hn, hc]
    rfl

theorem encodeUtf32_shows (order : ByteOrder) (c : Char) :
    (Layout.utf32 order).Shows (encodeUtf32 order c.toNat) c := by
  have hscalar := isScalar c
  have hc := Char.ofNat_toNat c
  generalize c.toNat = n at hscalar hc
  obtain ⟨b0, b1, hb, hu⟩ := exists_bytes16 order (u := n % 0x10000) (by omega)
  obtain ⟨b2, b3, hb', hv⟩ := exists_bytes16 order (u := n / 0x10000) (by omega)
  have hsurrogate : (0xD800 ≤ n && n < 0xE000) = false := by simp; omega
  have hbeyond : ¬ 0x110000 ≤ n := by omega
  cases order with
  | little =>
    refine ⟨b0, [b1, b2, b3], by simp [encodeUtf32, hb, hb'], fun more => ?_⟩
    have hn : n % 0x10000 + n / 0x10000 * 0x10000 = n := by omega
    simp [Layout.scan, scanUtf32, hu, hv, hn, hsurrogate, hbeyond, hc]
  | big =>
    refine ⟨b2, [b3, b0, b1], by simp [encodeUtf32, hb, hb'], fun more => ?_⟩
    have hn : n / 0x10000 * 0x10000 + n % 0x10000 = n := by omega
    simp [Layout.scan, scanUtf32, hu, hv, hn, hsurrogate, hbeyond, hc]

/-- **A layout takes the bytes of a character for this character.** -/
theorem Layout.encodeChar_shows {l : Layout} {c : Char} {bs : Bytes} (h : l.encodeChar c = some bs) :
    l.Shows bs c := by
  have hc := Char.ofNat_toNat c
  cases l with
  | utf8 =>
    cases h
    exact encodeUtf8_shows c
  | ascii =>
    simp only [encodeChar] at h
    split_ifs at h with hlt
    cases h
    have hb := toNat_byte (n := c.toNat) (by omega)
    have hb' : UInt8.ofNat c.toNat < 0x80 := by
      rw [UInt8.lt_iff_toNat_lt, hb]
      exact hlt
    exact ⟨_, [], rfl, fun more => by simp [scan, hb', hb, hc]⟩
  | latin1 =>
    simp only [encodeChar] at h
    split_ifs at h with hlt
    cases h
    exact ⟨_, [], rfl, fun more => by simp [scan, toNat_byte hlt, hc]⟩
  | utf16 order =>
    cases h
    exact encodeUtf16_shows order c
  | utf32 order =>
    cases h
    exact encodeUtf32_shows order c

/-! ## Whole texts -/

/-- The bytes of a character in front of others are read first. -/
theorem Layout.Shows.text? {l : Layout} {bs : Bytes} {c : Char} (h : l.Shows bs c) (more : Bytes) :
    l.text? (bs ++ more) = (l.text? more).map (c :: ·) := by
  obtain ⟨b, rest, rfl, hscan⟩ := h
  rw [List.cons_append, text?_of_char (hscan more), List.drop_left]

theorem Layout.text?_nil (l : Layout) : l.text? [] = some [] := by
  rw [text?, decode_nil]
  rfl

theorem Layout.text?_encoded {l : Layout} {t : Text} (h : ∀ c ∈ t, (l.encodeChar c).isSome = true) :
    l.text? (t.flatMap fun c => (l.encodeChar c).getD []) = some t := by
  induction t with
  | nil => exact l.text?_nil
  | cons c t ih =>
    obtain ⟨bs, hbs⟩ := Option.isSome_iff_exists.1 (h c List.mem_cons_self)
    have ih := ih fun d hd => h d (List.mem_cons_of_mem c hd)
    rw [List.flatMap_cons, hbs, Option.getD_some, (encodeChar_shows hbs).text?, ih, Option.map_some]

/-- **Decoding UTF-8 undoes encoding.** -/
theorem decode_utf8Bytes (t : Text) : (fixed .utf8).decode (utf8Bytes t) = .ok t := by
  have htext : Layout.utf8.text? (utf8Bytes t) = some t :=
    Layout.text?_encoded (l := .utf8) fun _ _ => rfl
  rw [← toOption_decodeFixed _ 0] at htext
  rw [decode]
  cases h : decodeFixed .utf8 0 (utf8Bytes t) with
  | error f =>
    rw [h] at htext
    cases htext
  | ok u =>
    rw [h] at htext
    cases htext
    rfl

/-! ## Character sets -/

theorem firstUnencodable?_eq_none {l : Layout} {start : Nat} {t : Text}
    (h : firstUnencodable? l start t = none) : ∀ c ∈ t, (l.encodeChar c).isSome = true := by
  induction t generalizing start with
  | nil => exact List.forall_mem_nil _
  | cons c t ih =>
    rw [firstUnencodable?] at h
    split_ifs at h with hc
    exact List.forall_mem_cons.2 ⟨hc, ih h⟩

theorem text?_of_encode {c : Charset} {t : Text} {bytes : Bytes} (h : c.encode t = .ok bytes) :
    c.layout.text? bytes = some t := by
  unfold encode at h
  split at h
  · cases h
  · rename_i hnone
    cases h
    exact Layout.text?_encoded (firstUnencodable?_eq_none hnone)

/-- A text behind the mark of its character set leaves nothing open. -/
theorem settles_mark (c : Charset) (bytes : Bytes) : c.Settles (c.mark ++ bytes) := by
  cases c with
  | fixed l => trivial
  | utf8Marked => simp [Settles, mark, mark8]
  | utf16Marked => exact .inr ⟨.little, List.prefix_append _ _⟩
  | utf32Marked => exact .inr ⟨.little, List.prefix_append _ _⟩

/-- **Decoding undoes encoding**, with the mark of the character set in front. -/
theorem decode_encode {c : Charset} {t : Text} {bytes : Bytes} (h : c.encode t = .ok bytes) :
    (c.decode (c.mark ++ bytes)).toOption = some t := by
  have htext := text?_of_encode h
  cases c with
  | fixed l => rw [← htext, mark, List.nil_append, decode, toOption_decodeFixed, layout]
  | utf8Marked =>
    have hdrop : (mark8 ++ bytes).drop 3 = bytes := rfl
    simp only [decode, mark, List.isPrefixOf_iff_prefix, List.prefix_append, if_true, hdrop]
    rw [toOption_decodeFixed, ← htext, layout]
  | utf16Marked =>
    have hdrop : (mark16 .little ++ bytes).drop 2 = bytes := rfl
    simp only [decode, mark, Decoder.areMarks16.order_eq, hdrop]
    rw [toOption_decodeFixed, ← htext, layout]
  | utf32Marked =>
    have hdrop : (mark32 .little ++ bytes).drop 4 = bytes := rfl
    simp only [decode, mark, Decoder.areMarks32.order_eq, hdrop]
    rw [toOption_decodeFixed, ← htext, layout]

end Charset

/-! ## Alphabets -/

namespace Source

open Charset

variable {w : World} {name : Text} {c : Charset} {t : Text} {bytes : Bytes} {s : Source}

/-- A stream of text is read as it is. -/
theorem construct_textStream (w : World) (name : Text) (welcome : Welcome) (shuffler : Shuffler)
    (t : Text) :
    (construct w name welcome shuffler true (.stream ⟨.text t none, false⟩)).result =
      .ok (FreshNames.extract welcome t shuffler) := rfl

/-- **Every text survives as bytes.**  Wherever a dictionary factory gets the bytes of a text from -
    a file, a URL, or a stream, as a whole or in pieces - it is made with the alphabet of the text,
    which it also has when it is given the text itself, and with the same shuffler for the next
    one. -/
theorem encoded_text_survives (hname : c.IsNamed name) (henc : c.encode t = .ok bytes)
    (welcome : Welcome) (shuffler : Shuffler) (h : s.Delivers w (c.mark ++ bytes)) :
    (construct w name welcome shuffler true s).result =
        .ok (FreshNames.extract welcome t shuffler) ∧
      ∀ (w' : World) (name' : Text),
        (construct w' name' welcome shuffler true (.stream ⟨.text t none, false⟩)).result =
          .ok (FreshNames.extract welcome t shuffler) := by
  have hread := readAs_of_delivers hname (c.settles_mark bytes) h welcome shuffler
  rw [decode_encode henc] at hread
  simp only [ReadAs] at hread
  refine ⟨?_, fun w' name' => ?_⟩
  · simp [construct, hread]
  · exact construct_textStream w' name' welcome shuffler t

/-- The names of character sets without a mark. -/
example :
    (fixed .utf8).IsNamed "utf-8".toList ∧ (fixed .ascii).IsNamed "ascii".toList ∧
      (fixed .latin1).IsNamed "latin-1".toList ∧
      (fixed (.utf16 .little)).IsNamed "utf-16-le".toList ∧
      (fixed (.utf16 .big)).IsNamed "utf-16-be".toList := by
  decide

/-- Three letters with a line end between them, the last one beyond the units of UTF-16. -/
def threeLetters : Text := ['x', '\r', '\n', 'ß', Char.ofNat 0x1D538]

/-- Its bytes, torn apart within the line end and within the last letter. -/
def tornLetters : List Bytes := [[0x78, 0, 0x0D, 0], [0x0A], [0, 0xDF, 0, 0x35, 0xD8, 0x38], [0xDD]]

/-- A world with a file that holds these bytes. -/
def tornWorld : World := .ofFiles ⟨[], [([['t']], .file tornLetters.flatten)]⟩

theorem encoded_text_survives_threeLetters :
    (fixed (.utf16 .little)).IsNamed "utf-16-le".toList ∧
      (fixed (.utf16 .little)).encode threeLetters = .ok tornLetters.flatten ∧
      ∀ s ∈ [path ['t'], stream ⟨.raw ⟨tornLetters, none⟩ none, false⟩],
        s.Delivers tornWorld tornLetters.flatten ∧
        (construct tornWorld "utf-16-le".toList .anything .backwards true s).result =
          .ok (FreshNames.extract .anything threeLetters .backwards) ∧
        ∀ (w' : World) (name' : Text),
          (construct w' name' .anything .backwards true
            (.stream ⟨.text threeLetters none, false⟩)).result =
              .ok (FreshNames.extract .anything threeLetters .backwards) := by
  have hname : (fixed (.utf16 .little)).IsNamed "utf-16-le".toList := by decide
  have henc : (fixed (.utf16 .little)).encode threeLetters = .ok tornLetters.flatten := rfl
  have hpath : Delivers tornWorld tornLetters.flatten (.path ['t']) := .path rfl
  have hraw : Delivers tornWorld tornLetters.flatten
      (.stream ⟨.raw ⟨tornLetters, none⟩ none, false⟩) := .raw (by decide) rfl
  refine ⟨hname, henc, ?_⟩
  rintro s hs
  rcases List.mem_pair.1 hs with rfl | rfl
  · exact ⟨hpath, encoded_text_survives hname henc .anything .backwards hpath⟩
  · exact ⟨hraw, encoded_text_survives hname henc .anything .backwards hraw⟩

end Source

end FreshNames
