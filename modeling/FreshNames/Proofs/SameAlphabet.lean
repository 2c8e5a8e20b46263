import FreshNames.Construction
import FreshNames.Proofs.CharByChar
import Mathlib.Data.List.SplitBy

/-!
# The way that bytes take does not matter

A dictionary is read from a file, from a stream of bytes, from a raw stream in pieces, or from a URL.
The first three decode piece by piece and unify line ends, the last one decodes at once and keeps
them.  For line ends are never eligible, the same bytes give the same alphabet, or are no text on any
of these ways.

* `unifyLineEnds_append`, `unifyLineEnds_release` - line ends may be unified part by part;
* `Charset.Settles` - the bytes say all that the character set needs to know;
* `Feed.Carries`, `Source.Delivers` - bytes that come from a feed, and from a source;
* `Feed.Carries.drain_yields` - reading a feed gives the text of its bytes;
* `Source.same_alphabet_of_delivers` - the alphabet depends on nothing but the bytes.
-/

set_option autoImplicit false

namespace FreshNames

open Charset

/-! ## Line ends -/

theorem unifyLineEnds_return {t : Text} (h : t.head? ≠ some '\n') :
    unifyLineEnds ('\r' :: t) = '\n' :: unifyLineEnds t := by
  refine unifyLineEnds.eq_3 t ?_
  rintro rest rfl
  exact h rfl

/-- No line end is torn apart between the texts. -/
def Joins (s t : Text) : Prop := s.getLast? = some '\r' → t.head? ≠ some '\n'

theorem Joins.tail {c : Char} {s t : Text} (h : Joins (c :: s) t) : Joins s t := by
  intro hl
  refine h ?_
  simp [List.getLast?_cons, hl]

theorem unifyLineEnds_append {s t : Text} (h : Joins s t) :
    unifyLineEnds (s ++ t) = unifyLineEnds s ++ unifyLineEnds t := by
  fun_induction unifyLineEnds s with
  | case1 => rfl
  | case2 rest ih => simp only [List.cons_append, unifyLineEnds, ih h.tail.tail]
  | case3 rest hn ih =>
    cases rest with
    | nil => exact unifyLineEnds_return (h rfl)
    | cons c rest =>
      have hc : c ≠ '\n' := fun e => hn rest (by rw [e])
      rw [List.cons_append, unifyLineEnds_return (by simpa using hc), ih h.tail, List.cons_append]
  | case4 c rest hn hc ih =>
    rw [List.cons_append, unifyLineEnds.eq_4 c _ (fun _ e => absurd e hc) hc, ih h.tail,
      List.cons_append]

namespace LineDecoder

theorem withHeld_append (holds : Bool) (s t : Text) :
    withHeld holds (s ++ t) = withHeld holds s ++ t := by
  cases holds <;> rfl

/-- What is passed on of a piece is the beginning of the whole text with unified line ends; a
    carriage return that is held back belongs to the rest. -/
theorem unifyLineEnds_release (holds : Bool) (t rest : Text) :
    unifyLineEnds (withHeld holds (t ++ rest)) =
      (release holds false t).1 ++ unifyLineEnds (withHeld (release holds false t).2 rest) := by
  rcases List.eq_nil_or_concat' t with rfl | ⟨s, c, rfl⟩
  · rfl
  · by_cases hc : c = '\r'
    · subst hc
      have hrel : release holds false (s ++ ['\r']) = (unifyLineEnds (withHeld holds s), true) := by
        simp [release]
      rw [hrel, List.append_assoc, withHeld_append]
      exact unifyLineEnds_append fun _ => by simp
    · have hrel : release holds false (s ++ [c]) = (unifyLineEnds (withHeld holds (s ++ [c])), false) := by
        simp [release, hc]
      rw [hrel, withHeld_append holds (s ++ [c])]
      refine unifyLineEnds_append fun hl => ?_
      rw [withHeld_append] at hl
      simp [hc] at hl

end LineDecoder

/-! ## Reading piece by piece -/

/-- What comes of reading: a text, or a fault if there is none. -/
def Yields (r : Except ReadError Text) : Option Text → Prop
  | some t => r = .ok t
  | none => ∃ f, r = .error (.decode (.fault f))

theorem drainPieces_yields {pieces : List Bytes} (hne : ∀ p ∈ pieces, p ≠ []) {d : Decoder}
    {l : Layout} {bytes : Bytes} (h : d.Reads pieces.flatten l bytes) (holds : Bool) :
    Yields (Transcript.drainPieces none pieces ⟨.charset d, holds⟩)
      ((l.text? bytes).map fun t => unifyLineEnds (LineDecoder.withHeld holds t)) := by
  induction pieces generalizing d bytes holds with
  | nil =>
    have hend := Decoder.feed_ends h
    simp only [Transcript.drainPieces, LineDecoder.feed, PieceDecoder.feed]
    generalize d.feed true [] = r at hend ⊢
    cases hend with
    | text d' ht =>
      rw [ht]
      rfl
    | fault f hf =>
      rw [hf]
      exact ⟨f, rfl⟩
  | cons p pieces ih =>
    have hstep := Decoder.feed_advances h
    have hp : p.isEmpty = false := by simpa using hne p List.mem_cons_self
    simp only [Transcript.drainPieces, LineDecoder.feed, PieceDecoder.feed, hp, Bool.false_and,
      Bool.false_eq_true, if_false]
    generalize d.feed false p = r at hstep ⊢
    cases hstep with
    | @text t d' rest hreads ht =>
      -- what is held back after this piece is held before the next one
      have ih := ih (fun q hq => hne q (List.mem_cons_of_mem p hq)) hreads
        (LineDecoder.release holds false t).2
      rw [ht]
      cases hrest : l.text? rest with
      | none =>
        rw [hrest] at ih
        obtain ⟨f, hf⟩ := ih
        exact ⟨f, by simp only [hf]⟩
      | some u =>
        rw [hrest] at ih
        simp only [Option.map_some, Yields] at ih ⊢
        rw [ih, LineDecoder.unifyLineEnds_release]
    | fault f hf =>
      rw [hf]
      exact ⟨f, rfl⟩

/-! ## Character sets -/

namespace Charset

/-- Do the bytes say all that the character set needs to know?  A mark that is needed comes first,
    and a mark that may be there does not break off. -/
def Settles : Charset → Bytes → Prop
  | fixed _, _ => True
  | utf8Marked, bytes => bytes ≠ [0xEF] ∧ bytes ≠ [0xEF, 0xBB]
  | utf16Marked, bytes => bytes = [] ∨ ∃ order, mark16 order <+: bytes
  | utf32Marked, bytes => bytes = [] ∨ ∃ order, mark32 order <+: bytes

theorem toOption_decodeFixed (l : Layout) (start : Nat) (bytes : Bytes) :
    (decodeFixed l start bytes).toOption = l.text? bytes := by
  rw [l.text?_eq start, decodeFixed]
  cases l.decode true start bytes <;> rfl

theorem decode_nil (c : Charset) : c.decode [] = .ok [] := by
  cases c <;> simp [decode, decodeFixed, markedOrder?, mark8, mark16, mark32, Layout.decode_nil]

/-- Bytes with a proper mark are read by a decoder as they are decoded at once. -/
theorem Settles.reads {c : Charset} {bytes : Bytes} (h : c.Settles bytes) (hne : bytes ≠ []) :
    ∃ l rest, (Decoder.ofCharset c).Reads bytes l rest ∧
      (c.decode bytes).toOption = l.text? rest := by
  cases c with
  | fixed l => exact ⟨l, bytes, .fixed l [], toOption_decodeFixed l 0 bytes⟩
  | utf8Marked =>
    by_cases hm : mark8 <+: bytes
    · obtain ⟨rest, rfl⟩ := hm
      refine ⟨.utf8, rest, .marked8 rfl, ?_⟩
      simp only [decode, List.isPrefixOf_iff_prefix, List.prefix_append, if_true]
      exact toOption_decodeFixed .utf8 0 rest
    · refine ⟨.utf8, bytes, .unmarked8 hm ?_, ?_⟩
      · rintro ⟨rest, hp⟩
        obtain ⟨h1, h2⟩ := h
        rcases bytes with _ | ⟨b0, _ | ⟨b1, _ | ⟨b2, bytes⟩⟩⟩
        · exact hne rfl
        · simp_all [mark8]
        · simp_all [mark8]
        · simp_all [mark8]
      · simp only [decode, List.isPrefixOf_iff_prefix, hm, if_false]
        exact toOption_decodeFixed .utf8 0 bytes
  | utf16Marked =>
    obtain ⟨order, rest, rfl⟩ := h.resolve_left hne
    refine ⟨.utf16 order, rest, .marked16 order rfl, ?_⟩
    have hdrop : (mark16 order ++ rest).drop 2 = rest := by cases order <;> rfl
    simp only [decode, Decoder.areMarks16.order_eq, hdrop]
    exact toOption_decodeFixed _ 2 rest
  | utf32Marked =>
    obtain ⟨order, rest, rfl⟩ := h.resolve_left hne
    refine ⟨.utf32 order, rest, .marked32 order rfl, ?_⟩
    have hdrop : (mark32 order ++ rest).drop 4 = rest := by cases order <;> rfl
    simp only [decode, Decoder.areMarks32.order_eq, hdrop]
    exact toOption_decodeFixed _ 4 rest

end Charset

/-! ## Feeds -/

namespace Feed

theorem ne_nil_of_mem_cut {size : Nat} (pos : 0 < size) {p q : Bytes} (hp : p ≠ [])
    (h : q ∈ cut size pos p) : q ≠ [] := by
  fun_induction cut size pos p with
  | case1 p hle =>
    rw [List.mem_singleton.1 h]
    exact hp
  | case2 p hlt ih =>
    rcases List.mem_cons.1 h with rfl | h
    · simp only [ne_eq, List.take_eq_nil_iff, hp, or_false]
      omega
    · refine ih ?_ h
      simp only [ne_eq, List.drop_eq_nil_iff]
      exact hlt

/-- The bytes of a feed: all in one piece, or in pieces of which none is empty. -/
inductive Carries : Feed → Bytes → Prop
  | whole (bytes : Bytes) : Carries (ofBytes bytes) bytes
  | pieces {chunks : List Bytes} (h : ∀ p ∈ chunks, p ≠ []) : Carries ⟨chunks, none⟩ chunks.flatten

/-- A decoder that has seen nothing gives nothing at the end. -/
theorem feed_nil (c : Charset) :
    (LineDecoder.start (.ofCharset c)).feed true [] = .ok ([], .start (.ofCharset c)) := by
  simp [LineDecoder.feed, LineDecoder.start, PieceDecoder.ofCharset, PieceDecoder.feed,
    Decoder.feed_nil, LineDecoder.release, LineDecoder.withHeld, unifyLineEnds]

theorem drain_ofFeed (d : PieceDecoder) (f : Feed) :
    (Reader.decoded (.ofFeed d f)).drain =
      Transcript.drainPieces f.failure (f.slabs Transcript.slab Transcript.slab_pos) (.start d) := by
  rw [Reader.drain_decoded]
  exact congrFun Except.map_id _

theorem drain_nonempty_pieces {chunks : List Bytes} (hne : ∀ p ∈ chunks, p ≠ []) {c : Charset}
    (h : c.Settles chunks.flatten) :
    Yields (Transcript.drainPieces none (slabs Transcript.slab Transcript.slab_pos ⟨chunks, none⟩)
        (.start (.ofCharset c)))
      ((c.decode chunks.flatten).toOption.map unifyLineEnds) := by
  by_cases he : chunks.flatten = []
  · have hnil : chunks = [] := by
      rw [List.eq_nil_iff_forall_not_mem]
      intro p hp
      exact hne p hp (List.flatten_eq_nil_iff.1 he p hp)
    subst hnil
    simp [slabs, Transcript.drainPieces, feed_nil, decode_nil, Except.toOption, Yields,
      unifyLineEnds]
  · obtain ⟨l, rest, hreads, htext⟩ := h.reads he
    have hslabs : ∀ p ∈ slabs Transcript.slab Transcript.slab_pos ⟨chunks, none⟩, p ≠ [] := by
      intro q hq
      obtain ⟨p, hp, hq⟩ := List.mem_flatMap.1 hq
      exact ne_nil_of_mem_cut Transcript.slab_pos (hne p hp) hq
    rw [htext]
    refine drainPieces_yields hslabs ?_ false
    rw [flatten_slabs]
    exact hreads

/-- **Reading a feed** gives the text of its bytes with unified line ends, or finds a fault if they
    are no text. -/
theorem Carries.drain_yields {f : Feed} {bytes : Bytes} (hf : f.Carries bytes) {c : Charset}
    (h : c.Settles bytes) :
    Yields (Reader.decoded (.ofFeed (.ofCharset c) f)).drain ((c.decode bytes).toOption.map unifyLineEnds) := by
  rw [drain_ofFeed]
  cases hf with
  | pieces hne => exact drain_nonempty_pieces hne h
  | whole =>
    by_cases he : bytes = []
    · subst he
      simp [slabs, ofBytes, cut, Transcript.drainPieces, feed_nil, decode_nil, Except.toOption,
        Yields, unifyLineEnds]
    · have hne : ∀ p ∈ [bytes], p ≠ [] := by
        intro p hp
        rw [List.mem_singleton.1 hp]
        exact he
      have hflat : [bytes].flatten = bytes := by simp
      rw [← hflat] at h
      have hdrain := drain_nonempty_pieces hne h
      rw [hflat] at hdrain
      exact hdrain

end Feed

/-! ## Alphabets -/

/-- No line end is eligible, of whatever kind. -/
theorem filter_unifyLineEnds (welcome : Welcome) (t : Text) :
    (unifyLineEnds t).filter (isEligibleChar welcome) = t.filter (isEligibleChar welcome) := by
  have hfeed : ¬ isEligibleChar welcome '\n' = true := by simp [isEligibleChar_iff]
  have hreturn : ¬ isEligibleChar welcome '\r' = true := by simp [isEligibleChar_iff]
  fun_induction unifyLineEnds t with
  | case1 => rfl
  | case2 rest ih =>
    rw [List.filter_cons_of_neg hfeed, List.filter_cons_of_neg hreturn,
      List.filter_cons_of_neg hfeed, ih]
  | case3 rest hn ih => rw [List.filter_cons_of_neg hfeed, List.filter_cons_of_neg hreturn, ih]
  | case4 c rest hn hc ih => rw [List.filter_cons, List.filter_cons, ih]

/-- The alphabet of a text depends on its eligible characters only. -/
theorem extract_congr {welcome : Welcome} {t u : Text}
    (h : t.filter (isEligibleChar welcome) = u.filter (isEligibleChar welcome))
    (shuffler : Shuffler) : extract welcome t shuffler = extract welcome u shuffler := by
  have hletters : eligibleLetters welcome t = eligibleLetters welcome u := by
    rw [eligibleLetters, eligibleLetters, h]
  simp only [extract, hletters]

/-! ## Sources -/

namespace Source

/-- Bytes that a source delivers: they stand in a file, come from a URL, or are what is left of an
    open stream, as a whole or in pieces. -/
inductive Delivers (w : World) (bytes : Bytes) : Source → Prop
  | path {t : Text} (h : w.files.read (Path.normal t) = .ok bytes) : Delivers w bytes (.path t)
  | file {t : Text} (hn : Url.isUrl t = .ok false) (h : w.files.read t = .ok bytes) :
      Delivers w bytes (.location t)
  | url {t : Text} (hu : Url.isUrl t = .ok true) (h : w.fetch t = .ok bytes) :
      Delivers w bytes (.location t)
  | bytes : Delivers w bytes (.stream ⟨.bytes bytes none, false⟩)
  | raw {chunks : List Bytes} (hne : ∀ p ∈ chunks, p ≠ []) (h : chunks.flatten = bytes) :
      Delivers w bytes (.stream ⟨.raw ⟨chunks, none⟩ none, false⟩)

/-- The outcome of reading a source: the alphabet of a text, or a dictionary error whose cause is a
    fault, if there is no text. -/
def ReadAs (s : Source) (welcome : Welcome) (shuffler : Shuffler)
    (r : Except SourceError Extraction) : Option Text → Prop
  | some t => r = .ok (FreshNames.extract welcome t shuffler)
  | none => ∃ f, r = .error (.dictionary ⟨s.display, .undecodable f⟩)

variable {w : World} {name : Text} {c : Charset} {bytes : Bytes} {s : Source}

theorem readAs_of_feed (hc : c.Settles bytes) {f : Feed} (hf : f.Carries bytes)
    (hopen : (s.opening w name).result = .ok (.decoded (.ofFeed (.ofCharset c) f))) (welcome : Welcome)
    (shuffler : Shuffler) :
    s.ReadAs welcome shuffler (s.extract w name welcome shuffler).result
      (c.decode bytes).toOption := by
  have hyields := hf.drain_yields hc
  simp only [Source.extract, hopen]
  cases hd : (c.decode bytes).toOption with
  | none =>
    rw [hd] at hyields
    obtain ⟨f, hf⟩ := hyields
    exact ⟨f, by rw [hf]; rfl⟩
  | some t =>
    rw [hd] at hyields
    simp only [Option.map_some, Yields] at hyields
    simp only [hyields, ReadAs]
    rw [extract_congr (filter_unifyLineEnds welcome t)]

theorem fileOpening_result (hname : c.IsNamed name) {path : Text}
    (h : w.files.read path = .ok bytes) :
    (fileOpening w name path).result =
      .ok (.decoded (.ofFeed (.ofCharset c) (.ofBytes bytes))) := by
  simp [fileOpening, openFile, hname.noNull, h, Stream.decoding, hname.decoderNamed_eq, blamed]

variable {codecs : Codecs}

theorem decodeNamed_of_ok (hname : c.IsNamed name) {t : Text} (h : c.decode bytes = .ok t) :
    decodeNamed codecs name bytes = .ok t := by
  unfold decodeNamed
  rw [if_neg (by simp [hname.noNull])]
  split_ifs with he
  · rw [List.isEmpty_iff.1 he, decode_nil] at h
    cases h
    rfl
  · simp [hname.named_eq, Coding.decode, h]

theorem decodeNamed_of_error (hname : c.IsNamed name) {f : Fault}
    (h : c.decode bytes = .error f) :
    decodeNamed codecs name bytes = .error (.cause (.undecodable f)) := by
  unfold decodeNamed
  rw [if_neg (by simp [hname.noNull])]
  split_ifs with he
  · rw [List.isEmpty_iff.1 he, decode_nil] at h
    cases h
  · simp [hname.named_eq, Coding.decode, h, DecodeError.trouble]

theorem readAs_of_url (hname : c.IsNamed name) {t : Text} (hu : Url.isUrl t = .ok true)
    (h : w.fetch t = .ok bytes) (welcome : Welcome) (shuffler : Shuffler) :
    (location t).ReadAs welcome shuffler ((location t).extract w name welcome shuffler).result
      (c.decode bytes).toOption := by
  simp only [Source.extract, opening, hu, urlOpening, openUrl, h]
  cases hd : c.decode bytes with
  | error f =>
    rw [decodeNamed_of_error hname hd]
    exact ⟨f, rfl⟩
  | ok u =>
    rw [decodeNamed_of_ok hname hd]
    rfl

theorem readAs_of_delivers (hname : c.IsNamed name) (hc : c.Settles bytes)
    (h : s.Delivers w bytes) (welcome : Welcome) (shuffler : Shuffler) :
    s.ReadAs welcome shuffler (s.extract w name welcome shuffler).result
      (c.decode bytes).toOption := by
  cases h with
  | path h =>
    refine readAs_of_feed hc (.whole bytes) ?_ welcome shuffler
    exact fileOpening_result hname h
  | file hn h =>
    refine readAs_of_feed hc (.whole bytes) ?_ welcome shuffler
    simp only [opening, hn]
    exact fileOpening_result hname h
  | url hu h => exact readAs_of_url hname hu h welcome shuffler
  | bytes =>
    refine readAs_of_feed hc (.whole bytes) ?_ welcome shuffler
    simp [opening, Stream.reader, Stream.contentReader, Stream.decoding, hname.decoderNamed_eq,
      StreamContent.refusal]
  | raw hne h =>
    subst h
    refine readAs_of_feed hc (.pieces hne) ?_ welcome shuffler
    simp [opening, Stream.reader, Stream.contentReader, Stream.decoding, hname.decoderNamed_eq,
      StreamContent.refusal]

/-- **The same bytes give the same alphabet**, wherever they come from, and the same shuffler
    afterwards: both are those of the text that the bytes are.  Or they are no text, and it is a
    dictionary error with a fault as its cause, wherever they come from. -/
theorem same_alphabet_of_delivers (hname : c.IsNamed name) (hc : c.Settles bytes)
    (welcome : Welcome) (shuffler : Shuffler) :
    (∃ t, c.decode bytes = .ok t ∧ ∀ (w : World) (s : Source), s.Delivers w bytes →
        (construct w name welcome shuffler true s).result =
          .ok (FreshNames.extract welcome t shuffler)) ∨
      (∃ f, c.decode bytes = .error f) ∧
        ∀ (w : World) (s : Source), s.Delivers w bytes → ∃ f,
          (construct w name welcome shuffler true s).result =
            .error (.source (.dictionary ⟨s.display, .undecodable f⟩)) := by
  cases hd : c.decode bytes with
  | ok t =>
    refine .inl ⟨t, rfl, fun w s h => ?_⟩
    have hread := readAs_of_delivers hname hc h welcome shuffler
    rw [hd] at hread
    simp only [Except.toOption, ReadAs] at hread
    simp [construct, hread]
  | error f =>
    refine .inr ⟨⟨f, rfl⟩, fun w s h => ?_⟩
    have hread := readAs_of_delivers hname hc h welcome shuffler
    rw [hd] at hread
    obtain ⟨f, hf⟩ := hread
    exact ⟨f, by simp [construct, hf]⟩

/-- A letter and a carriage return in UTF-16, behind a mark. -/
def letterBytes : Bytes := [0xFF, 0xFE, 0x78, 0, 0x0D, 0]

/-- The URL of a page with these bytes. -/
def letterUrl : Text := "http://h/d".toList

/-- A world with this page, and a file that holds the same bytes. -/
def letterWorld : World :=
  { World.ofFiles ⟨[], [([['d']], .file letterBytes)]⟩ with
    net := fun r =>
      if r.key = letterUrl then .ok letterBytes
      else .error (.cause (.request (.other "no such page".toList))) }

theorem fetch_letterUrl : letterWorld.fetch letterUrl = .ok letterBytes := by
  have hclear : (letterUrl.all fun c => Text.blanks.ranges.toList.all fun r =>
      !(decide (r.1 ≤ c.toNat) && decide (c.toNat ≤ r.2))) = true := by rfl
  have hstrip : Text.strip letterUrl = letterUrl := by
    refine Text.dropAround_of_none fun c hc => ?_
    rw [Bool.eq_false_iff]
    intro hb
    obtain ⟨r, hr, hle⟩ := Text.CodeTable.contains_sound hb
    have hout := List.all_eq_true.1 (List.all_eq_true.1 hclear c hc) r (Array.mem_toList_iff.2 hr)
    simp [hle] at hout
  have hhost : Text.percentDecoded ['h'] = ['h'] := by
    simp [Text.percentDecoded, List.splitBy, List.splitBy.loop, Text.isAscii,
      Text.unescapedBytes, Text.escapedByte?, Text.decodeLossy, Charset.scanUtf8]
  have hrequest : Request.ofText letterUrl = ⟨"http".toList, ['h'], "/d".toList, letterUrl⟩ := by
    have hun : Request.unwrapped letterUrl = letterUrl := by
      rw [Request.unwrapped, hstrip]
      rfl
    rw [Request.ofText, hun, ← hhost]
    rfl
  rw [World.fetch, hrequest]
  rfl

theorem same_alphabet_of_delivers_letterBytes :
    utf16Marked.IsNamed "utf-16".toList ∧ utf16Marked.Settles letterBytes ∧
      Delivers letterWorld letterBytes (.path ['d']) ∧
      Delivers letterWorld letterBytes (.location letterUrl) ∧
      Delivers letterWorld letterBytes (.stream ⟨.bytes letterBytes none, false⟩) ∧
      Delivers letterWorld letterBytes
        (.stream ⟨.raw ⟨[[0xFF], [0xFE, 0x78, 0, 0x0D], [0]], none⟩ none, false⟩) ∧
      ((∃ t, utf16Marked.decode letterBytes = .ok t ∧
        ∀ (w : World) (s : Source), s.Delivers w letterBytes →
          (construct w "utf-16".toList .identifiers .inOrder true s).result =
            .ok (FreshNames.extract .identifiers t .inOrder)) ∨
      (∃ f, utf16Marked.decode letterBytes = .error f) ∧
        ∀ (w : World) (s : Source), s.Delivers w letterBytes → ∃ f,
          (construct w "utf-16".toList .identifiers .inOrder true s).result =
            .error (.source (.dictionary ⟨s.display, .undecodable f⟩))) := by
  have hname : utf16Marked.IsNamed "utf-16".toList := by decide
  have hsettles : utf16Marked.Settles letterBytes := .inr ⟨.little, by decide⟩
  refine ⟨hname, hsettles, .path ?_, .url ?_ fetch_letterUrl, .bytes, .raw ?_ rfl,
    same_alphabet_of_delivers hname hsettles .identifiers .inOrder⟩
  · rfl
  · rfl
  · decide

end Source

end FreshNames
