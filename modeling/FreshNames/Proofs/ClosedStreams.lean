import FreshNames.Proofs.CollectedLetters
import FreshNames.Proofs.Troubles

/-!
# Streams that are closed

Whoever extracts an alphabet from a stream closes it, however the loop is left: at the end of the data,
by a failure of any reading, or by bytes where characters are expected.  A construction takes a stream
over when there is a fallback and the stream can be read at all, and otherwise leaves it as it is:
there may be no decoder for its bytes, or it refuses to be decoded.

* `Held` - a stream in the hands of those who read it, character by character or byte by byte;
* `Held.Collects` - the loop, and what is left of the stream; `Collects.isClosed_eq` - it closes nothing;
* `Held.Extracts` - the extraction, which closes the stream behind the loop; `extracts_iff`;
* `Stream.Constructs` - a construction up to its alphabet, step by step; `constructs_iff`;
* `Stream.closed_iff_taken_over` - which streams are closed afterwards.
-/

set_option autoImplicit false

namespace FreshNames

/-! ## Streams in somebody's hands -/

/-- What there is to read: characters, or bytes that nobody decodes. -/
inductive Supply
  | characters (r : Reader)
  | bytes (f : Feed)

/-- What one reading gives, which is empty at the end. -/
inductive Portion
  | characters (t : Text)
  | bytes (b : Bytes)

/-- Does nothing more come? -/
def Portion.isEmpty : Portion → Bool
  | characters t => t.isEmpty
  | bytes b => b.isEmpty

/-- A stream in the hands of those who read it. -/
structure Held where
  supply : Supply
  isClosed : Bool

namespace Held

variable {h h' h'' : Held} {welcome : Welcome} {shuffler : Shuffler} {letters : Finset Char}
  {x y : Except Trouble (Finset Char)}

/-- Closes the stream. -/
def close (h : Held) : Held := { h with isClosed := true }

/-- Reads one character, or one byte, if the stream is open. -/
def readOne (h : Held) : Except Trouble Portion × Held :=
  if h.isClosed then (.error (.mishap .closed), h)
  else
    match h.supply with
    | .characters r =>
      match r.read 1 with
      | .error e => (.error e.trouble, h)
      | .ok (t, r) => (.ok (.characters t), { h with supply := .characters r })
    | .bytes f =>
      match f.next 1 with
      | .error e => (.error e.trouble, h)
      | .ok (b, f) => (.ok (.bytes b), { h with supply := .bytes f })

/-- The loop that collects letters, with the set that there is so far: what comes of it, and the stream
    afterwards. -/
inductive Collects (welcome : Welcome) :
    Held → Finset Char → Except Trouble (Finset Char) → Held → Prop
  /-- Nothing can be read. -/
  | fail {h h' : Held} {letters : Finset Char} {e : Trouble} (hr : h.readOne = (.error e, h')) :
      Collects welcome h letters (.error e) h'
  /-- Nothing more comes. -/
  | stop {h h' : Held} {letters : Finset Char} {p : Portion} (hr : h.readOne = (.ok p, h'))
      (hp : p.isEmpty = true) : Collects welcome h letters (.ok letters) h'
  /-- Bytes are no characters. -/
  | bytes {h h' : Held} {letters : Finset Char} {b : Bytes} (hr : h.readOne = (.ok (.bytes b), h'))
      (hb : b ≠ []) : Collects welcome h letters (.error (.mishap .bytesForText)) h'
  /-- An eligible character is joined to the set. -/
  | join {h h' h'' : Held} {letters : Finset Char} {c : Char} {y : Except Trouble (Finset Char)}
      (hr : h.readOne = (.ok (.characters [c]), h')) (hc : isEligible welcome [c] = true)
      (hy : Collects welcome h' (insert c letters) y h'') : Collects welcome h letters y h''
  /-- Another character is passed over. -/
  | pass {h h' h'' : Held} {letters : Finset Char} {c : Char} {y : Except Trouble (Finset Char)}
      (hr : h.readOne = (.ok (.characters [c]), h')) (hc : isEligible welcome [c] = false)
      (hy : Collects welcome h' letters y h'') : Collects welcome h letters y h''

/-- The extraction of an alphabet.  Nobody gets at a closed stream; and whatever comes of the loop, the
    stream is closed behind it. -/
inductive Extracts (welcome : Welcome) (shuffler : Shuffler) (h : Held) :
    Except Trouble (Alphabet × Shuffler) → Held → Prop
  | refused (hc : h.isClosed = true) :
      Extracts welcome shuffler h (.error (.mishap .closed)) h
  | unread {e : Trouble} {h' : Held} (hc : h.isClosed = false)
      (hx : h.Collects welcome ∅ (.error e) h') : Extracts welcome shuffler h (.error e) h'.close
  | collected {letters : Finset Char} {h' : Held} {a : Alphabet × Shuffler}
      (hc : h.isClosed = false) (hx : h.Collects welcome ∅ (.ok letters) h')
      (ha : Shuffler.orders.alphabetOf shuffler letters = .ok a) :
      Extracts welcome shuffler h (.ok a) h'.close

/-! ## The loop -/

/-- **No reading closes a stream**, whether it fails or not. -/
theorem readOne_isClosed (h : Held) : h.readOne.2.isClosed = h.isClosed := by
  unfold readOne
  split
  · rfl
  · split
    · split <;> rfl
    · split <;> rfl

theorem Collects.isClosed_eq (hx : h.Collects welcome letters x h') : h'.isClosed = h.isClosed := by
  induction hx with
  | fail hr => exact (congrArg (·.2.isClosed) hr).symm.trans (readOne_isClosed _)
  | stop hr _ => exact (congrArg (·.2.isClosed) hr).symm.trans (readOne_isClosed _)
  | bytes hr _ => exact (congrArg (·.2.isClosed) hr).symm.trans (readOne_isClosed _)
  | join hr _ _ ih => exact ih.trans ((congrArg (·.2.isClosed) hr).symm.trans (readOne_isClosed _))
  | pass hr _ _ ih => exact ih.trans ((congrArg (·.2.isClosed) hr).symm.trans (readOne_isClosed _))

theorem Collects.unique (hx : h.Collects welcome letters x h') (hy : h.Collects welcome letters y h'') :
    x = y ∧ h' = h'' := by
  induction hx with
  | fail hr => cases hy <;> simp_all
  | stop hr hp => cases hy <;> grind [Portion.isEmpty]
  | bytes hr hb => cases hy <;> simp_all [Portion.isEmpty]
  | join hr hc _ ih => cases hy <;> simp_all [Portion.isEmpty]
  | pass hr hc _ ih => cases hy <;> simp_all [Portion.isEmpty]

/-- The text that is read until nothing more comes.  Of bytes there is none, but at their end. -/
def text (h : Held) : Except Trouble Text :=
  if h.isClosed then .error (.mishap .closed)
  else
    match h.supply with
    | .characters r => r.drain.mapError ReadError.trouble
    | .bytes f =>
      match f.next 1 with
      | .error e => .error e.trouble
      | .ok (b, _) => if b.isEmpty then .ok [] else .error (.mishap .bytesForText)

/-- Not more than a slab has been taken in at a time, if anything. -/
def IsModest (h : Held) : Prop :=
  match h.supply with
  | .characters r => r.IsModest
  | .bytes _ => True

/-- The loop over a reader is the loop over a stream that is open. -/
theorem collects_characters {r : Reader} {x : Except ReadError (Finset Char)}
    (hx : r.Collects welcome letters x) :
    ∃ r', Collects welcome ⟨.characters r, false⟩ letters (x.mapError ReadError.trouble)
      ⟨.characters r', false⟩ := by
  have hread {r r' : Reader} {t : Text} (h : r.read 1 = .ok (t, r')) :
      readOne ⟨.characters r, false⟩ = (.ok (.characters t), ⟨.characters r', false⟩) := by
    simp only [readOne, Bool.false_eq_true, if_false, h]
  induction hx with
  | @fail r letters e h =>
    refine ⟨r, .fail ?_⟩
    simp only [readOne, Bool.false_eq_true, if_false, h]
  | stop h => exact ⟨_, .stop (hread h) rfl⟩
  | join h hc _ ih =>
    obtain ⟨r', hrest⟩ := ih
    exact ⟨r', .join (hread h) hc hrest⟩
  | pass h hc _ ih =>
    obtain ⟨r', hrest⟩ := ih
    exact ⟨r', .pass (hread h) hc hrest⟩

/-- **The loop comes to an end**, with the eligible characters of the text or with the trouble that it
    has met. -/
theorem exists_collects (hm : h.IsModest) (hc : h.isClosed = false) (welcome : Welcome) :
    ∃ h', h.Collects welcome ∅ (h.text.map (eligibleSet welcome)) h' := by
  obtain ⟨supply, isClosed⟩ := h
  cases hc
  cases supply with
  | characters r =>
    have hreads : r.ReadsEach r.drain := (Reader.readsEach_iff hm).2 rfl
    obtain ⟨r', hx⟩ := collects_characters (Reader.collects_of_readsEach hreads welcome ∅)
    refine ⟨⟨.characters r', false⟩, ?_⟩
    convert hx using 1
    simp only [text, Bool.false_eq_true, if_false]
    cases r.drain <;> simp [Except.map, Except.mapError]
  | bytes f =>
    cases hnext : f.next 1 with
    | error e =>
      have hread : readOne ⟨.bytes f, false⟩ = (.error e.trouble, ⟨.bytes f, false⟩) := by
        simp only [readOne, Bool.false_eq_true, if_false, hnext]
      refine ⟨⟨.bytes f, false⟩, ?_⟩
      simp only [text, Bool.false_eq_true, if_false, hnext]
      exact .fail hread
    | ok q =>
      obtain ⟨b, f'⟩ := q
      have hread : readOne ⟨.bytes f, false⟩ = (.ok (.bytes b), ⟨.bytes f', false⟩) := by
        simp only [readOne, Bool.false_eq_true, if_false, hnext]
      refine ⟨⟨.bytes f', false⟩, ?_⟩
      simp only [text, Bool.false_eq_true, if_false, hnext]
      cases b with
      | nil => exact .stop hread rfl
      | cons c b => exact .bytes hread (List.cons_ne_nil c b)

/-! ## The extraction -/

/-- **Whatever comes of it, an extraction leaves the stream closed.** -/
theorem Extracts.isClosed {a : Except Trouble (Alphabet × Shuffler)}
    (hx : h.Extracts welcome shuffler a h') : h'.isClosed = true := by
  cases hx with
  | refused hc => exact hc
  | unread => rfl
  | collected => rfl

theorem Extracts.unique {a b : Except Trouble (Alphabet × Shuffler)}
    (ha : h.Extracts welcome shuffler a h') (hb : h.Extracts welcome shuffler b h'') :
    a = b ∧ h' = h'' := by
  cases ha with
  | refused hc => cases hb <;> simp_all
  | unread hc hx =>
    cases hb with
    | refused hc' => simp_all
    | unread _ hy =>
      obtain ⟨he, rfl⟩ := hx.unique hy
      cases he
      exact ⟨rfl, rfl⟩
    | collected _ hy _ => cases (hx.unique hy).1
  | collected hc hx ha =>
    cases hb with
    | refused hc' => simp_all
    | unread _ hy => cases (hx.unique hy).1
    | collected _ hy hb =>
      obtain ⟨he, rfl⟩ := hx.unique hy
      cases he
      rw [ha] at hb
      cases hb
      exact ⟨rfl, rfl⟩

end Held

/-- What an extraction leaves to those who go on: the alphabet and the random source. -/
def Extraction.outcome (e : Extraction) : Alphabet × Shuffler := (e.alphabet, e.shuffler)

namespace Held

variable {h h' : Held} {welcome : Welcome} {shuffler : Shuffler}

theorem exists_extracts (hm : h.IsModest) (welcome : Welcome) (shuffler : Shuffler) :
    ∃ h', h.Extracts welcome shuffler
      (h.text.map fun t => (extract welcome t shuffler).outcome) h' := by
  cases hc : h.isClosed with
  | true =>
    have htext : h.text = .error (.mishap .closed) := by rw [text, if_pos hc]
    rw [htext]
    exact ⟨h, .refused hc⟩
  | false =>
    obtain ⟨h', hx⟩ := exists_collects hm hc welcome
    cases htext : h.text with
    | error e =>
      rw [htext] at hx
      exact ⟨h'.close, .unread hc hx⟩
    | ok t =>
      rw [htext] at hx
      exact ⟨h'.close, .collected hc hx (OrderSource.alphabetOf_eq_extract shuffler welcome t)⟩

theorem extracts_iff (hm : h.IsModest) {a : Except Trouble (Alphabet × Shuffler)} :
    (∃ h', h.Extracts welcome shuffler a h') ↔
      a = h.text.map fun t => (extract welcome t shuffler).outcome := by
  obtain ⟨h', hx⟩ := exists_extracts hm welcome shuffler
  constructor
  · rintro ⟨h'', ha⟩
    exact (ha.unique hx).1
  · rintro rfl
    exact ⟨h', hx⟩

end Held

/-! ## Constructions -/

namespace Stream

variable {s s' s'' : Stream} {codecs : Codecs} {charset : Text} {welcome : Welcome}
  {shuffler : Shuffler} {hasFallback : Bool} {x y : Except ConstructionError (Alphabet × Shuffler)}

/-- The stream as it is handed over to an extraction without decoding. -/
def asIs (s : Stream) : Held :=
  ⟨match s.content with
    | .text rest patience => .characters (.plain rest patience)
    | .bytes rest _ => .bytes (.ofBytes rest)
    | .raw feed _ => .bytes feed, s.isClosed⟩

/-- The stream as it is handed over by a construction: text as it is, and bytes behind a decoder.  The
    decoder is looked up first; then the stream is asked whether it is open, and whether it can be
    read. -/
def handedOver (codecs : Codecs) (s : Stream) (charset : Text) : Except Trouble Held :=
  match s.asIs.supply with
  | .characters r => .ok ⟨.characters r, s.isClosed⟩
  | .bytes feed =>
    match Charset.decoderNamed codecs charset with
    | .error m => .error (.mishap m)
    | .ok d =>
      if s.isClosed then .error (.mishap .closed)
      else
        match s.content.refusal with
        | some t => .error t
        | none => .ok ⟨.characters (.decoded (.ofFeed d feed)), false⟩

/-- A construction from a stream, up to the alphabet, and the stream afterwards. -/
inductive Constructs (codecs : Codecs) (charset : Text) (welcome : Welcome) (shuffler : Shuffler)
    (s : Stream) : Bool → Except ConstructionError (Alphabet × Shuffler) → Stream → Prop
  /-- There is nothing to fall back on. -/
  | refused : Constructs codecs charset welcome shuffler s false (.error .fallbackMissing) s
  /-- The stream is not handed over. -/
  | unopened {t : Trouble} (ho : s.handedOver codecs charset = .error t) :
      Constructs codecs charset welcome shuffler s true (.error (.source (.bare t))) s
  /-- The alphabet is extracted. -/
  | read {h h' : Held} {a : Except Trouble (Alphabet × Shuffler)}
      (ho : s.handedOver codecs charset = .ok h) (ha : h.Extracts welcome shuffler a h') :
      Constructs codecs charset welcome shuffler s true
        ((Source.blamed s.display a).mapError .source) { s with isClosed := h'.isClosed }

/-- Is there text in the stream? -/
def IsText (s : Stream) : Prop := ∃ rest patience, s.content = .text rest patience

theorem isModest_asIs (s : Stream) : s.asIs.IsModest := by
  obtain ⟨content, isClosed⟩ := s
  cases content <;> trivial

theorem text_asIs (s : Stream) : s.asIs.text = s.plainText := by
  obtain ⟨content, isClosed⟩ := s
  cases isClosed with
  | true => rfl
  | false =>
    cases content with
    | text rest patience =>
      simp only [Held.text, asIs, plainText, Bool.false_eq_true, if_false]
      cases (Reader.plain rest patience).drain <;> rfl
    | bytes rest =>
      simp only [Held.text, asIs, plainText, Bool.false_eq_true, if_false, Feed.next, Feed.ofBytes]
      rcases rest with - | ⟨b, - | ⟨c, rest⟩⟩ <;> rfl
    | raw feed => rfl

/-- A stream that is not handed over stays as it is. -/
structure NotHandedOver (codecs : Codecs) (s : Stream) (charset : Text) (t : Trouble) : Prop where
  handedOver_eq : s.handedOver codecs charset = .error t
  reader_eq : s.reader codecs charset = .error t
  afterReading_eq : s.afterReading codecs charset = s

/-- A stream that is handed over is read as a source is, and closed afterwards. -/
structure IsHandedOver (codecs : Codecs) (s : Stream) (charset : Text) (h : Held) : Prop where
  handedOver_eq : s.handedOver codecs charset = .ok h
  isModest : h.IsModest
  reader_ne_cause : ∀ c, s.reader codecs charset ≠ .error (.cause c)
  text_eq : h.text = (s.reader codecs charset).bind fun r => r.drain.mapError ReadError.trouble
  afterReading_eq : s.afterReading codecs charset = s.close

theorem handedOver_bytes {content : StreamContent} {feed : Feed}
    (hsupply : (Stream.mk content false).asIs.supply = .bytes feed)
    (hreader : contentReader codecs charset content = decoding codecs feed charset)
    (isClosed : Bool) :
    (∃ t, NotHandedOver codecs ⟨content, isClosed⟩ charset t) ∨
      ∃ h, IsHandedOver codecs ⟨content, isClosed⟩ charset h := by
  have hsupply' : (Stream.mk content isClosed).asIs.supply = .bytes feed := hsupply
  have htaken : (Stream.mk content isClosed).isTakenOver codecs charset =
      ((Charset.decoderNamed codecs charset).toBool && content.refusal.isNone) := by
    cases content with
    | text => cases hsupply
    | _ =>
      simp only [isTakenOver]
      cases Charset.decoderNamed codecs charset <;> rfl
  cases hname : Charset.decoderNamed codecs charset with
  | error m =>
    rw [hname] at htaken
    refine .inl ⟨.mishap m, ?_, ?_, ?_⟩
    · simp only [handedOver, hsupply', hname]
    · simp only [reader, hreader, decoding, hname]
    · simp [afterReading, htaken, Except.toBool]
  | ok d =>
    rw [hname] at htaken
    cases isClosed with
    | true =>
      refine .inl ⟨.mishap .closed, ?_, ?_, ?_⟩
      · simp only [handedOver, hsupply', hname, if_true]
      · simp only [reader, hreader, decoding, hname, if_true]
      · simp [afterReading, close]
    | false =>
      cases hrefusal : content.refusal with
      | some t =>
        refine .inl ⟨t, ?_, ?_, ?_⟩
        · simp only [handedOver, hsupply', hname, hrefusal, Bool.false_eq_true, if_false]
        · simp only [reader, hreader, decoding, hname, hrefusal, Bool.false_eq_true, if_false]
        · simp [afterReading, htaken, hrefusal]
      | none =>
        have hopen : reader codecs ⟨content, false⟩ charset = .ok (.decoded (.ofFeed d feed)) := by
          simp only [reader, hreader, decoding, hname, hrefusal, Bool.false_eq_true, if_false]
        refine .inr ⟨⟨.characters (.decoded (.ofFeed d feed)), false⟩, ?_, Nat.zero_le _,
          fun c hc => ?_, ?_, ?_⟩
        · simp only [handedOver, hsupply', hname, hrefusal, Bool.false_eq_true, if_false]
        · rw [hopen] at hc
          cases hc
        · rw [hopen]
          rfl
        · simp [afterReading, htaken, hrefusal, Except.toBool]

/-- A stream is handed over or not, as it is told by `Stream.afterReading`. -/
theorem handedOver_cases (codecs : Codecs) (s : Stream) (charset : Text) :
    (∃ t, s.NotHandedOver codecs charset t) ∨ ∃ h, s.IsHandedOver codecs charset h := by
  obtain ⟨content, isClosed⟩ := s
  cases content with
  | text rest patience =>
    refine .inr ⟨⟨.characters (.plain rest patience), isClosed⟩, rfl, trivial, ?_, ?_, rfl⟩
    · cases isClosed <;> simp [reader, contentReader, StreamContent.refusal]
    · cases isClosed <;> rfl
  | bytes rest refusal => exact handedOver_bytes rfl rfl isClosed
  | raw feed refusal => exact handedOver_bytes rfl rfl isClosed

/-- **A construction goes as it is told by `construct`.** -/
theorem constructs_construct (w : World) (charset : Text) (welcome : Welcome) (shuffler : Shuffler)
    (hasFallback : Bool) (s : Stream) :
    ∃ s', s.Constructs w.codecs charset welcome shuffler hasFallback
        ((construct w charset welcome shuffler hasFallback (.stream s)).result.map
          Extraction.outcome) s' ∧
      (construct w charset welcome shuffler hasFallback (.stream s)).source = .stream s' := by
  cases hasFallback with
  | false => exact ⟨s, .refused, rfl⟩
  | true =>
    have hsource : (construct w charset welcome shuffler true (.stream s)).source =
        .stream (s.afterReading w.codecs charset) := rfl
    rw [Source.construct_result, hsource]
    rcases s.handedOver_cases w.codecs charset with ⟨t, hn⟩ | ⟨h, hh⟩
    · have hresult : (Source.extract w charset welcome shuffler (.stream s)).result =
          .error (.bare t) := by
        simp only [Source.extract, Source.opening, hn.reader_eq]
      rw [hn.afterReading_eq, hresult]
      exact ⟨s, .unopened hn.handedOver_eq, rfl⟩
    · have hmeets : (Source.stream s).Meets w charset _ := Source.meets_iff.2 rfl
      have hrefuses (c : Cause) : ¬ (Source.stream s).Refuses w charset c := by
        rintro ⟨stream, hstream, hreader⟩
        cases hstream
        exact hh.reader_ne_cause c hreader
      have hopened : (Source.stream s).opened w charset = s.reader w.codecs charset := rfl
      obtain ⟨h', ha⟩ := Held.exists_extracts hh.isModest welcome shuffler
      have hread := Constructs.read hh.handedOver_eq ha
      rw [Source.extract_of_meets hmeets hrefuses welcome shuffler, hopened, ← hh.text_eq,
        hh.afterReading_eq]
      rw [ha.isClosed] at hread
      refine ⟨s.close, ?_, rfl⟩
      cases htext : h.text <;> rw [htext] at hread <;> exact hread

theorem Constructs.unique
    (hx : s.Constructs codecs charset welcome shuffler hasFallback x s')
    (hy : s.Constructs codecs charset welcome shuffler hasFallback y s'') : x = y ∧ s' = s'' := by
  cases hx with
  | refused =>
    cases hy
    exact ⟨rfl, rfl⟩
  | unopened ho =>
    cases hy with
    | unopened ho' =>
      rw [ho] at ho'
      cases ho'
      exact ⟨rfl, rfl⟩
    | read ho' _ =>
      rw [ho] at ho'
      cases ho'
  | read ho ha =>
    cases hy with
    | unopened ho' =>
      rw [ho] at ho'
      cases ho'
    | read ho' ha' =>
      rw [ho] at ho'
      cases ho'
      obtain ⟨rfl, rfl⟩ := ha.unique ha'
      exact ⟨rfl, rfl⟩

theorem constructs_iff (w : World) :
    s.Constructs w.codecs charset welcome shuffler hasFallback x s' ↔
      x = (construct w charset welcome shuffler hasFallback (.stream s)).result.map
          Extraction.outcome ∧
        (construct w charset welcome shuffler hasFallback (.stream s)).source = .stream s' := by
  obtain ⟨t, ht, hsource⟩ := constructs_construct w charset welcome shuffler hasFallback s
  constructor
  · intro hx
    obtain ⟨rfl, rfl⟩ := hx.unique ht
    exact ⟨rfl, hsource⟩
  · rintro ⟨rfl, h⟩
    rw [hsource] at h
    cases h
    exact ht

/-! ## Which streams are closed -/

/-- Text is handed over in any case, and bytes if the decoder is found, the stream is open and does
    not refuse. -/
theorem handedOver_ok_iff : (∃ h, s.handedOver codecs charset = .ok h) ↔
    s.IsText ∨ s.isClosed = false ∧ s.content.refusal = none ∧
      ∃ d, Charset.decoderNamed codecs charset = .ok d := by
  obtain ⟨content, isClosed⟩ := s
  cases content with
  | text rest patience => exact iff_of_true ⟨_, rfl⟩ (.inl ⟨rest, patience, rfl⟩)
  | bytes _ refusal | raw _ refusal =>
    simp only [handedOver, asIs, IsText, StreamContent.refusal, reduceCtorEq, exists_false, false_or]
    cases Charset.decoderNamed codecs charset <;> cases isClosed <;> cases refusal <;> simp

theorem Constructs.isClosed_iff
    (hx : s.Constructs codecs charset welcome shuffler hasFallback x s')
    (hrefusal : s.content.refusal = none) :
    s'.isClosed = true ↔ s.isClosed = true ∨
      hasFallback = true ∧ (s.IsText ∨ ∃ d, Charset.decoderNamed codecs charset = .ok d) := by
  cases hx with
  | refused => simp
  | @unopened t ho =>
    have hnot : ¬ ∃ h, s.handedOver codecs charset = .ok h := by
      rintro ⟨h, hh⟩
      rw [ho] at hh
      cases hh
    rw [handedOver_ok_iff] at hnot
    cases hc : s.isClosed <;> simp_all
  | @read h h' a ho ha =>
    have htaken := handedOver_ok_iff.1 ⟨h, ho⟩
    refine iff_of_true ha.isClosed (.inr ⟨rfl, ?_⟩)
    exact htaken.imp_right fun hopen => hopen.2.2

/-- A stream that refuses to be decoded stays as it is. -/
theorem Constructs.eq_of_refusal
    (hx : s.Constructs codecs charset welcome shuffler hasFallback x s')
    (hrefusal : s.content.refusal ≠ none) : s' = s := by
  cases hx with
  | refused => rfl
  | unopened => rfl
  | @read h h' a ho ha =>
    rcases handedOver_ok_iff.1 ⟨h, ho⟩ with ⟨rest, patience, htext⟩ | ⟨-, hnone, -⟩
    · rw [htext] at hrefusal
      exact absurd rfl hrefusal
    · exact absurd hnone hrefusal

theorem Constructs.eq_of_fallbackMissing
    (hx : s.Constructs codecs charset welcome shuffler false x s') : s' = s := by
  cases hx
  rfl

end Stream

namespace Session

variable {s : Session} {name : Text} {p : DictionaryPlan} {place : Nat} {stream : Stream}
  {fallback : Option Nat} {lot : Lot}

theorem putShuffler_streams (s : Session) (l : Lot) (next : Shuffler) :
    (s.putShuffler l next).streams = s.streams := by
  cases l <;> rfl

theorem keyed_streams (s : Session) (e : Extraction) : (s.keyed e).2.streams = s.streams := by
  unfold keyed
  split <;> rfl

theorem makeFromSource_streams (w : World) (s : Session) (name : Text) (p : DictionaryPlan) (lot : Lot)
    (fallback : Option Nat) (place? : Option Nat) (source : Source) :
    (s.makeFromSource w name p lot fallback place? source).session.streams =
      (s.putSource place? (construct w p.charset p.welcome (s.shuffler lot) fallback.isSome
        source).source).streams := by
  unfold makeFromSource
  dsimp only
  split
  · rfl
  · rfl
  · exact (keyed_streams _ _).trans (putShuffler_streams _ _ _)

/-- In a session, too, making a dictionary factory from a stream is such a construction, and no other
    stream is concerned. -/
theorem step_constructs (w : World) (ho : s.origin p.source = .ok (.stream place stream))
    (hf : s.fallbackPlace p.fallback = .ok fallback) (hl : s.lot p.shuffler = .ok lot) (name : Text) :
    ∃ x stream',
      stream.Constructs w.codecs p.charset p.welcome (s.shuffler lot) fallback.isSome x stream' ∧
      (s.step w (.make name (.dictionary p))).2.streams = s.streams.set place stream' := by
  obtain ⟨stream', hx, hsource⟩ := Stream.constructs_construct w p.charset p.welcome (s.shuffler lot)
    fallback.isSome stream
  refine ⟨_, stream', hx, ?_⟩
  have hmake : (s.step w (.make name (.dictionary p))).2 =
      (s.makeFromSource w name p lot fallback (some place) (.stream stream)).session := by
    simp only [step, perform, make, makeDictionary, ho, hf, hl]
  rw [hmake, makeFromSource_streams, hsource]
  rfl

end Session

namespace Stream

/-- **A stream is closed by those who take it over, and by nobody else.**  An extraction leaves it
    closed, whatever comes of it.  A construction has closed it if and only if it was closed, or there
    was a fallback, and the stream holds text or the name is one of a decoder.  If the stream refuses
    to be decoded, and without a fallback, nothing at all happens to it. -/
theorem closed_iff_taken_over (s : Stream) (welcome : Welcome) (shuffler : Shuffler) :
    ((∃ a h, s.asIs.Extracts welcome shuffler a h) ∧
        ∀ a h, s.asIs.Extracts welcome shuffler a h → h.isClosed = true ∧
          (s.extract welcome shuffler).1.map Extraction.outcome = a ∧
          (s.extract welcome shuffler).2.isClosed = h.isClosed) ∧
      (∀ codecs charset hasFallback,
        (∃ x s', s.Constructs codecs charset welcome shuffler hasFallback x s') ∧
        ∀ x s', s.Constructs codecs charset welcome shuffler hasFallback x s' →
          (∀ w, w.codecs = codecs →
            x = (construct w charset welcome shuffler hasFallback (.stream s)).result.map
              Extraction.outcome ∧
            (construct w charset welcome shuffler hasFallback (.stream s)).source = .stream s') ∧
          (s.content.refusal = none → (s'.isClosed = true ↔ s.isClosed = true ∨
            hasFallback = true ∧
              (s.IsText ∨ ∃ d, Charset.decoderNamed codecs charset = .ok d))) ∧
          (s.content.refusal ≠ none → s' = s) ∧
          (hasFallback = false → s' = s)) ∧
      ∀ (session : Session) (w : World) (p : DictionaryPlan) (place : Nat) (fallback : Option Nat)
        (lot : Session.Lot), session.origin p.source = .ok (.stream place s) →
        session.fallbackPlace p.fallback = .ok fallback → session.lot p.shuffler = .ok lot →
        ∀ name, ∃ x s',
          s.Constructs w.codecs p.charset p.welcome (session.shuffler lot) fallback.isSome x s' ∧
          (session.step w (.make name (.dictionary p))).2.streams =
            session.streams.set place s' := by
  refine ⟨⟨?_, fun a h ha => ?_⟩, fun codecs charset hasFallback => ⟨?_, fun x s' hx => ?_⟩, ?_⟩
  · obtain ⟨h, ha⟩ := Held.exists_extracts s.isModest_asIs welcome shuffler
    exact ⟨_, h, ha⟩
  · have hresult := (Held.extracts_iff s.isModest_asIs).1 ⟨h, ha⟩
    rw [text_asIs] at hresult
    refine ⟨ha.isClosed, ?_, ha.isClosed.symm⟩
    rw [hresult, extract]
    cases s.plainText <;> rfl
  · obtain ⟨s', hx, -⟩ :=
      constructs_construct { World.nothing with codecs } charset welcome shuffler hasFallback s
    exact ⟨_, s', hx⟩
  · refine ⟨?_, hx.isClosed_iff, hx.eq_of_refusal, ?_⟩
    · rintro w rfl
      exact (constructs_iff w).1 hx
    · rintro rfl
      exact hx.eq_of_fallbackMissing
  · intro session w p place fallback lot ho hf hl name
    exact Session.step_constructs w ho hf hl name

/-- A stream of bytes that gets confused behind its first piece. -/
def confusedStream : Stream := ⟨.raw ⟨[[0x61]], some .confused⟩ none, false⟩

theorem closed_iff_taken_over_confusedStream :
    (∃ x s', confusedStream.Constructs World.nothing.codecs "utf-8".toList .identifiers .inOrder
        true x s' ∧ s'.isClosed = true) ∧
      (∃ x s', confusedStream.Constructs World.nothing.codecs "klingon".toList .identifiers .inOrder
        true x s' ∧ s'.isClosed = false) ∧
      ∃ a h, confusedStream.asIs.Extracts .identifiers .inOrder a h ∧ h.isClosed = true := by
  obtain ⟨⟨⟨a, h, ha⟩, hclosed⟩, hconstructs, -⟩ :=
    closed_iff_taken_over confusedStream .identifiers .inOrder
  have hknown : ∃ d, Charset.decoderNamed World.nothing.codecs "utf-8".toList = .ok d :=
    ⟨_, Charset.IsNamed.decoderNamed_eq (c := .fixed .utf8) (by decide) _⟩
  have hunknown : ¬ ∃ d, Charset.decoderNamed World.nothing.codecs "klingon".toList = .ok d := by
    rintro ⟨c, hc⟩
    have herror : (Charset.decoderNamed World.nothing.codecs "klingon".toList).toBool = false := by
      decide
    rw [hc] at herror
    cases herror
  refine ⟨?_, ?_, a, h, ha, (hclosed a h ha).1⟩
  · obtain ⟨⟨x, s', hx⟩, hall⟩ := hconstructs World.nothing.codecs "utf-8".toList true
    obtain ⟨-, hiff, -⟩ := hall x s' hx
    exact ⟨x, s', hx, (hiff rfl).2 (.inr ⟨rfl, .inr hknown⟩)⟩
  · obtain ⟨⟨x, s', hx⟩, hall⟩ := hconstructs World.nothing.codecs "klingon".toList true
    obtain ⟨-, hiff, -⟩ := hall x s' hx
    refine ⟨x, s', hx, Bool.eq_false_iff.2 fun htrue => ?_⟩
    rcases (hiff rfl).1 htrue with hc | ⟨-, ⟨rest, patience, htext⟩ | hc⟩
    · cases hc
    · cases htext
    · exact hunknown hc

end Stream

end FreshNames
