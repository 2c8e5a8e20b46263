import FreshNames.Proofs.IdentifierNames

/-!
# What escapes from a construction

Opening and reading meet troubles of many classes.  Two of them, errors of the system and bytes that
are no text, are put down to the source; all others escape as they are.  There is one place where
nobody asks who is to blame: a stream of bytes that refuses to be decoded at all.

* `ErrorClass` - the classes of errors, as those tell them apart who handle them;
* `Source.Meets` - what one meets who opens a source and reads all of it: a trouble or a text
  (`meets_iff`); `Source.Refuses` - it is a stream that refuses to be decoded;
* `Source.extract_of_meets`, `Source.extract_of_refuses` - what becomes of it;
* `Session.made_of_meets`, `Session.exists_of_made_eq_error` - the errors of making a dictionary
  factory;
* `Session.construction_errors` - which errors escape, and what they tell;
  `Session.made_brokenHandle` - an error of the system does.
-/

set_option autoImplicit false

namespace FreshNames

/-! ## Classes of errors -/

/-- The classes of errors. -/
inductive ErrorClass
  /-- Errors of the system: files, streams, requests. -/
  | system
  /-- Bytes that are no text. -/
  | decoding
  /-- Text that cannot be decoded for another reason than its bytes. -/
  | unicode
  /-- A value that does not do. -/
  | value
  /-- A name under which there is nothing. -/
  | lookup
  /-- A number that does not fit. -/
  | overflow
  /-- A thing of another kind. -/
  | type
  /-- A dictionary that could not be read. -/
  | dictionary
  /-- What else is said outside. -/
  | other
  deriving DecidableEq, Repr

def Cause.errorClass : Cause → ErrorClass
  | undecodable _ | undecodableBy _ => .decoding
  | refused _ _ | brokeDown | device | request _ | system _ => .system

def Mishap.errorClass : Mishap → ErrorClass
  | markMissing _ => .unicode
  | unknownCharset _ => .lookup
  | beyondWord => .overflow
  | bytesForText => .type
  | nullInCharset | closed | confused | nullInPath | malformedUrl _ => .value
  | other _ => .other

def Trouble.errorClass : Trouble → ErrorClass
  | cause c => c.errorClass
  | mishap m => m.errorClass

def ConstructionError.errorClass : ConstructionError → ErrorClass
  | fallbackMissing => .type
  | source (.dictionary _) => .dictionary
  | source (.bare t) => t.errorClass

/-- The class of those errors that are put down to a source. -/
def ErrorClass.IsBlamed (c : ErrorClass) : Prop := c = .system ∨ c = .decoding

theorem Cause.isBlamed (c : Cause) : c.errorClass.IsBlamed := by
  cases c
  case undecodable => exact .inr rfl
  case undecodableBy => exact .inr rfl
  all_goals exact .inl rfl

theorem Mishap.not_isBlamed (m : Mishap) : ¬ m.errorClass.IsBlamed := by
  rintro (h | h) <;> cases m <;> cases h

theorem Trouble.isBlamed_iff {t : Trouble} : t.errorClass.IsBlamed ↔ ∃ c, t = .cause c := by
  cases t with
  | cause c => exact iff_of_true c.isBlamed ⟨c, rfl⟩
  | mishap m => exact iff_of_false m.not_isBlamed fun ⟨_, h⟩ => by cases h

theorem Trouble.blame_of_not_isBlamed {t : Trouble} (h : ¬ t.errorClass.IsBlamed) (source : Text) :
    t.blame source = .bare t := by
  cases t with
  | cause c => exact absurd c.isBlamed h
  | mishap m => rfl

/-- Once it has been asked who is to blame, nothing to blame is left bare. -/
theorem Trouble.blame_eq_bare_iff {source : Text} {t u : Trouble} :
    t.blame source = .bare u ↔ t = u ∧ ¬ u.errorClass.IsBlamed := by
  constructor
  · cases t with
    | cause c => simp [blame]
    | mishap m =>
      intro h
      cases h
      exact ⟨rfl, m.not_isBlamed⟩
  · rintro ⟨rfl, h⟩
    exact blame_of_not_isBlamed h source

/-! ## Opening and reading -/

namespace Source

variable {w : World} {charset t : Text} {s : Source} {x : Except Trouble Text}

/-- Opens a source, without putting a trouble down to it. -/
def opened (w : World) (charset : Text) : Source → Except Trouble Reader
  | location t =>
    match Url.isUrl t with
    | .error e => .error (.mishap (.malformedUrl e))
    | .ok true => openUrl w charset t
    | .ok false => openFile w charset t
  | path t => openFile w charset (Path.normal t)
  | stream s => s.reader w.codecs charset

/-- What becomes of a trouble of opening: with a stream nobody asks who is to blame. -/
def openingError (t : Trouble) : Source → SourceError
  | stream _ => .bare t
  | s => t.blame s.display

theorem opening_result (w : World) (charset : Text) (s : Source) :
    (s.opening w charset).result = (s.opened w charset).mapError (openingError · s) := by
  cases s with
  | location t =>
    simp only [opening, opened]
    rcases Url.isUrl t with e | _ | _
    · rfl
    · simp only [fileOpening]
      cases openFile w charset t <;> rfl
    · simp only [urlOpening]
      cases openUrl w charset t <;> rfl
  | path t =>
    simp only [opening, opened, fileOpening]
    cases openFile w charset (Path.normal t) <;> rfl
  | stream s =>
    simp only [opening, opened]
    cases s.reader w.codecs charset <;> rfl

/-- What one meets who opens a source and reads single characters until nothing more comes: the
    trouble of opening, or that of reading, or the text. -/
inductive Meets (w : World) (charset : Text) (s : Source) : Except Trouble Text → Prop
  | opening {t : Trouble} (h : s.opened w charset = .error t) : Meets w charset s (.error t)
  | reading {r : Reader} {x : Except ReadError Text} (h : s.opened w charset = .ok r)
      (hx : r.ReadsEach x) : Meets w charset s (x.mapError ReadError.trouble)

theorem opening_of_opened {r : Reader} (h : s.opened w charset = .ok r) :
    (s.opening w charset).result = .ok r := by
  rw [opening_result, h]
  rfl

/-- What is met is what draining gives. -/
theorem meets_iff : s.Meets w charset x ↔
    x = (s.opened w charset).bind fun r => r.drain.mapError ReadError.trouble := by
  constructor
  · intro h
    cases h with
    | opening h =>
      rw [h]
      rfl
    | reading h hx =>
      obtain rfl := (readsEach_opening (opening_of_opened h)).1 hx
      rw [h]
      rfl
  · rintro rfl
    cases h : s.opened w charset with
    | error t => exact .opening h
    | ok r => exact .reading h ((readsEach_opening (opening_of_opened h)).2 rfl)

/-- One always meets something. -/
theorem exists_meets (w : World) (charset : Text) (s : Source) : ∃ x, s.Meets w charset x :=
  ⟨_, meets_iff.2 rfl⟩

theorem Meets.unique {y : Except Trouble Text} (h : s.Meets w charset x) (h' : s.Meets w charset y) :
    x = y :=
  (meets_iff.1 h).trans (meets_iff.1 h').symm

/-- A trouble is met while the source is opened, or while it is read. -/
theorem meets_error_iff {t : Trouble} : s.Meets w charset (.error t) ↔
    s.opened w charset = .error t ∨
      ∃ r e, s.opened w charset = .ok r ∧ r.drain = .error e ∧ e.trouble = t := by
  rw [meets_iff]
  cases s.opened w charset with
  | error u => simp [Except.bind, eq_comm]
  | ok r => cases hdrain : r.drain <;> simp [Except.bind, Except.mapError, hdrain, eq_comm]

/-- A stream that cannot be decoded at all, for a cause in the world outside. -/
def Refuses (w : World) (charset : Text) (s : Source) (c : Cause) : Prop :=
  ∃ stream : Stream, s = .stream stream ∧ stream.reader w.codecs charset = .error (.cause c)

theorem Refuses.meets {c : Cause} (h : s.Refuses w charset c) :
    s.Meets w charset (.error (.cause c)) := by
  obtain ⟨stream, rfl, hreader⟩ := h
  exact .opening hreader

/-- An error of opening that is not a refusal is put down to the source if it has a cause. -/
theorem openingError_eq {t : Trouble} (h : s.opened w charset = .error t)
    (hrefuses : ∀ c, ¬ s.Refuses w charset c) : openingError t s = t.blame s.display := by
  cases s with
  | location _ => rfl
  | path _ => rfl
  | stream stream =>
    cases t with
    | cause c => exact absurd ⟨stream, rfl, h⟩ (hrefuses c)
    | mishap m => rfl

/-- What is met decides what is extracted: the alphabet of a text, or an error, for which the source
    is to blame or not. -/
theorem extract_of_meets (h : s.Meets w charset x) (hrefuses : ∀ c, ¬ s.Refuses w charset c)
    (welcome : Welcome) (shuffler : Shuffler) :
    (s.extract w charset welcome shuffler).result =
      blamed s.display (x.map fun t => FreshNames.extract welcome t shuffler) := by
  obtain rfl := meets_iff.1 h
  simp only [extract, opening_result]
  cases hopen : s.opened w charset with
  | error t =>
    simp only [Except.mapError, openingError_eq hopen hrefuses]
    rfl
  | ok r => cases hdrain : r.drain <;> simp [blamed, Except.bind, Except.mapError, Except.map, hdrain]

/-- A refusal is told as it is. -/
theorem extract_of_refuses {c : Cause} (h : s.Refuses w charset c) (welcome : Welcome)
    (shuffler : Shuffler) :
    (s.extract w charset welcome shuffler).result = .error (.bare (.cause c)) := by
  obtain ⟨stream, rfl, hreader⟩ := h
  simp only [extract, opening, hreader]

theorem construct_result (w : World) (name : Text) (welcome : Welcome) (shuffler : Shuffler)
    (s : Source) : (construct w name welcome shuffler true s).result =
      (s.extract w name welcome shuffler).result.mapError .source := by
  simp only [construct, if_true]
  cases (s.extract w name welcome shuffler).result <;> rfl

/-- A construction that succeeds gives the alphabet of a text. -/
theorem exists_of_construct_eq_ok {welcome : Welcome} {shuffler : Shuffler} {e : Extraction}
    (h : (construct w charset welcome shuffler true s).result = .ok e) :
    ∃ t, s.Meets w charset (.ok t) ∧ FreshNames.extract welcome t shuffler = e := by
  have hrefuses (c : Cause) : ¬ s.Refuses w charset c := by
    intro hc
    rw [construct_result, extract_of_refuses hc] at h
    cases h
  obtain ⟨x, hx⟩ := s.exists_meets w charset
  rw [construct_result, extract_of_meets hx hrefuses] at h
  cases x with
  | error t => cases h
  | ok t => exact ⟨t, hx, Except.ok.inj h⟩

end Source

/-! ## Making dictionary factories -/

namespace Session

variable {w : World} {s : Session} {name : Text} {p : DictionaryPlan} {o : Origin}
  {fallback : Option Nat} {lot : Lot}

/-- The result of making a dictionary factory. -/
def made (w : World) (s : Session) (name : Text) (p : DictionaryPlan) : Except StepError Reply :=
  (s.step w (.make name (.dictionary p))).1.result

theorem makeFromSource_result (w : World) (s : Session) (name : Text) (p : DictionaryPlan)
    (lot : Lot) (d : Nat) (place? : Option Nat) (source : Source) :
    (s.makeFromSource w name p lot (some d) place? source).result =
      ((source.extract w p.charset p.welcome (s.shuffler lot)).result.mapError
        fun e => .construction (.source e)).map fun _ => .done := by
  simp only [makeFromSource, construct, Option.isSome_some, if_true]
  cases (source.extract w p.charset p.welcome (s.shuffler lot)).result <;> rfl

section Named

/-! The source, the fallback and the random source that are named in the plan are there. -/

variable (ho : s.origin p.source = .ok o) (hlot : s.lot p.shuffler = .ok lot)

include ho hlot

theorem made_of_fallbackMissing (hfallback : s.fallbackPlace p.fallback = .ok none) :
    s.made w name p = .error (.construction .fallbackMissing) := by
  show (s.makeDictionary w name p).result = _
  simp only [makeDictionary, ho, hfallback, hlot]
  cases o <;> rfl

/-- A factory that takes its letters from another one is always made. -/
theorem made_of_letters {d : Nat} (hfallback : s.fallbackPlace p.fallback = .ok (some d))
    (hsource : o.source? = none) : s.made w name p = .ok .done := by
  show (s.makeDictionary w name p).result = _
  simp only [makeDictionary, ho, hfallback, hlot]
  cases o with
  | source source => cases hsource
  | stream place stream => cases hsource
  | letters letters => rfl

theorem made_of_source {d : Nat} (hfallback : s.fallbackPlace p.fallback = .ok (some d))
    {source : Source} (hsource : o.source? = some source) : s.made w name p =
      ((source.extract w p.charset p.welcome (s.shuffler lot)).result.mapError
        fun e => .construction (.source e)).map fun _ => .done := by
  show (s.makeDictionary w name p).result = _
  simp only [makeDictionary, ho, hfallback, hlot]
  cases o with
  | source given =>
    cases hsource
    exact makeFromSource_result ..
  | stream place stream =>
    cases hsource
    exact makeFromSource_result ..
  | letters letters => cases hsource

section Source

variable {source : Source} (hsource : o.source? = some source)

include hsource

/-- A trouble that is met is the end of the construction, once it has been asked whether the source
    is to blame. -/
theorem made_of_meets {d : Nat} (hfallback : s.fallbackPlace p.fallback = .ok (some d))
    {t : Trouble} (ht : source.Meets w p.charset (.error t))
    (hrefuses : ∀ c, ¬ source.Refuses w p.charset c) :
    s.made w name p = .error (.construction (.source (t.blame source.display))) := by
  rw [made_of_source ho hlot hfallback hsource, Source.extract_of_meets ht hrefuses]
  rfl

/-- A refusal is the end of the construction, too, and nobody asks. -/
theorem made_of_refuses {d : Nat} (hfallback : s.fallbackPlace p.fallback = .ok (some d))
    {c : Cause} (hc : source.Refuses w p.charset c) :
    s.made w name p = .error (.construction (.source (.bare (.cause c)))) := by
  rw [made_of_source ho hlot hfallback hsource, Source.extract_of_refuses hc]
  rfl

end Source

/-- There is no other error: there is nothing to fall back on, or a stream refuses, or a trouble is
    met. -/
theorem exists_of_made_eq_error {fallback : Option Nat}
    (hfallback : s.fallbackPlace p.fallback = .ok fallback) {e : StepError}
    (he : s.made w name p = .error e) :
    e = .construction .fallbackMissing ∨
      ∃ source, o.source? = some source ∧
        ((∃ c, source.Refuses w p.charset c ∧ e = .construction (.source (.bare (.cause c)))) ∨
          (∀ c, ¬ source.Refuses w p.charset c) ∧ ∃ t, source.Meets w p.charset (.error t) ∧
            e = .construction (.source (t.blame source.display))) := by
  cases fallback with
  | none =>
    rw [made_of_fallbackMissing ho hlot hfallback] at he
    exact .inl (Except.error.inj he).symm
  | some d =>
    cases hsource : o.source? with
    | none =>
      rw [made_of_letters ho hlot hfallback hsource] at he
      cases he
    | some source =>
      refine .inr ⟨source, rfl, ?_⟩
      by_cases hrefuses : ∃ c, source.Refuses w p.charset c
      · obtain ⟨c, hc⟩ := hrefuses
        rw [made_of_refuses ho hlot hsource hfallback hc] at he
        exact .inl ⟨c, hc, (Except.error.inj he).symm⟩
      · rw [not_exists] at hrefuses
        obtain ⟨x, hx⟩ := source.exists_meets w p.charset
        rw [made_of_source ho hlot hfallback hsource, Source.extract_of_meets hx hrefuses] at he
        cases x with
        | ok t => cases he
        | error t => exact .inr ⟨hrefuses, t, hx, (Except.error.inj he).symm⟩

/-- **What escapes from a construction**, of whatever source, with or without a fallback.  An error of
    the system, or bytes that are no text, escape as they are only if a stream of bytes refuses to be
    decoded, and then they do.  A dictionary error names the source, has as its cause what was met,
    and can be reported; whatever else was met escapes as it is. -/
theorem construction_errors {fallback : Option Nat}
    (hfallback : s.fallbackPlace p.fallback = .ok fallback) :
    (∀ e, s.made w name p = .error e → ∃ c, e = .construction c ∧
      (c.errorClass.IsBlamed → ∃ source k, o.source? = some source ∧
        source.Refuses w p.charset k ∧ c = .source (.bare (.cause k)))) ∧
    (∀ d, s.made w name p = .error (.construction (.source (.dictionary d))) →
      ∃ source, o.source? = some source ∧ source.Meets w p.charset (.error (.cause d.cause)) ∧
        d.source = source.display ∧
        d.report = .ok (unreadableMessage source.display d.cause.message)) ∧
    (∀ t, s.made w name p = .error (.construction (.source (.bare t))) →
      ∃ source, o.source? = some source ∧ source.Meets w p.charset (.error t)) ∧
    ∀ source t, fallback.isSome = true → o.source? = some source →
      source.Meets w p.charset (.error t) →
        (t.errorClass.IsBlamed → ∃ c, t = .cause c ∧
          (source.Refuses w p.charset c →
            s.made w name p = .error (.construction (.source (.bare (.cause c))))) ∧
          (¬ source.Refuses w p.charset c → s.made w name p =
            .error (.construction (.source (.dictionary ⟨source.display, c⟩))))) ∧
        (¬ t.errorClass.IsBlamed →
          s.made w name p = .error (.construction (.source (.bare t)))) := by
  refine ⟨fun e he => ?_, fun d he => ?_, fun t he => ?_, fun source t hsome hsource ht => ?_⟩
  · rcases exists_of_made_eq_error ho hlot hfallback he with
      rfl | ⟨source, hsource, ⟨k, hk, rfl⟩ | ⟨-, t, -, rfl⟩⟩
    · exact ⟨_, rfl, by rintro (h | h) <;> cases h⟩
    · exact ⟨_, rfl, fun _ => ⟨source, k, hsource, hk, rfl⟩⟩
    · refine ⟨_, rfl, fun h => ?_⟩
      cases t with
      | cause c => rcases h with h | h <;> cases h
      | mishap m => exact absurd h m.not_isBlamed
  · rcases exists_of_made_eq_error ho hlot hfallback he with
      h | ⟨source, hsource, ⟨k, -, h⟩ | ⟨-, t, ht, h⟩⟩
    · cases h
    · cases h
    · simp only [StepError.construction.injEq, ConstructionError.source.injEq] at h
      obtain ⟨hd, rfl⟩ := Trouble.blame_eq_dictionary_iff.1 h.symm
      exact ⟨source, hsource, ht, hd, by rw [d.report_eq, DictionaryError.message, hd]⟩
  · rcases exists_of_made_eq_error ho hlot hfallback he with
      h | ⟨source, hsource, ⟨k, hk, h⟩ | ⟨-, u, hu, h⟩⟩
    · cases h
    · cases h
      exact ⟨source, hsource, hk.meets⟩
    · simp only [StepError.construction.injEq, ConstructionError.source.injEq] at h
      obtain ⟨rfl, -⟩ := Trouble.blame_eq_bare_iff.1 h.symm
      exact ⟨source, hsource, hu⟩
  · obtain ⟨d, rfl⟩ := Option.isSome_iff_exists.1 hsome
    have hrefuses {c : Cause} (hc : source.Refuses w p.charset c) : t = .cause c := by
      cases ht.unique hc.meets
      rfl
    refine ⟨fun hc => ?_, fun hc => ?_⟩
    · obtain ⟨c, rfl⟩ := Trouble.isBlamed_iff.1 hc
      refine ⟨c, rfl, made_of_refuses ho hlot hsource hfallback, fun hnot => ?_⟩
      refine made_of_meets ho hlot hsource hfallback ht fun k hk => ?_
      cases hrefuses hk
      exact hnot hk
    · have hmade : s.made w name p = .error (.construction (.source (t.blame source.display))) := by
        refine made_of_meets ho hlot hsource hfallback ht fun c hk => ?_
        rw [hrefuses hk] at hc
        exact hc c.isBlamed
      rw [hmade, Trouble.blame_of_not_isBlamed hc]

end Named

/-- A stream that breaks down behind its first letter. -/
def failingStream : Stream := ⟨.text ['x', 'y'] (some ⟨1, .brokeDown⟩), false⟩

/-- A dictionary factory that would be made from this stream. -/
def failingPlan : DictionaryPlan :=
  ⟨.given (.stream failingStream), some ['c'], .identifiers, .common, "utf-8".toList⟩

/-- A session with a counting factory to fall back on. -/
def withCounting : Session := ((initial .inOrder).step World.nothing (.make ['c'] .counting)).2

theorem meets_failingStream : (Source.stream failingStream).Meets World.nothing "utf-8".toList
    (.error (.cause .brokeDown)) :=
  .reading rfl (Reader.readsEach_plain_some ['x', 'y'] 1 .brokeDown)

theorem construction_errors_failingStream :
    withCounting.origin failingPlan.source = .ok (.source (.stream failingStream)) ∧
      withCounting.lot failingPlan.shuffler = .ok .common ∧
      withCounting.fallbackPlace failingPlan.fallback = .ok (some 0) ∧
      withCounting.made World.nothing ['d'] failingPlan = .error (.construction (.source
        (.dictionary ⟨"<text stream>".toList, .brokeDown⟩))) := by
  have hfallback : withCounting.fallbackPlace failingPlan.fallback = .ok (some 0) := rfl
  have hrefuses : ¬ (Source.stream failingStream).Refuses World.nothing "utf-8".toList
      .brokeDown := by
    rintro ⟨stream, hstream, hreader⟩
    cases hstream
    cases hreader
  obtain ⟨-, -, -, hmet⟩ :=
    @construction_errors World.nothing withCounting ['d'] failingPlan _ _ rfl rfl _ hfallback
  obtain ⟨hblamed, -⟩ := hmet _ _ rfl rfl meets_failingStream
  obtain ⟨c, hc, -, hmade⟩ := hblamed (.inl rfl)
  cases hc
  exact ⟨rfl, rfl, hfallback, hmade hrefuses⟩

/-- What the system says of a handle that is no longer open. -/
def badDescriptor : Cause :=
  .system ⟨"OSError".toList, "[Errno 9] Bad file descriptor".toList⟩

/-- A stream over such a handle, closed behind its back: it cannot even say whether it can be read. -/
def brokenHandle : Stream := ⟨.bytes [0x78] (some (.cause badDescriptor)), false⟩

/-- A dictionary factory that would be made from it. -/
def brokenHandlePlan : DictionaryPlan :=
  ⟨.given (.stream brokenHandle), some ['c'], .identifiers, .common, "utf-8".toList⟩

/-- An error of the system escapes as it is, and the stream stays open. -/
theorem made_brokenHandle :
    ∃ c : ConstructionError,
      withCounting.made World.nothing ['d'] brokenHandlePlan = .error (.construction c) ∧
      c.errorClass = .system ∧
      (construct World.nothing "utf-8".toList .identifiers .inOrder true
        (.stream brokenHandle)).source = .stream brokenHandle := by
  have hfallback : withCounting.fallbackPlace brokenHandlePlan.fallback = .ok (some 0) := rfl
  have hrefuses : (Source.stream brokenHandle).Refuses World.nothing "utf-8".toList badDescriptor :=
    ⟨brokenHandle, rfl, rfl⟩
  have hsource : withCounting.origin brokenHandlePlan.source =
      .ok (.source (.stream brokenHandle)) := rfl
  have hlot : withCounting.lot brokenHandlePlan.shuffler = .ok .common := rfl
  have hmade : withCounting.made World.nothing ['d'] brokenHandlePlan =
      .error (.construction (.source (.bare (.cause badDescriptor)))) :=
    made_of_refuses hsource hlot rfl hfallback hrefuses
  exact ⟨_, hmade, rfl, rfl⟩

end Session

end FreshNames
