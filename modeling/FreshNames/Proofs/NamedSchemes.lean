import FreshNames.Proofs.FileUrls

/-!
# Texts that name a scheme

Whether a text is opened as a URL or as a path depends on what stands before its first colon, and on
nothing else: not on what follows, on the case of letters, or on tabs and line ends in between.

* `Url.tidied` - a text without tabs and line ends; `cleaned_eq_tidied` - nothing else is dropped from
  texts that begin visibly;
* `Url.NamesScheme` - before the first colon there is a scheme of sources, in any case;
  `splitScheme_mem_iff` - splitting finds it;
* `Source.FetchesUrl`, `Source.ReadsPath` - what is fetched, and what is read, for a text;
* `Url.isUrl_iff_namesScheme` - which texts are URLs, and what is opened for them.
-/

set_option autoImplicit false

namespace FreshNames

namespace Url

open Text

variable {t before : Text} {b : Bool}

/-! ## What is passed over -/

/-- The text without tabs and line ends. -/
def tidied (t : Text) : Text := t.filter (!isPassedOver ·)

/-- Neither a control nor a blank comes first, apart from tabs and line ends. -/
def BeginsVisibly (t : Text) : Prop := ∀ c, (tidied t).head? = some c → 0x20 < c.toNat

theorem toNat_le_of_isPassedOver {c : Char} (h : isPassedOver c = true) : c.toNat ≤ 0x20 := by
  simp only [isPassedOver, Bool.or_eq_true, beq_iff_eq] at h
  rcases h with (rfl | rfl) | rfl <;> decide

/-- **A text that begins visibly** loses its tabs and line ends, and nothing else. -/
theorem cleaned_eq_tidied (h : BeginsVisibly t) : cleaned t = tidied t := by
  induction t with
  | nil => rfl
  | cons c rest ih =>
    by_cases hc : isPassedOver c = true
    · have htidied : tidied (c :: rest) = tidied rest := by
        unfold tidied
        rw [List.filter_cons_of_neg (by simp [hc])]
      have hcleaned : cleaned (c :: rest) = cleaned rest := by
        unfold cleaned
        have hlow : decide (c.toNat ≤ 0x20) = true := decide_eq_true (toNat_le_of_isPassedOver hc)
        rw [List.dropWhile_cons, if_pos hlow]
      rw [hcleaned, htidied]
      apply ih
      unfold BeginsVisibly at h
      rwa [htidied] at h
    · -- the first character is kept, and so nothing in front of it has been dropped
      have htidied : tidied (c :: rest) = c :: tidied rest := by
        unfold tidied
        rw [List.filter_cons_of_pos (by simp [hc])]
      have hvisible : 0x20 < c.toNat := by
        apply h
        rw [htidied]
        rfl
      unfold cleaned
      rw [List.dropWhile_cons_of_neg (by simpa using hvisible)]
      rfl

/-! ## What stands before the first colon -/

/-- Before the first colon there is one of the schemes of sources, whichever case its letters have. -/
def NamesScheme (t : Text) : Prop :=
  ∃ before behind, t = before ++ ':' :: behind ∧ ':' ∉ before ∧
    ∃ scheme ∈ schemes, lowerAscii before = lowerAscii scheme

/-- The schemes are in lower case. -/
theorem lowerAscii_mem_schemes_iff :
    (∃ scheme ∈ schemes, lowerAscii before = lowerAscii scheme) ↔ lowerAscii before ∈ schemes := by
  have hlower : ∀ scheme ∈ schemes, lowerAscii scheme = scheme := by decide
  constructor
  · rintro ⟨scheme, hscheme, hbefore⟩
    rwa [hbefore, hlower scheme hscheme]
  · intro h
    exact ⟨_, h, (hlower _ h).symm⟩

theorem isAlpha_of_toLower {c : Char} (h : c.toLower.isAlpha = true) : c.isAlpha = true := by
  by_cases hupper : c.isUpper = true
  · show (c.isUpper || c.isLower) = true
    rw [hupper, Bool.true_or]
  · have hsame : c.toLower = c := dif_neg fun hrange => hupper (decide_eq_true hrange)
    rwa [hsame] at h

/-- A text that is one of the schemes but for its case can be a scheme. -/
theorem isScheme_of_lowerAscii_mem (h : lowerAscii before ∈ schemes) : isScheme before = true := by
  have hletters : ∀ scheme ∈ schemes, scheme ≠ [] ∧ scheme.all Char.isAlpha = true := by decide
  obtain ⟨hne, hall⟩ := hletters _ h
  have halpha : ∀ c ∈ before, c.isAlpha = true := by
    intro c hc
    apply isAlpha_of_toLower
    exact List.all_eq_true.1 hall _ (List.mem_map_of_mem hc)
  cases before with
  | nil => exact absurd rfl hne
  | cons c rest =>
    unfold isScheme
    rw [Bool.and_eq_true, List.all_eq_true]
    refine ⟨halpha c List.mem_cons_self, fun d hd => ?_⟩
    simp [isSchemeChar, Char.isAlphanum, halpha d hd]

/-- **Splitting finds a scheme of sources** where there is one before the first colon, and only
    there. -/
theorem splitScheme_mem_iff (t : Text) : (splitScheme t).1 ∈ schemes ↔ NamesScheme t := by
  have hnone : ([] : Text) ∉ schemes := by decide
  unfold splitScheme NamesScheme
  cases hcut : cut ':' t with
  | none =>
    have hcolon : ':' ∉ t := cut_eq_none_iff.1 hcut
    constructor
    · intro h
      exact absurd h hnone
    · rintro ⟨before, behind, rfl, -⟩
      simp at hcolon
  | some p =>
    obtain ⟨before, behind⟩ := p
    obtain ⟨rfl, hbefore⟩ := cut_eq_some_iff.1 hcut
    have hscheme : (if isScheme before then (lowerAscii before, behind) else
        ([], before ++ ':' :: behind)).1 ∈ schemes ↔ lowerAscii before ∈ schemes := by
      split
      · rfl
      · rename_i hno
        exact ⟨fun h => absurd h hnone, fun h => absurd (isScheme_of_lowerAscii_mem h) hno⟩
    refine hscheme.trans ⟨fun h => ?_, ?_⟩
    · exact ⟨before, behind, rfl, hbefore, lowerAscii_mem_schemes_iff.2 h⟩
    · rintro ⟨before', behind', ht, hbefore', hmem⟩
      have hsame : some (before, behind) = some (before', behind') := by
        rw [← hcut]
        exact cut_eq_some_iff.2 ⟨ht, hbefore'⟩
      cases hsame
      exact lowerAscii_mem_schemes_iff.1 hmem

instance (t : Text) : Decidable (NamesScheme t) :=
  decidable_of_iff (schemes.contains (splitScheme t).1 = true)
    (List.contains_iff_mem.trans (splitScheme_mem_iff t))

/-- If there is an answer at all, it goes by the scheme of the text. -/
theorem eq_true_iff_of_isUrl (h : isUrl t = .ok b) : b = true ↔ NamesScheme (cleaned t) := by
  unfold isUrl at h
  dsimp only at h
  split at h
  · cases h
  · cases h
    rw [List.contains_iff_mem]
    exact splitScheme_mem_iff _

end Url

/-! ## What is opened -/

namespace Source

variable {w : World} {charset t : Text} {b : Bool}

/-- The text is fetched as a URL, and what it gives is decoded at once. -/
structure FetchesUrl (w : World) (charset t : Text) (r : Except SourceError Reader) : Prop where
  fails : ∀ e, w.fetch t = .error e → r = .error (e.blame t)
  reads : ∀ bytes u, w.fetch t = .ok bytes → Charset.decodeNamed w.codecs charset bytes = .ok u →
    r = .ok (.plain u none)

/-- The file is read whose path is the whole text as it is. -/
structure ReadsPath (w : World) (charset t : Text) (r : Except SourceError Reader) : Prop where
  fails : Charset.holdsNull charset = false → ∀ e, w.files.read t = .error e →
    r = .error (e.trouble.blame t)
  reads : Charset.holdsNull charset = false → ∀ bytes d, w.files.read t = .ok bytes →
    Charset.decoderNamed w.codecs charset = .ok d → r = .ok (.decoded (.ofFeed d (.ofBytes bytes)))

theorem fetchesUrl_urlOpening (w : World) (charset t : Text) :
    FetchesUrl w charset t (urlOpening w charset t).result where
  fails e he := by simp only [urlOpening, openUrl, he, blamed]
  reads bytes u hbytes hu := by simp only [urlOpening, openUrl, hbytes, hu, blamed]

theorem readsPath_fileOpening (w : World) (charset t : Text) :
    ReadsPath w charset t (fileOpening w charset t).result where
  fails hnull e he := by simp [fileOpening, openFile, hnull, he, blamed]
  reads hnull bytes d hbytes hd := by
    simp [fileOpening, openFile, hnull, hbytes, Stream.decoding, hd, blamed]

theorem opening_of_isUrl (h : Url.isUrl t = .ok b) (w : World) (charset : Text) :
    (location t).opening w charset = if b then urlOpening w charset t else fileOpening w charset t := by
  simp only [opening, h]
  cases b <;> rfl

end Source

namespace Url

variable {t : Text} {b : Bool}

/-- **The scheme alone decides.**  If a text begins visibly and is not refused, then it is a URL if and
    only if, without tabs and line ends, it has one of the schemes before its first colon, in any case.
    If that is so it is opened as a URL, and what is fetched from there is decoded; and otherwise as
    the path of a file, the whole text as it is, and the file at this path is read. -/
theorem isUrl_iff_namesScheme (h : isUrl t = .ok b) (hvisible : BeginsVisibly t) :
    (b = true ↔ NamesScheme (tidied t)) ∧ ∀ w charset,
      (NamesScheme (tidied t) →
        (Source.location t).opening w charset = Source.urlOpening w charset t ∧
        Source.FetchesUrl w charset t ((Source.location t).opening w charset).result) ∧
      (¬ NamesScheme (tidied t) →
        (Source.location t).opening w charset = Source.fileOpening w charset t ∧
        Source.ReadsPath w charset t ((Source.location t).opening w charset).result) := by
  have hscheme : b = true ↔ NamesScheme (tidied t) := by
    rw [← cleaned_eq_tidied hvisible]
    exact eq_true_iff_of_isUrl h
  refine ⟨hscheme, fun w charset => ?_⟩
  rw [Source.opening_of_isUrl h, ← hscheme]
  cases b with
  | true =>
    exact ⟨fun _ => ⟨rfl, Source.fetchesUrl_urlOpening w charset t⟩, fun hnot => absurd rfl hnot⟩
  | false =>
    exact ⟨fun hfalse => absurd hfalse Bool.false_ne_true,
      fun _ => ⟨rfl, Source.readsPath_fileOpening w charset t⟩⟩

/-- A scheme with capital letters, torn by a line end, behind a tab. -/
def tornUrl : Text := "\tFi\nLE:[x]//y?#z".toList

theorem isUrl_iff_namesScheme_tornUrl :
    isUrl tornUrl = .ok true ∧ BeginsVisibly tornUrl ∧ NamesScheme (tidied tornUrl) ∧
      (Source.location tornUrl).opening (.ofFiles ⟨[], []⟩) "utf-8".toList =
        Source.urlOpening (.ofFiles ⟨[], []⟩) "utf-8".toList tornUrl := by
  have hurl : isUrl tornUrl = .ok true := by decide
  have hvisible : BeginsVisibly tornUrl := by
    rintro c ⟨⟩
    decide
  obtain ⟨hscheme, hopening⟩ := isUrl_iff_namesScheme hurl hvisible
  obtain ⟨hopened, -⟩ := hopening (.ofFiles ⟨[], []⟩) "utf-8".toList
  exact ⟨hurl, hvisible, hscheme.1 rfl, (hopened (hscheme.1 rfl)).1⟩

/-- A drive is no scheme, and neither is a letter beyond ASCII. -/
example : ¬ NamesScheme "C:\\http://x".toList ∧ ¬ NamesScheme "ﬁle:x".toList := by decide

end Url

end FreshNames
