import FreshNames.Proofs.EncodedTexts
import FreshNames.Proofs.Troubles
import Mathlib.Data.List.SplitBy

/-!
# The path of a file and its URL

A file is named by its path from the root, and by a URL that holds this path with escapes.  In the
name of a file stand all characters at which URLs are cut, and line ends and brackets besides.  In the
URL they are escapes, so that it has a scheme, no host, no fragment, and the bytes of the path.  The
text of the path is not taken for a URL, as it begins with a slash; but it may be taken for a
malformed one, if there is nothing but tabs and line ends between its first two slashes.

* `Path.ofPlace` - the path of a place; `Path.components_ofPlace`, `Path.normal_ofPlace`;
* `Files.HoldsFile` - a file below the current directory; `HoldsFile.read_eq` - its path leads there;
* `Url.isUrl_ofPlace`, `Url.isUrl_ofPlace_ne_true` - its path is no URL;
* `Text.Escapes` - a text that writes bytes with escapes; `Escapes.percentDecoded_eq` - its meaning;
* `World.fetch_fileUrl` - the URL of a file leads to it;
* `Source.path_and_url_agree` - path and URL give the same alphabet, and so does the text of the path
  unless it is refused; `Source.lineFeedPlace_refused` - a text that is refused.
-/

set_option autoImplicit false

namespace FreshNames

open Text

/-! ## Paths of places -/

namespace Path

/-- The path of a place, from the root. -/
def ofPlace (place : List Text) : Text := place.flatMap ('/' :: ·)

/-- May something in a directory have this name? -/
structure IsName (c : Text) : Prop where
  nonempty : c ≠ []
  ne_here : c ≠ here
  ne_above : c ≠ above
  no_slash : '/' ∉ c

instance : DecidablePred IsName := fun c =>
  decidable_of_iff (c ≠ [] ∧ c ≠ here ∧ c ≠ above ∧ '/' ∉ c)
    ⟨fun ⟨hne, hhere, habove, hslash⟩ => ⟨hne, hhere, habove, hslash⟩,
      fun h => ⟨h.nonempty, h.ne_here, h.ne_above, h.no_slash⟩⟩

variable {place rest : List Text} {c : Text}

theorem ofPlace_cons (c : Text) (rest : List Text) :
    ofPlace (c :: rest) = '/' :: (c ++ ofPlace rest) := rfl

theorem parts_name (hc : '/' ∉ c) (h : ∀ d ∈ rest, IsName d) :
    parts '/' (c ++ ofPlace rest) = c :: rest := by
  induction rest generalizing c with
  | nil =>
    rw [ofPlace, List.flatMap_nil, List.append_nil]
    exact parts_of_not_mem hc
  | cons d rest ih =>
    obtain ⟨hd, hrest⟩ := List.forall_mem_cons.1 h
    rw [ofPlace_cons, parts_append hc, ih hd.no_slash hrest]

theorem parts_ofPlace (h : ∀ c ∈ place, IsName c) : parts '/' (ofPlace place) = [] :: place :=
  parts_name List.not_mem_nil h

/-- The path does not end with a slash. -/
theorem getLast?_ofPlace (h : ∀ c ∈ place, IsName c) : (ofPlace place).getLast? ≠ some '/' := by
  rcases List.eq_nil_or_concat' place with rfl | ⟨above, c, rfl⟩
  · simp [ofPlace]
  · have hc := h c (List.mem_append_right above List.mem_cons_self)
    have hlast : (ofPlace (above ++ [c])).getLast? = c.getLast? := by
      have hsplit : ofPlace (above ++ [c]) = ofPlace above ++ ['/'] ++ c := by simp [ofPlace]
      rw [hsplit, List.getLast?_append_of_ne_nil _ hc.nonempty]
    rw [hlast]
    exact fun hslash => hc.no_slash (List.mem_of_getLast? hslash)

/-- The components of the path are those of the place. -/
theorem components_ofPlace (h : ∀ c ∈ place, IsName c) : components (ofPlace place) = place := by
  have hkept : ([] :: place).filter (!·.isEmpty) = place := by
    rw [List.filter_cons_of_neg (by simp)]
    exact List.filter_eq_self.2 fun c hc => by simpa using (h c hc).nonempty
  rw [components, parts_ofPlace h, hkept, if_neg (getLast?_ofPlace h), List.append_nil]

theorem intercalate_slash (c : Text) (rest : List Text) :
    '/' :: List.intercalate ['/'] (c :: rest) = ofPlace (c :: rest) := by
  induction rest generalizing c with
  | nil => simp [ofPlace, List.intercalate]
  | cons d rest ih =>
    rw [ofPlace_cons, ← ih d]
    simp [List.intercalate]

theorem root_ofPlace (h : ∀ c ∈ place, IsName c) (hne : place ≠ []) :
    root (ofPlace place) = ['/'] := by
  obtain ⟨c, rest, rfl⟩ := List.exists_cons_of_ne_nil hne
  have hc := h c List.mem_cons_self
  obtain ⟨d, c, rfl⟩ := List.exists_cons_of_ne_nil hc.nonempty
  have hd : d ≠ '/' := fun e => hc.no_slash (e ▸ List.mem_cons_self)
  simp [root, ofPlace_cons, hd]

/-- **The path of a place is in normal form.** -/
theorem normal_ofPlace (h : ∀ c ∈ place, IsName c) (hne : place ≠ []) :
    normal (ofPlace place) = ofPlace place := by
  have hkept : ([] :: place).filter (fun c => !c.isEmpty && c != here) = place := by
    rw [List.filter_cons_of_neg (by simp)]
    exact List.filter_eq_self.2 fun c hc => by simpa using ⟨(h c hc).nonempty, (h c hc).ne_here⟩
  simp only [normal, parts_ofPlace h, hkept, root_ofPlace h hne]
  obtain ⟨c, rest, rfl⟩ := List.exists_cons_of_ne_nil hne
  exact intercalate_slash c rest

end Path

/-! ## Files at their paths -/

namespace Files

variable {fs : Files} {place rest : List Text} {bytes : Bytes}

/-- A file below the current directory: the system finds something at the path, and this is the file
    with the bytes. -/
structure HoldsFile (fs : Files) (place : List Text) (bytes : Bytes) : Prop where
  below : fs.home <+: place
  names : ∀ c ∈ place, Path.IsName c
  found : fs.stat (Path.ofPlace place) = .ok ()
  file : fs.entryAt place = some (.file bytes)

/-- A walk along names goes down, and ends at the place that they make up. -/
theorem entryAt_of_walk (h : ∀ c ∈ rest, Path.IsName c) {e : Entry}
    (hwalk : fs.walk place rest = .ok e) : fs.entryAt (place ++ rest) = some e := by
  induction rest generalizing place with
  | nil =>
    rw [List.append_nil]
    rw [walk] at hwalk
    cases hentry : fs.entryAt place with
    | none => simp [hentry] at hwalk
    | some e' =>
      rw [hentry] at hwalk
      cases hwalk
      rfl
  | cons c rest ih =>
    obtain ⟨hc, hrest⟩ := List.forall_mem_cons.1 h
    rw [walk] at hwalk
    split at hwalk
    · cases hwalk
    · cases hwalk
    · rw [if_neg hc.ne_here, if_neg hc.ne_above] at hwalk
      split_ifs at hwalk
      have hentry := ih hrest hwalk
      rwa [List.append_assoc] at hentry

namespace HoldsFile

variable (h : fs.HoldsFile place bytes)

include h

/-- The root is no file. -/
theorem ne_nil : place ≠ [] := by
  rintro rfl
  have hfound := h.found
  simp [Path.ofPlace, stat, find] at hfound

theorem find_eq : fs.find (Path.ofPlace place) = .ok (.file bytes) := by
  obtain ⟨-, e, hfind⟩ := stat_eq_ok_iff.1 h.found
  -- the walk has begun at the root, as the path begins with a slash
  have hwalk := hfind
  unfold find at hwalk
  split_ifs at hwalk with hempty hlong habsolute
  · rw [Path.components_ofPlace h.names] at hwalk
    have hentry := entryAt_of_walk h.names hwalk
    rw [List.nil_append, h.file] at hentry
    rw [hfind, Option.some.inj hentry]
  · obtain ⟨c, rest, rfl⟩ := List.exists_cons_of_ne_nil h.ne_nil
    exact absurd rfl habsolute

/-- **The path of a file leads to it.** -/
theorem read_eq : fs.read (Path.ofPlace place) = .ok bytes := by
  obtain ⟨hnull, -⟩ := stat_eq_ok_iff.1 h.found
  simp only [read, hnull, Bool.false_eq_true, if_false, h.find_eq]

end HoldsFile

end Files

/-! ## Paths are no URLs -/

namespace Url

variable {place : List Text} {t : Text}

/-- Is the character passed over, wherever it stands in a URL? -/
def isPassedOver (c : Char) : Bool := c == '\t' || c == '\n' || c == '\r'

theorem cleaned_slash (t : Text) :
    cleaned ('/' :: t) = '/' :: t.filter (!isPassedOver ·) := rfl

/-- No scheme begins with a slash. -/
theorem splitScheme_slash (t : Text) : splitScheme ('/' :: t) = ([], '/' :: t) := by
  unfold splitScheme
  cases hcut : cut ':' ('/' :: t) with
  | none => rfl
  | some p =>
    obtain ⟨scheme, rest⟩ := p
    obtain ⟨ht, -⟩ := cut_eq_some_iff.1 hcut
    have hscheme : isScheme scheme = false := by
      cases scheme with
      | nil => rfl
      | cons c scheme =>
        obtain ⟨rfl, -⟩ := List.cons.inj ht
        rfl
    simp [hscheme]

theorem authority_slash (h : t.head? ≠ some '/') : authority ('/' :: t) = [] := by
  unfold authority
  split
  · rename_i rest hrest
    rw [(List.cons.inj hrest).2] at h
    exact absurd rfl h
  · rfl

/-- **The path of a place is no URL**, and nobody takes it for a malformed one, if its first name has
    a character that is not passed over. -/
theorem isUrl_ofPlace {c : Text} {rest : List Text} (hslash : '/' ∉ c)
    (hshown : ∃ d ∈ c, isPassedOver d = false) : isUrl (Path.ofPlace (c :: rest)) = .ok false := by
  obtain ⟨d, hd, hshown⟩ := hshown
  have hne : c.filter (!isPassedOver ·) ≠ [] :=
    List.ne_nil_of_mem (List.mem_filter.2 ⟨hd, by rw [hshown]; rfl⟩)
  obtain ⟨e, kept, hkept⟩ := List.exists_cons_of_ne_nil hne
  have he : e ∈ c := List.mem_of_mem_filter (hkept ▸ List.mem_cons_self)
  -- something of the first name is left behind the first slash, and so there is no second one
  have hhead : ((c ++ Path.ofPlace rest).filter (!isPassedOver ·)).head? ≠ some '/' := by
    rw [List.filter_append, hkept, List.cons_append, List.head?_cons]
    rintro ⟨⟩
    exact hslash he
  rw [Path.ofPlace_cons, isUrl_of_authority_nil] <;> rw [cleaned_slash, splitScheme_slash]
  · rfl
  · exact authority_slash hhead

/-- A path is never taken for a URL: it may be refused, but only if all characters of its first name
    are passed over. -/
theorem isUrl_ofPlace_ne_true (place : List Text) : isUrl (Path.ofPlace place) ≠ .ok true := by
  have hnone : schemes.contains [] = false := by decide
  have hscheme : (splitScheme (cleaned (Path.ofPlace place))).1 = [] := by
    cases place with
    | nil => rfl
    | cons c rest => rw [Path.ofPlace_cons, cleaned_slash, splitScheme_slash]
  intro h
  unfold isUrl at h
  dsimp only at h
  split at h
  · cases h
  · rw [hscheme, hnone] at h
    cases h

theorem isPassedOver_of_isUrl_error {c : Text} {rest : List Text} {e : MalformedUrl}
    (hslash : '/' ∉ c) (h : isUrl (Path.ofPlace (c :: rest)) = .error e) :
    ∀ d ∈ c, isPassedOver d = true := by
  intro d hd
  by_contra hshown
  rw [isUrl_ofPlace hslash ⟨d, hd, by simpa using hshown⟩] at h
  cases h

end Url

/-! ## Escapes -/

namespace Text

variable {c : Char} {t enc : Text} {bytes : Bytes}

/-- A visible character of ASCII that does not begin a fragment. -/
structure IsClear (c : Char) : Prop where
  visible : 0x20 < c.toNat
  ascii : c.toNat < 0x80
  ne_fragment : c ≠ '#'

instance : DecidablePred IsClear := fun c =>
  decidable_of_iff (0x20 < c.toNat ∧ c.toNat < 0x80 ∧ c ≠ '#')
    ⟨fun ⟨hvisible, hascii, hne⟩ => ⟨hvisible, hascii, hne⟩,
      fun h => ⟨h.visible, h.ascii, h.ne_fragment⟩⟩

/-- Letters and digits are clear, and all between them. -/
theorem isClear_of_le (hlo : 0x30 ≤ c.toNat) (hhi : c.toNat < 0x80) : IsClear c := by
  refine ⟨by omega, hhi, ?_⟩
  rintro rfl
  exact absurd hlo (by decide)

theorem IsClear.isPassedOver_eq (h : IsClear c) : Url.isPassedOver c = false := by
  have hv := h.visible
  simp only [Url.isPassedOver, Bool.or_eq_false_iff, beq_eq_false_iff_ne]
  refine ⟨⟨?_, ?_⟩, ?_⟩ <;> rintro rfl <;> exact absurd hv (by decide)

theorem IsClear.isBlank_eq (h : IsClear c) : isBlank c = false := by
  rw [Bool.eq_false_iff]
  intro hb
  obtain ⟨r, hr, hle⟩ := CodeTable.contains_sound hb
  have hv := h.visible
  have ha := h.ascii
  simp only [blanks, List.mem_toArray, List.mem_cons, List.not_mem_nil, or_false] at hr
  rcases hr with rfl | rfl | rfl | rfl | rfl | rfl | rfl | rfl | rfl | rfl <;> simp at hle <;> omega

/-- Does the character stand for itself where bytes are escaped? -/
def isUnreserved (c : Char) : Bool := c.isAlphanum || "_.-~/".toList.contains c

/-- A text that writes bytes: some characters stand for themselves, and any other byte is an escape,
    with digits in either case. -/
inductive Escapes : Bytes → Text → Prop
  | nil : Escapes [] []
  | plain {b : UInt8} {bytes : Bytes} {t : Text} (hb : isUnreserved (Char.ofNat b.toNat) = true)
      (h : Escapes bytes t) : Escapes (b :: bytes) (Char.ofNat b.toNat :: t)
  | escape {b : UInt8} {bytes : Bytes} {t : Text} {c d : Char}
      (hb : isUnreserved (Char.ofNat b.toNat) = false) (hc : hexValue? c = some (b.toNat / 16))
      (hd : hexValue? d = some (b.toNat % 16)) (h : Escapes bytes t) :
      Escapes (b :: bytes) ('%' :: c :: d :: t)

/-- The bytes with escapes, in capital digits. -/
def percentEncoded (bytes : Bytes) : Text :=
  bytes.flatMap fun b =>
    if isUnreserved (Char.ofNat b.toNat) then [Char.ofNat b.toNat]
    else ['%', (hexDigit (b.toNat / 16)).toUpper, (hexDigit (b.toNat % 16)).toUpper]

theorem hexValue?_hexDigit : ∀ n < 16, hexValue? (hexDigit n).toUpper = some n := by decide

/-- All bytes can be written. -/
theorem escapes_percentEncoded (bytes : Bytes) : Escapes bytes (percentEncoded bytes) := by
  induction bytes with
  | nil => exact .nil
  | cons b bytes ih =>
    have hlt := b.toNat_lt
    rw [percentEncoded, List.flatMap_cons]
    split_ifs with hb
    · exact .plain hb ih
    · exact .escape (by simpa using hb) (hexValue?_hexDigit _ (by omega))
        (hexValue?_hexDigit _ (by omega)) ih

theorem isClear_of_isAlphanum (h : c.isAlphanum = true) : IsClear c := by
  delta Char.isAlphanum Char.isAlpha Char.isUpper Char.isLower Char.isDigit at h
  simp only [Bool.or_eq_true, Bool.and_eq_true, decide_eq_true_eq, ge_iff_le,
    UInt32.le_iff_toNat_le] at h
  rcases h with (⟨hlo, hhi⟩ | ⟨hlo, hhi⟩) | ⟨hlo, hhi⟩
  · exact isClear_of_le (le_trans (by decide) hlo) (hhi.trans_lt (by decide))
  · exact isClear_of_le (le_trans (by decide) hlo) (hhi.trans_lt (by decide))
  · exact isClear_of_le hlo (hhi.trans_lt (by decide))

theorem isClear_of_isUnreserved (h : isUnreserved c = true) : IsClear c := by
  have hmarks : "_.-~/".toList.all (decide <| IsClear ·) = true := by decide
  rw [isUnreserved, Bool.or_eq_true, List.contains_iff_mem] at h
  exact h.elim isClear_of_isAlphanum fun hm => of_decide_eq_true (List.all_eq_true.1 hmarks c hm)

theorem isClear_of_hexValue? {n : Nat} (h : hexValue? c = some n) : IsClear c := by
  unfold hexValue? at h
  simp only [Char.le_def, UInt32.le_iff_toNat_le] at h
  split_ifs at h with hdigit hlower hupper
  · exact isClear_of_le hdigit.1 (hdigit.2.trans_lt (by decide))
  · exact isClear_of_le (le_trans (by decide) hlower.1) (hlower.2.trans_lt (by decide))
  · exact isClear_of_le (le_trans (by decide) hupper.1) (hupper.2.trans_lt (by decide))

theorem Escapes.isClear (h : Escapes bytes t) : ∀ c ∈ t, IsClear c := by
  induction h with
  | nil => exact List.forall_mem_nil _
  | plain hb _ ih => exact List.forall_mem_cons.2 ⟨isClear_of_isUnreserved hb, ih⟩
  | escape _ hc hd _ ih =>
    have hpercent : IsClear '%' := by decide
    simp only [List.forall_mem_cons]
    exact ⟨hpercent, isClear_of_hexValue? hc, isClear_of_hexValue? hd, ih⟩

theorem toNat_ofNat_byte (b : UInt8) : (Char.ofNat b.toNat).toNat = b.toNat := by
  have hlt := b.toNat_lt
  have hvalid : b.toNat.isValidChar := .inl (by omega)
  rw [Char.ofNat, dif_pos hvalid]
  rfl

theorem escapedByte?_of_ne (h : c ≠ '%') (t : Text) : escapedByte? (c :: t) = none := by
  unfold escapedByte?
  split
  · rename_i hc
    exact absurd (List.cons.inj hc).1 h
  · rfl

/-- **The bytes that escapes write.** -/
theorem Escapes.unescapedBytes_eq (h : Escapes bytes t) : unescapedBytes t = bytes := by
  induction h with
  | nil => rw [unescapedBytes]
  | @plain b bytes t hb _ ih =>
    have hne : Char.ofNat b.toNat ≠ '%' := by
      intro e
      rw [e] at hb
      exact absurd hb (by decide)
    rw [unescapedBytes, escapedByte?_of_ne hne]
    simp only [toNat_ofNat_byte, UInt8.ofNat_toNat, ih]
  | @escape b bytes t c d _ hc hd _ ih =>
    have hbyte : escapedByte? ('%' :: c :: d :: t) = some b := by
      simp only [escapedByte?, hc, hd, Nat.div_add_mod, UInt8.ofNat_toNat]
    rw [unescapedBytes, hbyte]
    simp only [List.drop_succ_cons, List.drop_zero, ih]

/-- The bytes of a character in front of others are read first. -/
theorem decodeLossy_of_shows (h : Charset.Layout.utf8.Shows bytes c) (more : Bytes) :
    decodeLossy (bytes ++ more) = c :: decodeLossy more := by
  obtain ⟨b, rest, rfl, hscan⟩ := h
  have hscan : Charset.scanUtf8 b (rest ++ more) = .char c rest.length := hscan more
  rw [List.cons_append, decodeLossy, hscan]
  simp only [List.drop_left]

/-- Nothing is lost of a text. -/
theorem decodeLossy_utf8Bytes (t : Text) : decodeLossy (Charset.utf8Bytes t) = t := by
  induction t with
  | nil => rw [Charset.utf8Bytes, List.flatMap_nil, decodeLossy]
  | cons c t ih =>
    rw [Charset.utf8Bytes, List.flatMap_cons, decodeLossy_of_shows (Charset.encodeUtf8_shows c)]
    exact congrArg (c :: ·) ih

/-- A text in ASCII is a single stretch. -/
theorem percentDecoded_of_ascii (h : ∀ c ∈ t, isAscii c = true) :
    percentDecoded t = decodeLossy (unescapedBytes t) := by
  by_cases ht : t = []
  · subst ht
    rw [unescapedBytes, decodeLossy]
    rfl
  · have hchain : t.IsChain fun c d => (isAscii c == isAscii d) = true := by
      refine List.Pairwise.isChain (List.pairwise_of_forall_mem_list fun c hc d hd => ?_)
      rw [h c hc, h d hd]
      rfl
    have hall : t.all isAscii = true := List.all_eq_true.2 h
    rw [percentDecoded, List.splitBy_of_isChain ht hchain]
    simp only [List.flatMap_cons, List.flatMap_nil, List.append_nil, hall, if_true]

/-- **A text is what its escaped bytes say.** -/
theorem Escapes.percentDecoded_eq (h : Escapes (Charset.utf8Bytes t) enc) : percentDecoded enc = t := by
  have hascii : ∀ c ∈ enc, isAscii c = true := fun c hc => decide_eq_true (h.isClear c hc).ascii
  rw [percentDecoded_of_ascii hascii, h.unescapedBytes_eq, decodeLossy_utf8Bytes]

/-- A slash is no escape, -/
theorem Escapes.exists_slash (h : Escapes (Charset.utf8Bytes ('/' :: t)) enc) :
    ∃ rest, enc = '/' :: rest ∧ Escapes (Charset.utf8Bytes t) rest := by
  have hbytes : Charset.utf8Bytes ('/' :: t) = 0x2F :: Charset.utf8Bytes t := rfl
  rw [hbytes] at h
  cases h with
  | plain _ h => exact ⟨_, rfl, h⟩
  | escape hb => exact absurd hb (by decide)

/-- and nothing else is written with one. -/
theorem Escapes.head?_ne_slash (h : Escapes (Charset.utf8Bytes t) enc)
    (ht : t.head? ≠ some '/') : enc.head? ≠ some '/' := by
  have htext := decodeLossy_utf8Bytes t
  generalize Charset.utf8Bytes t = bytes at h htext
  cases h with
  | nil => simp
  | @plain b bytes rest hb h =>
    rw [List.head?_cons]
    intro hslash
    have hb : b = 0x2F := by
      have hcode := congrArg Char.toNat (Option.some.inj hslash)
      rw [toNat_ofNat_byte] at hcode
      exact UInt8.toNat_inj.1 hcode
    have hscan : Charset.scanUtf8 0x2F bytes = .char '/' 0 := rfl
    rw [hb, decodeLossy, hscan] at htext
    rw [← htext] at ht
    exact ht rfl
  | escape => simp

end Text

/-! ## The URL of a file -/

/-- The URL of a file, given its path with escapes. -/
def fileUrl (enc : Text) : Text := "file://".toList ++ enc

section FileUrl

variable {enc : Text} {place : List Text} {bytes : Bytes}

theorem isClear_fileUrl (h : ∀ c ∈ enc, IsClear c) : ∀ c ∈ fileUrl enc, IsClear c := by
  have hscheme : "file://".toList.all (decide <| IsClear ·) = true := by decide
  intro c hc
  rcases List.mem_append.1 hc with hc | hc
  · exact of_decide_eq_true (List.all_eq_true.1 hscheme c hc)
  · exact h c hc

theorem Url.cleaned_of_clear {t : Text} (h : ∀ c ∈ t, IsClear c) : cleaned t = t := by
  have hfront : t.dropWhile (·.toNat ≤ 0x20) = t :=
    dropWhile_of_none fun c hc => decide_eq_false (by have := (h c hc).visible; omega)
  rw [cleaned, hfront]
  refine List.filter_eq_self.2 fun c hc => ?_
  change (!isPassedOver c) = true
  rw [(h c hc).isPassedOver_eq]
  rfl

theorem Url.isUrl_fileUrl (h : ∀ c ∈ '/' :: enc, IsClear c) :
    isUrl (fileUrl ('/' :: enc)) = .ok true := by
  have hcleaned : cleaned (fileUrl ('/' :: enc)) = fileUrl ('/' :: enc) :=
    cleaned_of_clear (isClear_fileUrl h)
  have hsplit : splitScheme (fileUrl ('/' :: enc)) = ("file".toList, '/' :: '/' :: '/' :: enc) := rfl
  rw [isUrl_of_authority_nil] <;> rw [hcleaned, hsplit]
  · rfl
  · rfl

/-- **The request of the URL of a file** names no host, and the place is the path with its escapes. -/
theorem Request.ofText_fileUrl (h : ∀ c ∈ '/' :: enc, IsClear c) :
    Request.ofText (fileUrl ('/' :: enc)) =
      ⟨"file".toList, [], '/' :: enc, fileUrl ('/' :: enc)⟩ := by
  have hclear := isClear_fileUrl h
  have hstrip : strip (fileUrl ('/' :: enc)) = fileUrl ('/' :: enc) :=
    dropAround_of_none fun c hc => (hclear c hc).isBlank_eq
  have hunwrapped : unwrapped (fileUrl ('/' :: enc)) = fileUrl ('/' :: enc) := by
    rw [unwrapped, hstrip]
    rfl
  have hfragment : splitFragment (fileUrl ('/' :: enc)) =
      (fileUrl ('/' :: enc), fileUrl ('/' :: enc)) := by
    have hnone : cutLast '#' (fileUrl ('/' :: enc)) = none := by
      rw [cutLast, cut_eq_none_iff.2, Option.map_none]
      rw [List.mem_reverse]
      exact fun hm => (hclear '#' hm).ne_fragment rfl
    rw [splitFragment, hnone]
  have hkind : splitKind (fileUrl ('/' :: enc)) = ("file".toList, '/' :: '/' :: '/' :: enc) := rfl
  have hhost : splitHost ('/' :: '/' :: '/' :: enc) = ([], '/' :: enc) := rfl
  have hnohost : percentDecoded [] = [] := rfl
  simp only [ofText, hunwrapped, hfragment, hkind, hhost, hnohost]

/-- The path of a file begins with a single slash, with escapes as well. -/
theorem Files.HoldsFile.exists_slash {fs : Files} (h : fs.HoldsFile place bytes)
    (henc : Escapes (Charset.utf8Bytes (Path.ofPlace place)) enc) :
    ∃ rest, enc = '/' :: rest ∧ rest.head? ≠ some '/' := by
  obtain ⟨c, place, rfl⟩ := List.exists_cons_of_ne_nil h.ne_nil
  rw [Path.ofPlace_cons] at henc
  obtain ⟨rest, rfl, hrest⟩ := henc.exists_slash
  refine ⟨rest, rfl, hrest.head?_ne_slash ?_⟩
  have hc := h.names c List.mem_cons_self
  rw [List.head?_append_of_ne_nil _ hc.nonempty]
  intro hhead
  exact hc.no_slash (List.mem_of_mem_head? hhead)

theorem Files.HoldsFile.isUrl_fileUrl {fs : Files} (h : fs.HoldsFile place bytes)
    (henc : Escapes (Charset.utf8Bytes (Path.ofPlace place)) enc) :
    Url.isUrl (fileUrl enc) = .ok true := by
  obtain ⟨enc, rfl, -⟩ := h.exists_slash henc
  exact Url.isUrl_fileUrl henc.isClear

theorem World.fetchFile_of_host_nil {w : World} {r : Request} (h : r.host = []) :
    w.fetchFile r = w.fetchLocal r := by
  simp [fetchFile, h]

/-- The place with its escapes is not taken for a URL when the sort of the file is guessed. -/
theorem Url.isUrl_of_clear_slash (h : ∀ c ∈ '/' :: enc, IsClear c) (hsingle : enc.head? ≠ some '/') :
    isUrl ('/' :: enc) = .ok false := by
  rw [isUrl_of_authority_nil] <;> rw [cleaned_of_clear h, splitScheme_slash]
  · rfl
  · exact authority_slash hsingle

/-- **The URL of a file leads to it**, unless its date cannot be written. -/
theorem World.fetch_fileUrl {w : World}
    (h : w.files.HoldsFile place bytes) (henc : Escapes (Charset.utf8Bytes (Path.ofPlace place)) enc) :
    w.fetch (fileUrl enc) =
      match w.undated (Path.ofPlace place) with
      | some t => .error (requested t)
      | none => .ok bytes := by
  obtain ⟨enc, rfl, hsingle⟩ := h.exists_slash henc
  have hpath := henc.percentDecoded_eq
  have hrequest := Request.ofText_fileUrl henc.isClear
  have hkind : "file".toList ∉ netKinds := by decide
  have hguess := Url.isUrl_of_clear_slash henc.isClear hsingle
  have hhere : w.isThisHost [] = .ok true := rfl
  simp only [fetch, hrequest, if_neg hkind, if_true, fetchFile_of_host_nil]
  cases hdate : w.undated (Path.ofPlace place) with
  | some t => simp only [fetchLocal, hpath, h.found, hdate]
  | none => simp only [fetchLocal, hpath, h.found, hdate, hguess, hhere, h.read_eq]

end FileUrl

/-! ## Alphabets -/

namespace Source

open Charset

variable {w : World} {name t enc : Text} {place : List Text} {bytes : Bytes} {s : Source}

/-- What can be extracted has been opened. -/
theorem exists_opening_of_extract {welcome : Welcome} {shuffler : Shuffler} {e : Extraction}
    (h : (s.extract w name welcome shuffler).result = .ok e) :
    ∃ r, (s.opening w name).result = .ok r := by
  cases hopen : (s.opening w name).result with
  | error e =>
    simp only [Source.extract, hopen] at h
    cases h
  | ok r => exact ⟨r, rfl⟩

/-- The source can be opened, and a dictionary factory is made from it with the alphabet of the
    text. -/
structure NamesText (w : World) (name t : Text) (welcome : Welcome) (shuffler : Shuffler)
    (s : Source) : Prop where
  opens : ∃ r, (s.opening w name).result = .ok r
  constructs : (construct w name welcome shuffler true s).result =
    .ok (FreshNames.extract welcome t shuffler)

theorem Delivers.namesText (h : s.Delivers w bytes) (hname : (fixed .utf8).IsNamed name)
    (htext : (fixed .utf8).decode bytes = .ok t) (welcome : Welcome) (shuffler : Shuffler) :
    s.NamesText w name t welcome shuffler := by
  have hread := readAs_of_delivers hname trivial h welcome shuffler
  rw [htext] at hread
  have hextract : (s.extract w name welcome shuffler).result =
      .ok (FreshNames.extract welcome t shuffler) := hread
  exact ⟨exists_opening_of_extract hextract, by rw [construct_result, hextract]; rfl⟩

theorem construct_of_isUrl_error {e : MalformedUrl} (h : Url.isUrl t = .error e)
    (welcome : Welcome) (shuffler : Shuffler) :
    (construct w name welcome shuffler true (location t)).result =
      .error (.source (.bare (.mishap (.malformedUrl e)))) := by
  rw [construct_result]
  simp only [Source.extract, opening, h]
  rfl

theorem construct_of_fetch_error {trouble : Trouble} (hu : Url.isUrl t = .ok true)
    (h : w.fetch t = .error trouble) (welcome : Welcome) (shuffler : Shuffler) :
    (construct w name welcome shuffler true (location t)).result =
      .error (.source (trouble.blame t)) := by
  rw [construct_result]
  simp only [Source.extract, opening, hu, urlOpening, openUrl, h]
  rfl

/-- **The path of a file and its URL name the same dictionary**, whatever characters there are in its
    name: path and URL can be opened, and give the alphabet of the text in the file, with the same
    shuffler for the next one.  Only if the date of the file cannot be written, its URL does not lead
    to it.  The URL is taken for one, and the text of the path is not.  It names the same dictionary,
    too, unless it is refused; and this is so only if the first name of the path consists of tabs and
    line ends. -/
theorem path_and_url_agree (hfile : w.files.HoldsFile place bytes)
    (henc : Escapes (utf8Bytes (Path.ofPlace place)) enc) (hname : (fixed .utf8).IsNamed name)
    (htext : (fixed .utf8).decode bytes = .ok t) (welcome : Welcome) (shuffler : Shuffler) :
    (path (Path.ofPlace place)).NamesText w name t welcome shuffler ∧
      Url.isUrl (fileUrl enc) = .ok true ∧
      (w.undated (Path.ofPlace place) = none →
        (location (fileUrl enc)).NamesText w name t welcome shuffler) ∧
      (∀ trouble, w.undated (Path.ofPlace place) = some trouble →
        (construct w name welcome shuffler true (location (fileUrl enc))).result =
          .error (.source ((World.requested trouble).blame (fileUrl enc)))) ∧
      Url.isUrl (Path.ofPlace place) ≠ .ok true ∧
      (Url.isUrl (Path.ofPlace place) = .ok false →
        (location (Path.ofPlace place)).NamesText w name t welcome shuffler) ∧
      ∀ e, Url.isUrl (Path.ofPlace place) = .error e →
        (∀ c ∈ place.head?, ∀ d ∈ c, Url.isPassedOver d = true) ∧
        (construct w name welcome shuffler true (location (Path.ofPlace place))).result =
          .error (.source (.bare (.mishap (.malformedUrl e)))) := by
  have hurl := hfile.isUrl_fileUrl henc
  have hpath : (path (Path.ofPlace place)).Delivers w bytes := by
    refine .path ?_
    rw [Path.normal_ofPlace hfile.names hfile.ne_nil, hfile.read_eq]
  have hfetch := World.fetch_fileUrl hfile henc
  refine ⟨hpath.namesText hname htext welcome shuffler, hurl, fun hdate => ?_, fun trouble hdate => ?_,
    Url.isUrl_ofPlace_ne_true place, fun hfalse => ?_,
    fun e he => ⟨?_, construct_of_isUrl_error he welcome shuffler⟩⟩
  · rw [hdate] at hfetch
    exact Delivers.namesText (.url hurl hfetch) hname htext welcome shuffler
  · rw [hdate] at hfetch
    exact construct_of_fetch_error hurl hfetch welcome shuffler
  · exact Delivers.namesText (.file hfalse hfile.read_eq) hname htext welcome shuffler
  · obtain ⟨c, rest, rfl⟩ := List.exists_cons_of_ne_nil hfile.ne_nil
    rintro _ ⟨⟩
    have hslash := (hfile.names c List.mem_cons_self).no_slash
    exact Url.isPassedOver_of_isUrl_error hslash he

/-- A file whose name is full of delimiters. -/
def awkwardPlace : List Text := [['w'], "a?#%:;[ ß\n".toList]

/-- Three letters in two lines. -/
def awkwardText : Text := "xß\r\ny".toList

/-- A world with this file in its current directory. -/
def awkwardWorld : World := .ofFiles ⟨[['w']], [(awkwardPlace, .file (utf8Bytes awkwardText))]⟩

theorem holdsFile_awkwardPlace :
    awkwardWorld.files.HoldsFile awkwardPlace (utf8Bytes awkwardText) where
  below := List.prefix_append [['w']] _
  names := by decide
  found := by decide
  file := by decide

/-- All three names of this file are good. -/
theorem path_and_url_agree_awkwardPlace :
    awkwardWorld.files.HoldsFile awkwardPlace (utf8Bytes awkwardText) ∧
      Escapes (utf8Bytes (Path.ofPlace awkwardPlace))
        "/w/a%3F%23%25%3A%3B%5B%20%C3%9F%0A".toList ∧
      (fixed .utf8).IsNamed "utf-8".toList ∧
      (fixed .utf8).decode (utf8Bytes awkwardText) = .ok awkwardText ∧
      Url.isUrl (Path.ofPlace awkwardPlace) = .ok false ∧
      ∀ s ∈ [path (Path.ofPlace awkwardPlace), location (Path.ofPlace awkwardPlace),
          location "file:///w/a%3F%23%25%3A%3B%5B%20%C3%9F%0A".toList],
        s.NamesText awkwardWorld "utf-8".toList awkwardText .identifiers .inOrder := by
  have henc : Escapes (utf8Bytes (Path.ofPlace awkwardPlace))
      "/w/a%3F%23%25%3A%3B%5B%20%C3%9F%0A".toList := by
    have hencoded : percentEncoded (utf8Bytes (Path.ofPlace awkwardPlace)) =
        "/w/a%3F%23%25%3A%3B%5B%20%C3%9F%0A".toList := by decide
    exact hencoded ▸ escapes_percentEncoded _
  have hname : (fixed .utf8).IsNamed "utf-8".toList := by decide
  have htext := decode_utf8Bytes awkwardText
  have hfalse : Url.isUrl (Path.ofPlace awkwardPlace) = .ok false := by decide
  obtain ⟨hpath, -, hurl, -, -, hlocation, -⟩ :=
    path_and_url_agree holdsFile_awkwardPlace henc hname htext .identifiers .inOrder
  refine ⟨holdsFile_awkwardPlace, henc, hname, htext, hfalse, fun s hs => ?_⟩
  simp only [List.mem_cons, List.not_mem_nil, or_false] at hs
  rcases hs with rfl | rfl | rfl
  · exact hpath
  · exact hlocation hfalse
  · exact hurl rfl

/-- A file in a directory below the root that is named by a line feed. -/
def lineFeedPlace : List Text := [['\n'], ['[']]

/-- A world with this file; the current directory is the root. -/
def lineFeedWorld : World := .ofFiles ⟨[], [(lineFeedPlace, .file (utf8Bytes ['x']))]⟩

/-- Without the line feed the path of this file looks like the host of a URL, and its text is refused,
    although the path can be opened. -/
theorem lineFeedPlace_refused :
    lineFeedWorld.files.HoldsFile lineFeedPlace (utf8Bytes ['x']) ∧
      (fixed .utf8).decode (utf8Bytes ['x']) = .ok ['x'] ∧
      (path (Path.ofPlace lineFeedPlace)).NamesText lineFeedWorld "utf-8".toList ['x'] .identifiers
        .inOrder ∧
      Url.isUrl (Path.ofPlace lineFeedPlace) = .error .brackets ∧
      (construct lineFeedWorld "utf-8".toList .identifiers .inOrder true
        (location (Path.ofPlace lineFeedPlace))).result =
          .error (.source (.bare (.mishap (.malformedUrl .brackets)))) := by
  have hfile : lineFeedWorld.files.HoldsFile lineFeedPlace (utf8Bytes ['x']) :=
    ⟨List.nil_prefix, by decide, by decide, by decide⟩
  have hname : (fixed .utf8).IsNamed "utf-8".toList := by decide
  have htext := decode_utf8Bytes ['x']
  have hrefused : Url.isUrl (Path.ofPlace lineFeedPlace) = .error .brackets := by decide
  have hread : lineFeedWorld.files.read (Path.normal (Path.ofPlace lineFeedPlace)) =
      .ok (utf8Bytes ['x']) := by
    rw [Path.normal_ofPlace hfile.names hfile.ne_nil, hfile.read_eq]
  exact ⟨hfile, htext, Delivers.namesText (.path hread) hname htext .identifiers .inOrder, hrefused,
    construct_of_isUrl_error hrefused .identifiers .inOrder⟩

end Source

end FreshNames
