import FreshNames.Proofs.DecodingMishaps

/-!
# Sources that are named

A source that is named by its text or its path is opened and read with causes of failure only, but
for a few mishaps: a text that is neither URL nor path, a path that cannot be one, the mishaps of
decoding, and what the net and the hosts say besides.  These are no dictionary errors.

* `World.RequestSlips` - the mishaps of a request; `World.fetch_eq_mishap_iff` - there are no others;
* `Source.Slips` - the mishaps of a named source; `Source.meets_mishap_iff` - there are no others;
* `Source.construct_named` - what comes of a construction from a named source.
-/

set_option autoImplicit false

namespace FreshNames

open Charset

/-! ## Files and requests -/

theorem Files.stat_eq_nullInPath_iff (fs : Files) (path : Text) :
    fs.stat path = .error .nullInPath ↔ '\x00' ∈ path := by
  unfold stat
  split_ifs with h
  · simpa using h
  · cases fs.find path <;> simpa using h

theorem Files.read_eq_nullInPath_iff (fs : Files) (path : Text) :
    fs.read path = .error .nullInPath ↔ '\x00' ∈ path := by
  unfold read
  split_ifs with h
  · simpa using h
  · rcases fs.find path with e | _ | bytes <;> simpa using h

/-- The path at which the file system is asked for a file: another host keeps its files. -/
def Request.localPath? (r : Request) : Option Text :=
  if r.kind ≠ "file".toList then none
  else if World.beginsLikeHost r.place && !r.host.isEmpty && r.host != World.localName then none
  else some (Text.percentDecoded r.place)

namespace World

variable {w : World} {r : Request} {m : Mishap}

/-- The mishaps of a request. -/
inductive RequestSlips (w : World) (r : Request) : Mishap → Prop
  /-- The net says so. -/
  | net {m : Mishap} (hkind : r.kind ∈ netKinds) (h : w.net r = .error (.mishap m)) :
      RequestSlips w r m
  /-- The place begins like a host, and the addresses of this host are not told. -/
  | own {m : Mishap} (hkind : r.kind = "file".toList) (hnone : r.localPath? = none)
      (h : w.resolver.own = .error (.mishap m)) : RequestSlips w r m
  /-- The path that the URL of a file stands for cannot be one. -/
  | nullInPath {p : Text} (h : r.localPath? = some p) (hnull : '\x00' ∈ p) :
      RequestSlips w r .nullInPath
  /-- The date of the file cannot be written. -/
  | undated {p : Text} {m : Mishap} (h : r.localPath? = some p) (hstat : w.files.stat p = .ok ())
      (hm : w.undated p = some (.mishap m)) : RequestSlips w r m
  /-- The sort of the file cannot be guessed, as the place is an ill-formed URL. -/
  | unguessed {p : Text} {e : MalformedUrl} (h : r.localPath? = some p)
      (hstat : w.files.stat p = .ok ()) (hdate : w.undated p = none)
      (he : Url.isUrl r.place = .error e) : RequestSlips w r (.malformedUrl e)
  /-- It is not told whether the host is this one. -/
  | host {p : Text} {b : Bool} {m : Mishap} (h : r.localPath? = some p)
      (hstat : w.files.stat p = .ok ()) (hdate : w.undated p = none)
      (hguess : Url.isUrl r.place = .ok b)
      (hm : w.isThisHost r.host = .error (.mishap m)) : RequestSlips w r m

theorem requested_eq_mishap_iff {t : Trouble} : requested t = .mishap m ↔ t = .mishap m := by
  cases t <;> simp [requested]

theorem not_mem_netKinds (hkind : r.kind = "file".toList) : r.kind ∉ netKinds := by
  rw [hkind]
  decide

theorem kind_of_localPath? {p : Text} (hp : r.localPath? = some p) : r.kind = "file".toList := by
  by_contra hkind
  rw [Request.localPath?, if_pos hkind] at hp
  cases hp

/-- Where the file system is asked, the mishaps are those of the path, in their order. -/
theorem requestSlips_iff_of_localPath {p : Text} (hp : r.localPath? = some p) :
    w.RequestSlips r m ↔ (m = .nullInPath ∧ '\x00' ∈ p) ∨ w.files.stat p = .ok () ∧
      (w.undated p = some (.mishap m) ∨ w.undated p = none ∧
        ((∃ e, Url.isUrl r.place = .error e ∧ m = .malformedUrl e) ∨
          ∃ b, Url.isUrl r.place = .ok b ∧ w.isThisHost r.host = .error (.mishap m))) := by
  constructor
  · intro h
    cases h with
    | net hk _ => exact absurd hk (not_mem_netKinds (kind_of_localPath? hp))
    | own _ hnone _ => simp [hp] at hnone
    | nullInPath h hin =>
      cases hp.symm.trans h
      exact .inl ⟨rfl, hin⟩
    | undated h hstat hm =>
      cases hp.symm.trans h
      exact .inr ⟨hstat, .inl hm⟩
    | unguessed h hstat hdate he =>
      cases hp.symm.trans h
      exact .inr ⟨hstat, .inr ⟨hdate, .inl ⟨_, he, rfl⟩⟩⟩
    | host h hstat hdate hguess hm =>
      cases hp.symm.trans h
      exact .inr ⟨hstat, .inr ⟨hdate, .inr ⟨_, hguess, hm⟩⟩⟩
  · rintro (⟨rfl, hin⟩ | ⟨hstat, hm | ⟨hdate, ⟨e, he, rfl⟩ | ⟨b, hguess, hm⟩⟩⟩)
    · exact .nullInPath hp hin
    · exact .undated hp hstat hm
    · exact .unguessed hp hstat hdate he
    · exact .host hp hstat hdate hguess hm

/-- Where nobody asks it, all that can slip is the net, or the addresses of this host. -/
theorem requestSlips_iff_of_localPath_none (hnone : r.localPath? = none) :
    w.RequestSlips r m ↔ (r.kind ∈ netKinds ∧ w.net r = .error (.mishap m)) ∨
      r.kind = "file".toList ∧ w.resolver.own = .error (.mishap m) := by
  constructor
  · intro h
    cases h with
    | net hk h => exact .inl ⟨hk, h⟩
    | own hk _ h => exact .inr ⟨hk, h⟩
    | nullInPath h | undated h | unguessed h | host h => simp [hnone] at h
  · rintro (⟨hk, h⟩ | ⟨hk, h⟩)
    · exact .net hk h
    · exact .own hk hnone h

theorem fetchLocal_eq_mishap_iff {p : Text} (hp : r.localPath? = some p)
    (hplace : Text.percentDecoded r.place = p) :
    w.fetchLocal r = .error (.mishap m) ↔ w.RequestSlips r m := by
  have hnull := Files.stat_eq_nullInPath_iff w.files p
  have hread := Files.read_eq_nullInPath_iff w.files p
  rw [requestSlips_iff_of_localPath hp, ← hnull, fetchLocal]
  simp only [hplace]
  cases hstat : w.files.stat p with
  | error e => cases e <;> simp [requestTrouble, eq_comm]
  | ok u =>
    have hin : '\x00' ∉ p := fun hin => by simp [hnull.2 hin] at hstat
    cases hdate : w.undated p with
    | some t => simp [requested_eq_mishap_iff]
    | none =>
      cases hguess : Url.isUrl r.place with
      | error e => simp [eq_comm]
      | ok b =>
        rcases hhost : w.isThisHost r.host with t | _ | _
        · simp [requested_eq_mishap_iff]
        · simp
        · cases hfile : w.files.read p with
          | ok bytes => simp
          | error e =>
            cases e with
            | refused problem path => simp [requestTrouble]
            | nullInPath => exact absurd (hread.1 hfile) hin

theorem fetchFile_eq_mishap_iff (hkind : r.kind = "file".toList) :
    w.fetchFile r = .error (.mishap m) ↔ w.RequestSlips r m := by
  by_cases helse : (beginsLikeHost r.place && !r.host.isEmpty && r.host != localName) = true
  · have hnone : r.localPath? = none := by
      rw [Request.localPath?, if_neg (not_not.2 hkind), if_pos helse]
    rw [requestSlips_iff_of_localPath_none hnone, or_iff_right fun h => not_mem_netKinds hkind h.1,
      and_iff_right hkind, fetchFile, if_pos helse]
    cases w.resolver.own with
    | error t => simp
    | ok own =>
      dsimp only
      split_ifs <;> simp
  · have hp : r.localPath? = some (Text.percentDecoded r.place) := by
      rw [Request.localPath?, if_neg (not_not.2 hkind), if_neg helse]
    rw [fetchFile, if_neg helse]
    exact fetchLocal_eq_mishap_iff hp rfl

/-- **There are no other mishaps of a request.** -/
theorem fetch_eq_mishap_iff {url : Text} :
    w.fetch url = .error (.mishap m) ↔ w.RequestSlips (Request.ofText url) m := by
  unfold fetch
  generalize Request.ofText url = r
  dsimp only
  by_cases hkind : r.kind = "file".toList
  · rw [if_neg (not_mem_netKinds hkind), if_pos hkind]
    exact fetchFile_eq_mishap_iff hkind
  · have hnone : r.localPath? = none := if_pos hkind
    rw [requestSlips_iff_of_localPath_none hnone, or_iff_left fun h => hkind h.1, if_neg hkind]
    split_ifs with hnet
    · rw [and_iff_right hnet]
    · simp [hnet]

end World

/-! ## Named sources -/

namespace Source

variable {w : World} {name : Text} {s : Source} {m : Mishap}

/-- A source that is named by its text or its path. -/
def IsNamed : Source → Prop
  | stream _ => False
  | _ => True

/-- The path of a source that is a file. -/
def filePath? : Source → Option Text
  | location t =>
    match Url.isUrl t with
    | .ok false => some t
    | _ => none
  | path t => some (Path.normal t)
  | stream _ => none

/-- The mishaps of a named source. -/
inductive Slips (w : World) (name : Text) : Source → Mishap → Prop
  /-- The text is neither URL nor path. -/
  | malformed {t : Text} {e : MalformedUrl} (h : Url.isUrl t = .error e) :
      Slips w name (location t) (.malformedUrl e)
  /-- The path cannot be one. -/
  | nullInPath {s : Source} {p : Text} (h : s.filePath? = some p) (hnull : '\x00' ∈ p) :
      Slips w name s .nullInPath
  /-- The file is not decoded. -/
  | undecoded {s : Source} {p : Text} {bytes : Bytes} {m : Mishap} (h : s.filePath? = some p)
      (hread : w.files.read p = .ok bytes) (hm : DecodingSlips w.codecs name bytes m) :
      Slips w name s m
  /-- The URL is not fetched. -/
  | unfetched {t : Text} {m : Mishap} (hu : Url.isUrl t = .ok true)
      (hm : w.RequestSlips (Request.ofText t) m) : Slips w name (location t) m
  /-- What the URL gives is not decoded. -/
  | undecodedWhole {t : Text} {bytes : Bytes} {c : Codec} {e : OtherError}
      (hu : Url.isUrl t = .ok true) (h : w.fetch t = .ok bytes) (hne : bytes ≠ [])
      (hname : named w.codecs name = .ok (.codec c)) (he : c.whole bytes = .error (.other e)) :
      Slips w name (location t) (.other e)

theorem opened_of_filePath? {p : Text} (h : s.filePath? = some p) :
    s.opened w name = openFile w name p := by
  cases s with
  | location t =>
    simp only [filePath?] at h
    split at h <;> cases h
    rename_i hu
    simp only [opened, hu]
  | path t =>
    cases h
    rfl
  | stream s => cases h

/-- The mishaps of a file: its path cannot be one, or it is not decoded. -/
theorem meets_file_iff (hname : holdsNull name = false) {p : Text} (hp : s.filePath? = some p) :
    s.Meets w name (.error (.mishap m)) ↔ (m = .nullInPath ∧ '\x00' ∈ p) ∨
      ∃ bytes, w.files.read p = .ok bytes ∧ DecodingSlips w.codecs name bytes m := by
  rw [meets_error_iff, opened_of_filePath? hp, openFile, if_neg (by simp [hname]),
    ← Files.read_eq_nullInPath_iff w.files p]
  cases w.files.read p with
  | error e => cases e <;> simp [FileError.trouble, eq_comm]
  | ok bytes =>
    simp only [Except.ok.injEq, exists_eq_left', reduceCtorEq, and_false, false_or, decodingSlips_iff,
      Stream.decoding]
    cases hd : decoderNamed w.codecs name with
    | error m' => simp
    | ok d =>
      simp only [reduceCtorEq, false_or, Except.ok.injEq, exists_eq_left', exists_and_left]
      constructor
      · rintro ⟨e, hdrain, he⟩
        have hpieces := hdrain
        rw [Feed.drain_ofFeed] at hpieces
        obtain ⟨e', rfl⟩ := Transcript.exists_of_drainPieces_eq_error hpieces
        exact ⟨e', hdrain, he⟩
      · rintro ⟨e, hdrain, he⟩
        exact ⟨.decode e, hdrain, he⟩

theorem slips_file_iff {p : Text} (hp : s.filePath? = some p) : s.Slips w name m ↔
    (m = .nullInPath ∧ '\x00' ∈ p) ∨
      ∃ bytes, w.files.read p = .ok bytes ∧ DecodingSlips w.codecs name bytes m := by
  constructor
  · intro h
    cases h with
    | malformed hu | unfetched hu | undecodedWhole hu => simp [filePath?, hu] at hp
    | nullInPath h hnull =>
      cases hp.symm.trans h
      exact .inl ⟨rfl, hnull⟩
    | undecoded h hread hm =>
      cases hp.symm.trans h
      exact .inr ⟨_, hread, hm⟩
  · rintro (⟨rfl, hnull⟩ | ⟨bytes, hread, hm⟩)
    · exact .nullInPath hp hnull
    · exact .undecoded hp hread hm

/-- The mishaps of a URL: it is not fetched, or not decoded. -/
theorem meets_url_iff {t : Text} (hu : Url.isUrl t = .ok true) :
    (location t).Meets w name (.error (.mishap m)) ↔ w.RequestSlips (Request.ofText t) m ∨
      ∃ bytes, w.fetch t = .ok bytes ∧ decodeNamed w.codecs name bytes = .error (.mishap m) := by
  have hopened : (location t).opened w name = openUrl w name t := by simp only [opened, hu]
  rw [meets_error_iff, hopened, ← World.fetch_eq_mishap_iff, openUrl]
  cases w.fetch t with
  | error e => simp
  | ok bytes => cases hd : decodeNamed w.codecs name bytes <;> simp [hd, Reader.drain]

theorem slips_url_iff {coding : Coding} (hname : named w.codecs name = .ok coding) {t : Text}
    (hu : Url.isUrl t = .ok true) :
    (location t).Slips w name m ↔ w.RequestSlips (Request.ofText t) m ∨
      ∃ bytes, w.fetch t = .ok bytes ∧ decodeNamed w.codecs name bytes = .error (.mishap m) := by
  have hnone : (location t).filePath? = none := by simp [filePath?, hu]
  constructor
  · intro h
    cases h with
    | malformed h => simp [hu] at h
    | nullInPath h | undecoded h => simp [hnone] at h
    | unfetched _ hm => exact .inl hm
    | undecodedWhole _ h hne hc he =>
      exact .inr ⟨_, h, (decodeNamed_eq_mishap_iff hname).2 ⟨hne, _, _, hc, he, rfl⟩⟩
  · rintro (hm | ⟨bytes, h, hm⟩)
    · exact .unfetched hu hm
    · obtain ⟨hne, c, e, hc, he, rfl⟩ := (decodeNamed_eq_mishap_iff hname).1 hm
      exact .undecodedWhole hu h hne hc he

theorem meets_malformed_iff {t : Text} {e : MalformedUrl} (hu : Url.isUrl t = .error e) :
    (location t).Meets w name (.error (.mishap m)) ↔ m = .malformedUrl e := by
  have hopened : (location t).opened w name = .error (.mishap (.malformedUrl e)) := by
    simp only [opened, hu]
  rw [meets_error_iff, hopened]
  simp [eq_comm]

theorem slips_malformed_iff {t : Text} {e : MalformedUrl} (hu : Url.isUrl t = .error e) :
    (location t).Slips w name m ↔ m = .malformedUrl e := by
  have hnone : (location t).filePath? = none := by simp [filePath?, hu]
  constructor
  · intro h
    cases h with
    | malformed h =>
      rw [hu] at h
      cases h
      rfl
    | nullInPath h | undecoded h => simp [hnone] at h
    | unfetched h | undecodedWhole h => simp [hu] at h
  · rintro rfl
    exact .malformed hu

/-- **A named source meets no other mishaps.** -/
theorem meets_mishap_iff {coding : Coding} (hname : named w.codecs name = .ok coding)
    (hs : s.IsNamed) : s.Meets w name (.error (.mishap m)) ↔ s.Slips w name m := by
  have hnull := holdsNull_of_named hname
  cases s with
  | location t =>
    cases hu : Url.isUrl t with
    | error e => rw [meets_malformed_iff hu, slips_malformed_iff hu]
    | ok isUrl =>
      cases isUrl with
      | true => rw [meets_url_iff hu, slips_url_iff hname hu]
      | false =>
        have hp : (location t).filePath? = some t := by simp [filePath?, hu]
        rw [meets_file_iff hnull hp, slips_file_iff hp]
  | path t => rw [meets_file_iff hnull rfl, slips_file_iff rfl]
  | stream s => exact hs.elim

/-! ## Constructions -/

/-- **A construction from a named source**, under a name of a coding, gives a factory, or a dictionary
    error with the source and the cause that was met, as long as nothing slips; and each mishap that
    slips is what the construction ends with, as it is. -/
theorem construct_named {coding : Coding} (hname : named w.codecs name = .ok coding)
    (hs : s.IsNamed) (welcome : Welcome) (shuffler : Shuffler) :
    ((∀ m, ¬ s.Slips w name m) →
      (∃ e, (construct w name welcome shuffler true s).result = .ok e) ∨
      ∃ cause, s.Meets w name (.error (.cause cause)) ∧
        (construct w name welcome shuffler true s).result =
          .error (.source (.dictionary ⟨s.display, cause⟩))) ∧
    ∀ m, (construct w name welcome shuffler true s).result = .error (.source (.bare (.mishap m))) ↔
      s.Slips w name m := by
  have hrefuses (c : Cause) : ¬ s.Refuses w name c := by
    rintro ⟨stream, rfl, -⟩
    exact hs
  obtain ⟨x, hx⟩ := s.exists_meets w name
  rw [construct_result, extract_of_meets hx hrefuses]
  constructor
  · intro hnone
    rcases x with (cause | m) | t
    · exact .inr ⟨cause, hx, rfl⟩
    · exact absurd ((meets_mishap_iff hname hs).1 hx) (hnone m)
    · exact .inl ⟨_, rfl⟩
  · intro m
    rw [← meets_mishap_iff hname hs]
    constructor
    · intro h
      rcases x with t | t
      · simp only [Except.map, blamed, Except.mapError, Except.error.injEq,
          ConstructionError.source.injEq, Trouble.blame_eq_bare_iff] at h
        rw [← h.1]
        exact hx
      · cases h
    · intro hm
      obtain rfl := hx.unique hm
      rfl

/-- A letter in UTF-16, without a mark. -/
def unmarkedWorld : World := .ofFiles ⟨[], [([['d']], .file [0x78, 0])]⟩

theorem slips_unmarked :
    (path ['d']).Slips unmarkedWorld "utf-16".toList (.markMissing 16) := by
  have hname : utf16Marked.IsNamed "utf-16".toList := by decide
  have hletter : Layout.scan (.utf16 .little) 0x78 [0] = .char 'x' 1 := by decide
  have htext : (Layout.utf16 .little).decode false 0 [0x78, 0] = .ok (['x'], []) := by
    rw [Layout.decode_cons_char hletter]
    simp [Layout.decode_nil]
  exact .undecoded rfl rfl (.markMissing (hname.decoderNamed_eq _)
    ⟨rfl, by decide, ['x'], [], htext, by simp⟩)

theorem construct_named_unmarked :
    named unmarkedWorld.codecs "utf-16".toList = .ok (.charset utf16Marked) ∧
      (path ['d']).IsNamed ∧
      (construct unmarkedWorld "utf-16".toList .identifiers .inOrder true (path ['d'])).result =
        .error (.source (.bare (.mishap (.markMissing 16)))) := by
  have hname : named unmarkedWorld.codecs "utf-16".toList = .ok (.charset utf16Marked) :=
    Charset.IsNamed.named_eq (by decide) _
  obtain ⟨-, hslips⟩ := construct_named hname (s := path ['d']) trivial .identifiers .inOrder
  exact ⟨hname, trivial, (hslips _).2 slips_unmarked⟩

/-- A text with a bracket that is not closed is neither URL nor path, and there is neither a factory
    nor a dictionary error. -/
theorem construct_openBracket :
    (fixed .utf8).IsNamed "utf-8".toList ∧ (location "http://[".toList).IsNamed ∧
      (construct World.nothing "utf-8".toList .identifiers .inOrder true
        (location "http://[".toList)).result =
          .error (.source (.bare (.mishap (.malformedUrl .brackets)))) ∧
      ¬ ((∃ e, (construct World.nothing "utf-8".toList .identifiers .inOrder true
          (location "http://[".toList)).result = .ok e) ∨
        ∃ d, (construct World.nothing "utf-8".toList .identifiers .inOrder true
          (location "http://[".toList)).result = .error (.source (.dictionary d))) := by
  have hresult : (construct World.nothing "utf-8".toList .identifiers .inOrder true
      (location "http://[".toList)).result =
        .error (.source (.bare (.mishap (.malformedUrl .brackets)))) := rfl
  refine ⟨by decide, trivial, hresult, ?_⟩
  rw [hresult]
  rintro (⟨e, h⟩ | ⟨d, h⟩) <;> cases h

end Source

end FreshNames
