import FreshNames.Proofs.EncodedTexts
import FreshNames.Proofs.EqualValues
import Mathlib.Data.Char
import Mathlib.Data.Finset.Sort

/-!
# The letters that are collected

An alphabet is extracted in a loop: one character is read after the other, and the eligible ones are
joined to a set, until nothing more comes.  The set is put into order, shuffled, and made into an
alphabet, unless it is empty.

* `eligibleSet` - the eligible characters of a text; `eligibleLetters_eq_sort` - the same in order;
* `Reader.Collects` - the loop; `Reader.collects_iff` - it gives this set;
* `OrderSource`, `Reader.Extracts` - the extraction as a whole, with any random source;
* `Alphabet.ofValue_letters` - distinct letters, at least one, are never refused as an alphabet;
* `Reader.extraction_exact` - what is extracted from a text: all its eligible characters, or a to z;
* `Reader.extraction_congr` - nothing else about the text matters.
-/

set_option autoImplicit false

namespace FreshNames

variable {welcome : Welcome} {t : Text} {c : Char}

/-! ## Sets of letters -/

/-- The eligible characters of a text, as a set. -/
def eligibleSet (welcome : Welcome) (t : Text) : Finset Char :=
  (t.filter (isEligibleChar welcome)).toFinset

theorem mem_eligibleSet : c ∈ eligibleSet welcome t ↔ c ∈ t ∧ isEligibleChar welcome c = true := by
  simp [eligibleSet]

theorem eligibleSet_eq_empty_iff :
    eligibleSet welcome t = ∅ ↔ ∀ c ∈ t, isEligibleChar welcome c = false := by
  simp [Finset.eq_empty_iff_forall_notMem, mem_eligibleSet]

theorem eligibleSet_cons_of_pos (h : isEligibleChar welcome c = true) (t : Text) :
    eligibleSet welcome (c :: t) = insert c (eligibleSet welcome t) := by
  simp [eligibleSet, h]

theorem eligibleSet_cons_of_neg (h : isEligibleChar welcome c = false) (t : Text) :
    eligibleSet welcome (c :: t) = eligibleSet welcome t := by
  simp [eligibleSet, h]

/-- The letters in the order of their code points are the set, put into order: in which order they
    occur, and how often, has no part in it. -/
theorem eligibleLetters_eq_sort (welcome : Welcome) (t : Text) :
    eligibleLetters welcome t = (eligibleSet welcome t).sort := by
  have hset : (eligibleLetters welcome t).toFinset = eligibleSet welcome t := by
    ext c
    rw [List.mem_toFinset, mem_eligibleLetters, mem_eligibleSet]
  have hsorted : (eligibleLetters welcome t).Pairwise (· ≤ ·) :=
    (pairwise_eligibleLetters welcome t).imp fun h => Std.le_of_lt h
  rw [← hset, (List.toFinset_sort _ (nodup_eligibleLetters welcome t)).2 hsorted]

/-! ## The loop -/

/-- No more characters are gathered than are missing. -/
theorem Transcript.length_gather_le {rounds missing : Nat} {tr tr' : Transcript} {text : Text}
    (h : gather rounds missing tr = .ok (text, tr')) : text.length ≤ missing := by
  induction rounds generalizing missing tr text with
  | zero =>
    cases h
    exact Nat.zero_le _
  | succ rounds ih =>
    simp only [gather] at h
    split at h
    · cases h
      exact Nat.zero_le _
    · split at h
      · cases h
      · cases h
        exact Nat.zero_le _
      · split at h
        · cases h
        · rename_i more _ hmore
          cases h
          have hrest := ih hmore
          rw [List.length_append]
          rw [List.length_take] at hrest ⊢
          omega

theorem Transcript.length_take_le {n : Nat} {tr tr' : Transcript} {text : Text}
    (h : tr.take n = .ok (text, tr')) : text.length ≤ n := by
  simp only [take] at h
  split at h
  · cases h
    exact List.length_take_le _ _
  · split at h
    · cases h
    · rename_i more _ hmore
      cases h
      have hrest := length_gather_le hmore
      rw [List.length_append]
      omega

namespace Reader

variable {r r' : Reader} {y : Except ReadError Text}

/-- Whoever asks for one character gets no more than one. -/
theorem eq_nil_or_singleton_of_read (h : r.read 1 = .ok (t, r')) : t = [] ∨ ∃ c, t = [c] := by
  have hlen : t.length ≤ 1 := by
    cases r with
    | plain rest patience =>
      rw [read_one_plain] at h
      cases hspend : spend patience with
      | error e =>
        rw [hspend] at h
        cases h
      | ok p =>
        rw [hspend] at h
        cases h
        exact List.length_take_le _ _
    | decoded tr =>
      rw [read_one_decoded] at h
      cases htake : tr.take 1 with
      | error e =>
        rw [htake] at h
        cases h
      | ok p =>
        rw [htake] at h
        cases h
        exact Transcript.length_take_le htake
  cases t with
  | nil => exact .inl rfl
  | cons c t =>
    have ht : t = [] := by
      apply List.eq_nil_of_length_eq_zero
      rw [List.length_cons] at hlen
      omega
    exact .inr ⟨c, by rw [ht]⟩

/-- The loop that collects letters, with the set that there is so far, and what comes of it. -/
inductive Collects (welcome : Welcome) :
    Reader → Finset Char → Except ReadError (Finset Char) → Prop
  /-- Nothing can be read. -/
  | fail {r : Reader} {letters : Finset Char} {e : ReadError} (h : r.read 1 = .error e) :
      Collects welcome r letters (.error e)
  /-- Nothing more comes. -/
  | stop {r r' : Reader} {letters : Finset Char} (h : r.read 1 = .ok ([], r')) :
      Collects welcome r letters (.ok letters)
  /-- An eligible character is joined to the set. -/
  | join {r r' : Reader} {letters : Finset Char} {c : Char} {y : Except ReadError (Finset Char)}
      (h : r.read 1 = .ok ([c], r')) (hc : isEligible welcome [c] = true)
      (hy : Collects welcome r' (insert c letters) y) : Collects welcome r letters y
  /-- Another character is passed over. -/
  | pass {r r' : Reader} {letters : Finset Char} {c : Char} {y : Except ReadError (Finset Char)}
      (h : r.read 1 = .ok ([c], r')) (hc : isEligible welcome [c] = false)
      (hy : Collects welcome r' letters y) : Collects welcome r letters y

theorem Collects.unique {letters : Finset Char} {x y : Except ReadError (Finset Char)}
    (hx : r.Collects welcome letters x) (hy : r.Collects welcome letters y) : x = y := by
  induction hx with
  | fail h => cases hy <;> simp_all
  | stop h => cases hy <;> simp_all
  | join h hc _ ih => cases hy <;> simp_all
  | pass h hc _ ih => cases hy <;> simp_all

/-- In each round the set grows by the eligible characters that are read, so that in the end these
    are joined to those that there were before. -/
theorem collects_of_readsEach (h : r.ReadsEach y) (welcome : Welcome) (letters : Finset Char) :
    r.Collects welcome letters (y.map fun t => letters ∪ eligibleSet welcome t) := by
  -- along the readings; the set so far is what the next round starts from
  induction h generalizing letters with
  | fail h => exact .fail h
  | @stop r r' h =>
    have hstop : r.Collects welcome letters (.ok letters) := .stop h
    simpa [Except.map, eligibleSet] using hstop
  | @more r r' t y h ht hy ih =>
    obtain ⟨c, rfl⟩ := (eq_nil_or_singleton_of_read h).resolve_left ht
    cases hc : isEligibleChar welcome c with
    | true =>
      have hjoin := Collects.join h hc (ih (insert c letters))
      cases y with
      | error e => exact hjoin
      | ok t =>
        simpa [Except.map, eligibleSet_cons_of_pos hc, Finset.insert_union, Finset.union_insert]
          using hjoin
    | false =>
      have hpass := Collects.pass h hc (ih letters)
      cases y with
      | error e => exact hpass
      | ok t => simpa [Except.map, eligibleSet_cons_of_neg hc] using hpass

/-- **The loop collects the eligible characters of the text that is read**, and nothing else. -/
theorem collects_iff (h : r.ReadsEach (.ok t)) {x : Except ReadError (Finset Char)} :
    r.Collects welcome ∅ x ↔ x = .ok (eligibleSet welcome t) := by
  have hcollects : r.Collects welcome ∅ (.ok (eligibleSet welcome t)) := by
    simpa [Except.map] using collects_of_readsEach h welcome ∅
  constructor
  · intro hx
    exact hx.unique hcollects
  · rintro rfl
    exact hcollects

end Reader

/-! ## Letters as an alphabet -/

namespace Alphabet

/-- Letters as they are handed over to be made into an alphabet. -/
def lettersValue (letters : List Char) : Value := .list (letters.map fun c => .text [c])

theorem hasDuplicates_of_nodup {letters : List Char} (h : letters.Nodup) :
    hasDuplicates (letters.map fun c => .text [c]) = false := by
  have hworth : ∀ i ∈ letters.map fun c => Value.text [c], i.worth? ≠ none := by
    intro i hi
    obtain ⟨c, -, rfl⟩ := List.mem_map.1 hi
    nofun
  rw [hasDuplicates_eq_false_iff hworth]
  exact nodup_worths_letters_iff.2 h

theorem mapM_single?_letters (letters : List Char) :
    (letters.map fun c => Value.text [c]).mapM single? = some letters := by
  induction letters with
  | nil => rfl
  | cons c letters ih => simp [List.mapM_cons, ih, single?]

/-- **Distinct letters, at least one, make an alphabet.** -/
theorem ofValue_letters {letters : List Char} (hne : letters ≠ []) (hnodup : letters.Nodup) :
    ofValue (lettersValue letters) = .ok ⟨letters, hne, hnodup⟩ := by
  have hhash : (letters.map fun c => Value.text [c]).find? (!·.isHashable) = none := by
    simp [List.find?_eq_none, Value.isHashable]
  have hempty : (letters.map fun c => Value.text [c]).isEmpty = false := by
    simpa using hne
  have hof : ofLetters? letters = some ⟨letters, hne, hnodup⟩ := dif_pos ⟨hne, hnodup⟩
  simp only [ofValue, lettersValue, Value.items?, hempty, hhash, hasDuplicates_of_nodup hnodup,
    mapM_single?_letters, hof, Bool.false_eq_true, if_false]

/-- The letters are the eligible characters of a text in some order, or a to z in their order if the
    text has none. -/
structure IsCollected (a : Alphabet) (welcome : Welcome) (t : Text) : Prop where
  perm : (∃ c ∈ t, isEligibleChar welcome c = true) →
    a.letters.Perm (eligibleSet welcome t).toList
  latin : (∀ c ∈ t, isEligibleChar welcome c = false) → a = latin

theorem isCollected_of_perm {a : Alphabet} (h : a.letters.Perm (eligibleSet welcome t).sort) :
    a.IsCollected welcome t := by
  refine ⟨fun _ => h.trans (Finset.sort_perm_toList _ _), fun hnone => ?_⟩
  rw [eligibleSet_eq_empty_iff.2 hnone, Finset.sort_empty] at h
  exact absurd h.eq_nil a.nonempty

theorem isCollected_latin (h : eligibleSet welcome t = ∅) : latin.IsCollected welcome t := by
  rw [eligibleSet_eq_empty_iff] at h
  refine ⟨?_, fun _ => rfl⟩
  rintro ⟨c, hc, he⟩
  rw [h c hc] at he
  cases he

end Alphabet

/-! ## The extraction as a whole -/

/-- A random source of any kind: it puts a list into another order and goes on to its next state. -/
structure OrderSource (σ : Type) where
  shuffle : σ → List Char → List Char × σ
  perm (s : σ) (letters : List Char) : (shuffle s letters).1.Perm letters

/-- The shufflers as random sources. -/
def Shuffler.orders : OrderSource Shuffler := ⟨shuffle, shuffle_perm⟩

/-- The letters of a collected set as an alphabet, in a shuffled order, and the random source
    afterwards.  Without any letter these are a to z, and nothing is shuffled. -/
def OrderSource.alphabetOf {σ : Type} (orders : OrderSource σ) (s : σ) (letters : Finset Char) :
    Except AlphabetError (Alphabet × σ) :=
  if letters = ∅ then .ok (.latin, s)
  else
    match Alphabet.ofValue (Alphabet.lettersValue (orders.shuffle s letters.sort).1) with
    | .error e => .error e
    | .ok a => .ok (a, (orders.shuffle s letters.sort).2)

/-- Why an extraction fails. -/
inductive ExtractionFailure
  /-- Nothing can be read. -/
  | read (e : ReadError)
  /-- The letters are refused. -/
  | alphabet (e : AlphabetError)

/-- The extraction of an alphabet with a random source, step by step, and what comes of it. -/
inductive Reader.Extracts {σ : Type} (welcome : Welcome) (orders : OrderSource σ) (s : σ)
    (r : Reader) : Except ExtractionFailure (Alphabet × σ) → Prop
  | unread {e : ReadError} (h : r.Collects welcome ∅ (.error e)) :
      Extracts welcome orders s r (.error (.read e))
  | collected {letters : Finset Char} (h : r.Collects welcome ∅ (.ok letters)) :
      Extracts welcome orders s r ((orders.alphabetOf s letters).mapError .alphabet)

namespace OrderSource

variable {σ : Type}

/-- In whatever order they come, the letters of a set are distinct, so that they are accepted. -/
theorem alphabetOf_of_ne_empty (orders : OrderSource σ) (s : σ) {letters : Finset Char}
    (hne : letters ≠ ∅) :
    ∃ a : Alphabet, a.letters = (orders.shuffle s letters.sort).1 ∧
      orders.alphabetOf s letters = .ok (a, (orders.shuffle s letters.sort).2) := by
  have hperm := orders.perm s letters.sort
  have hsome : (orders.shuffle s letters.sort).1 ≠ [] := by
    intro hnil
    rw [hnil] at hperm
    have hlength := hperm.length_eq
    rw [Finset.length_sort, List.length_nil] at hlength
    exact hne (Finset.card_eq_zero.1 hlength.symm)
  have hnodup : (orders.shuffle s letters.sort).1.Nodup :=
    hperm.nodup_iff.2 (Finset.sort_nodup _ _)
  refine ⟨⟨_, hsome, hnodup⟩, rfl, ?_⟩
  rw [alphabetOf, if_neg hne, Alphabet.ofValue_letters hsome hnodup]

/-- The alphabet of a set that is collected from a text. -/
theorem exists_alphabetOf (orders : OrderSource σ) (s : σ) (welcome : Welcome) (t : Text) :
    ∃ a s', orders.alphabetOf s (eligibleSet welcome t) = .ok (a, s') ∧
      a.IsCollected welcome t := by
  by_cases h : eligibleSet welcome t = ∅
  · exact ⟨.latin, s, if_pos h, Alphabet.isCollected_latin h⟩
  · obtain ⟨a, hletters, ha⟩ := orders.alphabetOf_of_ne_empty s h
    refine ⟨a, _, ha, Alphabet.isCollected_of_perm ?_⟩
    rw [hletters]
    exact orders.perm s _

/-- For a shuffler, this is what is extracted from the text. -/
theorem alphabetOf_eq_extract (shuffler : Shuffler) (welcome : Welcome) (t : Text) :
    Shuffler.orders.alphabetOf shuffler (eligibleSet welcome t) =
      .ok ((extract welcome t shuffler).alphabet, (extract welcome t shuffler).shuffler) := by
  have hsort := eligibleLetters_eq_sort welcome t
  by_cases h : eligibleSet welcome t = ∅
  · have hnil : eligibleLetters welcome t = [] := by rw [hsort, h, Finset.sort_empty]
    rw [extract_of_eq_nil shuffler hnil, alphabetOf, if_pos h]
  · obtain ⟨⟨letters, hne, hnodup⟩, hletters, ha⟩ := Shuffler.orders.alphabetOf_of_ne_empty shuffler h
    have hsome : eligibleLetters welcome t ≠ [] := by
      intro hnil
      rw [hnil] at hsort
      have hlength := congrArg List.length hsort
      rw [Finset.length_sort, List.length_nil] at hlength
      exact h (Finset.card_eq_zero.1 hlength.symm)
    rw [ha, extract, dif_neg hsome]
    -- both alphabets have the shuffled letters; their proofs do not matter
    simp only at hletters
    subst hletters
    simp only [shuffledAlphabet, hsort]
    rfl

end OrderSource

namespace Reader

variable {σ : Type} {r r₁ r₂ : Reader} {t₁ t₂ : Text} {welcome₁ welcome₂ : Welcome}
  {shuffler : Shuffler}

/-- **The extraction depends on the set of eligible characters alone.** -/
theorem extracts_iff (h : r.ReadsEach (.ok t)) {orders : OrderSource σ} {s : σ}
    {y : Except ExtractionFailure (Alphabet × σ)} :
    r.Extracts welcome orders s y ↔
      y = (orders.alphabetOf s (eligibleSet welcome t)).mapError .alphabet := by
  have hcollects {x : Except ReadError (Finset Char)} :
      r.Collects welcome ∅ x ↔ x = .ok (eligibleSet welcome t) := collects_iff h
  constructor
  · intro hy
    cases hy with
    | unread hx => cases hcollects.1 hx
    | collected hx =>
      cases hcollects.1 hx
      rfl
  · rintro rfl
    exact .collected (hcollects.2 rfl)

/-- This is extracted from what the reader reads: by the loop, from a source that has been opened
    as this reader, and from a stream of text that is read as it is. -/
structure Gives (r : Reader) (welcome : Welcome) (shuffler : Shuffler) (e : Extraction) :
    Prop where
  loop (y : Except ExtractionFailure (Alphabet × Shuffler)) :
    r.Extracts welcome Shuffler.orders shuffler y ↔ y = .ok (e.alphabet, e.shuffler)
  source (w : World) (charset : Text) (s : Source) (h : (s.opening w charset).result = .ok r) :
    (s.extract w charset welcome shuffler).result = .ok e
  stream (rest : Text) (patience : Option Patience) (h : r = .plain rest patience) :
    (Stream.extract welcome shuffler ⟨.text rest patience, false⟩).1 = .ok e

theorem gives_extract (h : r.ReadsEach (.ok t)) (welcome : Welcome) (shuffler : Shuffler) :
    r.Gives welcome shuffler (extract welcome t shuffler) where
  loop y := by
    rw [extracts_iff h, OrderSource.alphabetOf_eq_extract]
    rfl
  source w charset s hopen := by
    have hdrain := (Source.readsEach_opening hopen).1 h
    simp only [Source.extract, hopen, ← hdrain]
  stream rest patience hr := by
    subst hr
    have hmodest : (plain rest patience).IsModest := trivial
    have hdrain := (readsEach_iff hmodest).1 h
    simp only [Stream.extract, Stream.plainText, Bool.false_eq_true, if_false, ← hdrain]

/-- **The alphabet of a text** has exactly the eligible characters of the text, or the letters a to
    z in their order if there are none.  Whatever random source puts them into order, and however
    the text is read, they are never refused. -/
theorem extraction_exact (h : r.ReadsEach (.ok t)) (welcome : Welcome) :
    (∀ {σ : Type} (orders : OrderSource σ) (s : σ), ∃ a s', a.IsCollected welcome t ∧
      ∀ y, r.Extracts welcome orders s y ↔ y = .ok (a, s')) ∧
    ∀ shuffler : Shuffler, ∃ e : Extraction, e.alphabet.IsCollected welcome t ∧
      r.Gives welcome shuffler e := by
  constructor
  · intro σ orders s
    obtain ⟨a, s', halphabet, hcollected⟩ := orders.exists_alphabetOf s welcome t
    refine ⟨a, s', hcollected, fun y => ?_⟩
    rw [extracts_iff h, halphabet]
    rfl
  · intro shuffler
    obtain ⟨a, s', halphabet, hcollected⟩ := Shuffler.orders.exists_alphabetOf shuffler welcome t
    rw [OrderSource.alphabetOf_eq_extract] at halphabet
    cases halphabet
    exact ⟨extract welcome t shuffler, hcollected, gives_extract h welcome shuffler⟩

/-- The bytes of a text in UTF-8, in pieces that tear a letter in two. -/
def tornPieces : List Bytes := [[0xC3], [0x9F, 0x0A], [0x62, 0xC3, 0x9F]]

/-- A reader of these bytes. -/
def tornReader : Reader := .decoded (.ofFeed (.ofCharset (.fixed .utf8)) ⟨tornPieces, none⟩)

theorem readsEach_tornReader : tornReader.ReadsEach (.ok ['ß', '\n', 'b', 'ß']) := by
  have hcarries : Feed.Carries ⟨tornPieces, none⟩ tornPieces.flatten := .pieces (by decide)
  have hbytes : tornPieces.flatten = Charset.utf8Bytes ['ß', '\n', 'b', 'ß'] := rfl
  have hsettles : (Charset.fixed .utf8).Settles tornPieces.flatten := trivial
  have hyields := hcarries.drain_yields hsettles
  rw [hbytes, Charset.decode_utf8Bytes] at hyields
  have hmodest : tornReader.IsModest := Nat.zero_le _
  exact (readsEach_iff hmodest).2 hyields.symm

theorem opening_tornPieces (w : World) :
    (Source.opening w "utf-8".toList (.stream ⟨.raw ⟨tornPieces, none⟩ none, false⟩)).result =
      .ok tornReader := rfl

/-- Both letters of these bytes, and no others; and a to z from a text of digits. -/
theorem extraction_exact_tornReader :
    (tornReader.ReadsEach (.ok ['ß', '\n', 'b', 'ß']) ∧ ∃ e : Extraction,
      e.alphabet.letters.Perm (eligibleSet .anything ['ß', '\n', 'b', 'ß']).toList ∧
      ∀ w : World, (Source.extract w "utf-8".toList .anything .backwards
        (.stream ⟨.raw ⟨tornPieces, none⟩ none, false⟩)).result = .ok e) ∧
    (plain ['1', '2'] none).ReadsEach (.ok ['1', '2']) ∧ ∃ e : Extraction, e.alphabet = .latin ∧
      (Stream.extract .identifiers .backwards ⟨.text ['1', '2'] none, false⟩).1 = .ok e := by
  have hdigits := readsEach_plain_none ['1', '2']
  have hnone : (['1', '2'].all fun c => !isEligibleChar .identifiers c) = true := by
    decide +kernel
  obtain ⟨e, hletters, hgives⟩ := (extraction_exact readsEach_tornReader .anything).2 .backwards
  obtain ⟨e', hletters', hgives'⟩ := (extraction_exact hdigits .identifiers).2 .backwards
  refine ⟨⟨readsEach_tornReader, e, hletters.perm ⟨'b', by simp, by decide⟩, fun w => ?_⟩,
    hdigits, e', hletters'.latin (by simpa using hnone), hgives'.stream _ _ rfl⟩
  exact hgives.source w _ _ (opening_tornPieces w)

/-! ## Texts with the same eligible characters -/

theorem extract_congr_set (h : eligibleSet welcome₁ t₁ = eligibleSet welcome₂ t₂)
    (shuffler : Shuffler) : extract welcome₁ t₁ shuffler = extract welcome₂ t₂ shuffler := by
  have hletters : eligibleLetters welcome₁ t₁ = eligibleLetters welcome₂ t₂ := by
    rw [eligibleLetters_eq_sort, eligibleLetters_eq_sort, h]
  simp only [extract, hletters]

/-- A set with one letter has only one order, and a random source is not asked for it. -/
theorem shuffler_extract_of_card_le_one (h : (eligibleSet welcome t).card ≤ 1) :
    (extract welcome t shuffler).shuffler = shuffler := by
  have hshort : (eligibleLetters welcome t).length < 2 := by
    rw [eligibleLetters_eq_sort, Finset.length_sort]
    omega
  rw [extract]
  split
  · rfl
  · rw [shuffler.shuffle_short hshort]

/-- **Which eligible characters occur decides everything**: neither their order nor how often they
    occur, nor any other character, nor how a text is read makes a difference to the alphabet or to
    the random source afterwards.  With one letter at most, the shuffler stays as it is. -/
theorem extraction_congr (h₁ : r₁.ReadsEach (.ok t₁)) (h₂ : r₂.ReadsEach (.ok t₂))
    (hset : eligibleSet welcome₁ t₁ = eligibleSet welcome₂ t₂) :
    (∀ {σ : Type} (orders : OrderSource σ) (s : σ) (y : Except ExtractionFailure (Alphabet × σ)),
      r₁.Extracts welcome₁ orders s y ↔ r₂.Extracts welcome₂ orders s y) ∧
    ∀ shuffler : Shuffler, ∃ e : Extraction,
      r₁.Gives welcome₁ shuffler e ∧ r₂.Gives welcome₂ shuffler e ∧
      ((eligibleSet welcome₁ t₁).card ≤ 1 → e.shuffler = shuffler) := by
  constructor
  · intro σ orders s y
    rw [extracts_iff h₁, extracts_iff h₂, hset]
  · intro shuffler
    refine ⟨extract welcome₁ t₁ shuffler, gives_extract h₁ welcome₁ shuffler, ?_,
      shuffler_extract_of_card_le_one⟩
    rw [extract_congr_set hset]
    exact gives_extract h₂ welcome₂ shuffler

/-- The letters of the bytes above and those of another text in another order, where digits are not
    welcome; and a text with a single letter, which leaves the generator as it was. -/
theorem extraction_congr_tornReader :
    (tornReader.ReadsEach (.ok ['ß', '\n', 'b', 'ß']) ∧
      (plain ['1', 'b', 'ß'] none).ReadsEach (.ok ['1', 'b', 'ß']) ∧
      eligibleSet .anything ['ß', '\n', 'b', 'ß'] = eligibleSet .identifiers ['1', 'b', 'ß'] ∧
      ∃ e : Extraction,
        (∀ w : World, (Source.extract w "utf-8".toList .anything (.twister (.ofSeed 7))
          (.stream ⟨.raw ⟨tornPieces, none⟩ none, false⟩)).result = .ok e) ∧
        (Stream.extract .identifiers (.twister (.ofSeed 7))
          ⟨.text ['1', 'b', 'ß'] none, false⟩).1 = .ok e) ∧
    (plain ['b', 'b'] none).ReadsEach (.ok ['b', 'b']) ∧ ∃ e : Extraction,
      (Stream.extract .identifiers (.twister (.ofSeed 7)) ⟨.text ['b', 'b'] none, false⟩).1 =
        .ok e ∧ e.shuffler = .twister (.ofSeed 7) := by
  have hplain := readsEach_plain_none ['1', 'b', 'ß']
  have hset : eligibleSet .anything ['ß', '\n', 'b', 'ß'] =
      eligibleSet .identifiers ['1', 'b', 'ß'] := by decide +kernel
  have hsingle := readsEach_plain_none ['b', 'b']
  have hsame : eligibleSet .identifiers ['b', 'b'] = eligibleSet .identifiers ['b', 'b'] := rfl
  obtain ⟨e, hgives₁, hgives₂, -⟩ :=
    (extraction_congr readsEach_tornReader hplain hset).2 (.twister (.ofSeed 7))
  obtain ⟨e', hgives, -, hshuffler⟩ :=
    (extraction_congr hsingle hsingle hsame).2 (.twister (.ofSeed 7))
  refine ⟨⟨readsEach_tornReader, hplain, hset, e, fun w => ?_, hgives₂.stream _ _ rfl⟩, hsingle, e',
    hgives.stream _ _ rfl, hshuffler (by decide +kernel)⟩
  exact hgives₁.source w _ _ (opening_tornPieces w)

end Reader

end FreshNames
