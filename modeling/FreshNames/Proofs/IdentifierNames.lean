import FreshNames.Proofs.CharByChar
import FreshNames.Proofs.HandedOut

/-!
# Names that are identifiers

A dictionary factory that only takes characters for identifiers gives identifiers.  Each letter of
its alphabet may begin an identifier, what may begin one may also go on with it, and no name is
empty.  The alphabet stays with the factory whatever else happens, and goes on to the factories that
are made from it, until it is assigned anew.

* `Source.Holds` - the text of a source; `extract_eq_ok_iff` - the alphabet of a source is the one of
  its text;
* `Alphabet.Suits` - the letters of an alphabet may begin identifiers and occur in a text, unless
  nothing in the text would do (`suits_extract`); its words are identifiers (`isIdentifier_word`);
* `Session.Stems` - a factory was made from a text, in some number of steps, and its alphabet was not
  assigned since;
* `Session.identifier_names` - the names of such a factory are identifiers.
-/

set_option autoImplicit false

namespace FreshNames

/-! ## The text of a source -/

namespace Source

variable {w : World} {charset t : Text} {s : Source}

/-- The source can be opened, and this is what one reads who reads single characters until nothing
    more comes. -/
def Holds (w : World) (charset : Text) (s : Source) (t : Text) : Prop :=
  ∃ r, (s.opening w charset).result = .ok r ∧ r.ReadsEach (.ok t)

/-- A source holds one text only. -/
theorem Holds.unique {u : Text} (h : s.Holds w charset t) (h' : s.Holds w charset u) : u = t := by
  obtain ⟨r, hr, ht⟩ := h
  obtain ⟨r', hr', hu⟩ := h'
  rw [hr] at hr'
  cases hr'
  exact Except.ok.inj (hu.unique ht)

/-- An alphabet comes out of a source if it holds a text, and it is the one of the text. -/
theorem extract_eq_ok_iff {welcome : Welcome} {shuffler : Shuffler} {e : Extraction} :
    (s.extract w charset welcome shuffler).result = .ok e ↔
      ∃ t, s.Holds w charset t ∧ FreshNames.extract welcome t shuffler = e := by
  constructor
  · intro h
    simp only [extract] at h
    split at h
    · cases h
    · rename_i r hr
      split at h
      · cases h
      · rename_i t ht
        cases h
        exact ⟨t, ⟨r, hr, (readsEach_opening hr).2 ht.symm⟩, rfl⟩
  · rintro ⟨t, ⟨r, hr, ht⟩, rfl⟩
    have hdrain := (readsEach_opening hr).1 ht
    simp only [extract, hr, ← hdrain]

end Source

/-! ## Letters for identifiers -/

namespace Alphabet

variable {a : Alphabet} {t : Text}

/-- The alphabet gives identifiers with the characters of a text: each of its letters may begin one,
    and occurs in the text, but for the letters a to z if no character of the text would do. -/
structure Suits (a : Alphabet) (t : Text) : Prop where
  starts : ∀ c ∈ a.letters, Text.isIdentifierStart c = true
  occurs : (∃ c ∈ t, isEligibleChar .identifiers c = true) → ∀ c ∈ a.letters, c ∈ t
  latin : (∀ c ∈ t, isEligibleChar .identifiers c = false) → ∀ c ∈ a.letters, 'a' ≤ c ∧ c ≤ 'z'

theorem latin_starts : ∀ c ∈ latin.letters, Text.isIdentifierStart c = true := by
  have hall : latin.letters.all Text.isIdentifierStart = true := by decide +kernel
  exact List.all_eq_true.1 hall

theorem latin_bounds : ∀ c ∈ latin.letters, 'a' ≤ c ∧ c ≤ 'z' := by
  have hall : (latin.letters.all fun c => decide ('a' ≤ c ∧ c ≤ 'z')) = true := by decide
  simpa using hall

theorem suits_extract (t : Text) (shuffler : Shuffler) :
    (extract .identifiers t shuffler).alphabet.Suits t := by
  rcases extract_cases .identifiers t shuffler with hmem | ⟨hnone, hlatin⟩
  · refine ⟨fun c hc => ?_, fun _ c hc => (hmem c hc).1, fun hnone c hc => ?_⟩
    · rcases (isEligibleChar_iff.1 (hmem c hc).2).2 with he | hstart
      · cases he
      · exact hstart
    · obtain ⟨hct, he⟩ := hmem c hc
      rw [hnone c hct] at he
      cases he
  · rw [hlatin]
    refine ⟨latin_starts, ?_, fun _ => latin_bounds⟩
    rintro ⟨c, hc, he⟩
    rw [hnone c hc] at he
    cases he

/-- **The words over such an alphabet are identifiers.** -/
theorem Suits.isIdentifier_word (h : a.Suits t) (n : Nat) : Text.isIdentifier (a.word n) = true :=
  Text.isIdentifier_of_all_starts (a.word_ne_nil n) fun c hc =>
    h.starts c (mem_letters_of_mem_word hc)

end Alphabet

/-! ## The letters of a factory -/

namespace Factory

variable {f g : Factory}

/-- The letters of a dictionary factory. -/
def letters? : Factory → Option SharedAlphabet
  | dictionary letters _ _ => some letters
  | _ => none

theorem eq_dictionary_of_letters? {letters : SharedAlphabet} (h : f.letters? = some letters) :
    ∃ index fallback, f = dictionary letters index fallback := by
  cases f <;> cases h
  exact ⟨_, _, rfl⟩

theorem Onward.letters?_eq (h : f.Onward g) : g.letters? = f.letters? := by
  cases h <;> rfl

theorem letters?_rewound (f : Factory) : f.rewound.letters? = f.letters? := by
  cases f <;> rfl

theorem letters?_withIndex (index : Int) (f : Factory) :
    (f.withIndex index).letters? = f.letters? := by
  cases f <;> rfl

end Factory

namespace Shelf

variable {s : Shelf} {place : Nat} {letters : SharedAlphabet}

/-- What a dictionary factory gives is a word over its letters. -/
theorem next_of_letters (hgr : s.Grounded) {f : Factory} (hf : s.get? place = some f)
    (hl : f.letters? = some letters) {u : Text} (hu : (s.next place).1 = .ok u) :
    ∃ n, u = letters.alphabet.word n := by
  obtain ⟨index, fallback, rfl⟩ := Factory.eq_dictionary_of_letters? hl
  rw [next_eq hgr (.own hf rfl) hf] at hu
  cases index with
  | ofNat n =>
    cases hu
    exact ⟨n, rfl⟩
  | negSucc n => cases hu

theorem names_of_letters (hgr : s.Grounded) {f : Factory} (hf : s.get? place = some f)
    (hl : f.letters? = some letters) {count : Nat} {us : List Text}
    (hus : (s.names place count).1 = .ok us) : ∀ u ∈ us, ∃ n, u = letters.alphabet.word n := by
  induction count generalizing s f us with
  | zero =>
    cases hus
    exact List.forall_mem_nil _
  | succ count ih =>
    cases hu : (s.next place).1 with
    | error e =>
      rw [names_succ_of_error hu] at hus
      cases hus
    | ok u =>
      rw [names_succ_of_ok hu] at hus
      have hon := s.next_onward place
      obtain ⟨f', hf', honf⟩ := hon.related hf
      cases hrest : ((s.next place).2.names place count).1 with
      | error e =>
        rw [hrest] at hus
        cases hus
      | ok rest =>
        rw [hrest] at hus
        cases hus
        intro v hv
        rcases List.mem_cons.1 hv with rfl | hv
        · exact next_of_letters hgr hf hl hu
        · exact ih (hgr.pointwise hon Factory.Onward.delegate?_eq) hf' (honf.letters?_eq.trans hl)
            hrest v hv

end Shelf

/-! ## Where the letters come from -/

namespace Session

variable {s : Session} {w : World} {st : Step} {name t : Text} {place : Nat}

/-- Does the step assign the alphabet of the factory at the place? -/
def reassigns (s : Session) (place : Nat) : Step → Bool
  | .act name (.setAlphabet _) => s.bindings.lookup name == some (.factory place)
  | _ => false

/-- What an origin is read from, if it is not another factory. -/
def Origin.source? : Origin → Option Source
  | source s => some s
  | stream _ s => some (.stream s)
  | letters _ => none

/-- The factory at a place was made from a source with the text, for identifiers, or from another
    such factory, and nobody has assigned its alphabet since. -/
inductive Stems (t : Text) : Session → Nat → Prop
  | read {s : Session} {w : World} {name : Text} {p : DictionaryPlan} {o : Origin} {source : Source}
      {r : Reply} (h : s.Reachable) (hwelcome : p.welcome = .identifiers)
      (ho : s.origin p.source = .ok o) (hsource : o.source? = some source) (ht : source.Holds w p.charset t)
      (hok : (s.step w (.make name (.dictionary p))).1.result = .ok r) :
      Stems t (s.step w (.make name (.dictionary p))).2 s.shelf.size
  | copied {s : Session} {w : World} {name other : Text} {p : DictionaryPlan} {place : Nat}
      {r : Reply} (h : Stems t s place) (hsource : p.source = .bound other)
      (hother : s.handle other = .ok (.factory place))
      (hok : (s.step w (.make name (.dictionary p))).1.result = .ok r) :
      Stems t (s.step w (.make name (.dictionary p))).2 s.shelf.size
  | kept {s : Session} {w : World} {st : Step} {place : Nat} (h : Stems t s place)
      (hst : s.reassigns place st = false) : Stems t (s.step w st).2 place

theorem Stems.reachable (h : Stems t s place) : s.Reachable := by
  induction h with
  | read h _ _ _ _ _ => exact h.step _ _
  | copied _ _ _ _ ih => exact ih.step _ _
  | kept _ _ ih => exact ih.step _ _

/-! ### Steps and letters -/

/-- Only an assignment changes the letters of a factory. -/
theorem actOnFactory_letters {q : Nat} {a : Action} {f : Factory}
    (ha : ∀ v, a = .setAlphabet v → q ≠ place) (hf : s.shelf.get? place = some f) :
    ∃ f', (s.actOnFactory name q a).session.shelf.get? place = some f' ∧
      f'.letters? = f.letters? := by
  have hask (ask : NameCaches → LetterCase → Except NameProblem (Text × NameCaches)) :
      (s.askCache name q ask).session.shelf.get? place = some f := by
    rw [Shelf.get?, askCache_factories]
    exact hf
  cases a with
  | next =>
    rw [actOnFactory_next]
    obtain ⟨f', hf', hon⟩ := (s.shelf.next_onward q).related hf
    exact ⟨f', hf', hon.letters?_eq⟩
  | names count =>
    rw [actOnFactory_names]
    obtain ⟨f', hf', hon⟩ := (s.shelf.names_onward q count.toNat).related hf
    exact ⟨f', hf', hon.letters?_eq⟩
  | reset =>
    obtain ⟨f', hf', rfl | rfl⟩ := (s.shelf.reset_pointwise q).related hf
    · exact ⟨_, hf', rfl⟩
    · exact ⟨_, hf', f.letters?_rewound⟩
  | name index => exact ⟨f, hask _, rfl⟩
  | newName index => exact ⟨f, hask _, rfl⟩
  | setIndex index =>
    obtain ⟨f', hf', rfl | rfl⟩ := (s.shelf.modify_pointwise q (.withIndex index)).related hf
    · exact ⟨_, hf', rfl⟩
    · exact ⟨_, hf', f.letters?_withIndex index⟩
  | setAlphabet v =>
    simp only [actOnFactory]
    split
    · exact ⟨f, hf, rfl⟩
    · refine ⟨f, ?_, rfl⟩
      show (s.shelf.modify q _).get? place = _
      rw [Shelf.get?_modify, if_neg (ha v rfl).symm, hf]
  | look => exact ⟨f, hf, rfl⟩
  | shares other =>
    simp only [actOnFactory]
    split <;> exact ⟨f, hf, rfl⟩

theorem step_letters (hst : s.reassigns place st = false) {f : Factory}
    (hf : s.shelf.get? place = some f) :
    ∃ f', (s.step w st).2.shelf.get? place = some f' ∧ f'.letters? = f.letters? := by
  cases st with
  | make name p =>
    show ∃ f', (s.make w name p).session.shelf.get? place = some f' ∧ _
    rcases make_making w s name p with ⟨-, hshelf⟩ | ⟨h, -, hshelf, -⟩ | ⟨g, -, hshelf, -, -⟩
    · rw [hshelf]
      exact ⟨f, hf, rfl⟩
    · rw [hshelf]
      exact ⟨f, hf, rfl⟩
    · rw [hshelf, Shelf.get?_add_of_lt (Shelf.lt_size_of_get? hf)]
      exact ⟨f, hf, rfl⟩
  | act name a =>
    show ∃ f', (s.act name a).session.shelf.get? place = some f' ∧ _
    rcases s.act_cases name a with hsame | ⟨q, hhandle, hact⟩
    · rw [hsame]
      exact ⟨f, hf, rfl⟩
    · rw [hact]
      refine actOnFactory_letters ?_ hf
      rintro v rfl rfl
      -- the name is bound to the place, so that the step would assign the alphabet there
      rw [reassigns, lookup_of_handle hhandle, beq_self_eq_true] at hst
      cases hst
  | setUpLogging level =>
    refine ⟨f, ?_, rfl⟩
    simp only [step, perform]
    split <;> exact hf

/-! ### Making dictionary factories -/

theorem keyed_alphabet (s : Session) (e : Extraction) : (s.keyed e).1.alphabet = e.alphabet := by
  unfold keyed
  split <;> rfl

theorem makeFromSource_of_ok {p : DictionaryPlan} {lot : Lot} {fallback place? : Option Nat}
    {source : Source} {r : Reply}
    (hok : (s.makeFromSource w name p lot fallback place? source).result = .ok r) :
    ∃ e letters d, (source.extract w p.charset p.welcome (s.shuffler lot)).result = .ok e ∧
      letters.alphabet = e.alphabet ∧
      (s.makeFromSource w name p lot fallback place? source).session.shelf =
        s.shelf.add (.dictionary letters 0 d) := by
  unfold makeFromSource at hok ⊢
  dsimp only at hok ⊢
  split at hok
  · cases hok
  · cases hok
  · rename_i e d hconstruct
    simp only [construct, Option.isSome_some, if_true] at hconstruct
    split at hconstruct
    · cases hconstruct
    · rename_i extraction he
      cases hconstruct
      -- reading and shuffling leave the shelf alone
      have hsource := s.putSource_frame place?
        (construct w p.charset p.welcome (s.shuffler lot) (some d).isSome source).source
      generalize s.putSource place? _ = s1 at hsource ⊢
      have hlot := s1.putShuffler_frame lot e.shuffler
      generalize s1.putShuffler lot e.shuffler = s2 at hlot ⊢
      have hshelf := (s2.keyed_frame e).2.trans (hlot.2.trans hsource.2)
      refine ⟨e, (s2.keyed e).1, d, he, s2.keyed_alphabet e, ?_⟩
      exact congrArg (Shelf.add · (.dictionary (s2.keyed e).1 0 d)) hshelf

/-- The other things that are named in the plan of a factory that was made. -/
theorem exists_of_makeDictionary_ok {p : DictionaryPlan} {o : Origin} {r : Reply}
    (ho : s.origin p.source = .ok o) (hok : (s.makeDictionary w name p).result = .ok r) :
    ∃ fallback lot, s.fallbackPlace p.fallback = .ok fallback ∧ s.lot p.shuffler = .ok lot := by
  unfold makeDictionary at hok
  rw [ho] at hok
  cases hfallback : s.fallbackPlace p.fallback with
  | error e =>
    rw [hfallback] at hok
    cases hok
  | ok fallback =>
    cases hlot : s.lot p.shuffler with
    | error e =>
      rw [hfallback, hlot] at hok
      cases hok
    | ok lot => exact ⟨fallback, lot, rfl, rfl⟩

/-- A factory that is made from a source has the letters that are extracted from it. -/
theorem makeDictionary_of_read {p : DictionaryPlan} {o : Origin} {source : Source} {r : Reply}
    (ho : s.origin p.source = .ok o) (hsource : o.source? = some source)
    (hok : (s.makeDictionary w name p).result = .ok r) :
    ∃ shuffler e letters d, (source.extract w p.charset p.welcome shuffler).result = .ok e ∧
      letters.alphabet = e.alphabet ∧
      (s.makeDictionary w name p).session.shelf = s.shelf.add (.dictionary letters 0 d) := by
  obtain ⟨fallback, lot, hfallback, hlot⟩ := exists_of_makeDictionary_ok ho hok
  cases o with
  | source given =>
    cases hsource
    simp only [makeDictionary, ho, hfallback, hlot] at hok ⊢
    exact ⟨s.shuffler lot, makeFromSource_of_ok hok⟩
  | stream q stream =>
    cases hsource
    simp only [makeDictionary, ho, hfallback, hlot] at hok ⊢
    exact ⟨s.shuffler lot, makeFromSource_of_ok hok⟩
  | letters letters => cases hsource

/-- A factory that is made from another one has the same letters. -/
theorem makeDictionary_of_letters {p : DictionaryPlan} {letters : SharedAlphabet} {r : Reply}
    (ho : s.origin p.source = .ok (.letters letters))
    (hok : (s.makeDictionary w name p).result = .ok r) :
    ∃ d, (s.makeDictionary w name p).session.shelf = s.shelf.add (.dictionary letters 0 d) := by
  obtain ⟨fallback, lot, hfallback, hlot⟩ := exists_of_makeDictionary_ok ho hok
  simp only [makeDictionary, ho, hfallback, hlot] at hok ⊢
  cases fallback with
  | none => cases hok
  | some d => exact ⟨d, rfl⟩

/-- The letters of such a factory suit the text. -/
theorem Stems.suits (h : Stems t s place) :
    ∃ f letters, s.shelf.get? place = some f ∧ f.letters? = some letters ∧
      letters.alphabet.Suits t := by
  induction h with
  | @read s w name p o source r _ hwelcome ho hsource ht hok =>
    obtain ⟨shuffler, e, letters, d, he, hletters, hshelf⟩ := makeDictionary_of_read ho hsource hok
    obtain ⟨u, hu, hextract⟩ := Source.extract_eq_ok_iff.1 he
    have htext := ht.unique hu
    subst htext
    rw [hwelcome] at hextract
    refine ⟨.dictionary letters 0 d, letters, ?_, rfl, ?_⟩
    · show (s.makeDictionary w name p).session.shelf.get? _ = _
      rw [hshelf, Shelf.get?_add_size]
    · rw [hletters, ← hextract]
      exact Alphabet.suits_extract u shuffler
  | @copied s w name other p place r _ hsource hother hok ih =>
    obtain ⟨f, letters, hf, hl, hsuits⟩ := ih
    obtain ⟨index, fallback, rfl⟩ := Factory.eq_dictionary_of_letters? hl
    cases hl
    have ho : s.origin p.source = .ok (.letters letters) := by
      simp only [hsource, origin, hother, hf]
    obtain ⟨d, hshelf⟩ := makeDictionary_of_letters ho hok
    refine ⟨.dictionary letters 0 d, letters, ?_, rfl, hsuits⟩
    show (s.makeDictionary w name p).session.shelf.get? _ = _
    rw [hshelf, Shelf.get?_add_size]
  | kept _ hst ih =>
    obtain ⟨f, letters, hf, hl, hsuits⟩ := ih
    obtain ⟨f', hf', hl'⟩ := step_letters hst hf
    exact ⟨f', letters, hf', hl'.trans hl, hsuits⟩

/-- What a dictionary factory answers, when it is asked, are words over its letters. -/
theorem texts_of_letters (hs : s.Sound) (hask : s.asks place st = true) {f : Factory}
    {letters : SharedAlphabet} (hf : s.shelf.get? place = some f) (hl : f.letters? = some letters) :
    ∀ u ∈ (s.step w st).1.texts, ∃ n, u = letters.alphabet.word n := by
  obtain ⟨count, -, hnone | hus⟩ := names_of_asks hask w
  · rw [hnone]
    exact List.forall_mem_nil _
  · exact Shelf.names_of_letters hs.grounded hf hl hus

/-- **Names that are asked for as identifiers are identifiers**, whole, and they consist of
    characters of the text that the letters stem from, or of a to z if none of these would do. -/
theorem identifier_names (h : Stems t s place) (hask : s.asks place st = true) (w : World) :
    ∀ u ∈ (s.step w st).1.texts, Text.isIdentifier u = true ∧
      ((∃ c ∈ t, isEligibleChar .identifiers c = true) → ∀ c ∈ u, c ∈ t) ∧
      ((∀ c ∈ t, isEligibleChar .identifiers c = false) → ∀ c ∈ u, 'a' ≤ c ∧ c ≤ 'z') := by
  intro u hu
  obtain ⟨f, letters, hf, hl, hsuits⟩ := h.suits
  obtain ⟨n, rfl⟩ := texts_of_letters h.reachable.sound hask hf hl u hu
  refine ⟨hsuits.isIdentifier_word n, fun hsome c hc => ?_, fun hnone c hc => ?_⟩
  · exact hsuits.occurs hsome c (Alphabet.mem_letters_of_mem_word hc)
  · exact hsuits.latin hnone c (Alphabet.mem_letters_of_mem_word hc)

/-- A counting factory to fall back on, and a dictionary factory over the text `z1`. -/
def overText : Session :=
  ((initial .inOrder).run World.nothing [
    .make ['c'] .counting,
    .make ['d'] (.dictionary
      ⟨.given (.stream ⟨.text ['z', '1'] none, false⟩), some ['c'], .identifiers, .common,
        "utf-8".toList⟩)]).2

theorem stems_overText : Stems ['z', '1'] overText 1 := by
  have hreach : ((initial .inOrder).step World.nothing (.make ['c'] .counting)).2.Reachable :=
    (Reachable.initial .inOrder).step World.nothing _
  have hholds : (Source.stream ⟨.text ['z', '1'] none, false⟩).Holds World.nothing "utf-8".toList
      ['z', '1'] := ⟨.plain ['z', '1'] none, rfl, Reader.readsEach_plain_none _⟩
  exact .read hreach rfl rfl rfl hholds rfl

/-- Another dictionary factory takes its letters from the first one, whatever is welcome to it. -/
def copyPlan : DictionaryPlan := ⟨.bound ['d'], some ['c'], .anything, .common, "utf-8".toList⟩

/-- The copy is made, and is to begin with longer names. -/
def copiedText : Session :=
  (overText.run World.nothing [.make ['k'] (.dictionary copyPlan), .act ['k'] (.setIndex 2)]).2

theorem stems_copiedText : Stems ['z', '1'] copiedText 2 := by
  have hother : overText.handle ['d'] = .ok (.factory 1) := handle_of_lookup (by decide +kernel)
  have hsize : overText.shelf.size = 2 := by decide +kernel
  have hmade : (overText.step World.nothing (.make ['k'] (.dictionary copyPlan))).1.result.toBool =
      true := by decide +kernel
  cases hok : (overText.step World.nothing (.make ['k'] (.dictionary copyPlan))).1.result with
  | error e =>
    rw [hok] at hmade
    cases hmade
  | ok r =>
    have hcopied := Stems.copied stems_overText rfl hother hok
    rw [hsize] at hcopied
    exact .kept hcopied rfl

theorem identifier_names_copiedText :
    Stems ['z', '1'] copiedText 2 ∧ copiedText.asks 2 (.act ['k'] (.names 2)) = true ∧
      (copiedText.step World.nothing (.act ['k'] (.names 2))).1.texts =
        [['z', 'z', 'z'], ['z', 'z', 'z', 'z']] ∧
      ∀ u ∈ (copiedText.step World.nothing (.act ['k'] (.names 2))).1.texts,
        Text.isIdentifier u = true ∧
        ((∃ c ∈ ['z', '1'], isEligibleChar .identifiers c = true) → ∀ c ∈ u, c ∈ ['z', '1']) ∧
        ((∀ c ∈ ['z', '1'], isEligibleChar .identifiers c = false) →
          ∀ c ∈ u, 'a' ≤ c ∧ c ≤ 'z') := by
  have hask : copiedText.asks 2 (.act ['k'] (.names 2)) = true := by decide +kernel
  have htexts : (copiedText.step World.nothing (.act ['k'] (.names 2))).1.texts =
      [['z', 'z', 'z'], ['z', 'z', 'z', 'z']] := by decide +kernel
  exact ⟨stems_copiedText, hask, htexts, identifier_names stems_copiedText hask World.nothing⟩

end Session

end FreshNames
