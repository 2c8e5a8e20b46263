import FreshNames.Proofs.Arguments
import FreshNames.Proofs.EncodedTexts
import FreshNames.Proofs.Troubles

/-!
# Names that are printed and read again

The command prints names line by line in UTF-8, each between brackets.  As no line end is ever a
letter, lines are cut where they were put together, and whoever drops the brackets has the names
again, whatever other characters they have.  More names come behind those that fewer would be.

* `Text.parts_lines` - lines, put together and cut apart again;
* `Shelf.names_of_dictionary` - the names of a dictionary factory are the words from its index on;
* `CommandLine.printed`, `readNames` - printing the first names of a sequence, and reading them;
* `CommandLine.sample_output` - the output of the command, for all numbers of names.
-/

set_option autoImplicit false

namespace FreshNames

/-! ## Lines -/

/-- Lines without line feeds are cut where they were put together. -/
theorem Text.parts_lines {ls : List Text} (h : ∀ l ∈ ls, '\n' ∉ l) :
    parts '\n' (lines ls) = ls ++ [[]] := by
  induction ls with
  | nil => rfl
  | cons l ls ih =>
    obtain ⟨hl, hls⟩ := List.forall_mem_cons.1 h
    have hlines : lines (l :: ls) = l ++ '\n' :: lines ls := by simp [lines]
    rw [hlines, parts_append hl, ih hls, List.cons_append]

/-! ## Names one after the other -/

/-- The next name of a dictionary factory is the word with the number that it has come to. -/
theorem Shelf.next_of_dictionary {s : Shelf} {place k fallback : Nat} {letters : SharedAlphabet}
    (h : s.get? place = some (.dictionary letters k fallback)) :
    (s.next place).1 = .ok (letters.alphabet.word k) ∧
      (s.next place).2.get? place = some (.dictionary letters (k + 1 : Nat) fallback) := by
  have hnext : Factory.nextAt s.caches s.factories place = _ := Factory.nextAt_of_isGiver h rfl
  rw [Shelf.next, hnext]
  refine ⟨rfl, ?_⟩
  have hplace := Factory.at?_modifyAt (fun g => (g.draw s.caches).2.1) s.factories place place
  rw [if_pos rfl, show Factory.at? s.factories place = _ from h] at hplace
  exact hplace

theorem Shelf.names_of_dictionary {s : Shelf} {place k fallback : Nat} {letters : SharedAlphabet}
    (h : s.get? place = some (.dictionary letters k fallback)) (count : Nat) :
    (s.names place count).1 =
      .ok ((List.range count).map fun i => letters.alphabet.word (k + i)) := by
  induction count generalizing s k with
  | zero => rfl
  | succ count ih =>
    obtain ⟨hname, hplace⟩ := next_of_dictionary h
    have hrest := ih hplace
    rw [names_succ_of_ok hname, hrest]
    simp [List.range_succ_eq_map, Nat.add_assoc, Nat.add_comm 1, Except.map, Function.comp_def]

/-- Whatever an alphabet is extracted from, no line end is among its letters. -/
theorem extract_letters_ne {welcome : Welcome} {t : Text} {shuffler : Shuffler} {c : Char}
    (h : c ∈ (extract welcome t shuffler).alphabet.letters) : c ≠ '\n' ∧ c ≠ '\r' := by
  rcases extract_cases welcome t shuffler with hmem | ⟨-, hlatin⟩
  · exact (isEligibleChar_iff.1 (hmem c h).2).1
  · rw [hlatin] at h
    have hbounds := Alphabet.latin_bounds c h
    constructor
    · rintro rfl
      exact absurd hbounds.1 (by decide)
    · rintro rfl
      exact absurd hbounds.1 (by decide)

/-! ## The output of the command -/

namespace CommandLine

variable {names : Nat → Text} {s : Surroundings} {plan : SamplePlan}

/-- The first names of a sequence as the command prints them. -/
def printed (names : Nat → Text) (n : Nat) : Bytes :=
  Charset.utf8Bytes (lines ((List.range n).map fun i => bracketed (names i)))

/-- The names in the lines of an output: what is behind the last line feed is no line, and the first
    and the last character of a line do not belong to the name. -/
def readNames (output : Bytes) : Option (List Text) :=
  match (Charset.fixed .utf8).decode output with
  | .error _ => none
  | .ok t => some ((Text.parts '\n' t).dropLast.map fun line => (line.drop 1).dropLast)

/-- **Names without line feeds are read as they were printed.** -/
theorem readNames_printed (h : ∀ i, '\n' ∉ names i) (n : Nat) :
    readNames (printed names n) = some ((List.range n).map names) := by
  have hlines : ∀ l ∈ (List.range n).map fun i => bracketed (names i), '\n' ∉ l := by
    intro l hl
    obtain ⟨i, -, rfl⟩ := List.mem_map.1 hl
    simp [bracketed, h i]
  have hname (t : Text) : ((bracketed t).drop 1).dropLast = t := by simp [bracketed]
  rw [readNames, printed, Charset.decode_utf8Bytes]
  simp only
  rw [Text.parts_lines hlines, List.dropLast_concat, List.map_map]
  simp only [Function.comp_def, hname]

/-- More names are printed behind those that come first. -/
theorem printed_prefix {m n : Nat} (h : m ≤ n) : printed names m <+: printed names n := by
  obtain ⟨k, rfl⟩ := Nat.exists_eq_add_of_le h
  rw [printed, printed, List.range_add, List.map_append, lines_append, Charset.utf8Bytes,
    Charset.utf8Bytes, List.flatMap_append]
  exact List.prefix_append _ _

theorem sampleLines_eq (a : Alphabet) (halphabet : plan.showsAlphabet = false) :
    sampleLines plan a = .ok ((List.range plan.count).map fun i => bracketed (a.word i)) := by
  have hplace : (sampleShelf a).get? samplePlace = some (.dictionary ⟨a, 0⟩ (0 : Nat) 0) := rfl
  have hnames := Shelf.names_of_dictionary hplace plan.count
  rw [sampleLines, halphabet]
  simp only [Bool.false_eq_true, if_false]
  generalize (sampleShelf a).names samplePlace plan.count = x at hnames ⊢
  obtain ⟨result, shelf⟩ := x
  cases hnames
  simp [Function.comp_def]

/-- What the command does with an extraction: it prints the words over the alphabet. -/
theorem samplePrinting_of_ok (halphabet : plan.showsAlphabet = false) {e : Extraction}
    (he : (construct s.world dictionaryCharset plan.welcome (plan.shuffler s.common) true
      (.location plan.dictionary)).result = .ok e) (logging : Logging) (sink : Sink) :
    (samplePrinting s logging sink plan).ending = .exit 0 ∧
      (samplePrinting s logging sink plan).sink =
        sink.writeLines ((List.range plan.count).map fun i => bracketed (e.alphabet.word i)) := by
  have hlines := sampleLines_eq e.alphabet halphabet
  simp only [samplePrinting, he, hlines, and_self]

/-- The program comes to its command, and the command makes its factory from the dictionary. -/
def MakesFactory (s : Surroundings) (plan : SamplePlan) : Prop :=
  ∃ logging e, Logging.setUp s.level? none = .ok logging ∧
    (construct s.world dictionaryCharset plan.welcome (plan.shuffler s.common) true
      (.location plan.dictionary)).result = .ok e

/-- **The output of the command** can be read again, and grows at its end: there is one sequence of
    names, all different, none empty and none with a line end, and whatever number of names is asked
    for, the command prints as many from the beginning of it.  Any lawful toolkit reads its
    arguments. -/
theorem sample_output (hk : s.toolkit.IsLawful) (halphabet : plan.showsAlphabet = false)
    (h : MakesFactory s plan) :
    ∃ names : Nat → Text, Function.Injective names ∧
      (∀ i, names i ≠ [] ∧ '\n' ∉ names i ∧ '\r' ∉ names i) ∧
      (∀ n words charset isMarked before, Asks s.toolkit words { plan with count := n } →
        (run s (.encoded charset isMarked before) words).ending = .exit 0 ∧
          (run s (.encoded charset isMarked before) words).sink =
            .encoded charset isMarked (before ++ printed names n)) ∧
      (∀ n : Nat, (n : Int) ≤ Setting.greatestCount →
        (∀ k, plan.seed = some k → isWritable k = true) →
          ∃ words, Asks s.toolkit words { plan with count := n }) ∧
      (∀ n, readNames (printed names n) = some ((List.range n).map names)) ∧
      ∀ m n, m ≤ n → printed names m <+: printed names n := by
  obtain ⟨logging, e, hlogging, hconstruct⟩ := h
  have hletters : ∀ c ∈ e.alphabet.letters, c ≠ '\n' ∧ c ≠ '\r' := by
    obtain ⟨t, -, rfl⟩ := Source.exists_of_construct_eq_ok hconstruct
    exact fun c hc => extract_letters_ne hc
  have hlineEnd (i : Nat) : '\n' ∉ e.alphabet.word i ∧ '\r' ∉ e.alphabet.word i :=
    ⟨fun hc => (hletters _ (Alphabet.mem_letters_of_mem_word hc)).1 rfl,
      fun hc => (hletters _ (Alphabet.mem_letters_of_mem_word hc)).2 rfl⟩
  refine ⟨e.alphabet.word, e.alphabet.word_injective, fun i => ⟨e.alphabet.word_ne_nil i, hlineEnd i⟩,
    fun n words charset isMarked before hasks => ?_, fun n hn hseed => ?_, fun n => ?_,
    fun m n hle => printed_prefix hle⟩
  · obtain ⟨logging', hrun⟩ := run_of_asks hasks hlogging (.encoded charset isMarked before)
    rw [hrun]
    exact @samplePrinting_of_ok s { plan with count := n } halphabet e hconstruct logging' _
  · exact ⟨_, SamplePlan.asks_arguments hk hn hseed halphabet⟩
  · exact readNames_printed (fun i => (hlineEnd i).1) n

/-- Characters that look like the brackets around a name. -/
def bracketText : Text := ['[', ']', '\n', '[', 'ß']

/-- A world with a file that holds them. -/
def bracketSurroundings : Surroundings :=
  ⟨.ofFiles ⟨[], [([['d']], .file (Charset.utf8Bytes bracketText))]⟩, .inOrder, none, plainToolkit⟩

/-- All of them are welcome. -/
def bracketPlan : SamplePlan := ⟨['d'], 2, some 7, .anything, false⟩

theorem makesFactory_bracketPlan : MakesFactory bracketSurroundings bracketPlan := by
  have hname : (Charset.fixed .utf8).IsNamed dictionaryCharset := by decide
  have hdelivers : (Source.location ['d']).Delivers bracketSurroundings.world
      (Charset.utf8Bytes bracketText) := .file rfl rfl
  have hread := Source.readAs_of_delivers hname trivial hdelivers .anything
    (bracketPlan.shuffler .inOrder)
  rw [Charset.decode_utf8Bytes] at hread
  refine ⟨⟨30, [30], false⟩, extract .anything bracketText (bracketPlan.shuffler .inOrder), rfl, ?_⟩
  rw [Source.construct_result]
  exact congrArg (Except.mapError ConstructionError.source) hread

theorem sample_output_brackets :
    MakesFactory bracketSurroundings bracketPlan ∧ ∃ (names : Nat → Text) (words : List Text),
      (run bracketSurroundings (.encoded (.fixed .utf8) false []) words).ending = .exit 0 ∧
        (run bracketSurroundings (.encoded (.fixed .utf8) false []) words).sink =
          .encoded (.fixed .utf8) false (printed names 2) ∧
        readNames (printed names 2) = some [names 0, names 1] ∧ names 0 ≠ names 1 := by
  obtain ⟨names, hinjective, -, hrun, hwords, hread, -⟩ :=
    sample_output (s := bracketSurroundings) isLawful_plainToolkit rfl makesFactory_bracketPlan
  have hseed : ∀ k, bracketPlan.seed = some k → isWritable k = true := by
    rintro k ⟨⟩
    exact SamplePlan.isWritable_of_le (n := 7) (by decide)
  obtain ⟨words, hasks⟩ := hwords 2 (by decide) hseed
  obtain ⟨hending, hsink⟩ := hrun 2 words (.fixed .utf8) false [] hasks
  exact ⟨makesFactory_bracketPlan, names, words, hending, hsink, hread 2,
    fun h => absurd (hinjective h) (by decide)⟩

end CommandLine

end FreshNames
