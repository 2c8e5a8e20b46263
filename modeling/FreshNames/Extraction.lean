import FreshNames.Alphabet
import FreshNames.Eligibility
import FreshNames.Logging.Record
import FreshNames.Random.Shuffle

/-!
# Extracting an alphabet

The eligible characters of a text, each once, are put into the order of their code points and then
shuffled.  A text without any gives the letters a to z, in order, and nothing is shuffled.

* `eligibleLetters` - the eligible characters in order; `mem_eligibleLetters` - which these are, and
  `pairwise_eligibleLetters` - their order;
* `extract` - the alphabet of a text, and the shuffler afterwards;
* `extract_letters_perm`, `extract_cases` - the alphabet has the eligible characters, if there are
  any.
-/

set_option autoImplicit false

namespace FreshNames

/-! ## Eligible letters -/

/-- A list without items that are repeated one behind the other. -/
def dropRepeats : List Char → List Char
  | [] => []
  | c :: rest =>
    match dropRepeats rest with
    | [] => [c]
    | d :: more => if c = d then d :: more else c :: d :: more

theorem mem_dropRepeats {c : Char} {l : List Char} : c ∈ dropRepeats l ↔ c ∈ l := by
  induction l with
  | nil => simp [dropRepeats]
  | cons d rest ih =>
    rw [dropRepeats]
    split
    · rename_i h
      rw [h] at ih
      simp [← ih]
    · rename_i e more h
      rw [h] at ih
      split
      · rename_i hde
        subst hde
        simp [← ih]
      · simp [← ih]

theorem pairwise_dropRepeats {l : List Char} (h : l.Pairwise (· ≤ ·)) :
    (dropRepeats l).Pairwise (· < ·) := by
  induction l with
  | nil => simp [dropRepeats]
  | cons c rest ih =>
    obtain ⟨hc, hrest⟩ := List.pairwise_cons.1 h
    have ih := ih hrest
    rw [dropRepeats]
    split
    · simp
    · rename_i d more hd
      rw [hd] at ih
      split
      · exact ih
      · rename_i hne
        have hcd : c < d := by
          have hle : c ≤ d := hc d (mem_dropRepeats.1 (by simp [hd]))
          exact Std.lt_of_le_of_ne hle hne
        refine List.pairwise_cons.2 ⟨fun e he => ?_, ih⟩
        rcases List.mem_cons.1 he with rfl | he
        · exact hcd
        · exact Char.lt_trans hcd ((List.pairwise_cons.1 ih).1 e he)

/-- The eligible characters of a text, each once, in the order of their code points. -/
def eligibleLetters (welcome : Welcome) (t : Text) : List Char :=
  dropRepeats ((t.filter (isEligibleChar welcome)).mergeSort fun c d => decide (c ≤ d))

theorem mem_eligibleLetters {welcome : Welcome} {t : Text} {c : Char} :
    c ∈ eligibleLetters welcome t ↔ c ∈ t ∧ isEligibleChar welcome c = true := by
  rw [eligibleLetters, mem_dropRepeats, List.mem_mergeSort, List.mem_filter]

theorem pairwise_eligibleLetters (welcome : Welcome) (t : Text) :
    (eligibleLetters welcome t).Pairwise (· < ·) := by
  refine pairwise_dropRepeats ?_
  have trans (a b c : Char) (hab : decide (a ≤ b) = true) (hbc : decide (b ≤ c) = true) :
      decide (a ≤ c) = true := by
    simpa using Char.le_trans (by simpa using hab) (by simpa using hbc)
  have total (a b : Char) : (decide (a ≤ b) || decide (b ≤ a)) = true := by
    simpa using Char.le_total a b
  simpa using List.pairwise_mergeSort trans total (t.filter (isEligibleChar welcome))

theorem nodup_eligibleLetters (welcome : Welcome) (t : Text) :
    (eligibleLetters welcome t).Nodup :=
  (pairwise_eligibleLetters welcome t).imp fun h => Char.ne_of_lt h

/-! ## The alphabet -/

/-- What comes of a text: its alphabet, whether any eligible character was found, and the shuffler
    for the next time. -/
structure Extraction where
  alphabet : Alphabet
  isFound : Bool
  shuffler : Shuffler

/-- The logger of extraction. -/
def Extraction.logger : String := "namefactory.alphabet"

/-- The alphabet with letters in a shuffled order. -/
def shuffledAlphabet (s : Shuffler) (letters : List Char) (ne : letters ≠ [])
    (nodup : letters.Nodup) : Alphabet where
  letters := (s.shuffle letters).1
  nonempty := fun h => ne (List.length_eq_zero_iff.1 (by
    rw [← (s.shuffle_perm letters).length_eq, h, List.length_nil]))
  distinct := ((s.shuffle_perm letters).nodup_iff).2 nodup

/-- The alphabet of a text. -/
def extract (welcome : Welcome) (t : Text) (s : Shuffler) : Extraction :=
  if h : eligibleLetters welcome t = [] then ⟨.latin, false, s⟩
  else
    ⟨shuffledAlphabet s _ h (nodup_eligibleLetters welcome t), true,
      (s.shuffle (eligibleLetters welcome t)).2⟩

/-- What is told about an extraction. -/
def Extraction.record (e : Extraction) : Record :=
  .debug logger
    (if e.isFound then s!"Extracted alphabet of {e.alphabet.size} characters".toList
    else "No eligible characters in dictionary; using a-z".toList)

theorem extract_of_eq_nil {welcome : Welcome} {t : Text} (s : Shuffler)
    (h : eligibleLetters welcome t = []) : extract welcome t s = ⟨.latin, false, s⟩ := by
  rw [extract, dif_pos h]

theorem extract_letters_perm {welcome : Welcome} {t : Text} (s : Shuffler)
    (h : eligibleLetters welcome t ≠ []) :
    (extract welcome t s).alphabet.letters.Perm (eligibleLetters welcome t) := by
  rw [extract, dif_neg h]
  exact s.shuffle_perm _

/-- Either all letters are eligible characters of the text, or it has none. -/
theorem extract_cases (welcome : Welcome) (t : Text) (s : Shuffler) :
    (∀ c ∈ (extract welcome t s).alphabet.letters, c ∈ t ∧ isEligibleChar welcome c = true) ∨
      (∀ c ∈ t, isEligibleChar welcome c = false) ∧ extract welcome t s = ⟨.latin, false, s⟩ := by
  by_cases h : eligibleLetters welcome t = []
  · refine .inr ⟨fun c hc => ?_, extract_of_eq_nil s h⟩
    rw [Bool.eq_false_iff]
    intro he
    have hmem := mem_eligibleLetters.2 ⟨hc, he⟩
    rw [h] at hmem
    cases hmem
  · refine .inl fun c hc => ?_
    exact mem_eligibleLetters.1 ((extract_letters_perm s h).mem_iff.1 hc)

end FreshNames
