import FreshNames.CommandLine
import FreshNames.Proofs.LoggedOnce
import Mathlib.Data.List.Basic

/-!
# Any text as a level

The level of a set-up may be any text.  In upper case it is the name of a standard level, or of
nothing, which means warnings - or of one of two things that are no levels, and then the set-up fails
and leaves everything as it was.

* `Text.UpperCase` - full upper case; `UpperCase.apply_eq_iff` - where the table of forms within ASCII
  tells as much;
* `Logging.IsLevelOf` - the level that a name in upper case stands for;
* `CommandLine.top_ending_ne_level` - no argument makes a set-up fail; `run_level_iff` - only a level in
  the environment does;
* `HeadLogger.setUp_any_text` - what comes of a set-up, for every text and from every state.
-/

set_option autoImplicit false

namespace FreshNames

/-! ## Full upper case -/

namespace Text

variable {t name : Text}

/-- Full upper case, character by character.  The characters with forms within ASCII are the listed ones
    and those of ASCII itself; any other form has a character beyond. -/
structure UpperCase where
  form : Char → Text
  ascii : ∀ c, c.toNat < 128 → form c = [c.toUpper]
  listed : ∀ c t, upperForms.lookup c = some t → form c = t
  beyond : ∀ c, 128 ≤ c.toNat → upperForms.lookup c = none → ∃ d ∈ form c, 128 ≤ d.toNat

/-- All characters lie within ASCII. -/
def IsAscii (t : Text) : Prop := ∀ c ∈ t, c.toNat < 128

instance (t : Text) : Decidable t.IsAscii := List.decidableBAll _ t

namespace UpperCase

variable {u : UpperCase}

/-- The text in full upper case. -/
def apply (u : UpperCase) (t : Text) : Text := t.flatMap u.form

/-- Where a form is not that of the table, neither is within ASCII. -/
theorem form_cases (u : UpperCase) (c : Char) :
    u.form c = upperChar c ∨ ¬ IsAscii (u.form c) ∧ ¬ IsAscii (upperChar c) := by
  unfold upperChar
  by_cases hascii : c.toNat < 128
  · left
    rw [if_pos hascii, u.ascii c hascii]
  · rw [if_neg hascii]
    cases hlisted : upperForms.lookup c with
    | some t =>
      left
      rw [u.listed c t hlisted, Option.getD_some]
    | none =>
      right
      obtain ⟨d, hd, hbeyond⟩ := u.beyond c (by omega) hlisted
      constructor
      · intro h
        have := h d hd
        omega
      · intro h
        exact hascii (h c (by simp))

end UpperCase

/-- Forms that agree within ASCII lead to the same names within ASCII. -/
theorem flatMap_eq_of_isAscii {f g : Char → Text} (hname : IsAscii name)
    (h : ∀ c, f c = g c ∨ ¬ IsAscii (f c)) (ht : t.flatMap f = name) : t.flatMap g = name := by
  have hsame : ∀ c ∈ t, f c = g c := by
    intro c hc
    refine (h c).resolve_right fun hbeyond => hbeyond fun d hd => ?_
    apply hname
    rw [← ht]
    exact List.mem_flatMap.2 ⟨c, hc, hd⟩
  rw [← ht]
  exact (List.flatMap_congr hsame).symm

/-- **A name within ASCII** is reached in full upper case if it is by the table. -/
theorem UpperCase.apply_eq_iff (u : UpperCase) (hname : IsAscii name) :
    u.apply t = name ↔ upper t = name := by
  constructor
  · apply flatMap_eq_of_isAscii hname
    intro c
    exact (u.form_cases c).imp_right And.left
  · apply flatMap_eq_of_isAscii hname
    intro c
    exact (u.form_cases c).imp Eq.symm And.right

end Text

/-! ## The names of levels -/

/-- What is no level, by its name. -/
def UnusableLevel.text : UnusableLevel → Text
  | format => "BASIC_FORMAT".toList
  | styles => "_STYLES".toList

namespace Logging

variable {t name : Text} {n : Int} {e : UnusableLevel} {u : Text.UpperCase}
  {environment given : Option Text}

/-- The standard levels by their names. -/
def standardLevels : List (Text × Int) := [
  ("NOTSET".toList, 0), ("DEBUG".toList, 10), ("INFO".toList, 20), ("WARN".toList, 30),
  ("WARNING".toList, 30), ("ERROR".toList, 40), ("FATAL".toList, 50), ("CRITICAL".toList, 50)]

/-- The level that a name stands for: the standard one of this name, or else that of warnings. -/
def IsLevelOf (name : Text) (n : Int) : Prop :=
  (name, n) ∈ standardLevels ∨ (∀ m, (name, m) ∉ standardLevels) ∧ n = 30

theorem isAscii_standardLevels : ∀ p ∈ standardLevels, p.1.IsAscii := by decide

theorem isAscii_text (e : UnusableLevel) : e.text.IsAscii := by cases e <;> decide

theorem mem_standardLevels_apply_iff :
    (u.apply t, n) ∈ standardLevels ↔ (Text.upper t, n) ∈ standardLevels := by
  constructor
  · intro h
    rwa [(u.apply_eq_iff (isAscii_standardLevels _ h)).1 rfl]
  · intro h
    rwa [(u.apply_eq_iff (isAscii_standardLevels _ h)).2 rfl]

theorem isLevelOf_apply_iff : IsLevelOf (u.apply t) n ↔ IsLevelOf (Text.upper t) n := by
  unfold IsLevelOf
  simp only [mem_standardLevels_apply_iff]

theorem standardLevels_eq :
    standardLevels = levelNames.map fun p => (p.1, p.2.number) := rfl

/-- A name in the table of levels is found with its first level, and there is no other. -/
theorem isLevelOf_lookup (name : Text) :
    IsLevelOf name ((levelNames.lookup name).getD .warning).number := by
  cases h : levelNames.lookup name with
  | some level =>
    left
    obtain ⟨before, after, hnames, -⟩ := List.lookup_eq_some_iff.1 h
    rw [standardLevels_eq, List.mem_map]
    exact ⟨(name, level), by simp [hnames], rfl⟩
  | none =>
    right
    refine ⟨fun m hm => ?_, rfl⟩
    rw [standardLevels_eq, List.mem_map] at hm
    obtain ⟨p, hp, hname⟩ := hm
    have hne := List.lookup_eq_none_iff.1 h p hp
    simp [(Prod.mk.inj hname).1] at hne

theorem levelOf_eq_error_iff : levelOf t = .error e ↔ Text.upper t = e.text := by
  unfold levelOf
  dsimp only
  split
  · rename_i hformat
    rw [hformat]
    cases e <;> decide
  · rename_i hformat
    split
    · rename_i hstyles
      rw [hstyles]
      cases e <;> decide
    · rename_i hstyles
      constructor
      · intro h
        cases h
      · intro h
        cases e with
        | format => exact absurd h hformat
        | styles => exact absurd h hstyles

theorem isLevelOf_of_levelOf (h : levelOf t = .ok n) : IsLevelOf (Text.upper t) n := by
  unfold levelOf at h
  dsimp only at h
  split at h
  · cases h
  · split at h
    · cases h
    · cases h
      exact isLevelOf_lookup _

theorem setUp_eq_error_iff :
    setUp environment given = .error e ↔ u.apply (chosenName environment given) = e.text := by
  rw [u.apply_eq_iff (isAscii_text e), ← levelOf_eq_error_iff]
  unfold setUp
  cases levelOf (chosenName environment given) <;> simp

/-- A set-up that returns leaves one handler, and both are on the level that the text stands for. -/
theorem setUp_ok_cases {l : Logging} (h : setUp environment given = .ok l) :
    ∃ level, IsLevelOf (u.apply (chosenName environment given)) level ∧
      l = ⟨level, [level], false⟩ := by
  unfold setUp at h
  cases hlevel : levelOf (chosenName environment given) with
  | error e =>
    rw [hlevel] at h
    cases h
  | ok level =>
    rw [hlevel] at h
    cases h
    exact ⟨level, isLevelOf_apply_iff.2 (isLevelOf_of_levelOf hlevel), rfl⟩

end Logging

/-! ## The level of the environment -/

namespace CommandLine

variable {s : Surroundings} {logging : Logging} {sink : Sink} {words : List Text} {e : UnusableLevel}

theorem printing_ending_ne_level (ending : Ending) (h : ending ≠ .escaped (.level e))
    (sink : Sink) (pieces : List Text) :
    (printing sink ending pieces).ending ≠ .escaped (.level e) := by
  induction pieces generalizing sink with
  | nil => exact h
  | cons t pieces ih =>
    unfold printing
    split
    · nofun
    · apply ih

theorem samplePrinting_ending_ne_level (plan : SamplePlan) :
    (samplePrinting s logging sink plan).ending ≠ .escaped (.level e) := by
  unfold samplePrinting
  dsimp only
  split
  · nofun
  · nofun
  · split
    · nofun
    · nofun

theorem sample_ending_ne_level :
    (sample s logging sink words).ending ≠ .escaped (.level e) := by
  rcases sample_cases s sink words with ⟨pieces, ending, hending, h⟩ | ⟨plan, h⟩
  · rw [h]
    exact printing_ending_ne_level ending (hending e) sink pieces
  · rw [h]
    apply samplePrinting_ending_ne_level

/-- Whatever the arguments are, no set-up fails once they are looked at. -/
theorem top_ending_ne_level :
    (top s logging sink words).ending ≠ .escaped (.level e) := by
  have hexit (code : Nat) (pieces : List Text) :
      (printing sink (.exit code) pieces).ending ≠ .escaped (.level e) :=
    printing_ending_ne_level (.exit code) nofun sink pieces
  unfold top
  split
  · apply hexit
  · exact printing_ending_ne_level (.escaped (.toolkit _)) nofun sink _
  · rename_i a ha
    obtain ⟨logging', hlogging⟩ := exists_switchedLogging a logging
    rw [hlogging]
    dsimp only
    split
    · apply hexit
    · apply hexit
    · apply sample_ending_ne_level

/-- A program that finds an unusable level in its environment does nothing. -/
theorem run_of_unusable (h : Logging.setUp s.level? none = .error e) (sink : Sink) (words : List Text) :
    run s sink words = ⟨sink, [], .escaped (.level e)⟩ := by
  unfold run
  rw [h]

/-- There is no other reason to end like that. -/
theorem unusable_of_run_ending (h : (run s sink words).ending = .escaped (.level e)) :
    Logging.setUp s.level? none = .error e := by
  unfold run at h
  split at h
  · rename_i e' hsetUp
    cases h
    exact hsetUp
  · exact absurd h top_ending_ne_level

/-- **A level in the environment** ends the program if it is one of the two names that are no level, in
    any case, and then at once.  No other level does, and no argument. -/
theorem run_level_iff (u : Text.UpperCase) (s : Surroundings) (sink : Sink) (words : List Text)
    (e : UnusableLevel) :
    ((run s sink words).ending = .escaped (.level e) ↔
        u.apply (Logging.chosenName s.level? none) = UnusableLevel.text e) ∧
      (u.apply (Logging.chosenName s.level? none) = UnusableLevel.text e →
        run s sink words = ⟨sink, [], .escaped (.level e)⟩) := by
  have hends (hname : u.apply (Logging.chosenName s.level? none) = UnusableLevel.text e) :
      run s sink words = ⟨sink, [], .escaped (.level e)⟩ :=
    run_of_unusable (Logging.setUp_eq_error_iff.2 hname) sink words
  refine ⟨⟨fun hending => ?_, fun hname => by rw [hends hname]⟩, hends⟩
  exact Logging.setUp_eq_error_iff.1 (unusable_of_run_ending hending)

end CommandLine

/-! ## Setting up with any text -/

namespace HeadLogger

open Logging

/-- **Any text is a level**, in full upper case and from every state of the head: that of the standard
    level of this name, or else that of warnings; no text at all means warnings too.  Two names are the
    exception.  With these a set-up fails and changes nothing. -/
theorem setUp_any_text (u : Text.UpperCase) (g : HeadLogger) (environment given : Option Text) :
    ((∀ e, u.apply (chosenName environment given) ≠ UnusableLevel.text e) →
      ∃ level, IsLevelOf (u.apply (chosenName environment given)) level ∧
        Logging.setUp environment given = .ok ⟨level, [level], false⟩ ∧
        g.setUp environment given = (.ok (), ⟨level, [⟨g.nextKey, level⟩], false, g.nextKey + 1⟩)) ∧
    ∀ e, u.apply (chosenName environment given) = UnusableLevel.text e →
      Logging.setUp environment given = .error e ∧ g.setUp environment given = (.error e, g) := by
  refine ⟨fun hname => ?_, fun e hname => ?_⟩
  · cases hsetUp : Logging.setUp environment given with
    | error e => exact absurd (setUp_eq_error_iff.1 hsetUp) (hname e)
    | ok l =>
      obtain ⟨level, hlevel, rfl⟩ := setUp_ok_cases (u := u) hsetUp
      exact ⟨level, hlevel, rfl, setUp_of_ok hsetUp⟩
  · have hsetUp := setUp_eq_error_iff.2 hname
    exact ⟨hsetUp, setUp_of_error hsetUp⟩

/-- A head that has been given two handlers and a level that is neither of theirs. -/
def overloaded : HeadLogger := ⟨40, [⟨0, 10⟩, ⟨1, 30⟩], true, 2⟩

/-- The forms of the table, and one letter beyond ASCII. -/
def acuteCase : Text.UpperCase where
  form c := if c = 'é' then ['É'] else Text.upperChar c
  ascii := by
    intro c hc
    have hne : c ≠ 'é' := by
      rintro rfl
      exact absurd hc (by decide)
    rw [if_neg hne, Text.upperChar, if_pos hc]
  listed := by
    intro c t hc
    have hne : c ≠ 'é' := by
      rintro rfl
      cases hc
    have hbeyond : ¬ c.toNat < 128 := by
      obtain ⟨before, after, hforms, -⟩ := List.lookup_eq_some_iff.1 hc
      have hall : ∀ p ∈ Text.upperForms, ¬ p.1.toNat < 128 := by decide
      exact hall (c, t) (by simp [hforms])
    rw [if_neg hne, Text.upperChar, if_neg hbeyond, hc, Option.getD_some]
  beyond := by
    intro c hc hlisted
    split
    · exact ⟨'É', by simp, by decide⟩
    · rw [Text.upperChar, if_neg (by omega), hlisted]
      exact ⟨c, by simp, hc⟩

/-- A letter without a dot and a long one are put into upper case like the common ones. -/
theorem setUp_any_text_oldLetters :
    (∀ e, acuteCase.apply "ınfo".toList ≠ UnusableLevel.text e) ∧
      overloaded.setUp none (some "ınfo".toList) = (.ok (), ⟨20, [⟨2, 20⟩], false, 3⟩) ∧
      overloaded.setUp (some "baſic_format".toList) none = (.error .format, overloaded) := by
  have hname : ∀ e, acuteCase.apply "ınfo".toList ≠ UnusableLevel.text e := by
    intro e
    cases e <;> decide
  obtain ⟨hlevel, -⟩ := setUp_any_text acuteCase overloaded none (some "ınfo".toList)
  obtain ⟨-, hfails⟩ := setUp_any_text acuteCase overloaded (some "baſic_format".toList) none
  obtain ⟨level, hstands, -, hsetUp⟩ := hlevel hname
  have hupper : acuteCase.apply (chosenName none (some "ınfo".toList)) = "INFO".toList := by decide
  have h20 : level = 20 := by
    have hall : ∀ p ∈ standardLevels, p.1 = "INFO".toList → p.2 = 20 := by decide
    rw [hupper] at hstands
    rcases hstands with hmem | ⟨hnone, -⟩
    · exact hall _ hmem rfl
    · exact absurd (by decide) (hnone 20)
  subst h20
  exact ⟨hname, hsetUp, (hfails .format (by decide)).2⟩

/-- A name for the form of messages is no level, and no set-up with it returns. -/
theorem setUp_formatName :
    initial.setUp none (some "basic_format".toList) = (.error .format, initial) ∧
      initial.setUp (some "_STYLES".toList) none = (.error .styles, initial) ∧
      ¬ ∃ h, initial.setUp none (some "basic_format".toList) = (.ok (), h) := by
  have hformat : initial.setUp none (some "basic_format".toList) = (.error .format, initial) := by
    decide +kernel
  refine ⟨hformat, by decide +kernel, ?_⟩
  rw [hformat]
  nofun

end HeadLogger

end FreshNames
