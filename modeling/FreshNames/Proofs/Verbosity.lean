import FreshNames.Proofs.Arguments
import FreshNames.Proofs.LoggedOnce
import Mathlib.Data.List.Basic

/-!
# Telling more

A switch of the program makes it tell what it does.  The command does not ask how much is told: it
sends its records, and only the standard error shows what has become of them.

* `Record.IsDebug` - messages for those who look for errors; `isDebug_of_construct` - the program
  sends no others while it makes a factory;
* `Logging.writeAll_of_setUp` - after a set-up they are all written, or none is;
* `CommandLine.Outcome` - what comes of the command, with its records in place of what is written for
  them; `onlyLogs_sample` - it is the same for every logging;
* `CommandLine.run_verbose` - two runs, of which one tells more.
-/

set_option autoImplicit false

namespace FreshNames

/-! ## Records of the program -/

/-- A message for those who look for errors, from a logger of the family. -/
structure Record.IsDebug (r : Record) : Prop where
  belongs : Logging.Belongs r.logger
  level : r.level = Level.debug.number

section

variable {r : Record} {w : World} {charset : Text} {welcome : Welcome} {shuffler : Shuffler}
  {source : Source}

theorem Record.isDebug_debug {logger : String} (h : Logging.Belongs logger.toList) (message : Text) :
    (Record.debug logger message).IsDebug := ⟨h, rfl⟩

theorem Extraction.belongs_logger : Logging.Belongs Extraction.logger.toList :=
  .inr ⟨"alphabet".toList, by decide, rfl⟩

theorem Source.belongs_logger : Logging.Belongs Source.logger.toList :=
  .inr ⟨"source".toList, by decide, rfl⟩

theorem Source.isDebug_of_fileOpening {path : Text} (h : r ∈ (fileOpening w charset path).records) :
    r.IsDebug := by
  rw [List.mem_singleton.1 h]
  exact Record.isDebug_debug belongs_logger _

theorem Source.isDebug_of_urlOpening {url : Text} (h : r ∈ (urlOpening w charset url).records) :
    r.IsDebug := by
  rw [List.mem_singleton.1 h]
  exact Record.isDebug_debug belongs_logger _

theorem Source.isDebug_of_opening (h : r ∈ (source.opening w charset).records) : r.IsDebug := by
  cases source with
  | location t =>
    simp only [opening] at h
    split at h
    · cases h
    · exact isDebug_of_urlOpening h
    · exact isDebug_of_fileOpening h
  | path t => exact isDebug_of_fileOpening h
  | stream s =>
    simp only [opening] at h
    split at h
    · cases h
    · cases h

/-- An alphabet is extracted with one more record, if it is. -/
theorem Source.isDebug_of_extract (h : r ∈ (source.extract w charset welcome shuffler).records) :
    r.IsDebug := by
  unfold extract at h
  dsimp only at h
  split at h
  · exact isDebug_of_opening h
  · split at h
    · exact isDebug_of_opening h
    · rcases List.mem_append.1 h with h | h
      · exact isDebug_of_opening h
      · rw [List.mem_singleton.1 h]
        exact Record.isDebug_debug Extraction.belongs_logger _

theorem isDebug_of_construct {hasFallback : Bool}
    (h : r ∈ (construct w charset welcome shuffler hasFallback source).records) : r.IsDebug := by
  cases hasFallback with
  | false => cases h
  | true => exact Source.isDebug_of_extract h

end

/-! ## What is written for them -/

namespace Logging

variable {l : Logging} {r : Record} {rs : List Record} {environment given : Option Text}

/-- Are messages written for those who look for errors? -/
def TellsDebug (l : Logging) : Prop := limit l.level ≤ Level.debug.number

instance (l : Logging) : Decidable l.TellsDebug :=
  inferInstanceAs (Decidable (limit l.level ≤ Level.debug.number))

theorem write_of_setUp (h : setUp environment given = .ok l) (hr : r.IsDebug) :
    l.write r = if l.TellsDebug then line r else [] := by
  have hwrite := handled_of_passes (level_nonneg h) rfl (setUp_handlers h).1 r
  rw [hr.level] at hwrite
  unfold write
  dsimp only
  rw [hr.belongs.isInFamily, hr.level]
  exact hwrite

/-- **After a set-up all these messages are written, each as one line, or none is.** -/
theorem writeAll_of_setUp (h : setUp environment given = .ok l) (hrs : ∀ r ∈ rs, r.IsDebug) :
    l.writeAll rs = if l.TellsDebug then rs.flatMap line else [] := by
  have hwrite : l.writeAll rs = rs.flatMap fun r => if l.TellsDebug then line r else [] :=
    List.flatMap_congr fun r hr => write_of_setUp h (hrs r hr)
  rw [hwrite]
  split
  · rfl
  · exact List.flatMap_eq_nil_iff.2 fun _ _ => rfl

end Logging

/-! ## The command without its logging -/

namespace CommandLine

variable {s : Surroundings} {rs : List Record}

/-- What comes of the command: what is left in the sink, its records, what it tells besides on the
    standard error, and how it ends. -/
structure Outcome where
  sink : Sink
  records : List Record
  told : Text
  ending : Ending

/-- The run of a command with such an outcome, once its records have been logged. -/
def Outcome.logged (o : Outcome) (logging : Logging) : Run :=
  ⟨o.sink, logging.writeAll o.records ++ o.told, o.ending⟩

/-- Nothing but what is written for its records depends on the logging of a command, and they are for
    those who look for errors. -/
def OnlyLogs (command : Logging → Run) : Prop :=
  ∃ o : Outcome, (∀ r ∈ o.records, r.IsDebug) ∧ ∀ logging, command logging = o.logged logging

theorem onlyLogs_told (h : ∀ r ∈ rs, r.IsDebug) (sink : Sink) (told : Text) (ending : Ending) :
    OnlyLogs fun logging => ⟨sink, logging.writeAll rs ++ told, ending⟩ :=
  ⟨⟨sink, rs, told, ending⟩, h, fun _ => rfl⟩

theorem onlyLogs_untold (h : ∀ r ∈ rs, r.IsDebug) (sink : Sink) (ending : Ending) :
    OnlyLogs fun logging => ⟨sink, logging.writeAll rs, ending⟩ := by
  have htold := onlyLogs_told h sink [] ending
  simpa only [List.append_nil] using htold

theorem onlyLogs_printing (ending : Ending) (pieces : List Text) (sink : Sink) :
    OnlyLogs fun _ => printing sink ending pieces := by
  have hnone : ∀ r ∈ ([] : List Record), r.IsDebug := nofun
  induction pieces generalizing sink with
  | nil => exact onlyLogs_untold hnone sink ending
  | cons t pieces ih =>
    unfold printing
    cases sink.write t with
    | error u => exact onlyLogs_untold hnone sink (.escaped (.output u))
    | ok sink => exact ih sink

theorem onlyLogs_samplePrinting (s : Surroundings) (sink : Sink) (plan : SamplePlan) :
    OnlyLogs (samplePrinting s · sink plan) := by
  unfold samplePrinting
  dsimp only
  generalize hc : construct s.world dictionaryCharset plan.welcome (plan.shuffler s.common) true
    (.location plan.dictionary) = c
  have hrecords : ∀ r ∈ c.records, r.IsDebug := by
    rw [← hc]
    exact fun _ => isDebug_of_construct
  split
  · rename_i e _
    have htold := onlyLogs_told hrecords sink (e.message ++ ['\n']) (.exit 1)
    simpa only [List.append_assoc] using htold
  · exact onlyLogs_untold hrecords sink _
  · split
    · exact onlyLogs_untold hrecords sink _
    · exact onlyLogs_untold hrecords _ _

/-- **The command does not ask how much is told**, whatever its arguments are. -/
theorem onlyLogs_sample (s : Surroundings) (sink : Sink) (words : List Text) :
    OnlyLogs (sample s · sink words) := by
  rcases sample_cases s sink words with ⟨pieces, ending, -, h⟩ | ⟨plan, h⟩
  · rw [funext h]
    exact onlyLogs_printing ending pieces sink
  · rw [funext h]
    exact onlyLogs_samplePrinting s sink plan

/-! ## Two runs -/

/-- The switch for telling more. -/
def verboseWord : Text := "-v".toList

section

variable (hk : s.toolkit.IsLawful) {logging : Logging}
  (hsetUp : Logging.setUp s.level? none = .ok logging)

include hk hsetUp

theorem run_commandWord (sink : Sink) (rest : List Text) :
    run s sink (commandWord :: rest) = sample s logging sink rest := by
  rw [run, hsetUp]
  exact top_of_command (hk.command rest) rfl rfl rfl sink

/-- With the switch, it makes no difference which level the environment names. -/
theorem run_verboseWord (sink : Sink) (rest : List Text) : ∃ verbose,
    Logging.setUp none (some verboseLevel) = .ok verbose ∧ verbose.TellsDebug ∧
      run s sink (verboseWord :: commandWord :: rest) = sample s verbose sink rest := by
  have hread := hk.flag .verbose _ verboseWord _ List.mem_cons_self (by simp [Asked.ofCommand])
    (hk.command rest)
  refine ⟨⟨10, [10], false⟩, rfl, by decide, ?_⟩
  rw [run, hsetUp]
  exact top_of_command hread rfl rfl rfl sink

end

/-- **Telling more changes nothing else.**  Whatever the world, the random source and the toolkit, as
    long as it is lawful, and whatever the arguments of the command, in any number and order and
    valid or not: with the switch the same is left in the sink, and the program ends in the same way.  On the standard error, it adds a line for
    each record in front of what is told besides, unless the environment asks for these lines anyway.
    An unusable level in the environment ends both runs alike. -/
theorem run_verbose (s : Surroundings) (hk : s.toolkit.IsLawful) (sink : Sink) (rest : List Text) :
    let verbose := run s sink (verboseWord :: commandWord :: rest)
    let plain := run s sink (commandWord :: rest)
    verbose.sink = plain.sink ∧ verbose.ending = plain.ending ∧
      (∀ e, Logging.setUp s.level? none = .error e → verbose = plain) ∧
      ∀ logging, Logging.setUp s.level? none = .ok logging → ∃ (records : List Record) (told : Text),
        (∀ r ∈ records, r.IsDebug) ∧
        verbose.errors = records.flatMap Logging.line ++ told ∧
        plain.errors = if logging.TellsDebug then verbose.errors else told := by
  intro verbose plain
  cases hsetUp : Logging.setUp s.level? none with
  | error e =>
    have hsame : verbose = plain := by
      show run s sink _ = run s sink _
      unfold run
      rw [hsetUp]
    refine ⟨?_, ?_, fun _ _ => hsame, nofun⟩
    · rw [hsame]
    · rw [hsame]
  | ok logging =>
    obtain ⟨verboseLogging, hverboseSetUp, htells, hverbose⟩ := run_verboseWord hk hsetUp sink rest
    have hplain : plain = sample s logging sink rest := run_commandWord hk hsetUp sink rest
    -- both runs have the outcome of the command, which each of them logs in its own way
    obtain ⟨o, hrecords, hlogged⟩ := onlyLogs_sample s sink rest
    replace hverbose : verbose = o.logged verboseLogging := hverbose.trans (hlogged verboseLogging)
    replace hplain : plain = o.logged logging := hplain.trans (hlogged logging)
    have herrors : verbose.errors = o.records.flatMap Logging.line ++ o.told := by
      rw [hverbose, Outcome.logged, Logging.writeAll_of_setUp hverboseSetUp hrecords, if_pos htells]
    refine ⟨?_, ?_, nofun, ?_⟩
    · rw [hverbose, hplain]
      rfl
    · rw [hverbose, hplain]
      rfl
    · rintro _ ⟨⟩
      refine ⟨o.records, o.told, hrecords, herrors, ?_⟩
      rw [herrors, hplain, Outcome.logged, Logging.writeAll_of_setUp hsetUp hrecords]
      split
      · rfl
      · rfl

/-- A world without files, where no level is named. -/
def bareSurroundings : Surroundings := ⟨.ofFiles ⟨[], []⟩, .inOrder, none, plainToolkit⟩

/-- There is no dictionary in it, which ends both runs; opening it is told in one of them. -/
theorem run_verbose_bare :
    let verbose := run bareSurroundings (.plain []) [verboseWord, commandWord, dashes, ['d']]
    let plain := run bareSurroundings (.plain []) [commandWord, dashes, ['d']]
    bareSurroundings.toolkit.IsLawful ∧ verbose.sink = plain.sink ∧ verbose.ending = plain.ending ∧
      plain.ending = .exit 1 ∧
      verbose.errors =
        "namefactory.source - DEBUG - Opening dictionary file d\n".toList ++ plain.errors := by
  intro verbose plain
  obtain ⟨hsink, hending, -, -⟩ :=
    run_verbose bareSurroundings isLawful_plainToolkit (.plain []) [dashes, ['d']]
  exact ⟨isLawful_plainToolkit, hsink, hending, by decide +kernel, by decide +kernel⟩

end CommandLine

end FreshNames
