import FreshNames.CommandLine.Toolkit
import FreshNames.Construction
import FreshNames.Logging
import FreshNames.Output
import FreshNames.Shelf

/-!
# The command line

The program prints the first names, or the alphabet, of a dictionary.  What it writes goes to a sink
and to the standard error; it ends with an exit code, or with an error that nobody has dealt with.

* `CommandLine.run` - what the program does with its arguments;
* `CommandLine.sample` - the command that prints names;
* `CommandLine.sampleLines` - the lines that the command prints for an extraction.
-/

set_option autoImplicit false

namespace FreshNames

/-- An error that ends the program. -/
inductive Escape
  /-- The environment names an unusable level. -/
  | level (e : UnusableLevel)
  /-- There is no factory, for a reason other than that the dictionary cannot be read. -/
  | construction (e : ConstructionError)
  /-- There is no name for a number. -/
  | name (e : NameProblem)
  /-- The standard output has no bytes for a text. -/
  | output (u : Charset.Unencodable)
  /-- The toolkit fails. -/
  | toolkit (e : OtherError)
  /-- The toolkit hands the command another number of words than one. -/
  | miscalled (words : Nat)
  deriving DecidableEq, Repr

/-- What is said of a command that is handed a number of words. -/
def miscallMessage (words : Nat) : String :=
  if words = 0 then "Sampler.main() missing 1 required positional argument: 'DICTIONARY'"
  else s!"Sampler.main() takes 2 positional arguments but {words + 1} were given"

/-- The wording of the error. -/
def Escape.message : Escape → Text
  | level e => e.message.toList
  | construction e => e.message
  | name e => e.message.toList
  | output u => u.message.toList
  | toolkit e => e.message
  | miscalled words => (miscallMessage words).toList

/-- How the program ends. -/
inductive Ending
  | exit (code : Nat)
  | escaped (e : Escape)
  deriving DecidableEq, Repr

/-- What a run of the program leaves behind. -/
structure Run where
  sink : Sink
  errors : Text
  ending : Ending

/-- What the program finds when it starts: the world, the common random source, the level that the
    environment names, and the toolkit. -/
structure Surroundings where
  world : World
  common : Shuffler
  level? : Option Text
  toolkit : Toolkit

namespace CommandLine

/-! ## Printing -/

/-- Prints texts one after the other as the last thing before the end. -/
def printing (sink : Sink) (ending : Ending) : List Text → Run
  | [] => ⟨sink, [], ending⟩
  | t :: rest =>
    match sink.write t with
    | .error u => ⟨sink, [], .escaped (.output u)⟩
    | .ok sink => printing sink ending rest

/-! ## The command -/

/-- What the command is to do. -/
structure SamplePlan where
  dictionary : Text
  count : Nat
  seed : Option Int
  welcome : Welcome
  showsAlphabet : Bool

/-- The number of names that are printed unless another one is given. -/
def standardCount : Nat := 50

/-- What the command is asked to do.  Exactly one word is the dictionary; any other number is an
    error. -/
def SamplePlan.ofAsked (a : Asked) : Except Nat SamplePlan :=
  match a.words with
  | [dictionary] =>
    .ok {
      dictionary
      count := ((a.numbers.lookup .count).map Int.toNat).getD standardCount
      seed := a.numbers.lookup .seed
      welcome := if a.flags.contains .anyCharacters then .anything else .identifiers
      showsAlphabet := a.flags.contains .alphabet }
  | words => .error words.length

/-- A name as it is printed. -/
def bracketed (name : Text) : Text := '[' :: (name ++ [']'])

/-- The factory of the command alone on a shelf, behind it the simple factory it falls back on. -/
def sampleShelf (a : Alphabet) : Shelf :=
  (Shelf.empty.add (.simple .mixed 0)).add (.dictionary ⟨a, 0⟩ 0 0)

/-- The place of the factory of the command. -/
def samplePlace : Nat := 1

/-- The lines that the command prints. -/
def sampleLines (plan : SamplePlan) (a : Alphabet) : Except NameProblem (List Text) :=
  if plan.showsAlphabet then .ok [a.letters]
  else
    match (sampleShelf a).names samplePlace plan.count with
    | (.error e, _) => .error e
    | (.ok names, _) => .ok (names.map bracketed)

/-- The random source of the command. -/
def SamplePlan.shuffler (plan : SamplePlan) (common : Shuffler) : Shuffler :=
  match plan.seed with
  | some seed => .twister (.ofSeed seed)
  | none => common

/-- The character set of dictionaries. -/
def dictionaryCharset : Text := "utf-8".toList

/-- Prints names or the alphabet of a dictionary.  A dictionary that cannot be read is told on the
    standard error; any other error ends the program. -/
def samplePrinting (s : Surroundings) (logging : Logging) (sink : Sink) (plan : SamplePlan) : Run :=
  let c := construct s.world dictionaryCharset plan.welcome (plan.shuffler s.common) true
    (.location plan.dictionary)
  let errors := logging.writeAll c.records
  match c.result with
  | .error (.source (.dictionary e)) => ⟨sink, errors ++ e.message ++ ['\n'], .exit 1⟩
  | .error e => ⟨sink, errors, .escaped (.construction e)⟩
  | .ok extraction =>
    match sampleLines plan extraction.alphabet with
    | .error e => ⟨sink, errors, .escaped (.name e)⟩
    | .ok ls => ⟨sink.writeLines ls, errors, .exit 0⟩

/-- The command with its own arguments. -/
def sample (s : Surroundings) (logging : Logging) (sink : Sink) (words : List Text) : Run :=
  match s.toolkit.read .sample words with
  | .told pieces code => printing sink (.exit code) pieces
  | .failed pieces e => printing sink (.escaped (.toolkit e)) pieces
  | .asked a =>
    match SamplePlan.ofAsked a with
    | .error n => printing sink (.escaped (.miscalled n)) []
    | .ok plan => samplePrinting s logging sink plan

/-- The command prints what the toolkit tells and is done, or does what is planned.  Which of the two,
    its arguments decide alone. -/
theorem sample_cases (s : Surroundings) (sink : Sink) (words : List Text) :
    (∃ pieces ending, (∀ e, ending ≠ .escaped (.level e)) ∧
        ∀ logging, sample s logging sink words = printing sink ending pieces) ∨
      ∃ plan, ∀ logging, sample s logging sink words = samplePrinting s logging sink plan := by
  unfold sample
  split
  · exact .inl ⟨_, .exit _, nofun, fun _ => rfl⟩
  · exact .inl ⟨_, .escaped (.toolkit _), nofun, fun _ => rfl⟩
  · split
    · exact .inl ⟨_, .escaped (.miscalled _), nofun, fun _ => rfl⟩
    · exact .inr ⟨_, fun _ => rfl⟩

/-! ## The program -/

/-- The level of a program that tells what it does. -/
def verboseLevel : Text := "DEBUG".toList

/-- The logging after the switches of the program. -/
def switchedLogging (a : Asked) (logging : Logging) : Except UnusableLevel Logging :=
  if a.flags.contains .verbose then Logging.setUp none (some verboseLevel) else .ok logging

/-- The switch for telling more names a level that can be used. -/
theorem exists_switchedLogging (a : Asked) (logging : Logging) :
    ∃ logging', switchedLogging a logging = .ok logging' := by
  unfold switchedLogging
  split
  · exact ⟨_, rfl⟩
  · exact ⟨_, rfl⟩

/-- The program with its arguments, once logging is set up. -/
def top (s : Surroundings) (logging : Logging) (sink : Sink) (words : List Text) : Run :=
  match s.toolkit.read .top words with
  | .told pieces code => printing sink (.exit code) pieces
  | .failed pieces e => printing sink (.escaped (.toolkit e)) pieces
  | .asked a =>
    match switchedLogging a logging with
    | .error e => ⟨sink, [], .escaped (.level e)⟩
    | .ok logging =>
      match a.words, a.command with
      | word :: _, _ => printing sink (.exit 1) ["Unknown command ".toList ++ word ++ ['\n']]
      | [], none => printing sink (.exit 1) s.toolkit.help
      | [], some words => sample s logging sink words

/-- A run of the program.  Logging is set up before the arguments are looked at. -/
def run (s : Surroundings) (sink : Sink) (words : List Text) : Run :=
  match Logging.setUp s.level? none with
  | .error e => ⟨sink, [], .escaped (.level e)⟩
  | .ok logging => top s logging sink words

end CommandLine

end FreshNames
