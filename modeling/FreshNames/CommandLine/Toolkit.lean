import FreshNames.Charset.Decoder
import FreshNames.Text.Integer

/-!
# The toolkit for command lines

The program has a command `sample`, and both have switches.  What the words of a command line say is
found out by a toolkit, which also tells the user what is wrong with them, and how the program is used.
How it does this is not described here.

* `Flag`, `Setting` - the switches, their names, and the numbers that they take;
* `Toolkit.read` - what the words say;
* `Toolkit.IsLawful` - what the program may rely on.
-/

set_option autoImplicit false

namespace FreshNames

/-- The program itself, and its command. -/
inductive Application
  | top
  | sample
  deriving DecidableEq, Repr

/-! ## Switches -/

/-- The switches that are given or not. -/
inductive Flag
  | verbose
  | anyCharacters
  | alphabet
  deriving DecidableEq, Repr

namespace Flag

/-- Whose switch it is. -/
def owner : Flag → Application
  | verbose => .top
  | anyCharacters | alphabet => .sample

/-- How it is written. -/
def names : Flag → List Text
  | verbose => ["-v".toList, "--verbose".toList]
  | anyCharacters => ["--any-characters".toList]
  | alphabet => ["--alphabet".toList]

end Flag

/-- The switches of the command that come with a number. -/
inductive Setting
  | count
  | seed
  deriving DecidableEq, Repr

namespace Setting

/-- How it is written. -/
def names : Setting → List Text
  | count => ["-n".toList, "--count".toList]
  | seed => ["--seed".toList]

/-- The greatest number of names. -/
def greatestCount : Int := 9223372036854775807

/-- The numbers that it takes. -/
def takes : Setting → Int → Bool
  | count, n => 0 ≤ n && n ≤ greatestCount
  | seed, _ => true

end Setting

/-- The word for the command. -/
def commandWord : Text := "sample".toList

/-- The word behind which there are no more switches. -/
def dashes : Text := "--".toList

/-! ## Reading -/

/-- What is asked for: flags, settings with their numbers, other words, and the words for a command. -/
structure Asked where
  flags : List Flag
  numbers : List (Setting × Int)
  words : List Text
  command : Option (List Text)
  deriving DecidableEq, Repr

namespace Asked

/-- Nothing but words is asked for. -/
def ofWords (words : List Text) : Asked := ⟨[], [], words, none⟩

/-- Nothing but the command is asked for. -/
def ofCommand (words : List Text) : Asked := ⟨[], [], [], some words⟩

end Asked

/-- What the toolkit makes of the words of a command line. -/
inductive Reading
  /-- It has told the user something, and the program ends. -/
  | told (pieces : List Text) (code : Nat)
  /-- It has failed. -/
  | failed (pieces : List Text) (e : OtherError)
  /-- The words ask for something. -/
  | asked (a : Asked)
  deriving DecidableEq, Repr

/-- A toolkit: how it says what the program is for, and how it reads words. -/
structure Toolkit where
  help : List Text
  read : Application → List Text → Reading

/-- The forms of command lines that every toolkit has to know.  The word of the command hands over all
    words behind it; a switch in front of other words is added to what they ask for, if it is not
    given yet; and what follows two dashes is no switch. -/
structure Toolkit.IsLawful (k : Toolkit) : Prop where
  command : ∀ words, k.read .top (commandWord :: words) = .asked (.ofCommand words)
  flag : ∀ (f : Flag) (a : Asked) (w : Text) (words : List Text), w ∈ f.names → f ∉ a.flags →
    k.read f.owner words = .asked a →
    k.read f.owner (w :: words) = .asked { a with flags := f :: a.flags }
  setting : ∀ (s : Setting) (a : Asked) (w t : Text) (n : Int) (words : List Text), w ∈ s.names →
    a.numbers.lookup s = none → Text.readInteger t = .ok n → s.takes n = true →
    k.read .sample words = .asked a →
    k.read .sample (w :: t :: words) = .asked { a with numbers := (s, n) :: a.numbers }
  dashes : ∀ t, k.read .sample [FreshNames.dashes, t] = .asked (.ofWords [t])

end FreshNames
