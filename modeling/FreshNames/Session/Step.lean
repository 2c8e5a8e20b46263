import FreshNames.Construction
import FreshNames.Logging
import FreshNames.Shelf

/-!
# Steps of a session

In a session things are made, bound to names and used: factories, streams and random sources.

* `Step` - what is done in one step;
* `Reply`, `StepError` - what a step answers, or why it fails;
* `View` - what can be seen of a thing.
-/

set_option autoImplicit false

namespace FreshNames

/-- A source, or the name of a stream or of a dictionary factory. -/
inductive SourceRef
  | given (s : Source)
  | bound (name : Text)

/-- A random source: the common one, one of its own, or the name of one. -/
inductive ShufflerRef
  | common
  | own (s : Shuffler)
  | bound (name : Text)

/-- How a dictionary factory is made. -/
structure DictionaryPlan where
  source : SourceRef
  fallback : Option Text
  welcome : Welcome
  shuffler : ShufflerRef
  charset : Text

/-- What is made. -/
inductive Plan
  | dictionary (p : DictionaryPlan)
  | simple (lc : LetterCase)
  | numeric
  | prefixing (inner pre : Text)
  | counting
  | stream (s : Stream)
  | shuffler (s : ShufflerRef)
  /-- Nothing new: another name for the thing that a name is bound to. -/
  | alias (name : Text)

/-- What is done with a thing. -/
inductive Action
  /-- The next name. -/
  | next
  /-- The next names. -/
  | names (count : Int)
  /-- The names start again. -/
  | reset
  /-- The cached name at a place. -/
  | name (index : Int)
  /-- The name that is made for a number. -/
  | newName (index : Int)
  /-- The next name is to be that of a number. -/
  | setIndex (index : Int)
  /-- The next names are to be over another alphabet. -/
  | setAlphabet (v : Value)
  /-- Nothing; the thing is looked at. -/
  | look
  /-- Whether another thing has the very same alphabet or cache. -/
  | shares (other : Text)

/-- One step. -/
inductive Step
  /-- Makes something and binds it to a name. -/
  | make (name : Text) (p : Plan)
  /-- Does something with what is bound to a name. -/
  | act (name : Text) (a : Action)
  /-- Sets up logging. -/
  | setUpLogging (level : Option Text)

/-- What a step answers. -/
inductive Reply
  | done
  | name (t : Text)
  | names (ts : List Text)
  | truth (b : Bool)
  | logging (l : Logging)

/-- Why a step fails. -/
inductive StepError
  /-- Nothing is bound to the name. -/
  | unbound (name : Text)
  /-- What is bound to the name is of another kind. -/
  | unsuitable (name : Text)
  /-- There is no name for a number. -/
  | name (e : NameProblem)
  /-- The value gives no alphabet. -/
  | alphabet (e : AlphabetError)
  /-- There is no dictionary factory. -/
  | construction (e : ConstructionError)
  /-- The level is unusable. -/
  | level (e : UnusableLevel)

/-- The wording of the error. -/
def StepError.message : StepError → Text
  | unbound t => t
  | unsuitable t => t
  | name e => e.message.toList
  | alphabet e => e.message.toList
  | construction e => e.message
  | level e => e.message.toList

/-- What can be seen of a thing. -/
inductive View
  | dictionary (index : Int) (letters : Text)
  | simple (index : Int) (cached : Nat)
  | numeric (index : Int)
  | prefixing (pre : Text)
  | counting (resets requests : Nat)
  | stream (isClosed : Bool)
  | shuffler
  deriving DecidableEq, Repr

/-- What can be seen of a factory, beside the caches of simple names. -/
def Factory.view (caches : NameCaches) : Factory → View
  | dictionary letters index _ => .dictionary index letters.alphabet.letters
  | simple lc index => .simple index (caches.get lc).size
  | numeric index => .numeric index
  | prefixing _ pre => .prefixing pre
  | counting resets requests => .counting resets requests

end FreshNames
