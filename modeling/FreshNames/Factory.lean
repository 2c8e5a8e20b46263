import FreshNames.Logging.Record
import FreshNames.NameCache

/-!
# Factories

A factory gives out names, one after the other, and starts again when it is reset.  A dictionary
factory counts through the words over its alphabet and keeps a fallback, which is reset along with
it; a simple one counts through cached names, a numeric one through the numbers from one on, a
counting one says how often it was asked, and a prefixing one puts a prefix before the names of
another factory.

* `Factory` - a factory, where other factories are given by their places on a shelf;
* `Factory.rewound` - what a reset does to one factory by itself;
* `Factory.draw` - what a factory that has names of its own gives out.
-/

set_option autoImplicit false

namespace FreshNames

/-- An alphabet with a key: factories with the same key have the very same alphabet. -/
structure SharedAlphabet where
  alphabet : Alphabet
  key : Nat

/-- A factory.  Other factories are given by their places on the shelf. -/
inductive Factory
  | dictionary (letters : SharedAlphabet) (index : Int) (fallback : Nat)
  | simple (lc : LetterCase) (index : Int)
  | numeric (index : Int)
  | prefixing (inner : Nat) (pre : Text)
  | counting (resets requests : Nat)

namespace Factory

/-- The factory that is reset along with this one. -/
def delegate? : Factory → Option Nat
  | dictionary _ _ fallback => some fallback
  | prefixing inner _ => some inner
  | _ => none

/-- The logger of dictionary factories. -/
def logger : String := "namefactory.dictionary"

/-- What is logged when the factory is reset. -/
def resetRecords : Factory → List Record
  | dictionary _ index _ =>
    [.debug logger s!"Resetting dictionary name factory at index {index}".toList]
  | _ => []

/-- The factory after a reset. -/
def rewound : Factory → Factory
  | dictionary letters _ fallback => dictionary letters 0 fallback
  | simple lc _ => simple lc 0
  | numeric _ => numeric 0
  | prefixing inner pre => prefixing inner pre
  | counting resets requests => counting (resets + 1) requests

/-- The factory with another index, if it has one. -/
def withIndex (index : Int) : Factory → Factory
  | dictionary letters _ fallback => dictionary letters index fallback
  | simple lc _ => simple lc index
  | numeric _ => numeric index
  | f => f

/-- The factory with another alphabet, if it has one. -/
def withLetters (letters : SharedAlphabet) : Factory → Factory
  | dictionary _ index fallback => dictionary letters index fallback
  | f => f

/-- A number as a name, if it can be written. -/
def numberName (n : Int) : Except NameProblem Text :=
  if isWritable n then .ok (toString n).toList else .error .unwritable

/-- A name of the factory's own, the factory afterwards and the caches of simple names.  A factory
    that has no name for its index stays there, but a numeric one has gone on to the number that it
    cannot write.  A prefixing factory has no names of its own, and gives nothing. -/
def draw (caches : NameCaches) : Factory → Except NameProblem Text × Factory × NameCaches
  | dictionary letters index fallback =>
    match letters.alphabet.encode index with
    | .error e => (.error (.negative e), dictionary letters index fallback, caches)
    | .ok t => (.ok t, dictionary letters (index + 1) fallback, caches)
  | simple lc index =>
    match caches.nameAt lc index with
    | .error e => (.error e, simple lc index, caches)
    | .ok (t, caches) => (.ok t, simple lc (index + 1), caches)
  | numeric index => (numberName (index + 1), numeric (index + 1), caches)
  | prefixing inner pre => (.ok [], prefixing inner pre, caches)
  | counting resets requests =>
    (.ok s!"fallback{requests + 1}".toList, counting resets (requests + 1), caches)

theorem delegate?_rewound (f : Factory) : f.rewound.delegate? = f.delegate? := by
  cases f <;> rfl

end Factory

end FreshNames
