import FreshNames.Alphabet
import FreshNames.Text.Quoted

/-!
# Looking into an alphabet

Places are counted from the front, or from the back with negative numbers.

* `position?` - the place in a sequence that a number means;
* `Alphabet.get` - the character at a place;
* `Alphabet.display` - the text that shows an alphabet.
-/

set_option autoImplicit false

namespace FreshNames

/-- Why a place cannot be looked up. -/
inductive PlaceError
  /-- No item has this place. -/
  | outOfRange
  /-- The number does not fit into a machine word. -/
  | tooLarge
  deriving DecidableEq, Repr

/-- The place in a sequence of the given size that a number means, negative ones from the end. -/
def position? (size : Nat) (n : Int) : Except PlaceError Nat :=
  if !fitsWord n then .error .tooLarge
  else
    let fromFront := if n < 0 then n + size else n
    if 0 ≤ fromFront ∧ fromFront < size then .ok fromFront.toNat else .error .outOfRange

namespace Alphabet

/-- The character at a place, negative places from the end. -/
def get (a : Alphabet) (n : Int) : Except PlaceError Char :=
  match position? a.size n with
  | .error e => .error e
  | .ok p => match a.letters[p]? with
    | some c => .ok c
    | none => .error .outOfRange

/-- The text that shows an alphabet in a message. -/
def display (a : Alphabet) : Text :=
  "Alphabet(".toList ++ Text.quoted a.letters ++ [')']

end Alphabet

end FreshNames
