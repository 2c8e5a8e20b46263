import FreshNames.NumberLimit
import FreshNames.Text.Blank

/-!
# Reading whole numbers

A whole number may have blanks around it, one sign, decimal digits of any script, and single low
lines between digits.  More than 4300 digits are refused.

* `isNumberBlank` - the characters that may stand around a number;
* `digit?` - the value of a decimal digit of any script;
* `readInteger` - the number that a text writes, or why it writes none.
-/

set_option autoImplicit false

namespace FreshNames.Text

/-- May the character stand around a number?  The four separators `U+001C` to `U+001F` may not. -/
def isNumberBlank (c : Char) : Bool := isBlank c && !(0x1c ≤ c.toNat && c.toNat ≤ 0x1f)

/-- The digit zero of every script that has decimal digits; the other nine follow it. -/
def zeros : List Nat := [
  48, 1632, 1776, 1984, 2406, 2534, 2662, 2790, 2918, 3046, 3174, 3302, 3430, 3558, 3664, 3792,
  3872, 4160, 4240, 6112, 6160, 6470, 6608, 6784, 6800, 6992, 7088, 7232, 7248, 42528, 43216,
  43264, 43472, 43504, 43600, 44016, 65296, 66720, 68912, 69734, 69872, 69942, 70096, 70384,
  70736, 70864, 71248, 71360, 71472, 71904, 72016, 72784, 73040, 73120, 92768, 92864, 93008,
  120782, 120792, 120802, 120812, 120822, 123200, 123632, 125264, 130032]

/-- The value of a decimal digit. -/
def digit? (c : Char) : Option Nat :=
  (zeros.find? fun z => z ≤ c.toNat && c.toNat < z + 10).map (c.toNat - ·)

/-- Why a text is no whole number. -/
inductive IntegerError
  /-- It does not have the form of a number. -/
  | malformed (t : Text)
  /-- It has more digits than are read. -/
  | tooLong (digits : Nat)
  deriving DecidableEq, Repr

/-- The digits at the head of a text, low lines passed over: how many there are, their value, and
    the text after them; `none` if a low line does not stand between two digits. -/
def digitRun : (count value : Nat) → (afterDigit : Bool) → Text → Option (Nat × Nat × Text)
  | count, value, afterDigit, [] => if afterDigit then some (count, value, []) else none
  | count, value, afterDigit, c :: rest =>
    match digit? c with
    | some d => digitRun (count + 1) (value * 10 + d) true rest
    | none =>
      if c = '_' then (if afterDigit then digitRun count value false rest else none)
      else if afterDigit then some (count, value, c :: rest) else none

/-- The whole number that a text writes. -/
def readInteger (t : Text) : Except IntegerError Int :=
  let body := dropAround isNumberBlank t
  let (negative, unsigned) :=
    match body with
    | '-' :: rest => (true, rest)
    | '+' :: rest => (false, rest)
    | rest => (false, rest)
  match digitRun 0 0 false unsigned with
  | none => .error (.malformed t)
  | some (count, value, rest) =>
    if digitLimit < count then .error (.tooLong count)
    else if rest.isEmpty then .ok (if negative then -(value : Int) else value)
    else .error (.malformed t)

end FreshNames.Text
