import FreshNames.Text.Unprintable

/-!
# Quoted text

Messages show a text between quotes, so that blanks and controls in it can be seen.  Single quotes
are the rule; a text that holds a single quote and no double quote stands between double quotes.
Inside, the backslash and the quote in use are escaped, tab, line feed and carriage return have
letters of their own, and any other unprintable character is written by its code point in two, four
or eight hexadecimal digits.

* `escaped` - one character inside quotes;
* `quoted` - a whole text.
-/

set_option autoImplicit false

namespace FreshNames.Text

/-- The lower-case hexadecimal digit of a number below sixteen. -/
def hexDigit (d : Nat) : Char :=
  if d < 10 then Char.ofNat (48 + d) else Char.ofNat (87 + d)

/-- The last `width` hexadecimal digits of a number, the most significant first. -/
def hexDigits : (width : Nat) → Nat → Text
  | 0, _ => []
  | width + 1, n => hexDigits width (n / 16) ++ [hexDigit (n % 16)]

/-- A character by its code point: two digits below 256, four below 65536, else eight. -/
def escapedCode (c : Char) : Text :=
  if c.toNat < 0x100 then '\\' :: 'x' :: hexDigits 2 c.toNat
  else if c.toNat < 0x10000 then '\\' :: 'u' :: hexDigits 4 c.toNat
  else '\\' :: 'U' :: hexDigits 8 c.toNat

/-- May the character be shown as it is? -/
def isPrintable (c : Char) : Bool :=
  !unprintables.contains c.toNat

/-- A character as it is written between the given quotes. -/
def escaped (quote c : Char) : Text :=
  if c = quote || c = '\\' then ['\\', c]
  else if c = '\t' then ['\\', 't']
  else if c = '\n' then ['\\', 'n']
  else if c = '\r' then ['\\', 'r']
  else if isPrintable c then [c]
  else escapedCode c

/-- The quote for a text: double only if the text holds single quotes and no double ones. -/
def quoteFor (t : Text) : Char :=
  if t.contains '\'' && !t.contains '"' then '"' else '\''

/-- A text between quotes. -/
def quoted (t : Text) : Text :=
  let quote := quoteFor t
  quote :: (t.flatMap (escaped quote) ++ [quote])

theorem hexDigits_length (width n : Nat) : (hexDigits width n).length = width := by
  induction width generalizing n with
  | zero => rfl
  | succ width ih => simp [hexDigits, ih]

end FreshNames.Text
