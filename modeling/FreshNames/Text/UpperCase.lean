import FreshNames.Text.CodeTable

/-!
# Upper case, as far as ASCII names can tell

A text is compared with upper-case ASCII names after its characters are put into upper case.  Only
the characters whose full upper-case form lies within ASCII can take part in a match: the ASCII
letters, the dotless i, the long s, the sharp s and the Latin ligatures.  Every other character of
Unicode has a form with a character outside ASCII, so it is left as it is, and never matches.
-/

set_option autoImplicit false

namespace FreshNames.Text

/-- The characters beyond ASCII whose upper-case form is within ASCII. -/
def upperForms : List (Char × Text) := [
  ('ß', ['S', 'S']), ('ı', ['I']), ('ſ', ['S']), ('ﬀ', ['F', 'F']), ('ﬁ', ['F', 'I']),
  ('ﬂ', ['F', 'L']), ('ﬃ', ['F', 'F', 'I']), ('ﬄ', ['F', 'F', 'L']), ('ﬅ', ['S', 'T']),
  ('ﬆ', ['S', 'T'])]

/-- The upper-case form of one character, if that form is within ASCII. -/
def upperChar (c : Char) : Text :=
  if c.toNat < 128 then [c.toUpper] else (upperForms.lookup c).getD [c]

/-- The text in upper case. -/
def upper (t : Text) : Text := t.flatMap upperChar

/-- The text with its ASCII letters in lower case. -/
def lowerAscii (t : Text) : Text := t.map Char.toLower

theorem upper_append (s t : Text) : upper (s ++ t) = upper s ++ upper t := by
  simp [upper]

end FreshNames.Text
