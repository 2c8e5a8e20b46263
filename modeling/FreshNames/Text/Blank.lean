import FreshNames.Text.CodeTable

/-!
# Blanks

The characters that count as blanks, and texts without the blanks at their ends.

* `dropAround` drops the characters of one kind at both ends; `strip` drops the blanks;
* `dropAround_of_none` - a text without such characters stays as it is.
-/

set_option autoImplicit false

namespace FreshNames.Text

/-- The blank characters of Unicode, with the four separators `U+001C` to `U+001F`. -/
def blanks : CodeTable := ⟨#[
  (9, 13), (28, 32), (133, 133), (160, 160), (5760, 5760), (8192, 8202), (8232, 8233),
  (8239, 8239), (8287, 8287), (12288, 12288)]⟩

/-- Is the character a blank? -/
def isBlank (c : Char) : Bool := blanks.contains c.toNat

/-- The text without the characters at its ends for which `p` holds. -/
def dropAround (p : Char → Bool) (t : Text) : Text :=
  ((t.dropWhile p).reverse.dropWhile p).reverse

/-- The text without the blanks at its ends. -/
def strip (t : Text) : Text := dropAround isBlank t

theorem dropWhile_of_none {p : Char → Bool} {t : Text} (h : ∀ c ∈ t, p c = false) :
    t.dropWhile p = t := by
  cases t with
  | nil => rfl
  | cons c rest => simp [h c (by simp)]

theorem dropAround_of_none {p : Char → Bool} {t : Text} (h : ∀ c ∈ t, p c = false) :
    dropAround p t = t := by
  rw [dropAround, dropWhile_of_none h, dropWhile_of_none (by simpa using h), List.reverse_reverse]

end FreshNames.Text
