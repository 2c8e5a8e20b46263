import FreshNames.Text.IdentifierTable

/-!
# Identifiers

An identifier begins with a start character and goes on with start characters and marks
(the default identifiers of Unicode, with the low line as one more start character).

* `isIdentifierStart`, `isIdentifierPart`, `isIdentifier`;
* `isIdentifierPart_of_isIdentifierStart` - whatever may begin an identifier may also go on with it;
* `isIdentifier_of_all_starts` - a text of start characters alone, not empty, is an identifier.
-/

set_option autoImplicit false

namespace FreshNames.Text

/-- May an identifier begin with this character? -/
def isIdentifierStart (c : Char) : Bool :=
  c == '_' || identifierStarts.contains c.toNat

/-- May this character stand inside an identifier, after the first place? -/
def isIdentifierPart (c : Char) : Bool :=
  isIdentifierStart c || identifierMarks.contains c.toNat

/-- Is the whole text one identifier? -/
def isIdentifier : Text → Bool
  | [] => false
  | c :: rest => isIdentifierStart c && rest.all isIdentifierPart

theorem isIdentifierPart_of_isIdentifierStart {c : Char} (h : isIdentifierStart c = true) :
    isIdentifierPart c = true := by
  simp [isIdentifierPart, h]

theorem isIdentifier_singleton (c : Char) : isIdentifier [c] = isIdentifierStart c := by
  simp [isIdentifier]

theorem isIdentifier_of_all_starts {t : Text} (ne : t ≠ [])
    (h : ∀ c ∈ t, isIdentifierStart c = true) : isIdentifier t = true := by
  cases t with
  | nil => exact absurd rfl ne
  | cons c rest =>
    simp only [isIdentifier, Bool.and_eq_true, List.all_eq_true]
    exact ⟨h c (by simp), fun d hd => isIdentifierPart_of_isIdentifierStart (h d (by simp [hd]))⟩

end FreshNames.Text
