import FreshNames.Text.Identifier

/-!
# Eligible characters

A character may occur in generated names if it is no line break and, unless every character is
welcome, may begin an identifier.  The question is asked of texts: one that occurs within the
sequence line feed, carriage return is refused, and so is one that is no identifier.

* `isEligible`, and `isEligibleChar` for a single character;
* `eligibleRuns` - the eligible code points of a range, as runs;
* `isEligibleChar_iff` - the rule for single characters.
-/

set_option autoImplicit false

namespace FreshNames

open Text

/-- Which characters are welcome in names. -/
inductive Welcome
  /-- Only characters that may occur in identifiers. -/
  | identifiers
  /-- Every character that does not break lines. -/
  | anything
  deriving DecidableEq, Repr

/-- The line breaks, in the order in which they are looked through. -/
def lineBreaks : Text := ['\n', '\r']

/-- Does one text occur within another without gaps? -/
def occursIn (t : Text) : Text → Bool
  | [] => t.isEmpty
  | c :: rest => t.isPrefixOf (c :: rest) || occursIn t rest

/-- May this text be a character of names? -/
def isEligible (welcome : Welcome) (t : Text) : Bool :=
  !occursIn t lineBreaks && (welcome == .anything || isIdentifier t)

/-- May this character occur in names? -/
def isEligibleChar (welcome : Welcome) (c : Char) : Bool := isEligible welcome [c]

theorem occursIn_lineBreaks_singleton (c : Char) :
    occursIn [c] lineBreaks = (c == '\n' || c == '\r') := by
  simp [occursIn, lineBreaks, List.isPrefixOf]

theorem isEligibleChar_iff {welcome : Welcome} {c : Char} :
    isEligibleChar welcome c = true ↔
      (c ≠ '\n' ∧ c ≠ '\r') ∧ (welcome = .anything ∨ isIdentifierStart c = true) := by
  simp [isEligibleChar, isEligible, occursIn_lineBreaks_singleton, isIdentifier_singleton]

/-! ## Ranges of code points -/

/-- Is this the code point of an eligible character? -/
def isEligibleCode (welcome : Welcome) (code : Nat) : Bool :=
  if h : code.isValidChar then isEligibleChar welcome (Char.ofNatAux code h) else false

/-- Adds a code point behind the runs, the last of which is given first. -/
def addToRuns (code : Nat) : List (Nat × Nat) → List (Nat × Nat)
  | (first, last) :: runs =>
    if last + 1 = code then (first, code) :: runs else (code, code) :: (first, last) :: runs
  | [] => [(code, code)]

/-- The eligible code points among `count` of them behind the runs so far, the last run first. -/
def runsFrom (welcome : Welcome) : (count code : Nat) → List (Nat × Nat) → List (Nat × Nat)
  | 0, _, runs => runs
  | count + 1, code, runs =>
    runsFrom welcome count (code + 1)
      (if isEligibleCode welcome code then addToRuns code runs else runs)

/-- The eligible code points from `first` to `last`, as inclusive runs in order. -/
def eligibleRuns (welcome : Welcome) (first last : Nat) : List (Nat × Nat) :=
  (runsFrom welcome (last + 1 - first) first []).reverse

/-- The number of code points in runs. -/
def runsSize (runs : List (Nat × Nat)) : Nat := runs.foldr (fun r size => r.2 + 1 - r.1 + size) 0

end FreshNames
