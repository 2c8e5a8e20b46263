import FreshNames.NumberLimit
import FreshNames.Numeral
import FreshNames.Value

/-!
# Alphabets and the words over them

An alphabet is an ordered sequence of distinct characters, at least one.  Its characters are the
digits of a bijective numeration, so that the words over it, the empty one apart, are numbered
`0, 1, 2, …`.

* `Alphabet.ofValue` - the alphabet that a loosely typed value gives, or what is wrong with it;
* `Alphabet.word` - the word with a given number; `Alphabet.encode` refuses negative numbers;
* `Alphabet.latin` - the letters a to z;
* `Alphabet.word_ne_nil` - no number has the empty word.
-/

set_option autoImplicit false

namespace FreshNames

/-- Distinct characters in a fixed order, at least one. -/
structure Alphabet where
  letters : List Char
  nonempty : letters ≠ []
  distinct : letters.Nodup
  deriving DecidableEq

/-- Why a value gives no alphabet, in the order in which this is found out. -/
inductive AlphabetError
  /-- The value cannot be gone through. -/
  | notIterable (typeName : String)
  /-- There is no item. -/
  | empty
  /-- An item cannot be kept in a set. -/
  | unhashable (typeName : String)
  /-- Two items are equal. -/
  | duplicates
  /-- An item is something else than one character. -/
  | notSingle
  deriving DecidableEq, Repr

namespace AlphabetError

/-- The wording of the error. -/
def message : AlphabetError → String
  | notIterable typeName => s!"'{typeName}' object is not iterable"
  | empty => "an alphabet needs at least one character"
  | unhashable typeName => s!"unhashable type: '{typeName}'"
  | duplicates => "an alphabet cannot contain duplicates"
  | notSingle => "an alphabet must consist of single characters"

end AlphabetError

namespace Alphabet

/-! ## Making an alphabet -/

/-- The character that an item is, if it is a single one. -/
def single? : Value → Option Char
  | .text [c] => some c
  | _ => none

/-- Is some item equal to a later one? -/
def hasDuplicates : List Value → Bool
  | [] => false
  | v :: rest => rest.any v.same || hasDuplicates rest

/-- The alphabet with these characters, if they are distinct and not none. -/
def ofLetters? (letters : List Char) : Option Alphabet :=
  if h : letters ≠ [] ∧ letters.Nodup then some ⟨letters, h.1, h.2⟩ else none

/-- The alphabet that a value gives.  What is wrong is looked for in a fixed order: a value that
    cannot be gone through, no items, an item that fits in no set, equal items, an item that is not
    a single character. -/
def ofValue (v : Value) : Except AlphabetError Alphabet :=
  match v.items? with
  | none => .error (.notIterable v.typeName)
  | some items =>
    if items.isEmpty then .error .empty
    else match items.find? (!·.isHashable) with
      | some item => .error (.unhashable item.typeName)
      | none =>
        if hasDuplicates items then .error .duplicates
        else match items.mapM single? with
          | none => .error .notSingle
          | some letters =>
            match ofLetters? letters with
            | none => .error .duplicates
            | some a => .ok a

/-- The letters a to z, in order. -/
def latin : Alphabet where
  letters := "abcdefghijklmnopqrstuvwxyz".toList
  nonempty := by decide
  distinct := by decide

/-! ## Characters -/

/-- The number of characters. -/
def size (a : Alphabet) : Nat := a.letters.length

theorem size_pos (a : Alphabet) : 0 < a.size :=
  List.length_pos_iff.2 a.nonempty

/-- The character at a place. -/
def letter (a : Alphabet) (place : Fin a.size) : Char := a.letters.get place

/-! ## Words -/

/-- The word with number `n`: the digits of `n + 1` as characters, so that no word is empty. -/
def word (a : Alphabet) (n : Nat) : Text :=
  (Numeral.digits a.size a.size_pos (n + 1)).map a.letter

/-- A name was asked for by a negative number. -/
structure NegativeIndex where
  index : Int
  deriving DecidableEq, Repr

/-- The wording of the error, which shows the number if it can be written. -/
def NegativeIndex.message (e : NegativeIndex) : String :=
  if isWritable e.index then s!"cannot encode negative index {e.index}" else unwritableMessage

/-- The word with a given number, unless the number is negative. -/
def encode (a : Alphabet) (index : Int) : Except NegativeIndex Text :=
  match index with
  | .ofNat n => .ok (a.word n)
  | .negSucc _ => .error ⟨index⟩

theorem word_ne_nil (a : Alphabet) (n : Nat) : a.word n ≠ [] := by
  simp [word, Numeral.digits_succ]

theorem encode_natCast (a : Alphabet) (n : Nat) : a.encode n = .ok (a.word n) := rfl

theorem letter_mem (a : Alphabet) (place : Fin a.size) : a.letter place ∈ a.letters :=
  List.get_mem a.letters place

theorem mem_letters_of_mem_word {a : Alphabet} {n : Nat} {c : Char} (h : c ∈ a.word n) :
    c ∈ a.letters := by
  obtain ⟨place, -, rfl⟩ := List.mem_map.1 h
  exact a.letter_mem place

end Alphabet

end FreshNames
